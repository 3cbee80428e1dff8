import IncludeTidy.Ruleset.Basic

namespace IncludeTidy

def Umbrella.builtinDecls : List String :=
  ["class JSAtom;", "struct JSContext;", "struct JSClass;", "class JSFunction;", "class JSFreeOp;",
   "class JSObject;", "struct JSRuntime;", "class JSScript;", "class JSString;",
   "namespace js \x7b class TempAllocPolicy; \x7d", "namespace JS \x7b struct PropertyKey; \x7d",
   "namespace JS \x7b class Symbol; \x7d", "namespace JS \x7b class BigInt; \x7d",
   "namespace JS \x7b class Value; \x7d", "namespace JS \x7b class Compartment; \x7d",
   "namespace JS \x7b class Realm; \x7d", "namespace JS \x7b struct Runtime; \x7d",
   "namespace JS \x7b class Zone; \x7d"]

def Umbrella.builtin : Umbrella := ⟨"#include <js/TypeDecls.h>", Umbrella.builtinDecls⟩

def FalsePositive.builtin : List FalsePositive :=
  -- The bodies of the first two precede their use already.
  [⟨"gjs/atoms.h", "class GjsAtoms;", ""⟩,
   ⟨"gjs/atoms.h", "struct GjsSymbolAtom;", ""⟩,
   -- Reported wherever a vector grows.
   ⟨"gi/function.cpp", "#include <algorithm>", "for max"⟩,
   ⟨"gi/private.cpp", "#include <algorithm>", "for max"⟩,
   ⟨"gjs/importer.cpp", "#include <algorithm>", "for max"⟩,
   ⟨"modules/cairo-context.cpp", "#include <algorithm>", "for max"⟩,
   -- Reported by some versions of the analyzer only.
   ⟨"gi/arg.cpp", "struct _GHashTable;", ""⟩,
   ⟨"gi/arg.cpp", "struct _GVariant;", ""⟩]

-- Changes to the built-in rules: texts replace, lists are added.
structure Overrides where
  pathMark? : Option String
  errorMark? : Option String
  header? : Option String
  forwardDecls : List String
  falsePositives : List FalsePositive
deriving DecidableEq, Repr

def Overrides.empty : Overrides := ⟨none, none, none, [], []⟩

inductive RulesetError where
  | blankErrorMark
deriving DecidableEq, Repr

def RulesetError.message : RulesetError → String
  | .blankErrorMark => "`report.error_prefix` must not be blank"

def Layout.ofMarks? (pathMark errorMark : String) : Except RulesetError Layout :=
  if visible : Text.trim errorMark ≠ "" then .ok ⟨pathMark, errorMark, visible⟩
  else .error .blankErrorMark

def Overrides.ruleset? (overrides : Overrides) : Except RulesetError Ruleset :=
  (Layout.ofMarks? (overrides.pathMark?.getD "../") (overrides.errorMark?.getD "error:")).map
    fun layout =>
      { layout
        falsePositives := overrides.falsePositives.foldl addNew FalsePositive.builtin
        umbrella :=
          { Umbrella.builtin with
            header := overrides.header?.getD Umbrella.builtin.header }.extend
          overrides.forwardDecls }

-- The analyzer is run one directory below the root of the sources.
def Layout.builtin : Layout := ⟨"../", "error:", by decide⟩

def Ruleset.builtin : Ruleset := ⟨.builtin, FalsePositive.builtin, .builtin⟩

@[simp]
theorem ruleset?_empty : Overrides.empty.ruleset? = .ok .builtin := by
  unfold Overrides.ruleset? Layout.ofMarks?
  split
  · rfl
  · rename_i blank
    exact absurd Layout.builtin.errorMark_visible blank

end IncludeTidy
