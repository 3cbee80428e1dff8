import IncludeTidy.Report.Layout
import IncludeTidy.Text.Blank
import IncludeTidy.Text.Search

namespace IncludeTidy

-- An include or a forward declaration, with the analyzer's justification for it.
structure Entry where
  directive : String
  why : String
deriving DecidableEq, Repr

def Entry.delimiter : String := " // "

def Entry.removalMark : String := "- "

-- The directive loses the blanks around it, the justification keeps them.
def Entry.ofLine (line : String) : Entry :=
  match Text.splitFirst? Entry.delimiter.toList line.toList with
  | some (directive, why) => ⟨Text.trim (String.ofList directive), String.ofList why⟩
  | none => ⟨Text.trim line, ""⟩

def Entry.withoutRemovalMark (entry : Entry) : Entry :=
  match Text.after? Entry.removalMark.toList entry.directive.toList with
  | some directive => { entry with directive := String.ofList directive }
  | none => entry

-- Entries stand in the order in which their directives first came.
structure EntryMap where
  entries : List Entry
  distinct : (entries.map Entry.directive).Nodup
deriving DecidableEq, Repr

namespace EntryMap

theorem ext {m n : EntryMap} (same : m.entries = n.entries) : m = n := by
  cases m; cases n; cases same; rfl

def empty : EntryMap := ⟨[], List.nodup_nil⟩

instance : Inhabited EntryMap := ⟨empty⟩

def size (m : EntryMap) : Nat := m.entries.length

def isEmpty (m : EntryMap) : Bool := m.entries.isEmpty

def directives (m : EntryMap) : List String := m.entries.map Entry.directive

def contains (m : EntryMap) (directive : String) : Bool :=
  m.entries.any fun entry => entry.directive = directive

def get? (m : EntryMap) (directive : String) : Option String :=
  (m.entries.find? fun entry => entry.directive = directive).map Entry.why

-- Replaces the justification of a known directive in its place; a new one goes to the end.
def put (directive why : String) : List Entry → List Entry
  | [] => [⟨directive, why⟩]
  | entry :: rest =>
    if entry.directive = directive then ⟨directive, why⟩ :: rest
    else entry :: put directive why rest

theorem put_directives (directive why : String) (entries : List Entry) :
    (put directive why entries).map Entry.directive =
      if directive ∈ entries.map Entry.directive then entries.map Entry.directive
      else entries.map Entry.directive ++ [directive] := by
  induction entries with
  | nil => simp [put]
  | cons entry rest ih =>
    by_cases same : entry.directive = directive
    · simp [put, same]
    · rw [put, if_neg same, List.map_cons, ih]
      simp only [List.map_cons, List.mem_cons, Ne.symm same, false_or]
      split <;> simp

theorem put_distinct (directive why : String) {entries : List Entry}
    (distinct : (entries.map Entry.directive).Nodup) :
    ((put directive why entries).map Entry.directive).Nodup := by
  rw [put_directives]
  split
  · exact distinct
  · rename_i fresh
    rw [List.nodup_append]
    refine ⟨distinct, by simp, fun old member new single => ?_⟩
    cases List.mem_singleton.mp single
    exact fun equal => fresh (equal ▸ member)

def insert (m : EntryMap) (directive why : String) : EntryMap :=
  ⟨put directive why m.entries, put_distinct directive why m.distinct⟩

def insertEntry (m : EntryMap) (entry : Entry) : EntryMap := m.insert entry.directive entry.why

def erase (m : EntryMap) (directive : String) : EntryMap :=
  ⟨m.entries.filter fun entry => entry.directive ≠ directive,
    List.Sublist.nodup (List.Sublist.map _ List.filter_sublist) m.distinct⟩

-- Takes out the entry of the directive, and answers its justification.
def remove (m : EntryMap) (directive : String) : EntryMap × Option String :=
  match m.entries.findIdx? fun entry => entry.directive = directive with
  | none => (m, none)
  | some place =>
    (⟨m.entries.eraseIdx place,
      List.Sublist.nodup (List.Sublist.map _ (List.eraseIdx_sublist _ _)) m.distinct⟩,
      m.entries[place]?.map Entry.why)

def ofList (entries : List Entry) : EntryMap := entries.foldl insertEntry empty

end EntryMap

-- What the analyzer recommends for one file. The full list is only looked up, never shown.
structure FileReport where
  file : String
  additions : EntryMap
  removals : EntryMap
  fullList : EntryMap
  -- An addition was left out because the umbrella header provides it.
  needsUmbrella : Bool
deriving DecidableEq, Repr

namespace FileReport

def opened (file : String) : FileReport := ⟨file, .empty, .empty, .empty, false⟩

def hasChanges (report : FileReport) : Bool :=
  !report.additions.isEmpty || !report.removals.isEmpty

end FileReport

end IncludeTidy
