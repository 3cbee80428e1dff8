import IncludeTidy.Proofs.Receivers
import IncludeTidy.Ruleset.Builtin

namespace IncludeTidy

section Additions

variable [DecidableEq α]

theorem mem_addNew (items : List α) (item other : α) :
    other ∈ addNew items item ↔ other ∈ items ∨ other = item := by
  unfold addNew
  split
  · rename_i known
    constructor
    · exact .inl
    · rintro (old | rfl)
      · exact old
      · exact known
  · simp

theorem mem_addedNew (items more : List α) (other : α) :
    other ∈ more.foldl addNew items ↔ other ∈ items ∨ other ∈ more := by
  induction more generalizing items with
  | nil => simp
  | cons item more ih => rw [List.foldl_cons, ih, mem_addNew, List.mem_cons, or_assoc]

theorem prefix_addNew (items : List α) (item : α) : items <+: addNew items item := by
  unfold addNew
  split
  · exact List.prefix_rfl
  · exact List.prefix_append _ _

theorem prefix_addedNew (items more : List α) : items <+: more.foldl addNew items := by
  induction more generalizing items with
  | nil => exact List.prefix_rfl
  | cons item more ih => exact (prefix_addNew items item).trans (ih _)

theorem nodup_addNew {items : List α} (distinct : items.Nodup) (item : α) :
    (addNew items item).Nodup := by
  unfold addNew
  split
  · exact distinct
  · rename_i fresh
    rw [List.nodup_append]
    refine ⟨distinct, by simp, fun old member new single equal => ?_⟩
    cases List.mem_singleton.mp single
    exact fresh (equal ▸ member)

theorem nodup_addedNew {items : List α} (distinct : items.Nodup) (more : List α) :
    (more.foldl addNew items).Nodup := by
  induction more generalizing items with
  | nil => exact distinct
  | cons item more ih => exact ih (nodup_addNew distinct item)

end Additions

namespace Overrides

-- The texts in force: those of the override where it has them.
def pathMark (overrides : Overrides) : String := overrides.pathMark?.getD "../"

def errorMark (overrides : Overrides) : String := overrides.errorMark?.getD "error:"

def header (overrides : Overrides) : String := overrides.header?.getD Umbrella.builtin.header

def ruleset (overrides : Overrides) (visible : Text.trim overrides.errorMark ≠ "") : Ruleset where
  layout := ⟨overrides.pathMark, overrides.errorMark, visible⟩
  falsePositives := overrides.falsePositives.foldl addNew FalsePositive.builtin
  umbrella := ⟨overrides.header, overrides.forwardDecls.foldl addNew Umbrella.builtinDecls⟩

theorem ruleset?_visible (overrides : Overrides) (visible : Text.trim overrides.errorMark ≠ "") :
    overrides.ruleset? = .ok (overrides.ruleset visible) := by
  have layout : Layout.ofMarks? overrides.pathMark overrides.errorMark =
      .ok ⟨overrides.pathMark, overrides.errorMark, visible⟩ := dif_pos visible
  unfold pathMark errorMark at layout
  unfold ruleset?
  rw [layout]
  rfl

theorem ruleset?_ok {overrides : Overrides} (accepted : overrides.ruleset? = .ok rules) :
    ∃ visible, rules = overrides.ruleset visible := by
  by_cases visible : Text.trim overrides.errorMark ≠ ""
  · rw [ruleset?_visible overrides visible] at accepted
    exact ⟨visible, (Except.ok.inj accepted).symm⟩
  · have blank : Layout.ofMarks? overrides.pathMark overrides.errorMark = .error .blankErrorMark :=
      dif_neg visible
    unfold pathMark errorMark at blank
    unfold ruleset? at accepted
    rw [blank] at accepted
    cases accepted

-- The same texts in force, and lists with the same members.
structure Alike (one two : Overrides) : Prop where
  pathMark : two.pathMark = one.pathMark
  errorMark : two.errorMark = one.errorMark
  header : two.header = one.header
  forwardDecls : ∀ directive, directive ∈ two.forwardDecls ↔ directive ∈ one.forwardDecls
  falsePositives : ∀ listed, listed ∈ two.falsePositives ↔ listed ∈ one.falsePositives

end Overrides

variable {rules other : Ruleset}

theorem contains_congr [DecidableEq α] {items others : List α}
    (same : ∀ item, item ∈ others ↔ item ∈ items) (item : α) :
    others.contains item = items.contains item := by
  rw [Bool.eq_iff_iff, List.contains_iff_mem, List.contains_iff_mem]
  exact same item

theorem agrees_of_alike {one two : Overrides} (alike : one.Alike two)
    (visible : Text.trim one.errorMark ≠ "") (visibleToo : Text.trim two.errorMark ≠ "") :
    (one.ruleset visible).Agrees (two.ruleset visibleToo) := by
  refine ⟨?_, alike.header, fun directive => ?_, fun listed => ?_⟩
  · simp only [Overrides.ruleset, alike.pathMark, alike.errorMark]
  · apply contains_congr
    intro item
    simp only [Overrides.ruleset, mem_addedNew, alike.forwardDecls]
  · apply contains_congr
    intro item
    simp only [Overrides.ruleset, mem_addedNew, alike.falsePositives]

-- The receiver can be one that keeps all that it is offered, so equal endings mean equal reports.
theorem overrides_add_members (overrides : Overrides)
    (visible : ∀ mark, overrides.errorMark? = some mark → Text.trim mark ≠ "") :
    ∃ rules, overrides.ruleset? = .ok rules ∧
      (∀ listed, rules.falsePositives.contains listed = true ↔
        listed ∈ FalsePositive.builtin ∨ listed ∈ overrides.falsePositives) ∧
      (∀ directive, rules.umbrella.covers directive = true ↔
        directive ∈ Umbrella.builtin.forwardDecls ∨ directive ∈ overrides.forwardDecls) ∧
      rules.umbrella.forwardDecls.Nodup ∧
      Umbrella.builtin.forwardDecls <+: rules.umbrella.forwardDecls ∧
      ∀ (other : Overrides) (otherRules : Ruleset), other.ruleset? = .ok otherRules →
        overrides.Alike other →
          ∀ {σ ε : Type} [Receiver σ ε] (strict : Bool) (receiver : σ)
            (reads : List Text.LineRead),
            (Classifier.mk otherRules strict).processReads receiver reads =
              (Classifier.mk rules strict).processReads receiver reads := by
  have seen : Text.trim overrides.errorMark ≠ "" := by
    unfold Overrides.errorMark
    cases given : overrides.errorMark? with
    | none => exact Layout.builtin.errorMark_visible
    | some mark => exact visible mark given
  have distinct : Umbrella.builtin.forwardDecls.Nodup := by decide +kernel
  refine ⟨overrides.ruleset seen, Overrides.ruleset?_visible overrides seen, fun listed => ?_,
    fun directive => ?_, nodup_addedNew distinct _, prefix_addedNew _ _, ?_⟩
  · rw [List.contains_iff_mem]
    exact mem_addedNew _ _ _
  · unfold Umbrella.covers
    rw [List.contains_iff_mem]
    exact mem_addedNew _ _ _
  · intro other otherRules accepted alike σ ε _ strict receiver reads
    obtain ⟨seenToo, rfl⟩ := Overrides.ruleset?_ok accepted
    exact Classifier.processReads_agrees (agrees_of_alike alike seen seenToo) strict receiver reads

-- Two overrides with the same members in another order, one of them named twice, and one of them
-- built in.
def listedOverrides : Overrides :=
  ⟨none, some "warning:", none, ["class B;", "class JSObject;", "class C;"],
    [⟨"a.h", "class D;", ""⟩, ⟨"a.h", "class E;", ""⟩]⟩

def relistedOverrides : Overrides :=
  ⟨some "../", some "warning:", none, ["class C;", "class B;", "class C;", "class JSObject;"],
    [⟨"a.h", "class E;", ""⟩, ⟨"a.h", "class D;", ""⟩, ⟨"a.h", "class E;", ""⟩]⟩

theorem overrides_add_members_relisted :
    (∀ mark, listedOverrides.errorMark? = some mark → Text.trim mark ≠ "") ∧
      listedOverrides.Alike relistedOverrides ∧
      ∃ rules others, listedOverrides.ruleset? = .ok rules ∧
        relistedOverrides.ruleset? = .ok others ∧ rules.umbrella.covers "class C;" = true ∧
        ∀ lines, (Classifier.mk others true).processLines (⟨[]⟩ : Collected) lines =
          (Classifier.mk rules true).processLines ⟨[]⟩ lines := by
  have visible : ∀ mark, listedOverrides.errorMark? = some mark → Text.trim mark ≠ "" := by
    intro mark given
    cases given
    decide
  have alike : listedOverrides.Alike relistedOverrides := by
    refine ⟨rfl, rfl, rfl, fun directive => ?_, fun listed => ?_⟩
    · simp only [listedOverrides, relistedOverrides, List.mem_cons, List.not_mem_nil]
      grind
    · simp only [listedOverrides, relistedOverrides, List.mem_cons, List.not_mem_nil]
      grind
  obtain ⟨rules, accepted, _, covers, _, _, alikeRuns⟩ := overrides_add_members _ visible
  have acceptedToo := relistedOverrides.ruleset?_visible (by decide)
  refine ⟨visible, alike, rules, _, accepted, acceptedToo, ?_, fun lines => ?_⟩
  · exact (covers "class C;").mpr (.inr (by decide))
  · exact alikeRuns _ _ acceptedToo alike true (⟨[]⟩ : Collected) (lines.map .ok)

end IncludeTidy
