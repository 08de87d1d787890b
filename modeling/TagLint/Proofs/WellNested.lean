import TagLint.Proofs.NestingRun

/-! Lists of nested pairs, and documents whose tags are such a list. A document
has no finding exactly if it is one: nested pairs leave every stack as it was, and
a walk without findings shows which tags close the elements it started from. -/

namespace TagLint

variable {α : Type} {Matches : α → α → Prop}

/-- A list of this kind is empty, or a pair around one such list and in front of another. -/
inductive Nested (Matches : α → α → Prop) : List α → Prop
  | nil : Nested Matches []
  | pair {first last : α} {inner later : List α} :
    Matches first last → Nested Matches inner → Nested Matches later →
      Nested Matches (first :: (inner ++ last :: later))

theorem Nested.append {items more : List α} (h : Nested Matches items)
    (h' : Nested Matches more) : Nested Matches (items ++ more) := by
  induction h with
  | nil => exact h'
  | pair hmatch hinner _ _ ihlater =>
    rw [List.cons_append, List.append_assoc, List.cons_append]
    exact .pair hmatch hinner ihlater

theorem Nested.enclose {first last : α} {inner : List α} (hmatch : Matches first last)
    (h : Nested Matches inner) : Nested Matches (first :: (inner ++ [last])) :=
  .pair hmatch h .nil

/-- Opening and closing tags in pairs of one name, properly nested. -/
def WellNested (tags : List Tag) : Prop :=
  Nested (fun first last =>
    first.kind = .opening ∧ last.kind = .closing ∧ first.name = last.name) tags

namespace NestingStack

/-- Tags that leave every stack as it was hide nothing from the two around them. -/
theorem run_around {first last : Tag} {inner : List Tag} (hfirst : first.kind = .opening)
    (hlast : last.kind = .closing)
    (hinner : ∀ stack : NestingStack, stack.findings inner = [] ∧ stack.afterAll inner = stack)
    (stack : NestingStack) (later : List Tag) :
    stack.findings (first :: (inner ++ last :: later)) =
        (closingFault? last (some ⟨first.name, first.line⟩)).toList ++ stack.findings later ∧
      stack.afterAll (first :: (inner ++ last :: later)) = stack.afterAll later := by
  obtain ⟨hfindings, hafter⟩ := hinner (⟨first.name, first.line⟩ :: stack)
  constructor
  · simp [findings_cons, findings_append, finding?_opening hfirst, after_opening hfirst,
      finding?_closing hlast, after_closing hlast, hfindings, hafter]
  · simp [afterAll_cons, afterAll_append, after_opening hfirst, after_closing hlast, hafter]

theorem run_pair {first last : Tag} {inner : List Tag} (hfirst : first.kind = .opening)
    (hlast : last.kind = .closing) (hname : first.name = last.name)
    (hinner : ∀ stack : NestingStack, stack.findings inner = [] ∧ stack.afterAll inner = stack)
    (stack : NestingStack) (later : List Tag) :
    stack.findings (first :: (inner ++ last :: later)) = stack.findings later ∧
      stack.afterAll (first :: (inner ++ last :: later)) = stack.afterAll later := by
  have hfault : closingFault? last (some ⟨first.name, first.line⟩) = none :=
    closingFault?_eq_none_iff.mpr ⟨_, rfl, hname⟩
  have hrun := run_around hfirst hlast hinner stack later
  rwa [hfault, Option.toList_none, List.nil_append] at hrun

theorem run_wellNested {tags : List Tag} (h : WellNested tags) (stack : NestingStack) :
    stack.findings tags = [] ∧ stack.afterAll tags = stack := by
  induction h generalizing stack with
  | nil => exact ⟨rfl, rfl⟩
  | pair hmatch _ _ ihinner ihlater =>
    obtain ⟨hfindings, hafter⟩ := run_pair hmatch.1 hmatch.2.1 hmatch.2.2 ihinner stack _
    rw [hfindings, hafter]
    exact ihlater stack

/-- Tags that close the open elements one by one, with well nested tags around
the closing ones. -/
def Closes : NestingStack → List Tag → Prop
  | [], tags => WellNested tags
  | element :: outer, tags => ∃ inner last later, tags = inner ++ last :: later ∧
      WellNested inner ∧ last.kind = .closing ∧ element.name = last.name ∧ Closes outer later

theorem Closes.append {stack : NestingStack} {tags more : List Tag} (h : WellNested tags)
    (h' : stack.Closes more) : stack.Closes (tags ++ more) := by
  cases stack with
  | nil => exact Nested.append h h'
  | cons element outer =>
    obtain ⟨inner, last, later, rfl, hinner, hrest⟩ := h'
    exact ⟨tags ++ inner, last, later, by simp, Nested.append h hinner, hrest⟩

theorem closes_of_run {stack : NestingStack} {tags : List Tag}
    (hfindings : stack.findings tags = []) (hafter : stack.afterAll tags = []) :
    stack.Closes tags := by
  induction tags generalizing stack with
  | nil =>
    rw [afterAll_nil] at hafter
    subst hafter
    exact Nested.nil
  | cons tag tags ih =>
    rw [findings_cons, List.append_eq_nil_iff, Option.toList_eq_nil_iff] at hfindings
    rw [afterAll_cons] at hafter
    have hrest := ih hfindings.2 hafter
    cases hkind : tag.kind with
    | opening =>
      rw [after_opening hkind] at hrest
      obtain ⟨inner, last, later, rfl, hinner, hlast, hname, hlater⟩ := hrest
      have hpair : WellNested (tag :: (inner ++ [last])) :=
        Nested.enclose ⟨hkind, hlast, hname⟩ hinner
      simpa using Closes.append hpair hlater
    | closing =>
      have hfault := hfindings.1
      rw [finding?_closing hkind, closingFault?_eq_none_iff] at hfault
      obtain ⟨element, hhead, hname⟩ := hfault
      obtain ⟨outer, rfl⟩ := List.head?_eq_some_iff.mp hhead
      rw [after_closing hkind] at hrest
      exact ⟨[], tag, tags, rfl, Nested.nil, hkind, hname, hrest⟩

theorem unclosed_eq_nil_iff {stack : NestingStack} : stack.unclosed = [] ↔ stack = [] := by
  simp [unclosed, outermostFirst]

end NestingStack

/-- A document is balanced exactly if its tags are derivable as nested pairs. -/
theorem isBalanced_validate_iff_wellNested (set : TagSet) (lines : List String) :
    (set.scanner.validate lines).isBalanced = true ↔
      WellNested ((lines.zipIdx 1).flatMap fun numbered =>
        set.scanner.scanLine numbered.1 numbered.2) := by
  rw [Validation.isBalanced, List.isEmpty_iff, Scanner.validate_findings, List.append_eq_nil_iff,
    NestingStack.unclosed_eq_nil_iff]
  constructor
  · rintro ⟨hfindings, hafter⟩
    exact NestingStack.closes_of_run hfindings hafter
  · exact fun h => NestingStack.run_wellNested h []

end TagLint
