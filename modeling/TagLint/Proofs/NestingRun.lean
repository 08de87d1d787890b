import TagLint.Nesting

/-! What a walk finds and what it leaves open, tag by tag. Later modules reason
about these two, never about the steps of the walk. -/

namespace TagLint

def OpenElement.finding (element : OpenElement) : Finding :=
  .unclosed element.name element.line

theorem closingFault?_none (tag : Tag) :
    closingFault? tag none = some (.unexpectedClose tag.line tag.name) :=
  rfl

theorem closingFault?_eq_some_iff {tag : Tag} {innermost? : Option OpenElement} {fault : Finding} :
    closingFault? tag innermost? = some fault ↔
      innermost? = none ∧ fault = .unexpectedClose tag.line tag.name ∨
        ∃ element, innermost? = some element ∧ element.name ≠ tag.name ∧
          fault = .mismatched tag.line element.name tag.name element.line := by
  cases innermost? with
  | none => simp [closingFault?, eq_comm]
  | some element => by_cases hname : element.name = tag.name <;> simp [closingFault?, hname, eq_comm]

theorem kind_of_closingFault?_some {tag : Tag} {element : OpenElement} {fault : Finding}
    (h : closingFault? tag (some element) = some fault) : fault.kind = .mismatched := by
  rcases closingFault?_eq_some_iff.mp h with ⟨hnone, _⟩ | ⟨_, _, _, rfl⟩
  · cases hnone
  · rfl

theorem countP_closingFault? (tag : Tag) (element : OpenElement) (later : List Finding) :
    ((closingFault? tag (some element)).toList ++ later).countP (·.kind == .unexpectedClose) =
      later.countP (·.kind == .unexpectedClose) := by
  cases hfault : closingFault? tag (some element) with
  | none => rfl
  | some fault => simp [kind_of_closingFault?_some hfault]

theorem closingFault?_eq_none_iff {tag : Tag} {innermost? : Option OpenElement} :
    closingFault? tag innermost? = none ↔ ∃ element, innermost? = some element ∧
      element.name = tag.name := by
  cases innermost? <;> simp [closingFault?]

namespace NestingStack

def finding? (stack : NestingStack) (tag : Tag) : Option Finding :=
  match tag.kind with
  | .opening => none
  | .closing => closingFault? tag stack.head?

def after (stack : NestingStack) (tag : Tag) : NestingStack :=
  match tag.kind with
  | .opening => ⟨tag.name, tag.line⟩ :: stack
  | .closing => stack.tail

def findings (stack : NestingStack) (tags : List Tag) : List Finding :=
  (stack.walk tags).steps.filterMap Step.finding?

def afterAll (stack : NestingStack) (tags : List Tag) : NestingStack :=
  (stack.walk tags).stack

def unclosed (stack : NestingStack) : List Finding :=
  stack.outermostFirst.map OpenElement.finding

theorem finding?_opening {tag : Tag} (h : tag.kind = .opening) (stack : NestingStack) :
    stack.finding? tag = none := by
  simp [finding?, h]

theorem finding?_closing {tag : Tag} (h : tag.kind = .closing) (stack : NestingStack) :
    stack.finding? tag = closingFault? tag stack.head? := by
  simp [finding?, h]

theorem finding?_eq_some_iff {stack : NestingStack} {tag : Tag} {fault : Finding} :
    stack.finding? tag = some fault ↔ tag.kind = .closing ∧
      (stack = [] ∧ fault = .unexpectedClose tag.line tag.name ∨
        ∃ element outer, stack = element :: outer ∧ element.name ≠ tag.name ∧
          fault = .mismatched tag.line element.name tag.name element.line) := by
  cases hkind : tag.kind with
  | opening => simp [finding?_opening hkind]
  | closing => rw [finding?_closing hkind, closingFault?_eq_some_iff]; cases stack <;> simp

theorem after_opening {tag : Tag} (h : tag.kind = .opening) (stack : NestingStack) :
    stack.after tag = ⟨tag.name, tag.line⟩ :: stack := by
  simp [after, h]

theorem after_closing {tag : Tag} (h : tag.kind = .closing) (stack : NestingStack) :
    stack.after tag = stack.tail := by
  simp [after, h]

theorem meet_stack (stack : NestingStack) (tag : Tag) :
    (stack.meet tag).stack = stack.after tag := by
  cases h : tag.kind with
  | opening => simp [meet, after, apply, h]
  | closing => cases stack <;> simp [meet, after, apply, h]

theorem meet_findings (stack : NestingStack) (tag : Tag) :
    (stack.meet tag).steps.filterMap Step.finding? = (stack.finding? tag).toList := by
  cases h : tag.kind with
  | opening => simp [meet, finding?, apply, Step.finding?, h]
  | closing =>
    cases stack with
    | nil => simp [meet, finding?, apply, Step.finding?, closingFault?, h]
    | cons innermost outer =>
      cases hf : closingFault? tag (some innermost) with
      | none => simp [meet, finding?, apply, Step.finding?, h, hf]
      | some fault => simp [meet, finding?, apply, List.filterMap_cons, Step.finding?, h, hf]

@[simp]
theorem findings_nil (stack : NestingStack) : stack.findings [] = [] :=
  rfl

@[simp]
theorem afterAll_nil (stack : NestingStack) : stack.afterAll [] = stack :=
  rfl

theorem findings_cons (stack : NestingStack) (tag : Tag) (tags : List Tag) :
    stack.findings (tag :: tags) =
      (stack.finding? tag).toList ++ (stack.after tag).findings tags := by
  simp only [findings, walk, List.filterMap_append, meet_findings, meet_stack]

theorem afterAll_cons (stack : NestingStack) (tag : Tag) (tags : List Tag) :
    stack.afterAll (tag :: tags) = (stack.after tag).afterAll tags := by
  simp only [afterAll, walk, meet_stack]

theorem findings_append (stack : NestingStack) (tags more : List Tag) :
    stack.findings (tags ++ more) =
      stack.findings tags ++ (stack.afterAll tags).findings more := by
  induction tags generalizing stack with
  | nil => simp
  | cons tag tags ih => simp [findings_cons, afterAll_cons, ih]

theorem afterAll_append (stack : NestingStack) (tags more : List Tag) :
    stack.afterAll (tags ++ more) = (stack.afterAll tags).afterAll more := by
  induction tags generalizing stack with
  | nil => rfl
  | cons tag tags ih => simp [afterAll_cons, ih]

theorem kind_ne_unclosed_of_mem_findings {stack : NestingStack} {tags : List Tag} {fault : Finding}
    (h : fault ∈ stack.findings tags) : fault.kind ≠ .unclosed := by
  induction tags generalizing stack with
  | nil => simp at h
  | cons tag tags ih =>
    rw [findings_cons, List.mem_append, Option.mem_toList] at h
    rcases h with h | h
    · rcases finding?_eq_some_iff.mp h with ⟨_, ⟨_, rfl⟩ | ⟨_, _, _, _, rfl⟩⟩ <;> simp [Finding.kind]
    · exact ih h

theorem kind_of_mem_unclosed {stack : NestingStack} {finding : Finding}
    (h : finding ∈ stack.unclosed) : finding.kind = .unclosed := by
  obtain ⟨element, _, rfl⟩ := List.mem_map.mp h
  rfl

theorem leftOpen_findings (stack : NestingStack) :
    stack.leftOpen.filterMap Step.finding? = stack.unclosed := by
  simp [leftOpen, unclosed, List.filterMap_map, Function.comp_def, Step.finding?,
    OpenElement.finding]

end NestingStack

/-- The findings before the end of a document. -/
def Validation.faults (validation : Validation) : List Finding :=
  validation.findings.filter (·.kind != .unclosed)

namespace Inspection

theorem findings_ofTags (lineCount : Nat) (tags : List Tag) :
    (ofTags lineCount tags).validation.findings =
      NestingStack.findings [] tags ++ (NestingStack.afterAll [] tags).unclosed := by
  simp only [ofTags, validation, List.filterMap_append, NestingStack.leftOpen_findings]
  rfl

theorem faults_ofTags (lineCount : Nat) (tags : List Tag) :
    (ofTags lineCount tags).validation.faults = NestingStack.findings [] tags := by
  have hfaults : ∀ fault ∈ NestingStack.findings [] tags, (fault.kind != .unclosed) = true :=
    fun fault h => bne_iff_ne.mpr (NestingStack.kind_ne_unclosed_of_mem_findings h)
  have hunclosed : ∀ finding ∈ (NestingStack.afterAll [] tags).unclosed,
      ¬ (finding.kind != .unclosed) = true := by
    intro finding h
    simp [NestingStack.kind_of_mem_unclosed h]
  rw [Validation.faults, findings_ofTags, List.filter_append, List.filter_eq_self.mpr hfaults,
    List.filter_eq_nil_iff.mpr hunclosed, List.append_nil]

theorem unclosed_ofTags (lineCount : Nat) (tags : List Tag) :
    (ofTags lineCount tags).validation.unclosed = (NestingStack.afterAll [] tags).unclosed := by
  have hfaults : ∀ fault ∈ NestingStack.findings [] tags, ¬ (fault.kind == .unclosed) = true :=
    fun fault h => by simpa using NestingStack.kind_ne_unclosed_of_mem_findings h
  have hunclosed : ∀ finding ∈ (NestingStack.afterAll [] tags).unclosed,
      (finding.kind == .unclosed) = true :=
    fun finding h => beq_iff_eq.mpr (NestingStack.kind_of_mem_unclosed h)
  rw [Validation.unclosed, findings_ofTags, List.filter_append,
    List.filter_eq_nil_iff.mpr hfaults, List.filter_eq_self.mpr hunclosed, List.nil_append]

theorem count_ofTags {kind : Finding.Kind} (h : kind ≠ .unclosed) (lineCount : Nat)
    (tags : List Tag) :
    (ofTags lineCount tags).validation.count kind =
      (NestingStack.findings [] tags).countP (·.kind == kind) := by
  have hunclosed : ∀ finding ∈ (NestingStack.afterAll [] tags).unclosed,
      ¬ (finding.kind == kind) = true := by
    intro finding hfinding
    simpa [NestingStack.kind_of_mem_unclosed hfinding] using h.symm
  rw [Validation.count, findings_ofTags, List.countP_append, List.countP_eq_zero.mpr hunclosed,
    Nat.add_zero]

theorem count_unclosed_ofTags (lineCount : Nat) (tags : List Tag) :
    (ofTags lineCount tags).validation.count .unclosed =
      (NestingStack.afterAll [] tags).length := by
  have hunclosed := congrArg List.length (unclosed_ofTags lineCount tags)
  rw [NestingStack.unclosed, List.length_map, NestingStack.outermostFirst,
    List.length_reverse] at hunclosed
  rw [Validation.count, List.countP_eq_length_filter]
  exact hunclosed

end Inspection

namespace Scanner

theorem validate_findings (scanner : Scanner) (lines : List String) :
    (scanner.validate lines).findings =
      NestingStack.findings [] (scanner.scanLines lines) ++
        (NestingStack.afterAll [] (scanner.scanLines lines)).unclosed :=
  Inspection.findings_ofTags _ _

theorem faults_validate (scanner : Scanner) (lines : List String) :
    (scanner.validate lines).faults = NestingStack.findings [] (scanner.scanLines lines) :=
  Inspection.faults_ofTags _ _

theorem unclosed_validate (scanner : Scanner) (lines : List String) :
    (scanner.validate lines).unclosed =
      (NestingStack.afterAll [] (scanner.scanLines lines)).unclosed :=
  Inspection.unclosed_ofTags _ _

theorem faults_append_unclosed (scanner : Scanner) (lines : List String) :
    (scanner.validate lines).faults ++ (scanner.validate lines).unclosed =
      (scanner.validate lines).findings := by
  rw [faults_validate, unclosed_validate, validate_findings]

theorem count_unexpectedClose_validate (scanner : Scanner) (lines : List String) :
    (scanner.validate lines).count .unexpectedClose =
      (NestingStack.findings [] (scanner.scanLines lines)).countP (·.kind == .unexpectedClose) :=
  Inspection.count_ofTags (by decide) _ _

end Scanner

end TagLint
