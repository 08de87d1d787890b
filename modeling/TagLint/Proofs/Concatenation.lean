import Mathlib.Data.List.DropRight
import TagLint.Proofs.LineCuts
import TagLint.Proofs.Renumbering

/-! The findings of two documents one behind the other. The second walk starts
with the elements that the first one left open, and reaches them only where it
would otherwise meet a closing tag with nothing open. -/

namespace TagLint

/-- The findings of a document behind one that left elements open, the last of
them first. Each closing tag that was unexpected on its own meets the next one. -/
def resolve : List Finding → List Finding → List Finding
  | _, [] => []
  | .unclosed opened openedAt :: outer, .unexpectedClose line name :: later =>
    if opened = name then resolve outer later
    else .mismatched line opened name openedAt :: resolve outer later
  | leftOpen, finding :: later => finding :: resolve leftOpen later

/-- The findings of two documents one behind the other, by the number of lines
of the first one and the findings of each. -/
def Validation.join (lines : Nat) (first second : Validation) : Validation :=
  let later : Validation := ⟨second.findings.map (Finding.renumber (· + lines))⟩
  ⟨first.faults ++ resolve first.unclosed.reverse later.faults ++
    first.unclosed.rdrop (later.count .unexpectedClose) ++ later.unclosed⟩

@[simp]
theorem resolve_nil (leftOpen : List Finding) : resolve leftOpen [] = [] := by
  simp [resolve]

theorem resolve_cons {finding : Finding} (h : finding.kind ≠ .unexpectedClose)
    (leftOpen later : List Finding) :
    resolve leftOpen (finding :: later) = finding :: resolve leftOpen later := by
  cases finding with
  | unexpectedClose => exact absurd rfl h
  | mismatched => simp [resolve]
  | unclosed => simp [resolve]

theorem resolve_of_nothing_left (findings : List Finding) : resolve [] findings = findings := by
  induction findings with
  | nil => rfl
  | cons finding findings ih => rw [resolve, ih]; simp

theorem resolve_unexpectedClose (element : OpenElement) (tag : Tag)
    (leftOpen later : List Finding) :
    resolve (element.finding :: leftOpen) (.unexpectedClose tag.line tag.name :: later) =
      (closingFault? tag (some element)).toList ++ resolve leftOpen later := by
  by_cases h : element.name = tag.name <;> simp [OpenElement.finding, resolve, closingFault?, h]

theorem resolve_closingFault? (tag : Tag) (element : OpenElement) (leftOpen later : List Finding) :
    resolve leftOpen ((closingFault? tag (some element)).toList ++ later) =
      (closingFault? tag (some element)).toList ++ resolve leftOpen later := by
  cases hfault : closingFault? tag (some element) with
  | none => rfl
  | some fault =>
    have hkind : fault.kind ≠ .unexpectedClose := by simp [kind_of_closingFault?_some hfault]
    exact resolve_cons hkind leftOpen later

namespace NestingStack

theorem findings_inherited (stack inherited : NestingStack) (tags : List Tag) :
    findings (stack ++ inherited) tags =
      resolve (inherited.map OpenElement.finding) (stack.findings tags) := by
  induction tags generalizing stack inherited with
  | nil => simp
  | cons tag tags ih =>
    rw [findings_cons, findings_cons]
    cases hkind : tag.kind with
    | opening =>
      rw [finding?_opening hkind, finding?_opening hkind, after_opening hkind, after_opening hkind]
      exact ih (_ :: stack) inherited
    | closing =>
      rw [finding?_closing hkind, finding?_closing hkind, after_closing hkind, after_closing hkind]
      cases stack with
      | cons element outer =>
        rw [List.cons_append, List.head?_cons, List.head?_cons, List.tail_cons, List.tail_cons,
          ih outer inherited, resolve_closingFault?]
      | nil =>
        cases inherited with
        | nil => rw [List.map_nil, resolve_of_nothing_left, List.append_nil]
        | cons element inherited =>
          have hrest := ih [] inherited
          rw [List.nil_append] at hrest
          rw [List.head?_nil, closingFault?_none, Option.toList_some, List.map_cons,
            List.singleton_append, resolve_unexpectedClose, List.tail_nil, ← hrest]
          rfl

theorem afterAll_inherited (stack inherited : NestingStack) (tags : List Tag) :
    afterAll (stack ++ inherited) tags = stack.afterAll tags ++
      inherited.drop ((stack.findings tags).countP (·.kind == .unexpectedClose)) := by
  induction tags generalizing stack inherited with
  | nil => simp
  | cons tag tags ih =>
    rw [afterAll_cons, afterAll_cons, findings_cons]
    cases hkind : tag.kind with
    | opening =>
      rw [finding?_opening hkind, after_opening hkind, after_opening hkind]
      exact ih (_ :: stack) inherited
    | closing =>
      rw [finding?_closing hkind, after_closing hkind, after_closing hkind]
      cases stack with
      | cons element outer =>
        rw [List.head?_cons, countP_closingFault?, List.cons_append, List.tail_cons, List.tail_cons,
          ih outer inherited]
      | nil =>
        have hrest := ih [] inherited.tail
        rw [List.nil_append, ← List.drop_one, List.drop_drop] at hrest
        simpa [closingFault?_none, Finding.kind, Nat.add_comm] using hrest

theorem unclosed_append (inner outer : NestingStack) :
    unclosed (inner ++ outer) = outer.unclosed ++ inner.unclosed := by
  rw [unclosed, outermostFirst, List.reverse_append, List.map_append]
  rfl

theorem unclosed_drop (stack : NestingStack) (n : Nat) :
    unclosed (stack.drop n) = stack.unclosed.rdrop n := by
  rw [List.rdrop_eq_reverse_drop_reverse, unclosed, unclosed, outermostFirst, outermostFirst,
    List.map_reverse, List.map_reverse, List.reverse_reverse, List.map_drop]

theorem reverse_unclosed (stack : NestingStack) :
    stack.unclosed.reverse = stack.map OpenElement.finding := by
  rw [unclosed, outermostFirst, List.map_reverse, List.reverse_reverse]

end NestingStack

theorem Validation.join_findings (lines : Nat) (first second : Validation) :
    (first.join lines second).findings =
      first.faults ++ resolve first.unclosed.reverse (second.faults.map (Finding.renumber (· + lines))) ++
        first.unclosed.rdrop (second.count .unexpectedClose) ++
        second.unclosed.map (Finding.renumber (· + lines)) := by
  simp only [join, faults, unclosed, count, List.filter_map, List.countP_map, Function.comp_def,
    Finding.renumber_kind]

theorem Scanner.validate_append_lines (scanner : Scanner) (lines more : List String) :
    scanner.validate (lines ++ more) =
      (scanner.validate lines).join lines.length (scanner.validate more) := by
  let front := NestingStack.afterAll [] (scanner.scanLines lines)
  let later := NestingStack.findings [] (scanner.scanLines more)
  let raised (line : Nat) : Nat := line + lines.length
  let tags := (scanner.scanLines more).map (Tag.renumber raised)
  have hlater : NestingStack.findings [] tags = later.map (Finding.renumber raised) :=
    NestingStack.findings_renumber raised [] _
  have hfindings : front.findings tags =
      resolve (front.map OpenElement.finding) (later.map (Finding.renumber raised)) := by
    rw [← hlater]
    exact NestingStack.findings_inherited [] front tags
  have hafter : front.afterAll tags =
      (NestingStack.afterAll [] (scanner.scanLines more)).map (OpenElement.renumber raised) ++
        front.drop (later.countP (·.kind == .unexpectedClose)) := by
    have hcount : (NestingStack.findings [] tags).countP (·.kind == .unexpectedClose) =
        later.countP (·.kind == .unexpectedClose) := by
      simp [hlater, List.countP_map, Function.comp_def]
    rw [← hcount, ← NestingStack.afterAll_renumber raised []]
    exact NestingStack.afterAll_inherited [] front tags
  have hjoin : (scanner.validate (lines ++ more)).findings =
      ((scanner.validate lines).join lines.length (scanner.validate more)).findings := by
    rw [Validation.join_findings, faults_validate, faults_validate, unclosed_validate,
      unclosed_validate, count_unexpectedClose_validate, validate_findings, scanLines_append,
      NestingStack.findings_append, NestingStack.afterAll_append, hfindings, hafter,
      NestingStack.unclosed_append, NestingStack.unclosed_drop, NestingStack.unclosed_renumber,
      NestingStack.reverse_unclosed]
    simp only [List.append_assoc]
    rfl
  exact congrArg Validation.mk hjoin

/-- The findings of lines or texts one behind the other are computable from the
findings of the two, if the texts meet at a line end. -/
theorem validate_append (set : TagSet) :
    (∀ lines more : List String, set.scanner.validate (lines ++ more) =
      (set.scanner.validate lines).join lines.length (set.scanner.validate more)) ∧
    ∀ content more : String, MeetAtLineEnd content.toList more.toList →
      set.scanner.validateDocument (content ++ more) =
        (set.scanner.validateDocument content).join (physicalLines content).length
          (set.scanner.validateDocument more) := by
  constructor
  · exact set.scanner.validate_append_lines
  · intro content more h
    rw [Scanner.validateDocument, physicalLines_append h, Scanner.validate_append_lines]
    rfl

theorem validate_append_left_open :
    MeetAtLineEnd "<html>\r\n<body><div>\r".toList "</section></body>\n\n</main></html>".toList ∧
      TagSet.builtin.scanner.validateDocument
          ("<html>\r\n<body><div>\r" ++ "</section></body>\n\n</main></html>") =
        (TagSet.builtin.scanner.validateDocument "<html>\r\n<body><div>\r").join
          (physicalLines "<html>\r\n<body><div>\r").length
          (TagSet.builtin.scanner.validateDocument "</section></body>\n\n</main></html>") :=
  ⟨by decide, (validate_append .builtin).2 _ _ (by decide)⟩

end TagLint
