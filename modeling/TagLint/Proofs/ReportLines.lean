import TagLint.Proofs.NestingRun
import TagLint.Report

/-! The lines of a text report. Each finding has one of its own, and the findings before
the end of the document come first. -/

namespace TagLint

namespace Finding

def faultText (finding : Finding) : String :=
  "Error: " ++ finding.message ++ "\n"

/-- Empty unless the finding is about an element left open. -/
def leftOpenText (finding : Finding) : String :=
  finding.leftOpenLine?.getD ""

theorem faultLine?_eq (finding : Finding) :
    finding.faultLine? = if finding.kind != .unclosed then some finding.faultText else none := by
  cases finding <;> rfl

theorem leftOpenLine?_eq (finding : Finding) :
    finding.leftOpenLine? = if finding.kind == .unclosed then some finding.leftOpenText else none := by
  cases finding <;> rfl

theorem toList_faultText_unexpectedClose (line : Nat) (name : String) :
    (faultText (.unexpectedClose line name)).toList =
      "Error: Unexpected closing tag </".toList ++ (name.toList ++ '>' ::
        (" at line ".toList ++ (Nat.toDigits 10 line ++ ['\n']))) := by
  have htext : faultText (.unexpectedClose line name) =
      "Error: " ++ ("Unexpected closing tag </" ++ name ++ "> at line " ++ toString line) ++ "\n" :=
    rfl
  have hfront : "Error: Unexpected closing tag </" = "Error: " ++ "Unexpected closing tag </" := by
    simp
  have hmark : "> at line ".toList = '>' :: " at line ".toList := by simp
  have hend : "\n".toList = ['\n'] := by simp
  simp only [htext, hfront, hmark, hend, String.toList_append, Nat.toString_eq_repr,
    Nat.toList_repr, List.append_assoc, List.cons_append]

theorem toList_faultText_mismatched (line : Nat) (expected found : String) (openedAt : Nat) :
    (faultText (.mismatched line expected found openedAt)).toList =
      "Error: Mismatched tag. Expected </".toList ++ (expected.toList ++ '>' ::
        (" but found </".toList ++ (found.toList ++ '>' ::
          (" at line ".toList ++ (Nat.toDigits 10 line ++ ['\n']))))) := by
  have htext : faultText (.mismatched line expected found openedAt) =
      "Error: " ++ ("Mismatched tag. Expected </" ++ expected ++ "> but found </" ++ found ++
        "> at line " ++ toString line) ++ "\n" := rfl
  have hfront : "Error: Mismatched tag. Expected </" =
      "Error: " ++ "Mismatched tag. Expected </" := by simp
  have hfound : "> but found </".toList = '>' :: " but found </".toList := by simp
  have hmark : "> at line ".toList = '>' :: " at line ".toList := by simp
  have hend : "\n".toList = ['\n'] := by simp
  simp only [htext, hfront, hfound, hmark, hend, String.toList_append, Nat.toString_eq_repr,
    Nat.toList_repr, List.append_assoc, List.cons_append]

theorem toList_leftOpenText (name : String) (openedAt : Nat) :
    (leftOpenText (.unclosed name openedAt)).toList =
      " - <".toList ++ (name.toList ++ '>' ::
        (" (opened at line ".toList ++ (Nat.toDigits 10 openedAt ++ [')', '\n']))) := by
  have htext : leftOpenText (.unclosed name openedAt) =
      " - <" ++ name ++ "> (opened at line " ++ toString openedAt ++ ")\n" := rfl
  have hmark : "> (opened at line ".toList = '>' :: " (opened at line ".toList := by simp
  have hend : ")\n".toList = [')', '\n'] := by simp
  simp only [htext, hmark, hend, String.toList_append, Nat.toString_eq_repr, Nat.toList_repr,
    List.append_assoc, List.cons_append]

theorem head?_faultText (finding : Finding) : finding.faultText.toList.head? = some 'E' := by
  simp [faultText]

theorem head?_leftOpenText {finding : Finding} (h : finding.kind = .unclosed) :
    finding.leftOpenText.toList.head? = some ' ' := by
  cases finding with
  | unclosed name openedAt => simp [toList_leftOpenText]
  | _ => cases h

end Finding

namespace Validation

theorem kind_of_mem_faults {validation : Validation} {finding : Finding}
    (h : finding ∈ validation.faults) : finding.kind ≠ .unclosed :=
  bne_iff_ne.mp (List.mem_filter.mp h).2

theorem kind_of_mem_unclosed {validation : Validation} {finding : Finding}
    (h : finding ∈ validation.unclosed) : finding.kind = .unclosed :=
  beq_iff_eq.mp (List.mem_filter.mp h).2

theorem isBalanced_iff (validation : Validation) :
    validation.isBalanced = true ↔ validation.faults = [] ∧ validation.unclosed = [] := by
  rw [isBalanced, List.isEmpty_iff, faults, unclosed]
  cases validation.findings with
  | nil => simp
  | cons finding findings => cases finding <;> simp [Finding.kind]

end Validation

namespace Report

def unclosedHeading : String :=
  "Error: Unclosed tags at end of file:\n"

theorem faultLines_eq (report : Report) :
    report.faultLines = report.validation.faults.map Finding.faultText := by
  rw [faultLines, Validation.faults]
  induction report.validation.findings with
  | nil => rfl
  | cons finding findings ih =>
    rw [List.filterMap_cons, List.filter_cons, ih, Finding.faultLine?_eq]
    cases finding.kind != .unclosed <;> rfl

theorem leftOpenLines_eq (report : Report) :
    report.leftOpenLines =
      match report.validation.unclosed.map Finding.leftOpenText with
      | [] => []
      | lines => unclosedHeading :: lines := by
  have hlines : report.validation.findings.filterMap Finding.leftOpenLine? =
      report.validation.unclosed.map Finding.leftOpenText := by
    rw [Validation.unclosed]
    induction report.validation.findings with
    | nil => rfl
    | cons finding findings ih =>
      rw [List.filterMap_cons, List.filter_cons, ih, Finding.leftOpenLine?_eq]
      cases finding.kind == .unclosed <;> rfl
  rw [leftOpenLines, hlines]
  rfl

theorem textLines_eq_nil_iff (report : Report) :
    report.textLines = [] ↔ report.validation.isBalanced = true := by
  have hopen : report.leftOpenLines = [] ↔ report.validation.unclosed = [] := by
    rw [leftOpenLines_eq]
    cases report.validation.unclosed <;> simp
  rw [textLines, List.append_eq_nil_iff, hopen, faultLines_eq, List.map_eq_nil_iff,
    Validation.isBalanced_iff]

theorem line_of_mem_leftOpenLines {report : Report} {line : String}
    (h : line ∈ report.leftOpenLines) :
    line = unclosedHeading ∨
      ∃ finding ∈ report.validation.unclosed, line = finding.leftOpenText := by
  rw [leftOpenLines_eq] at h
  cases hopen : report.validation.unclosed with
  | nil => simp [hopen] at h
  | cons first rest =>
    rw [hopen, List.map_cons] at h
    rcases List.mem_cons.mp h with h | h
    · exact .inl h
    · rw [← List.map_cons] at h
      obtain ⟨finding, hfinding, rfl⟩ := List.mem_map.mp h
      exact .inr ⟨finding, hfinding, rfl⟩

theorem line_of_mem_textLines {report : Report} {line : String} (h : line ∈ report.textLines) :
    (∃ fault ∈ report.validation.faults, line = fault.faultText) ∨ line = unclosedHeading ∨
      ∃ finding ∈ report.validation.unclosed, line = finding.leftOpenText := by
  rw [textLines, List.mem_append, faultLines_eq] at h
  rcases h with h | h
  · obtain ⟨fault, hfault, rfl⟩ := List.mem_map.mp h
    exact .inl ⟨fault, hfault, rfl⟩
  · exact .inr (line_of_mem_leftOpenLines h)

theorem head?_of_mem_textLines {report : Report} {line : String} (h : line ∈ report.textLines) :
    line.toList.head? = some 'E' ∨ line.toList.head? = some ' ' := by
  rcases line_of_mem_textLines h with ⟨fault, _, rfl⟩ | rfl | ⟨finding, hfinding, rfl⟩
  · exact .inl fault.head?_faultText
  · exact .inl (by simp [unclosedHeading])
  · exact .inr (Finding.head?_leftOpenText (Validation.kind_of_mem_unclosed hfinding))

theorem ne_empty_of_mem_textLines {report : Report} {line : String}
    (h : line ∈ report.textLines) : line ≠ "" := by
  rintro rfl
  simpa using head?_of_mem_textLines h

theorem join_textLines_eq_empty_iff (report : Report) :
    String.join report.textLines = "" ↔ report.validation.isBalanced = true := by
  rw [← textLines_eq_nil_iff, ← String.toList_eq_nil_iff, String.toList_join,
    List.flatMap_eq_nil_iff, List.eq_nil_iff_forall_not_mem]
  exact forall₂_congr fun line hline =>
    iff_of_false (fun h => ne_empty_of_mem_textLines hline (String.toList_eq_nil_iff.mp h)) id

theorem renderText_singleton (report : Report) :
    renderText [report] = String.join report.textLines :=
  rfl

theorem renderText_of_many {reports : List Report} (h : 2 ≤ reports.length) :
    renderText reports = String.join (reports.flatMap headedTextLines) := by
  match reports, h with
  | _ :: _ :: _, _ => rfl

theorem join_headedTextLines (report : Report) :
    String.join report.headedTextLines =
      "==> " ++ report.path ++ " <==\n" ++
        if renderText [report] = "" then "OK\n" else renderText [report] := by
  rw [headedTextLines, String.join_cons, renderText_singleton]
  by_cases h : report.validation.isBalanced = true
  · rw [if_pos h, if_pos (report.join_textLines_eq_empty_iff.mpr h), String.join_cons,
      String.join_nil, String.append_empty]
  · rw [if_neg h, if_neg (mt report.join_textLines_eq_empty_iff.mp h)]

/-- With several files the text is made of the texts of each of them alone. -/
theorem renderText_eq_join_blocks {reports : List Report} (h : 2 ≤ reports.length) :
    renderText reports = String.join (reports.map fun report =>
      "==> " ++ report.path ++ " <==\n" ++
        if renderText [report] = "" then "OK\n" else renderText [report]) := by
  rw [renderText_of_many h]
  clear h
  induction reports with
  | nil => rfl
  | cons report reports ih =>
    rw [List.flatMap_cons, String.join_append, List.map_cons, String.join_cons, ih,
      join_headedTextLines]

end Report

end TagLint
