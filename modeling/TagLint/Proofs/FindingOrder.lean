import Mathlib.Data.List.Pairwise
import TagLint.Proofs.FindingNames

/-! The order of the findings and of the lines that they speak of. Ahead of a walk are the lines of
its open elements, the outermost first, and then those of the tags to come. A tag only takes lines
away from what is ahead, so the lines stay in order, and nothing that ends later reaches into
an element that has ended. -/

namespace TagLint

/-- What holds of a finding and one behind it. The lines grow, no element that was open at an
unexpected closing tag is left to be reported, and elements do not cross. -/
def Finding.MayPrecede : Finding → Finding → Prop
  | unexpectedClose line _, unexpectedClose laterLine _ => line ≤ laterLine
  | unexpectedClose line _, mismatched laterLine _ _ openedAt => line ≤ laterLine ∧ line ≤ openedAt
  | unexpectedClose line _, unclosed _ openedAt => line ≤ openedAt
  | mismatched line _ _ _, unexpectedClose laterLine _ => line ≤ laterLine
  | mismatched line _ _ openedAt, mismatched laterLine _ _ laterOpenedAt =>
    line ≤ laterLine ∧ (laterOpenedAt ≤ openedAt ∨ line ≤ laterOpenedAt)
  | mismatched line _ _ openedAt, unclosed _ laterOpenedAt =>
    laterOpenedAt ≤ openedAt ∨ line ≤ laterOpenedAt
  | unclosed _ openedAt, unclosed _ laterOpenedAt => openedAt ≤ laterOpenedAt
  | unclosed .., unexpectedClose .. => False
  | unclosed .., mismatched .. => False

/-- The names of a finding are tracked and its lines are lines of the document. -/
def Finding.IsSound (set : TagSet) (lineCount : Nat) : Finding → Prop
  | unexpectedClose line name => name ∈ set.names ∧ 1 ≤ line ∧ line ≤ lineCount
  | mismatched line expected found openedAt =>
    expected ∈ set.names ∧ found ∈ set.names ∧ expected ≠ found ∧
      1 ≤ openedAt ∧ openedAt ≤ line ∧ line ≤ lineCount
  | unclosed name openedAt => name ∈ set.names ∧ 1 ≤ openedAt ∧ openedAt ≤ lineCount

/-- What a finding says if its element was opened on one of the first lines and its closing tag is
on one of the others. -/
def Finding.Spans (opened closed : List Nat) : Finding → Prop
  | unexpectedClose line _ => line ∈ closed
  | mismatched line expected found openedAt =>
    line ∈ closed ∧ openedAt ∈ opened ∧ openedAt ≤ line ∧ expected ≠ found
  | unclosed _ openedAt => openedAt ∈ opened

theorem Finding.Spans.mono {opened closed opened' closed' : List Nat} {finding : Finding}
    (h : finding.Spans opened closed) (hopened : opened ⊆ opened') (hclosed : closed ⊆ closed') :
    finding.Spans opened' closed' := by
  cases finding with
  | unexpectedClose line name => exact hclosed h
  | mismatched line expected found openedAt => exact ⟨hclosed h.1, hopened h.2.1, h.2.2⟩
  | unclosed name openedAt => exact hopened h

namespace NestingStack

/-- What is found from here on: at the tags to come, and then at the end. -/
def remaining (stack : NestingStack) (tags : List Tag) : List Finding :=
  stack.findings tags ++ (stack.afterAll tags).unclosed

def linesAhead (stack : NestingStack) (tags : List Tag) : List Nat :=
  stack.outermostFirst.map OpenElement.line ++ tags.map Tag.line

theorem remaining_cons (stack : NestingStack) (tag : Tag) (tags : List Tag) :
    stack.remaining (tag :: tags) =
      (stack.finding? tag).toList ++ (stack.after tag).remaining tags := by
  rw [remaining, findings_cons, afterAll_cons, List.append_assoc]
  rfl

theorem linesAhead_cons_stack (element : OpenElement) (outer : NestingStack) (tags : List Tag) :
    linesAhead (element :: outer) tags =
      outer.outermostFirst.map OpenElement.line ++ element.line :: tags.map Tag.line := by
  simp [linesAhead, outermostFirst]

/-- An opening tag only changes sides, and a closing tag takes its element away with it. -/
theorem linesAhead_after_sublist (stack : NestingStack) (tag : Tag) (tags : List Tag) :
    ((stack.after tag).linesAhead tags).Sublist (stack.linesAhead (tag :: tags)) := by
  cases hkind : tag.kind with
  | opening =>
    rw [after_opening hkind, linesAhead_cons_stack]
    exact List.Sublist.refl _
  | closing =>
    rw [after_closing hkind]
    cases stack with
    | nil => exact List.sublist_cons_self _ _
    | cons element outer =>
      rw [linesAhead_cons_stack, List.tail_cons]
      have hrest : (tags.map Tag.line).Sublist (element.line :: (tag :: tags).map Tag.line) :=
        (List.sublist_cons_self _ _).cons _
      exact hrest.append_left _

section Ordered

variable {stack : NestingStack} {tag : Tag} {tags : List Tag} {finding : Finding}

theorem ordered_cons {element : OpenElement} {outer : NestingStack}
    (h : (linesAhead (element :: outer) (tag :: tags)).Pairwise (· ≤ ·)) :
    (∀ line ∈ outer.outermostFirst.map OpenElement.line, line ≤ element.line) ∧
      element.line ≤ tag.line ∧ ∀ line ∈ tags.map Tag.line, tag.line ≤ line := by
  rw [linesAhead_cons_stack, List.pairwise_append, List.pairwise_cons, List.map_cons,
    List.pairwise_cons] at h
  obtain ⟨_, ⟨helement, htag, _⟩, hacross⟩ := h
  have hinner : ∀ line ∈ outer.outermostFirst.map OpenElement.line, line ≤ element.line :=
    fun line hline => hacross line hline element.line List.mem_cons_self
  exact ⟨hinner, helement tag.line List.mem_cons_self, htag⟩

theorem spans_of_finding? (h : (stack.linesAhead (tag :: tags)).Pairwise (· ≤ ·))
    (hfinding : stack.finding? tag = some finding) :
    finding.Spans (stack.linesAhead (tag :: tags)) ((tag :: tags).map Tag.line) := by
  obtain ⟨_, ⟨rfl, rfl⟩ | ⟨element, outer, rfl, hname, rfl⟩⟩ := finding?_eq_some_iff.mp hfinding
  · exact List.mem_cons_self
  · have hopened : element.line ∈ linesAhead (element :: outer) (tag :: tags) := by
      simp [linesAhead_cons_stack]
    exact ⟨List.mem_cons_self, hopened, (ordered_cons h).2.1, hname⟩

theorem spans_of_mem_remaining (h : (stack.linesAhead tags).Pairwise (· ≤ ·))
    (hfinding : finding ∈ stack.remaining tags) :
    finding.Spans (stack.linesAhead tags) (tags.map Tag.line) := by
  induction tags generalizing stack with
  | nil =>
    obtain ⟨element, helement, rfl⟩ := List.mem_map.mp hfinding
    show element.line ∈ stack.linesAhead []
    exact List.mem_append_left _ (List.mem_map_of_mem helement)
  | cons tag tags ih =>
    have hsub := linesAhead_after_sublist stack tag tags
    rw [remaining_cons, List.mem_append, Option.mem_toList] at hfinding
    rcases hfinding with hfinding | hfinding
    · exact spans_of_finding? h hfinding
    · have hspans := ih (h.sublist hsub) hfinding
      exact hspans.mono hsub.subset (List.subset_cons_self _ _)

/-- What is found behind a closing tag lies behind it, or outside of the element it ended. -/
theorem mayPrecede_of_finding? {later : Finding}
    (h : (stack.linesAhead (tag :: tags)).Pairwise (· ≤ ·))
    (hfinding : stack.finding? tag = some finding)
    (hlater : later ∈ (stack.after tag).remaining tags) : finding.MayPrecede later := by
  have hsub := linesAhead_after_sublist stack tag tags
  have hspans := spans_of_mem_remaining (h.sublist hsub) hlater
  obtain ⟨hkind, ⟨rfl, rfl⟩ | ⟨element, outer, rfl, _, rfl⟩⟩ := finding?_eq_some_iff.mp hfinding
  · rw [after_closing hkind] at hspans
    have hbehind : ∀ line ∈ tags.map Tag.line, tag.line ≤ line := (List.pairwise_cons.mp h).1
    cases later with
    | unexpectedClose line name => exact hbehind line hspans
    | mismatched line expected found openedAt =>
      exact ⟨hbehind line hspans.1, hbehind openedAt hspans.2.1⟩
    | unclosed name openedAt => exact hbehind openedAt hspans
  · rw [after_closing hkind, List.tail_cons] at hspans
    obtain ⟨houter, _, hbehind⟩ := ordered_cons h
    have hopened : ∀ line ∈ linesAhead outer tags, line ≤ element.line ∨ tag.line ≤ line := by
      intro line hline
      rcases List.mem_append.mp hline with hline | hline
      · exact .inl (houter line hline)
      · exact .inr (hbehind line hline)
    cases later with
    | unexpectedClose line name => exact hbehind line hspans
    | mismatched line expected found openedAt =>
      exact ⟨hbehind line hspans.1, hopened openedAt hspans.2.1⟩
    | unclosed name openedAt => exact hopened openedAt hspans

theorem remaining_pairwise (h : (stack.linesAhead tags).Pairwise (· ≤ ·)) :
    (stack.remaining tags).Pairwise Finding.MayPrecede := by
  induction tags generalizing stack with
  | nil =>
    have hlines : (stack.outermostFirst.map OpenElement.line).Pairwise (· ≤ ·) := by
      simpa [linesAhead] using h
    show stack.unclosed.Pairwise Finding.MayPrecede
    rw [List.pairwise_map] at hlines
    exact List.pairwise_map.mpr hlines
  | cons tag tags ih =>
    have hrest := ih (h.sublist (linesAhead_after_sublist stack tag tags))
    rw [remaining_cons]
    cases hfinding : stack.finding? tag with
    | none => exact hrest
    | some finding =>
      apply List.Pairwise.cons
      · intro later hlater
        exact mayPrecede_of_finding? h hfinding hlater
      · exact hrest

end Ordered

end NestingStack

namespace Scanner

theorem line_of_mem_scan {scanner : Scanner} {line : Nat} {text : List Char} {tag : Tag}
    (h : tag ∈ scanner.scan line text) : tag.line = line := by
  induction text using scan.induct scanner with
  | case1 => simp [scan] at h
  | case2 rest found hfound ih =>
    rw [scan, if_pos rfl, hfound, List.mem_cons] at h
    rcases h with rfl | h
    · rfl
    · exact ih h
  | case3 rest hfound ih =>
    rw [scan, if_pos rfl, hfound] at h
    exact ih h
  | case4 c rest hc ih =>
    rw [scan, if_neg hc] at h
    exact ih h

theorem line_bounds {scanner : Scanner} {lines : List String} {tag : Tag}
    (h : tag ∈ scanner.scanLines lines) : 1 ≤ tag.line ∧ tag.line ≤ lines.length := by
  obtain ⟨⟨text, line⟩, hnumbered, htag⟩ := List.mem_flatMap.mp h
  have hline : tag.line = line := line_of_mem_scan htag
  obtain ⟨hfirst, hlast, _⟩ := List.mem_zipIdx hnumbered
  omega

theorem lines_in_order (scanner : Scanner) (lines : List String) :
    ((scanner.scanLines lines).map Tag.line).Pairwise (· ≤ ·) := by
  have hnumbers : (lines.zipIdx 1).Pairwise fun numbered later => numbered.2 < later.2 := by
    rw [← List.pairwise_map (f := Prod.snd) (R := (· < ·)), List.zipIdx_map_snd]
    exact List.pairwise_lt_range'
  rw [List.pairwise_map, scanLines, List.pairwise_flatMap]
  constructor
  · intro numbered _
    apply List.pairwise_of_forall_mem_list
    intro tag htag later hlater
    rw [line_of_mem_scan htag, line_of_mem_scan hlater]
  · refine hnumbers.imp fun {numbered later} hlt tag htag other hother => ?_
    rw [line_of_mem_scan htag, line_of_mem_scan hother]
    omega

end Scanner

theorem Finding.Spans.isSound {set : TagSet} {lineCount : Nat} {lines : List Nat}
    {finding : Finding} (h : finding.Spans lines lines)
    (hlines : ∀ line ∈ lines, 1 ≤ line ∧ line ≤ lineCount)
    (hnames : ∀ name ∈ finding.names, name ∈ set.names) : finding.IsSound set lineCount := by
  cases finding with
  | unexpectedClose line name => exact ⟨hnames name (by simp [names]), hlines line h⟩
  | mismatched line expected found openedAt =>
    obtain ⟨hline, hopened, hle, hne⟩ := h
    have hfirst := (hlines openedAt hopened).1
    have hlast := (hlines line hline).2
    have hexpected := hnames expected (by simp [names])
    have hfound := hnames found (by simp [names])
    exact ⟨hexpected, hfound, hne, hfirst, hle, hlast⟩
  | unclosed name openedAt => exact ⟨hnames name (by simp [names]), hlines openedAt h⟩

/-- The findings of a document stand in order and do not cross each other, and each of them
speaks of tracked names and of lines of the document. -/
theorem validate_findings_in_order (set : TagSet) (lines : List String) :
    let findings := (set.scanner.validate lines).findings
    findings.Pairwise Finding.MayPrecede ∧
      ∀ finding ∈ findings, finding.IsSound set lines.length := by
  intro findings
  let tags := set.scanner.scanLines lines
  have hremaining : findings = NestingStack.remaining [] tags := set.scanner.validate_findings lines
  have hahead : NestingStack.linesAhead [] tags = tags.map Tag.line := rfl
  have hordered : (NestingStack.linesAhead [] tags).Pairwise (· ≤ ·) :=
    set.scanner.lines_in_order lines
  have hbounds : ∀ line ∈ tags.map Tag.line, 1 ≤ line ∧ line ≤ lines.length := by
    intro line hline
    obtain ⟨tag, htag, rfl⟩ := List.mem_map.mp hline
    exact Scanner.line_bounds htag
  constructor
  · rw [hremaining]
    exact NestingStack.remaining_pairwise hordered
  · intro finding hfinding
    have hnames := TagSet.name_of_mem_validate hfinding
    rw [hremaining] at hfinding
    have hspans := NestingStack.spans_of_mem_remaining hordered hfinding
    rw [hahead] at hspans
    exact hspans.isSound hbounds hnames

theorem validate_findings_in_order_across_stray :
    let lines := ["<html>", "</div></body><main>", "<aside></html>", "<div>"]
    let findings := (TagSet.builtin.scanner.validate lines).findings
    findings = [.mismatched 2 "html" "div" 1, .unexpectedClose 2 "body",
        .mismatched 3 "aside" "html" 3, .unclosed "main" 2, .unclosed "div" 4] ∧
      findings.Pairwise Finding.MayPrecede ∧
      ∀ finding ∈ findings, finding.IsSound .builtin lines.length := by
  intro lines findings
  refine ⟨?_, validate_findings_in_order .builtin lines⟩
  simp only [findings, Scanner.validate_findings, Scanner.scanLines, Scanner.scanLine,
    TagSet.scan_eq_tagsByPosition]
  decide +kernel

end TagLint
