import TagLint.Proofs.NestingRun

/-! Line numbers only pass through a check. If the lines of all tags are numbered in
another way, so are those of its findings, and nothing else changes. Lines that are put
in front of a document raise all numbers by how many they are. -/

namespace TagLint

def Tag.renumber (f : Nat → Nat) (tag : Tag) : Tag :=
  { tag with line := f tag.line }

def OpenElement.renumber (f : Nat → Nat) (element : OpenElement) : OpenElement :=
  { element with line := f element.line }

def Finding.renumber (f : Nat → Nat) : Finding → Finding
  | unexpectedClose line name => unexpectedClose (f line) name
  | mismatched line expected found openedAt => mismatched (f line) expected found (f openedAt)
  | unclosed name openedAt => unclosed name (f openedAt)

@[simp]
theorem Finding.renumber_kind (f : Nat → Nat) (finding : Finding) :
    (finding.renumber f).kind = finding.kind := by
  cases finding <;> rfl

theorem closingFault?_renumber (f : Nat → Nat) (tag : Tag) (innermost? : Option OpenElement) :
    closingFault? (tag.renumber f) (innermost?.map (OpenElement.renumber f)) =
      (closingFault? tag innermost?).map (Finding.renumber f) := by
  cases innermost? with
  | none => rfl
  | some element =>
    by_cases h : element.name = tag.name <;>
      simp [closingFault?, Tag.renumber, OpenElement.renumber, Finding.renumber, h]

namespace NestingStack

theorem finding?_renumber (f : Nat → Nat) (stack : NestingStack) (tag : Tag) :
    finding? (stack.map (OpenElement.renumber f)) (tag.renumber f) =
      (stack.finding? tag).map (Finding.renumber f) := by
  have hkind : (tag.renumber f).kind = tag.kind := rfl
  cases h : tag.kind with
  | opening => rw [finding?_opening (hkind.trans h), finding?_opening h, Option.map_none]
  | closing =>
    rw [finding?_closing (hkind.trans h), finding?_closing h, List.head?_map,
      closingFault?_renumber]

theorem after_renumber (f : Nat → Nat) (stack : NestingStack) (tag : Tag) :
    after (stack.map (OpenElement.renumber f)) (tag.renumber f) =
      (stack.after tag).map (OpenElement.renumber f) := by
  have hkind : (tag.renumber f).kind = tag.kind := rfl
  cases h : tag.kind with
  | opening =>
    rw [after_opening (hkind.trans h), after_opening h]
    rfl
  | closing => rw [after_closing (hkind.trans h), after_closing h, List.map_tail]

theorem findings_renumber (f : Nat → Nat) (stack : NestingStack) (tags : List Tag) :
    findings (stack.map (OpenElement.renumber f)) (tags.map (Tag.renumber f)) =
      (stack.findings tags).map (Finding.renumber f) := by
  induction tags generalizing stack with
  | nil => rfl
  | cons tag tags ih =>
    rw [List.map_cons, findings_cons, findings_cons, finding?_renumber, after_renumber, ih,
      List.map_append, Option.toList_map]

theorem afterAll_renumber (f : Nat → Nat) (stack : NestingStack) (tags : List Tag) :
    afterAll (stack.map (OpenElement.renumber f)) (tags.map (Tag.renumber f)) =
      (stack.afterAll tags).map (OpenElement.renumber f) := by
  induction tags generalizing stack with
  | nil => rfl
  | cons tag tags ih => rw [List.map_cons, afterAll_cons, afterAll_cons, after_renumber, ih]

theorem unclosed_renumber (f : Nat → Nat) (stack : NestingStack) :
    unclosed (stack.map (OpenElement.renumber f)) = stack.unclosed.map (Finding.renumber f) := by
  simp [unclosed, outermostFirst, OpenElement.finding, OpenElement.renumber, Finding.renumber,
    Function.comp_def]

end NestingStack

namespace Scanner

theorem renumber_findings (scanner : Scanner) (lines : List String) (f : Nat → Nat) :
    (scanner.validate lines).findings.map (Finding.renumber f) =
      let tags := (scanner.scanLines lines).map (Tag.renumber f)
      NestingStack.findings [] tags ++ (NestingStack.afterAll [] tags).unclosed := by
  have hfindings := NestingStack.findings_renumber f [] (scanner.scanLines lines)
  have hafter := NestingStack.afterAll_renumber f [] (scanner.scanLines lines)
  rw [List.map_nil] at hfindings hafter
  rw [validate_findings, List.map_append, ← NestingStack.unclosed_renumber, ← hfindings, ← hafter]

theorem scan_later (scanner : Scanner) (n line : Nat) (text : List Char) :
    scanner.scan (line + n) text = (scanner.scan line text).map (Tag.renumber (· + n)) := by
  induction text using scan.induct scanner with
  | case1 => simp [scan]
  | case2 rest found h ih =>
    rw [scan, scan]
    simp [h, ih, Tag.renumber]
  | case3 rest h ih =>
    rw [scan, scan]
    simp [h, ih]
  | case4 c rest h ih =>
    rw [scan, scan]
    simp [h, ih]

theorem scanLine_later (scanner : Scanner) (n line : Nat) (text : String) :
    scanner.scanLine text (line + n) = (scanner.scanLine text line).map (Tag.renumber (· + n)) :=
  scanner.scan_later n line text.toList

theorem scanLines_later (scanner : Scanner) (n first : Nat) (lines : List String) :
    ((lines.zipIdx (first + n)).flatMap fun numbered => scanner.scanLine numbered.1 numbered.2) =
      ((lines.zipIdx first).flatMap fun numbered => scanner.scanLine numbered.1 numbered.2).map
        (Tag.renumber (· + n)) := by
  induction lines generalizing first with
  | nil => rfl
  | cons line lines ih =>
    rw [List.zipIdx_cons, List.zipIdx_cons, List.flatMap_cons, List.flatMap_cons, List.map_append,
      scanLine_later, Nat.add_right_comm, ih]

theorem scanLines_append (scanner : Scanner) (lines more : List String) :
    scanner.scanLines (lines ++ more) =
      scanner.scanLines lines ++ (scanner.scanLines more).map (Tag.renumber (· + lines.length)) := by
  rw [scanLines, List.zipIdx_append, List.flatMap_append, scanLines_later]
  rfl

end Scanner

end TagLint
