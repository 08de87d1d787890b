import TagLint.Proofs.LineCuts
import TagLint.Proofs.Renumbering
import TagLint.Proofs.TagPositions

/-! The tags of a text and the tags of its physical lines. No name holds a line end, so
no tag runs over one, and the line of a tag is told by the line ends before its `<`. -/

namespace TagLint

/-- A line ends with the character at the position. A carriage return that belongs to a
line feed ends no line of its own. -/
def endsLineAt (text : List Char) (position : Nat) : Bool :=
  text[position]? == some '\n' ||
    text[position]? == some '\r' && text[position + 1]? != some '\n'

/-- The number of the line that a position is on, by the number of the first line. -/
def lineAt (first : Nat) (text : List Char) (position : Nat) : Nat :=
  first + (List.range position).countP (endsLineAt text)

/-- The tags of a text by the positions of their `<`, each with the line of its `<`. -/
def TagSet.tagsWithLines (set : TagSet) (first : Nat) (text : List Char) : List Tag :=
  (List.range text.length).filterMap fun position =>
    set.tagAt? (lineAt first text position) text position

theorem lineAt_zero (first : Nat) (text : List Char) : lineAt first text 0 = first :=
  rfl

theorem lineAt_succ (first : Nat) (c : Char) (rest : List Char) (position : Nat) :
    lineAt first (c :: rest) (position + 1) =
      lineAt (if endsLineAt (c :: rest) 0 then first + 1 else first) rest position := by
  have hrest : endsLineAt (c :: rest) ∘ Nat.succ = endsLineAt rest := by
    funext position
    simp [endsLineAt]
  rw [lineAt, List.range_succ_eq_map, List.countP_cons, List.countP_map, hrest, lineAt]
  split <;> omega

theorem prefix_append_iff {name text more : List Char} (h : ∀ c ∈ more.head?, c ∉ name) :
    name <+: text ++ more ↔ name <+: text := by
  refine ⟨fun hfits => ?_, List.prefix_append_of_prefix⟩
  rcases List.prefix_or_prefix_of_prefix hfits (List.prefix_append text more) with hname | htext
  · exact hname
  · obtain ⟨tail, rfl⟩ := htext
    rw [List.prefix_append_right_inj] at hfits
    cases tail with
    | nil => simp
    | cons c tail =>
      obtain ⟨later, rfl⟩ := hfits
      exact absurd (by simp) (h c rfl)

namespace TagSet

theorem longestName?_append (set : TagSet) {more : List Char}
    (h : ∀ c ∈ more.head?, endsName c = true) (text : List Char) :
    set.longestName? (text ++ more) = set.longestName? text := by
  have hfits : ∀ name ∈ set.names,
      name.toList.isPrefixOf (text ++ more) = name.toList.isPrefixOf text := by
    intro name hname
    rw [Bool.eq_iff_iff, List.isPrefixOf_iff_prefix, List.isPrefixOf_iff_prefix]
    exact prefix_append_iff fun c hc => not_mem_name hname (h c hc)
  rw [longestName?, longestName?, List.filter_congr hfits]

/-- A tag does not reach over a character that ends a name. -/
theorem tagBefore?_append (set : TagSet) (line : Nat) {more : List Char}
    (h : ∀ c ∈ more.head?, endsName c = true ∧ c ≠ '/') (text : List Char) :
    set.tagBefore? line (text ++ more) = set.tagBefore? line text := by
  have hends : ∀ c ∈ more.head?, endsName c = true := fun c hc => (h c hc).1
  have hslash : more.head? ≠ some '/' := fun hmore => (h '/' hmore).2 rfl
  rw [tagBefore?_eq_map, tagBefore?_eq_map, kindAndName_append hslash,
    set.longestName?_append hends]

theorem tagsWithLines_cons (set : TagSet) (first : Nat) (c : Char) (rest : List Char) :
    set.tagsWithLines first (c :: rest) =
      (if c = '<' then set.tagBefore? first rest else none).toList ++
        set.tagsWithLines (if endsLineAt (c :: rest) 0 then first + 1 else first) rest := by
  rw [tagsWithLines, List.length_cons, filterMap_range_succ, tagAt?_zero, lineAt_zero]
  simp only [tagAt?_succ, lineAt_succ]
  rfl

theorem tagsWithLines_line (set : TagSet) (first : Nat) {line more : List Char}
    (hline : ∀ c ∈ line, isLineEnd c = false) (hmore : ∀ c ∈ more.head?, isLineEnd c = true) :
    set.tagsWithLines first (line ++ more) =
      set.tagsByPosition first line ++ set.tagsWithLines first more := by
  have hends : ∀ c ∈ more.head?, endsName c = true ∧ c ≠ '/' := by
    intro c hc
    rcases isLineEnd_eq_true_iff.mp (hmore c hc) with rfl | rfl <;> decide
  induction line with
  | nil => rfl
  | cons c line ih =>
    rw [List.forall_mem_cons] at hline
    have hinside : endsLineAt (c :: (line ++ more)) 0 = false := by
      have hc := hline.1
      rw [isLineEnd, Bool.or_eq_false_iff, beq_eq_false_iff_ne, beq_eq_false_iff_ne] at hc
      simp [endsLineAt, hc.1, hc.2]
    rw [List.cons_append, tagsWithLines_cons, hinside, if_neg Bool.false_ne_true, ih hline.2,
      tagsByPosition_cons, set.tagBefore?_append first hends, List.append_assoc]

theorem tagsWithLines_cons_of_ends (set : TagSet) (first : Nat) {c : Char} {rest : List Char}
    (h : endsLineAt (c :: rest) 0 = true) (hc : c ≠ '<') :
    set.tagsWithLines first (c :: rest) = set.tagsWithLines (first + 1) rest := by
  rw [tagsWithLines_cons, if_neg hc, if_pos h]
  rfl

theorem tagsWithLines_lineEnd (set : TagSet) (first : Nat) {text : List Char}
    (h : ∀ c ∈ text.head?, isLineEnd c = true) :
    set.tagsWithLines first text = set.tagsWithLines (first + 1) (afterLineEnd text) := by
  rcases lineEnd_cases h with htext | htext | htext | ⟨htext, hrest⟩
  · rw [htext]
    rfl
  · conv_lhs => rw [htext]
    exact set.tagsWithLines_cons_of_ends first (by simp [endsLineAt]) (by decide)
  · have hinside : endsLineAt ('\r' :: '\n' :: afterLineEnd text) 0 = false := by simp [endsLineAt]
    conv_lhs => rw [htext]
    rw [tagsWithLines_cons, if_neg (by decide), hinside, if_neg Bool.false_ne_true,
      set.tagsWithLines_cons_of_ends first (by simp [endsLineAt]) (by decide)]
    rfl
  · have hends : endsLineAt ('\r' :: afterLineEnd text) 0 = true := by
      simpa [endsLineAt, List.head?_eq_getElem?] using hrest
    conv_lhs => rw [htext]
    exact set.tagsWithLines_cons_of_ends first hends (by decide)

theorem tagsWithLines_eq (set : TagSet) (first : Nat) (text : List Char) :
    set.tagsWithLines first text =
      set.tagsByPosition first (firstLine text) ++
        set.tagsWithLines (first + 1) (laterLines text) := by
  have hline : ∀ c ∈ firstLine text, isLineEnd c = false := fun _ => isLineEnd_of_mem_firstLine
  have hmore : ∀ c ∈ (text.dropWhile (!isLineEnd ·)).head?, isLineEnd c = true :=
    fun _ => isLineEnd_of_head?_dropWhile
  calc set.tagsWithLines first text
      = set.tagsWithLines first (firstLine text ++ text.dropWhile (!isLineEnd ·)) := by
        rw [firstLine_append_dropWhile]
    _ = set.tagsByPosition first (firstLine text) ++
          set.tagsWithLines first (text.dropWhile (!isLineEnd ·)) :=
        set.tagsWithLines_line first hline hmore
    _ = set.tagsByPosition first (firstLine text) ++
          set.tagsWithLines (first + 1) (laterLines text) := by
        rw [set.tagsWithLines_lineEnd first hmore, laterLines]

theorem scan_splitLines (set : TagSet) (first : Nat) (text : List Char) :
    ((((splitLines text).map String.ofList).zipIdx first).flatMap fun numbered =>
      set.scanner.scanLine numbered.1 numbered.2) = set.tagsWithLines first text := by
  induction text using splitLines.induct generalizing first with
  | case1 =>
    rw [splitLines]
    rfl
  | case2 c rest ih =>
    rw [splitLines, List.map_cons, List.zipIdx_cons, List.flatMap_cons, ih,
      tagsWithLines_eq set first (c :: rest), Scanner.scanLine, String.toList_ofList,
      scan_eq_tagsByPosition]

theorem tagBefore?_renumber (set : TagSet) (f : Nat → Nat) (line : Nat) (text : List Char) :
    (set.tagBefore? line text).map (Tag.renumber f) = set.tagBefore? (f line) text := by
  rw [tagBefore?_eq, tagBefore?_eq, Option.map_map]
  rfl

theorem tagAt?_renumber (set : TagSet) (f : Nat → Nat) (line : Nat) (text : List Char)
    (position : Nat) :
    (set.tagAt? line text position).map (Tag.renumber f) =
      set.tagAt? (f line) text position := by
  by_cases h : text[position]? = some '<' <;> simp [tagAt?, h, tagBefore?_renumber]

theorem tagsWithLines_renumber (set : TagSet) (n first line : Nat) (text : List Char) :
    (set.tagsWithLines first text).map (Tag.renumber fun _ => n) =
      (set.tagsByPosition line text).map (Tag.renumber fun _ => n) := by
  simp only [tagsWithLines, tagsByPosition, List.map_filterMap, tagAt?_renumber]

theorem scanLines_physicalLines (set : TagSet) (content : String) :
    set.scanner.scanLines (physicalLines content) = set.tagsWithLines 1 content.toList :=
  set.scan_splitLines 1 content.toList

theorem renumber_scanLines_physicalLines (set : TagSet) (n line : Nat) (content : String) :
    (set.scanner.scanLines (physicalLines content)).map (Tag.renumber fun _ => n) =
      (set.scanner.scanLine content line).map (Tag.renumber fun _ => n) := by
  rw [scanLines_physicalLines, Scanner.scanLine, scan_eq_tagsByPosition, tagsWithLines_renumber]

end TagSet

theorem Scanner.scanLines_singleton (scanner : Scanner) (line : String) :
    scanner.scanLines [line] = scanner.scanLine line 1 := by
  simp [scanLines]

/-- The tags of the physical lines of a text are those of the whole text, each with the
line that its `<` is on. So it makes no difference to the findings, but for the line
numbers in them, whether the text is split. -/
theorem tags_of_physicalLines (set : TagSet) (content : String) :
    let text := content.toList
    (∀ line, set.scanner.scanLine content line =
        (List.range text.length).filterMap (set.tagAt? line text)) ∧
      set.scanner.scanLines (physicalLines content) =
        (List.range text.length).filterMap (fun position =>
          set.tagAt? (lineAt 1 text position) text position) ∧
      (∀ line, (set.scanner.scanLines (physicalLines content)).map (fun tag => (tag.kind, tag.name)) =
        (set.scanner.scanLine content line).map fun tag => (tag.kind, tag.name)) ∧
      (set.scanner.validateDocument content).findings.map (Finding.renumber fun _ => 0) =
        (set.scanner.validate [content]).findings.map (Finding.renumber fun _ => 0) := by
  refine ⟨fun line => set.scan_eq_tagsByPosition line content.toList,
    set.scanLines_physicalLines content, fun line => ?_, ?_⟩
  · have htags := congrArg (List.map fun tag => (tag.kind, tag.name))
      (set.renumber_scanLines_physicalLines 0 line content)
    rwa [List.map_map, List.map_map] at htags
  · rw [Scanner.validateDocument, Scanner.renumber_findings, Scanner.renumber_findings,
      Scanner.scanLines_singleton, set.renumber_scanLines_physicalLines 0 1 content]

end TagLint
