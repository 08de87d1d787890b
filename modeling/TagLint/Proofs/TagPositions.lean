import TagLint.Proofs.LongestName

/-! Scanning by position. The tags of a line are read off each `<` on its own,
by the longest name behind it. The scan goes on behind each tag that it finds
and misses nothing, since no name holds a `<`. -/

namespace TagLint

theorem filterMap_range_succ {α : Type} (f : Nat → Option α) (n : Nat) :
    (List.range (n + 1)).filterMap f =
      (f 0).toList ++ (List.range n).filterMap fun i => f (i + 1) := by
  rw [List.range_succ_eq_map, List.filterMap_cons, List.filterMap_map]
  cases f 0 <;> rfl

/-- The kind of a tag by what follows its `<`, and the text at which its name has to begin. -/
def kindAndName : List Char → Tag.Kind × List Char
  | '/' :: text => (.closing, text)
  | text => (.opening, text)

theorem kindAndName_of_ne_slash {text : List Char} (h : text.head? ≠ some '/') :
    kindAndName text = (.opening, text) := by
  cases text with
  | nil => rfl
  | cons c rest =>
    have hc : c ≠ '/' := fun he => h (by rw [he, List.head?_cons])
    simp [kindAndName, hc]

theorem kindAndName_append {more : List Char} (h : more.head? ≠ some '/') (text : List Char) :
    kindAndName (text ++ more) = ((kindAndName text).1, (kindAndName text).2 ++ more) := by
  cases text with
  | nil => exact kindAndName_of_ne_slash h
  | cons c rest => by_cases hc : c = '/' <;> simp [kindAndName, hc]

namespace TagSet

/-- The tag whose `<` stands in front of the text. A slash makes it a closing tag. -/
def tagBefore? (set : TagSet) (line : Nat) : List Char → Option Tag
  | '/' :: text => (set.longestName? text).map (⟨.closing, ·, line⟩)
  | text => (set.longestName? text).map (⟨.opening, ·, line⟩)

def tagAt? (set : TagSet) (line : Nat) (text : List Char) (position : Nat) : Option Tag :=
  if text[position]? = some '<' then set.tagBefore? line (text.drop (position + 1)) else none

/-- The tags of a line by the positions of their `<`, from left to right. -/
def tagsByPosition (set : TagSet) (line : Nat) (text : List Char) : List Tag :=
  (List.range text.length).filterMap (set.tagAt? line text)

theorem not_mem_name {set : TagSet} {name : String} {c : Char} (h : name ∈ set.names)
    (hc : endsName c = true) : c ∉ name.toList :=
  (set.isName name h).not_mem hc

theorem not_name_prefix_of_slash {set : TagSet} {name : String} {text : List Char}
    (h : name ∈ set.names) : ¬ name.toList <+: '/' :: text := by
  intro hfits
  cases hname : name.toList with
  | nil => exact (set.isName name h).1 (String.toList_eq_nil_iff.mp hname)
  | cons c rest =>
    rw [hname, List.cons_prefix_cons] at hfits
    have hslash : '/' ∈ name.toList := by rw [hname, hfits.1]; exact List.mem_cons_self
    exact not_mem_name h (by decide) hslash

theorem longestName?_slash (set : TagSet) (text : List Char) :
    set.longestName? ('/' :: text) = none := by
  cases hfound : set.longestName? ('/' :: text) with
  | none => rfl
  | some name =>
    have hname := isLongest_of_longestName? hfound
    exact absurd hname.isPrefix (not_name_prefix_of_slash hname.mem)

theorem scanner_tagAt?_eq (set : TagSet) (text : List Char) : set.scanner.tagAt? text =
    (set.longestName? (kindAndName text).2).map ((kindAndName text).1, ·) := by
  cases text with
  | nil => simp [Scanner.tagAt?, kindAndName, name?_eq_longestName?]
  | cons c rest =>
    by_cases hc : c = '/'
    · simp only [hc, Scanner.tagAt?, kindAndName, name?_eq_longestName?, longestName?_slash,
        Option.map_none]
      cases set.longestName? rest <;> rfl
    · simp [Scanner.tagAt?, kindAndName, name?_eq_longestName?, hc]

theorem tagBefore?_eq_map (set : TagSet) (line : Nat) (text : List Char) :
    set.tagBefore? line text =
      (set.longestName? (kindAndName text).2).map (⟨(kindAndName text).1, ·, line⟩) := by
  unfold tagBefore? kindAndName
  split <;> rfl

theorem tagBefore?_eq (set : TagSet) (line : Nat) (text : List Char) :
    set.tagBefore? line text =
      (set.scanner.tagAt? text).map fun found => ⟨found.1, found.2, line⟩ := by
  rw [tagBefore?_eq_map, scanner_tagAt?_eq, Option.map_map]
  rfl

theorem tagAt?_zero (set : TagSet) (line : Nat) (c : Char) (rest : List Char) :
    set.tagAt? line (c :: rest) 0 = if c = '<' then set.tagBefore? line rest else none := by
  simp [tagAt?]

theorem tagAt?_succ (set : TagSet) (line : Nat) (c : Char) (rest : List Char) (position : Nat) :
    set.tagAt? line (c :: rest) (position + 1) = set.tagAt? line rest position := by
  simp [tagAt?]

theorem tagsByPosition_cons (set : TagSet) (line : Nat) (c : Char) (rest : List Char) :
    set.tagsByPosition line (c :: rest) =
      (if c = '<' then set.tagBefore? line rest else none).toList ++
        set.tagsByPosition line rest := by
  rw [tagsByPosition, List.length_cons, filterMap_range_succ, tagAt?_zero]
  simp only [tagAt?_succ]
  rfl

theorem tagsByPosition_append {front : List Char} (h : '<' ∉ front) (set : TagSet) (line : Nat)
    (rest : List Char) :
    set.tagsByPosition line (front ++ rest) = set.tagsByPosition line rest := by
  induction front with
  | nil => rfl
  | cons c front ih =>
    rw [List.mem_cons, not_or] at h
    rw [List.cons_append, tagsByPosition_cons, if_neg (Ne.symm h.1), ih h.2]
    rfl

theorem not_mem_take_width {set : TagSet} {text : List Char} {found : Tag.Kind × String}
    (h : set.scanner.tagAt? text = some found) : '<' ∉ text.take (Scanner.width found) := by
  rw [scanner_tagAt?_eq, Option.map_eq_some_iff] at h
  obtain ⟨name, hname, rfl⟩ := h
  obtain ⟨hmem, ⟨tail, htail⟩, _⟩ := isLongest_of_longestName? hname
  have hfree : '<' ∉ name.toList := not_mem_name hmem (by decide)
  by_cases hslash : text.head? = some '/'
  · obtain ⟨rest, rfl⟩ := List.head?_eq_some_iff.mp hslash
    change name.toList ++ tail = rest at htail
    subst htail
    rw [kindAndName, Scanner.width, List.take_succ_cons, List.take_left' String.length_toList,
      List.mem_cons, not_or]
    exact ⟨by decide, hfree⟩
  · rw [kindAndName_of_ne_slash hslash] at htail ⊢
    change name.toList ++ tail = text at htail
    rw [Scanner.width, ← htail, List.take_left' String.length_toList]
    exact hfree

theorem scan_eq_tagsByPosition (set : TagSet) (line : Nat) (text : List Char) :
    set.scanner.scan line text = set.tagsByPosition line text := by
  induction text using Scanner.scan.induct set.scanner with
  | case1 => rw [Scanner.scan]; rfl
  | case2 rest found h ih =>
    have hbehind : set.tagsByPosition line rest =
        set.tagsByPosition line (rest.drop (Scanner.width found)) := by
      have hskip := tagsByPosition_append (not_mem_take_width h) set line
        (rest.drop (Scanner.width found))
      rwa [List.take_append_drop] at hskip
    rw [Scanner.scan, if_pos rfl, h, tagsByPosition_cons, if_pos rfl, tagBefore?_eq, h, hbehind,
      ← ih]
    rfl
  | case3 rest h ih =>
    rw [Scanner.scan, if_pos rfl, h, tagsByPosition_cons, if_pos rfl, tagBefore?_eq, h, ← ih]
    rfl
  | case4 c rest h ih =>
    rw [Scanner.scan, if_neg h, tagsByPosition_cons, if_neg h, ← ih]
    rfl

end TagSet

/-- A line has one tag for each `<` with a name behind it, by the longest such
name, and none for another `<`. No text reads both as an opening and as a closing tag. -/
theorem scanLine_eq_tagsByPosition (set : TagSet) (text : String) (line : Nat) :
    set.scanner.scanLine text line = set.tagsByPosition line text.toList ∧
      ∀ rest : List Char, ¬ ((∃ name ∈ set.names, name.toList <+: rest) ∧
        ∃ name ∈ set.names, '/' :: name.toList <+: rest) := by
  refine ⟨set.scan_eq_tagsByPosition line text.toList, ?_⟩
  rintro rest ⟨⟨name, hname, hopening⟩, other, _, tail, rfl⟩
  exact TagSet.not_name_prefix_of_slash hname hopening

end TagLint
