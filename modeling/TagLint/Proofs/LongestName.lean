import Mathlib.Data.List.MinMax
import TagLint.Scanner

/-! The first name that fits is the longest one. Of two names at the front of one
text the shorter begins the longer, so it has fewer bytes and is tried later. -/

namespace TagLint

theorem utf8ByteSize_lt_of_prefix {name other : String} (h : name.toList <+: other.toList)
    (hne : name ≠ other) : name.utf8ByteSize < other.utf8ByteSize := by
  obtain ⟨tail, htail⟩ := h
  have hother : other = name ++ String.ofList tail := by
    rw [← String.toList_inj, String.toList_append, String.toList_ofList, htail]
  have hpos : (String.ofList tail).utf8ByteSize ≠ 0 := by
    intro hzero
    rw [String.utf8ByteSize_eq_zero_iff] at hzero
    rw [hzero, String.append_empty] at hother
    exact hne hother.symm
  rw [hother, String.utf8ByteSize_append]
  omega

theorem size_le_trans (a b c : String) (hab : decide (b.utf8ByteSize ≤ a.utf8ByteSize) = true)
    (hbc : decide (c.utf8ByteSize ≤ b.utf8ByteSize) = true) :
    decide (c.utf8ByteSize ≤ a.utf8ByteSize) = true := by
  simp only [decide_eq_true_eq] at *
  omega

theorem size_le_total (a b : String) : (decide (b.utf8ByteSize ≤ a.utf8ByteSize) ||
    decide (a.utf8ByteSize ≤ b.utf8ByteSize)) = true := by
  simp only [Bool.or_eq_true, decide_eq_true_eq]
  omega

theorem longestFirst_perm (names : List String) : (longestFirst names).Perm names :=
  List.mergeSort_perm names _

theorem longestFirst_pairwise (names : List String) :
    (longestFirst names).Pairwise fun a b => b.utf8ByteSize ≤ a.utf8ByteSize :=
  (List.pairwise_mergeSort size_le_trans size_le_total names).imp of_decide_eq_true

namespace TagSet

/-- The name is at the front of the text, and no longer name of the set is. -/
structure IsLongest (set : TagSet) (text : List Char) (name : String) : Prop where
  mem : name ∈ set.names
  isPrefix : name.toList <+: text
  longest : ∀ other ∈ set.names, other.toList <+: text → other.length ≤ name.length

def longestName? (set : TagSet) (text : List Char) : Option String :=
  (set.names.filter (·.toList.isPrefixOf text)).argmax String.length

theorem eq_of_prefix_of_length_eq {name other : String} {text : List Char}
    (h : name.toList <+: text) (h' : other.toList <+: text) (hlength : name.length = other.length) :
    name = other := by
  rw [← String.length_toList, ← String.length_toList] at hlength
  have hfits : name.toList <+: other.toList :=
    List.prefix_of_prefix_length_le h h' (Nat.le_of_eq hlength)
  exact String.toList_inj.mp (hfits.eq_of_length hlength)

theorem IsLongest.unique {set : TagSet} {text : List Char} {name other : String}
    (h : set.IsLongest text name) (h' : set.IsLongest text other) : name = other :=
  eq_of_prefix_of_length_eq h.isPrefix h'.isPrefix
    (Nat.le_antisymm (h'.longest name h.mem h.isPrefix) (h.longest other h'.mem h'.isPrefix))

theorem mem_filter_isPrefixOf {set : TagSet} {text : List Char} {name : String} :
    name ∈ set.names.filter (·.toList.isPrefixOf text) ↔
      name ∈ set.names ∧ name.toList <+: text := by
  rw [List.mem_filter, List.isPrefixOf_iff_prefix]

theorem isLongest_of_longestName? {set : TagSet} {text : List Char} {name : String}
    (h : set.longestName? text = some name) : set.IsLongest text name := by
  obtain ⟨hmem, hfits⟩ := mem_filter_isPrefixOf.mp (List.argmax_mem h)
  refine ⟨hmem, hfits, fun other hother hfits' => ?_⟩
  exact List.le_of_mem_argmax (mem_filter_isPrefixOf.mpr ⟨hother, hfits'⟩) h

theorem longestName?_eq_some_iff {set : TagSet} {text : List Char} {name : String} :
    set.longestName? text = some name ↔ set.IsLongest text name := by
  refine ⟨isLongest_of_longestName?, fun h => ?_⟩
  cases hfound : set.longestName? text with
  | none =>
    have hmem := mem_filter_isPrefixOf.mpr ⟨h.mem, h.isPrefix⟩
    rw [List.argmax_eq_none.mp hfound] at hmem
    exact absurd hmem List.not_mem_nil
  | some other => rw [(isLongest_of_longestName? hfound).unique h]

theorem longestName?_of_mem {set : TagSet} {name : String} (h : name ∈ set.names) :
    set.longestName? name.toList = some name := by
  refine longestName?_eq_some_iff.mpr ⟨h, List.prefix_refl _, fun other _ hfits => ?_⟩
  have hle := hfits.length_le
  rwa [String.length_toList, String.length_toList] at hle

theorem mem_alternatives {set : TagSet} {name : String} :
    name ∈ set.scanner.alternatives ↔ name ∈ set.names :=
  (longestFirst_perm set.names).mem_iff

theorem alternatives_pairwise (set : TagSet) :
    set.scanner.alternatives.Pairwise fun a b => b.utf8ByteSize ≤ a.utf8ByteSize :=
  longestFirst_pairwise set.names

/-- A longer name at the front of the text would have been tried before. -/
theorem isLongest_of_name? {set : TagSet} {text : List Char} {name : String}
    (h : set.scanner.name? text = some name) : set.IsLongest text name := by
  obtain ⟨hfits, before, behind, hsplit, hbefore⟩ := List.find?_eq_some_iff_append.mp h
  rw [List.isPrefixOf_iff_prefix] at hfits
  have hmem : name ∈ set.scanner.alternatives := by rw [hsplit]; simp
  refine ⟨mem_alternatives.mp hmem, hfits, fun other hother hfits' => ?_⟩
  by_contra hlonger
  have hle : name.toList.length ≤ other.toList.length := by
    rw [String.length_toList, String.length_toList]
    omega
  have hextends : name.toList <+: other.toList := List.prefix_of_prefix_length_le hfits hfits' hle
  have hne : name ≠ other := by
    rintro rfl
    exact hlonger (Nat.le_refl _)
  have hbytes := utf8ByteSize_lt_of_prefix hextends hne
  rw [← mem_alternatives, hsplit, List.mem_append, List.mem_cons] at hother
  rcases hother with hother | rfl | hother
  · have htried := hbefore other hother
    rw [List.isPrefixOf_iff_prefix.mpr hfits'] at htried
    exact Bool.noConfusion htried
  · exact hne rfl
  · have hsorted := alternatives_pairwise set
    rw [hsplit, List.pairwise_append, List.pairwise_cons] at hsorted
    exact absurd (hsorted.2.1.1 other hother) (Nat.not_le_of_lt hbytes)

theorem name?_eq_some_iff {set : TagSet} {text : List Char} {name : String} :
    set.scanner.name? text = some name ↔ set.IsLongest text name := by
  refine ⟨isLongest_of_name?, fun h => ?_⟩
  cases hfound : set.scanner.name? text with
  | none =>
    have hnone := List.find?_eq_none.mp hfound name (mem_alternatives.mpr h.mem)
    rw [List.isPrefixOf_iff_prefix] at hnone
    exact absurd h.isPrefix hnone
  | some other => rw [(isLongest_of_name? hfound).unique h]

theorem name?_eq_longestName? (set : TagSet) (text : List Char) :
    set.scanner.name? text = set.longestName? text := by
  apply Option.ext
  intro name
  rw [name?_eq_some_iff, longestName?_eq_some_iff]

end TagSet

end TagLint
