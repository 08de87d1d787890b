import TagLint.Proofs.FindingNames
import TagLint.Proofs.NameLists
import TagLint.Scanner

/-! What the tags of a line owe to the tracked names. With fewer names each tag is read by the
longest of them that begins its name, or not at all. So only which names there are counts, and not
how they were listed. -/

namespace TagLint

/-- A tag of the same kind and line, with a name that goes on behind the name of the other. -/
structure Tag.Extends (longer tag : Tag) : Prop where
  kind_eq : longer.kind = tag.kind
  line_eq : longer.line = tag.line
  name_prefix : tag.name.toList <+: longer.name.toList

namespace TagSet

/-- A tag as it is read by the names of the set. -/
def reread? (set : TagSet) (tag : Tag) : Option Tag :=
  (set.longestName? tag.name.toList).map fun name => { tag with name := name }

section Reread

variable {set : TagSet} {text : List Char} {name : String} {tag : Tag}

theorem longestName?_eq_none_iff :
    set.longestName? text = none ↔ ∀ name ∈ set.names, ¬ name.toList <+: text := by
  rw [longestName?, List.argmax_eq_none, List.filter_eq_nil_iff]
  simp only [List.isPrefixOf_iff_prefix]

theorem reread?_of_mem (h : tag.name ∈ set.names) : set.reread? tag = some tag := by
  rw [reread?, longestName?_of_mem h]
  rfl

theorem reread?_of_no_prefix (h : ∀ name ∈ set.names, ¬ name.toList <+: tag.name.toList) :
    set.reread? tag = none := by
  rw [reread?, longestName?_eq_none_iff.mpr h]
  rfl

theorem extends_of_reread? {longer : Tag} (h : set.reread? longer = some tag) :
    longer.Extends tag := by
  rw [reread?, Option.map_eq_some_iff] at h
  obtain ⟨name, hname, rfl⟩ := h
  exact ⟨rfl, rfl, (isLongest_of_longestName? hname).isPrefix⟩

end Reread

section FewerNames

variable {small large : TagSet} (h : ∀ name ∈ small.names, name ∈ large.names)

include h

/-- What begins the text is no longer than the longest name there, so it begins that name. -/
theorem longestName?_reread (text : List Char) : small.longestName? text =
    (large.longestName? text).bind fun name => small.longestName? name.toList := by
  cases hfound : large.longestName? text with
  | none =>
    have hnone := longestName?_eq_none_iff.mp hfound
    exact longestName?_eq_none_iff.mpr fun name hname => hnone name (h name hname)
  | some longest =>
    have hlongest := isLongest_of_longestName? hfound
    have hfits : ∀ name ∈ small.names,
        name.toList.isPrefixOf text = name.toList.isPrefixOf longest.toList := by
      intro name hname
      rw [Bool.eq_iff_iff, List.isPrefixOf_iff_prefix, List.isPrefixOf_iff_prefix]
      constructor
      · intro hfits
        have hle := hlongest.longest name (h name hname) hfits
        rw [← String.length_toList, ← String.length_toList] at hle
        exact List.prefix_of_prefix_length_le hfits hlongest.isPrefix hle
      · intro hfits
        exact hfits.trans hlongest.isPrefix
    rw [Option.bind_some, longestName?, longestName?, List.filter_congr hfits]

theorem tagBefore?_reread (line : Nat) (text : List Char) :
    small.tagBefore? line text = (large.tagBefore? line text).bind small.reread? := by
  rw [tagBefore?_eq_map, tagBefore?_eq_map, longestName?_reread h]
  cases large.longestName? (kindAndName text).2 <;> simp [reread?]

theorem tagAt?_reread (line : Nat) (text : List Char) (position : Nat) :
    small.tagAt? line text position = (large.tagAt? line text position).bind small.reread? := by
  by_cases hopener : text[position]? = some '<'
  · rw [tagAt?, tagAt?, if_pos hopener, if_pos hopener, tagBefore?_reread h]
  · rw [tagAt?, tagAt?, if_neg hopener, if_neg hopener, Option.bind_none]

theorem exists_longer_tagAt? {line position : Nat} {text : List Char} {tag : Tag}
    (htag : small.tagAt? line text position = some tag) :
    ∃ longer, large.tagAt? line text position = some longer ∧ longer.Extends tag := by
  rw [tagAt?_reread h, Option.bind_eq_some_iff] at htag
  obtain ⟨longer, hlonger, hread⟩ := htag
  exact ⟨longer, hlonger, extends_of_reread? hread⟩

theorem scanLine_reread (text : String) (line : Nat) :
    small.scanner.scanLine text line =
      (large.scanner.scanLine text line).filterMap small.reread? := by
  have htags : small.tagAt? line text.toList =
      fun position => (large.tagAt? line text.toList position).bind small.reread? :=
    funext (tagAt?_reread h line text.toList)
  rw [Scanner.scanLine, Scanner.scanLine, scan_eq_tagsByPosition, scan_eq_tagsByPosition,
    tagsByPosition, tagsByPosition, List.filterMap_filterMap, htags]

end FewerNames

section SameNames

variable {set other : TagSet} (h : ∀ name, name ∈ set.names ↔ name ∈ other.names)

include h

theorem scanLine_congr (text : String) (line : Nat) :
    set.scanner.scanLine text line = other.scanner.scanLine text line := by
  have hkept : ∀ tag ∈ other.scanner.scanLine text line, set.reread? tag = some tag :=
    fun tag htag => reread?_of_mem ((h tag.name).mpr (name_of_mem_scanLine htag))
  rw [scanLine_reread fun name => (h name).mp, List.filterMap_congr hkept, List.filterMap_some]

theorem validate_congr (lines : List String) :
    set.scanner.validate lines = other.scanner.validate lines := by
  have htags : set.scanner.scanLines lines = other.scanner.scanLines lines := by
    simp only [Scanner.scanLines, scanLine_congr h]
  rw [Scanner.validate, Scanner.validate, Scanner.inspect, Scanner.inspect, htags]

theorem alternatives_perm : set.scanner.alternatives.Perm other.scanner.alternatives := by
  have hnames : set.names.Perm other.names :=
    (List.perm_ext_iff_of_nodup set.nodup other.nodup).mpr h
  exact (longestFirst_perm set.names).trans (hnames.trans (longestFirst_perm other.names).symm)

end SameNames

end TagSet

/-- Two lists of the same names lead to the same tags and the same findings, although the names may
be tried in another order. -/
theorem scanner_of_same_names {names other : List String} {set set' : TagSet}
    (hset : TagSet.ofNames names = .ok set) (hset' : TagSet.ofNames other = .ok set')
    (h : ∀ name, name ∈ names ↔ name ∈ other) :
    set.scanner.alternatives.Perm set'.scanner.alternatives ∧
      (∀ text line, set.scanner.scanLine text line = set'.scanner.scanLine text line) ∧
      (∀ lines, set.scanner.validate lines = set'.scanner.validate lines) ∧
      ∀ content, set.scanner.validateDocument content = set'.scanner.validateDocument content := by
  have hnames : ∀ name, name ∈ set.names ↔ name ∈ set'.names := by
    intro name
    rw [(TagSet.accepted_of_ofNames hset).2.2, (TagSet.accepted_of_ofNames hset').2.2,
      List.mem_eraseDups, List.mem_eraseDups, h]
  exact ⟨TagSet.alternatives_perm hnames, TagSet.scanLine_congr hnames,
    TagSet.validate_congr hnames, fun content => TagSet.validate_congr hnames _⟩

theorem scanner_of_same_names_in_two_orders :
    let names := ["nav", "div", "x.y"]
    let other := ["x.y", "div", "nav", "div"]
    (∀ name, name ∈ names ↔ name ∈ other) ∧ ∃ set set', TagSet.ofNames names = .ok set ∧
      TagSet.ofNames other = .ok set' ∧ set.scanner.pattern ≠ set'.scanner.pattern ∧
      (∀ text line, set.scanner.scanLine text line = set'.scanner.scanLine text line) ∧
      ∀ content, set.scanner.validateDocument content = set'.scanner.validateDocument content := by
  intro names other
  have hsame : ∀ name, name ∈ names ↔ name ∈ other := by
    intro name
    simp only [names, other, List.mem_cons, List.not_mem_nil, or_false]
    tauto
  have hgood : names ≠ [] ∧ ∀ name ∈ names, IsName name := by decide
  have hgood' : other ≠ [] ∧ ∀ name ∈ other, IsName name := by decide
  obtain ⟨set, hset⟩ := TagSet.exists_ofNames_iff.mpr hgood
  obtain ⟨set', hset'⟩ := TagSet.exists_ofNames_iff.mpr hgood'
  obtain ⟨_, htags, _, hfindings⟩ := scanner_of_same_names hset hset' hsame
  refine ⟨hsame, set, set', hset, hset', ?_, htags, hfindings⟩
  have horder : longestFirst names.eraseDups = ["nav", "div", "x.y"] :=
    List.mergeSort_of_pairwise (by decide)
  have horder' : longestFirst other.eraseDups = ["x.y", "div", "nav"] :=
    List.mergeSort_of_pairwise (by decide)
  rw [TagSet.scanner, TagSet.scanner, (TagSet.accepted_of_ofNames hset).2.2,
    (TagSet.accepted_of_ofNames hset').2.2, horder, horder']
  decide +kernel

/-- With fewer names the tags are those with all names, each with the longest of the fewer names
that begins its name, as far as there is one. A tag has its place, its kind and its line by any
names, and with more of them its name can only go on. -/
theorem scanLine_of_fewer_names {small large : TagSet}
    (h : ∀ name ∈ small.names, name ∈ large.names) (text : String) (line : Nat) :
    let tags := small.scanner.scanLine text line
    let moreTags := large.scanner.scanLine text line
    let positions := List.range text.toList.length
    tags = moreTags.filterMap small.reread? ∧
      tags = positions.filterMap (small.tagAt? line text.toList) ∧
      moreTags = positions.filterMap (large.tagAt? line text.toList) ∧
      (∀ position tag, small.tagAt? line text.toList position = some tag →
        ∃ longer, large.tagAt? line text.toList position = some longer ∧ longer.Extends tag) ∧
      ((∀ added ∈ large.names, added ∉ small.names → ∀ name ∈ small.names,
          ¬ (name.toList <+: added.toList ∧ name ≠ added)) →
        tags = moreTags.filter fun tag => tag.name ∈ small.names) := by
  intro tags moreTags positions
  have htags : tags = moreTags.filterMap small.reread? := TagSet.scanLine_reread h text line
  refine ⟨htags, small.scan_eq_tagsByPosition line text.toList,
    large.scan_eq_tagsByPosition line text.toList, fun position tag =>
      TagSet.exists_longer_tagAt? h, fun hadded => ?_⟩
  have hread : ∀ tag ∈ moreTags,
      small.reread? tag = Option.guard (fun tag => decide (tag.name ∈ small.names)) tag := by
    intro tag htag
    by_cases hname : tag.name ∈ small.names
    · simp [TagSet.reread?_of_mem hname, Option.guard, hname]
    · have hnone : ∀ name ∈ small.names, ¬ name.toList <+: tag.name.toList := by
        intro name hmem hfits
        have hne : name ≠ tag.name := fun heq => hname (heq ▸ hmem)
        exact hadded tag.name (TagSet.name_of_mem_scanLine htag) hname name hmem ⟨hfits, hne⟩
      simp [TagSet.reread?_of_no_prefix hnone, Option.guard, hname]
  rw [htags, List.filterMap_congr hread, List.filterMap_eq_filter]

theorem scanLine_of_fewer_names_begun_by_others :
    let small : TagSet := ⟨none, none, ["head", "nav"], by simp, by decide, by decide⟩
    let large : TagSet := ⟨none, none, ["header", "nav", "head"], by simp, by decide, by decide⟩
    let wider : TagSet := ⟨none, none, ["head", "main", "nav"], by simp, by decide, by decide⟩
    let text := "<header></head><main></navigation>"
    (∀ name ∈ small.names, name ∈ large.names) ∧
      small.scanner.scanLine text 1 =
        (large.scanner.scanLine text 1).filterMap small.reread? ∧
      small.tagAt? 1 text.toList 0 = some ⟨.opening, "head", 1⟩ ∧
      (∃ longer, large.tagAt? 1 text.toList 0 = some longer ∧
        longer.Extends ⟨.opening, "head", 1⟩) ∧
      (∀ name ∈ small.names, name ∈ wider.names) ∧
      (∀ added ∈ wider.names, added ∉ small.names → ∀ name ∈ small.names,
        ¬ (name.toList <+: added.toList ∧ name ≠ added)) ∧
      small.scanner.scanLine text 1 =
        (wider.scanner.scanLine text 1).filter fun tag => tag.name ∈ small.names := by
  intro small large wider text
  have hlarge : ∀ name ∈ small.names, name ∈ large.names := by decide
  have hwider : ∀ name ∈ small.names, name ∈ wider.names := by decide
  have hhead : small.tagAt? 1 text.toList 0 = some ⟨.opening, "head", 1⟩ := by decide +kernel
  have hadded : ∀ added ∈ wider.names, added ∉ small.names → ∀ name ∈ small.names,
      ¬ (name.toList <+: added.toList ∧ name ≠ added) := by decide
  obtain ⟨hreread, _, _, hlonger, _⟩ := scanLine_of_fewer_names hlarge text 1
  exact ⟨hlarge, hreread, hhead, hlonger 0 _ hhead, hwider, hadded,
    (scanLine_of_fewer_names hwider text 1).2.2.2.2 hadded⟩

end TagLint
