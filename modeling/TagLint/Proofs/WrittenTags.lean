import TagLint.Proofs.TagLines

/-! Lines that are put together from parts. A line may be cut in front of a character that neither
belongs to a name nor makes a tag a closing one, so tags that are written with their attributes,
and with text between them, are found again. -/

namespace TagLint

def Tag.Kind.slash : Tag.Kind → String
  | opening => ""
  | closing => "/"

/-- A tag as it stands in a line: its attributes go up to the bracket, its text follows it. -/
structure WrittenTag where
  kind : Tag.Kind
  name : String
  attributes : String
  text : String
deriving DecidableEq, Repr

namespace WrittenTag

def toText (written : WrittenTag) : String :=
  "<" ++ written.kind.slash ++ written.name ++ written.attributes ++ ">" ++ written.text

def tag (line : Nat) (written : WrittenTag) : Tag :=
  ⟨written.kind, written.name, line⟩

structure IsProper (set : TagSet) (written : WrittenTag) : Prop where
  name_mem : written.name ∈ set.names
  attributes_start : ∀ c ∈ written.attributes.toList.head?, isBlank c = true
  attributes_free : '<' ∉ written.attributes.toList
  text_free : '<' ∉ written.text.toList

end WrittenTag

/-- The text is empty or starts with a character at which a line may be cut. -/
def StartsAtBoundary (text : String) : Prop :=
  ∀ c ∈ text.toList.head?, c = '<' ∨ c = '>' ∨ isBlank c = true

theorem StartsAtBoundary.endsName {text : String} (h : StartsAtBoundary text) :
    ∀ c ∈ text.toList.head?, endsName c = true ∧ c ≠ '/' := by
  intro c hc
  rcases h c hc with rfl | rfl | hblank
  · decide
  · decide
  · refine ⟨by simp [TagLint.endsName, hblank], ?_⟩
    rintro rfl
    exact absurd hblank (by decide)

theorem StartsAtBoundary.append {text more : String} (h : StartsAtBoundary text)
    (hmore : StartsAtBoundary more) : StartsAtBoundary (text ++ more) := by
  intro c hc
  rw [String.toList_append, List.head?_append, Option.mem_def, Option.or_eq_some_iff] at hc
  rcases hc with hc | ⟨_, hc⟩
  · exact h c hc
  · exact hmore c hc

theorem WrittenTag.startsAtBoundary_join (tags : List WrittenTag) :
    StartsAtBoundary (String.join (tags.map WrittenTag.toText)) := by
  cases tags with
  | nil =>
    intro c hc
    simp at hc
  | cons written tags =>
    intro c hc
    simp only [List.map_cons, String.join_cons, WrittenTag.toText, String.append_assoc] at hc
    rw [String.toList_append] at hc
    exact .inl (Option.some.inj hc).symm

namespace TagSet

theorem tagsByPosition_cut (set : TagSet) (line : Nat) {more : List Char}
    (h : ∀ c ∈ more.head?, endsName c = true ∧ c ≠ '/') (text : List Char) :
    set.tagsByPosition line (text ++ more) =
      set.tagsByPosition line text ++ set.tagsByPosition line more := by
  induction text with
  | nil => rfl
  | cons c text ih =>
    rw [List.cons_append, tagsByPosition_cons, tagsByPosition_cons, ih,
      set.tagBefore?_append line h, List.append_assoc]

theorem tagsByPosition_of_free (set : TagSet) (line : Nat) {text : List Char} (h : '<' ∉ text) :
    set.tagsByPosition line text = [] := by
  have hskip := tagsByPosition_append h set line []
  rwa [List.append_nil] at hskip

theorem scanLine_append (set : TagSet) (line : Nat) (text : String) {more : String}
    (h : StartsAtBoundary more) :
    set.scanner.scanLine (text ++ more) line =
      set.scanner.scanLine text line ++ set.scanner.scanLine more line := by
  simp only [Scanner.scanLine, scan_eq_tagsByPosition, String.toList_append]
  exact set.tagsByPosition_cut line h.endsName text.toList

theorem scanLine_of_free (set : TagSet) (line : Nat) {text : String} (h : '<' ∉ text.toList) :
    set.scanner.scanLine text line = [] := by
  rw [Scanner.scanLine, scan_eq_tagsByPosition, set.tagsByPosition_of_free line h]

theorem kindAndName_slash (set : TagSet) (kind : Tag.Kind) {name : String}
    (h : name ∈ set.names) : kindAndName (kind.slash ++ name).toList = (kind, name.toList) := by
  have hslash : name.toList.head? ≠ some '/' := fun hhead =>
    not_mem_name h (by decide) (List.mem_of_mem_head? hhead)
  rw [String.toList_append]
  cases kind with
  | opening => exact kindAndName_of_ne_slash hslash
  | closing => rfl

/-- The name is all that stands there, so no longer name is read. -/
theorem scanLine_name (set : TagSet) (line : Nat) (kind : Tag.Kind) {name : String}
    (h : name ∈ set.names) :
    set.scanner.scanLine ("<" ++ (kind.slash ++ name)) line = [⟨kind, name, line⟩] := by
  have htag : set.tagBefore? line (kind.slash ++ name).toList = some ⟨kind, name, line⟩ := by
    rw [tagBefore?_eq_map, set.kindAndName_slash kind h, longestName?_of_mem h, Option.map_some]
  have hfree : '<' ∉ (kind.slash ++ name).toList := by
    rw [String.toList_append, List.mem_append, not_or]
    exact ⟨by cases kind <;> decide, not_mem_name h (by decide)⟩
  rw [Scanner.scanLine, scan_eq_tagsByPosition, String.toList_append]
  change set.tagsByPosition line ('<' :: (kind.slash ++ name).toList) = _
  rw [tagsByPosition_cons, if_pos rfl, htag, set.tagsByPosition_of_free line hfree]
  rfl

theorem scanLine_toText (set : TagSet) (line : Nat) {written : WrittenTag}
    (h : written.IsProper set) :
    set.scanner.scanLine written.toText line = [written.tag line] := by
  have hattributes : StartsAtBoundary written.attributes :=
    fun c hc => .inr (.inr (h.attributes_start c hc))
  have hbracket : StartsAtBoundary (">" ++ written.text) := by
    intro c hc
    rw [String.toList_append] at hc
    exact .inr (.inl (Option.some.inj hc).symm)
  have hfree : '<' ∉ (written.attributes ++ (">" ++ written.text)).toList := by
    simp only [String.toList_append, List.mem_append, not_or]
    exact ⟨h.attributes_free, by decide, h.text_free⟩
  have hparts : written.toText =
      ("<" ++ (written.kind.slash ++ written.name)) ++
        (written.attributes ++ (">" ++ written.text)) := by
    simp only [WrittenTag.toText, String.append_assoc]
  rw [hparts, set.scanLine_append line _ (hattributes.append hbracket),
    set.scanLine_name line written.kind h.name_mem, set.scanLine_of_free line hfree,
    List.append_nil]
  rfl

theorem scanLine_join (set : TagSet) (line : Nat) {tags : List WrittenTag}
    (h : ∀ written ∈ tags, written.IsProper set) :
    set.scanner.scanLine (String.join (tags.map WrittenTag.toText)) line =
      tags.map (WrittenTag.tag line) := by
  induction tags with
  | nil => exact set.scanLine_of_free line (by simp)
  | cons written tags ih =>
    rw [List.forall_mem_cons] at h
    rw [List.map_cons, String.join_cons,
      set.scanLine_append line _ (WrittenTag.startsAtBoundary_join tags),
      set.scanLine_toText line h.1, ih h.2]
    rfl

end TagSet

/-- The tags of a line that is cut in front of a bracket or a blank are those of its two parts.
So scanning gives back all tags that were written, each with its kind and its name. -/
theorem scanLine_of_parts (set : TagSet) (line : Nat) :
    (∀ text more : String,
      (∀ c ∈ more.toList.head?, c = '<' ∨ c = '>' ∨ isBlank c = true) →
        set.scanner.scanLine (text ++ more) line =
          set.scanner.scanLine text line ++ set.scanner.scanLine more line) ∧
      ∀ (front : String) (tags : List WrittenTag), '<' ∉ front.toList →
        (∀ written ∈ tags, written.IsProper set) →
          set.scanner.scanLine (front ++ String.join (tags.map WrittenTag.toText)) line =
            tags.map fun written => ⟨written.kind, written.name, line⟩ := by
  refine ⟨fun text more => set.scanLine_append line text, fun front tags hfront htags => ?_⟩
  rw [set.scanLine_append line front (WrittenTag.startsAtBoundary_join tags),
    set.scanLine_of_free line hfront, set.scanLine_join line htags]
  rfl

theorem scanLine_of_parts_with_longer_name :
    let set : TagSet := ⟨none, none, ["head", "header", "x|y"], by simp, by decide, by decide⟩
    let tags : List WrittenTag :=
      [⟨.opening, "head", " er='/header'", "er>"⟩, ⟨.closing, "header", "", ""⟩,
        ⟨.closing, "x|y", "\n", " / "⟩]
    set.scanner.scanLine ("<</head" ++ ">er</header") 3 =
        set.scanner.scanLine "<</head" 3 ++ set.scanner.scanLine ">er</header" 3 ∧
      set.scanner.scanLine ("1 > 0 /" ++ String.join (tags.map WrittenTag.toText)) 3 =
        [⟨.opening, "head", 3⟩, ⟨.closing, "header", 3⟩, ⟨.closing, "x|y", 3⟩] := by
  intro set tags
  obtain ⟨hcut, hwritten⟩ := scanLine_of_parts set 3
  have hboundary : StartsAtBoundary ">er</header" :=
    fun c hc => .inr (.inl (Option.some.inj hc).symm)
  have hhead : WrittenTag.IsProper set ⟨.opening, "head", " er='/header'", "er>"⟩ :=
    ⟨by decide, fun c hc => Option.some.inj hc ▸ rfl, by decide, by decide⟩
  have hheader : WrittenTag.IsProper set ⟨.closing, "header", "", ""⟩ :=
    ⟨by decide, by simp, by decide, by decide⟩
  have hbar : WrittenTag.IsProper set ⟨.closing, "x|y", "\n", " / "⟩ :=
    ⟨by decide, fun c hc => Option.some.inj hc ▸ rfl, by decide, by decide⟩
  have hproper : ∀ written ∈ tags, written.IsProper set := by
    simp only [tags, List.forall_mem_cons]
    exact ⟨hhead, hheader, hbar, List.forall_mem_nil _⟩
  exact ⟨hcut _ _ hboundary, hwritten _ tags (by decide) hproper⟩

end TagLint
