import Mathlib.Data.List.Basic
import Mathlib.Data.List.Induction
import TagLint.Proofs.TagSetLoading

/-! Which lists of names make a tag set, and which names the set has. Names are taken one after
the other: a name that was mentioned before adds nothing, and the first bad name decides the
fault. -/

namespace TagLint

/-- The distinct names of a list, in the order in which they are first mentioned. -/
structure FirstMentions (names mentioned : List String) : Prop where
  nodup : mentioned.Nodup
  mem_iff : ∀ name, name ∈ mentioned ↔ name ∈ names
  sublist : mentioned.Sublist names
  in_order : mentioned.Pairwise fun name later => names.idxOf name < names.idxOf later

/-- The message that refuses a list of names. In front of the name that it blames all names are
good, and so is what stands in that name before the character that it shows. -/
inductive RefusedWith (names : List String) : String → Prop
  | noNames (h : names = []) :
      RefusedWith names "tag set must contain at least one element name"
  | emptyName {before after : List String} (h : names = before ++ "" :: after)
      (hbefore : ∀ name ∈ before, IsName name) : RefusedWith names "tag name must not be empty"
  | invalidCharacter {before after : List String} {name : String} {front back : List Char}
      {c : Char} (h : names = before ++ name :: after) (hbefore : ∀ name ∈ before, IsName name)
      (hname : name.toList = front ++ c :: back) (hfront : ∀ d ∈ front, endsName d = false)
      (hc : endsName c = true) :
      RefusedWith names ("tag name '" ++ name ++ "' contains invalid character " ++ quotedChar c)

/-- The ways to show a character between quotes: as it is, by a letter behind a backslash, or by the
hexadecimal digits of its number. -/
inductive ShownBy (c : Char) : List Char → Prop
  | itself (h : isBlank c = false ∨ c = ' ') : ShownBy c ['\'', c, '\'']
  | letter {letter : Char} (h : (letter, c) ∈ [('t', '\t'), ('n', '\n'), ('r', '\r')]) :
      ShownBy c ['\'', '\\', letter, '\'']
  | number {digits : List Char} (h : isBlank c = true)
      (hdigits : numberBelow? 0x110000 16 digits = some c.toNat) :
      ShownBy c ("'\\u\x7b".toList ++ (digits ++ "\x7d'".toList))

/-- What a set of the given names is like. It can be rebuilt from its own names. -/
structure TagSet.Tracks (set : TagSet) (names : List String) : Prop where
  mentions : FirstMentions names set.names
  contains_iff : ∀ name, set.contains name = true ↔ name ∈ names
  rebuilt : ∃ again, TagSet.ofNames set.names = .ok again ∧ again.names = set.names

section Mentions

variable {names : List String}

theorem eraseDups_snoc (names : List String) (name : String) :
    (names ++ [name]).eraseDups =
      if name ∈ names then names.eraseDups else names.eraseDups ++ [name] := by
  rw [List.eraseDups_append]
  by_cases h : name ∈ names <;> simp [List.removeAll, h, List.eraseDups_cons]

theorem eraseDups_sublist (names : List String) : names.eraseDups.Sublist names := by
  induction names using List.reverseRecOn with
  | nil => simp
  | append_singleton names name ih =>
    rw [eraseDups_snoc]
    by_cases h : name ∈ names
    · rw [if_pos h]
      exact ih.trans (List.sublist_append_left _ _)
    · rw [if_neg h]
      exact ih.append_right [name]

theorem eraseDups_of_nodup (h : names.Nodup) : names.eraseDups = names := by
  induction names using List.reverseRecOn with
  | nil => simp
  | append_singleton names name ih =>
    rw [List.nodup_append] at h
    have hnew : name ∉ names := fun hmem => h.2.2 name hmem name List.mem_cons_self rfl
    rw [eraseDups_snoc, if_neg hnew, ih h.1]

theorem eraseDups_in_order (names : List String) :
    names.eraseDups.Pairwise fun name later => names.idxOf name < names.idxOf later := by
  induction names using List.reverseRecOn with
  | nil => simp
  | append_singleton names last ih =>
    have hfront : ∀ name ∈ names.eraseDups, (names ++ [last]).idxOf name = names.idxOf name :=
      fun name hname => List.idxOf_append_of_mem (List.mem_eraseDups.mp hname)
    have hold : names.eraseDups.Pairwise fun name later =>
        (names ++ [last]).idxOf name < (names ++ [last]).idxOf later := by
      refine ih.imp_of_mem fun hname hlater hlt => ?_
      rwa [hfront _ hname, hfront _ hlater]
    rw [eraseDups_snoc]
    by_cases h : last ∈ names
    · rwa [if_pos h]
    · rw [if_neg h, List.pairwise_append]
      refine ⟨hold, List.pairwise_singleton _ _, fun name hname later hlater => ?_⟩
      have hlt : names.idxOf name < names.length :=
        List.idxOf_lt_length_of_mem (List.mem_eraseDups.mp hname)
      rw [List.mem_singleton.mp hlater, hfront name hname, List.idxOf_append_of_notMem h]
      omega

theorem firstMentions_eraseDups (names : List String) : FirstMentions names names.eraseDups where
  nodup := nodup_eraseDups names
  mem_iff _ := List.mem_eraseDups
  sublist := eraseDups_sublist names
  in_order := eraseDups_in_order names

end Mentions

section Shown

theorem shownBy_quotedChar (c : Char) : ShownBy c (quotedChar c).toList := by
  unfold quotedChar
  split
  · exact .letter (by decide)
  · exact .letter (by decide)
  · exact .letter (by decide)
  · exact .itself (.inr rfl)
  · cases hblank : isBlank c with
    | false => simpa using ShownBy.itself (.inl hblank)
    | true =>
      have hvalid : c.toNat.isValidChar := c.valid
      have hlimit : c.toNat < 0x110000 := by
        rcases hvalid with h | h <;> omega
      simpa using ShownBy.number hblank (numberBelow?_toDigits hlimit)

theorem ShownBy.unique {c d : Char} {text : List Char} (h : ShownBy c text)
    (hother : ShownBy d text) : c = d := by
  generalize htext : text = other at hother
  cases h with
  | itself _ =>
    cases hother with
    | itself _ => simpa using htext
    | letter _ => simp at htext
    | number _ _ => simp at htext
  | letter hletter =>
    cases hother with
    | itself _ => simp at htext
    | letter hother =>
      simp only [List.cons.injEq, and_true, true_and] at htext
      subst htext
      simp only [List.mem_cons, List.not_mem_nil, or_false, Prod.mk.injEq] at hletter hother
      grind
    | number _ _ => simp at htext
  | number _ hdigits =>
    cases hother with
    | itself _ => simp at htext
    | letter _ => simp at htext
    | number _ hother =>
      have hsame := List.append_cancel_right (List.append_cancel_left htext)
      rw [hsame, hother, Option.some.injEq] at hdigits
      exact (Char.toNat_inj.mp hdigits).symm

theorem quotedChar_injective : Function.Injective quotedChar := by
  intro c d h
  have hd := shownBy_quotedChar d
  rw [← h] at hd
  exact (shownBy_quotedChar c).unique hd

end Shown

theorem endsName_eq_false_iff {c : Char} :
    endsName c = false ↔ c ≠ '<' ∧ c ≠ '>' ∧ c ≠ '/' ∧ isBlank c = false := by
  simp [endsName, and_assoc]

theorem Rejection.ofName?_eq_some_iff {name : String} {rejection : Rejection} :
    Rejection.ofName? name = some rejection ↔ name = "" ∧ rejection = .emptyName ∨
      ∃ front c back, name.toList = front ++ c :: back ∧ (∀ d ∈ front, endsName d = false) ∧
        endsName c = true ∧ rejection = .invalidCharacter name c := by
  unfold Rejection.ofName?
  by_cases h : name = ""
  · subst h
    have hnil : ∀ (front back : List Char) (c : Char), "".toList ≠ front ++ c :: back := by simp
    simp only [if_true, Option.some.injEq, true_and, hnil, false_and, exists_false, or_false]
    exact eq_comm
  · rw [if_neg h, Option.map_eq_some_iff]
    simp only [h, false_and, false_or]
    constructor
    · rintro ⟨c, hfound, rfl⟩
      obtain ⟨hc, front, back, hname, hfront⟩ := List.find?_eq_some_iff_append.mp hfound
      exact ⟨front, c, back, hname, by simpa using hfront, hc, rfl⟩
    · rintro ⟨front, c, back, hname, hfront, hc, rfl⟩
      refine ⟨c, List.find?_eq_some_iff_append.mpr ⟨hc, front, back, hname, ?_⟩, rfl⟩
      simpa using hfront

namespace TagSet

variable {names : List String}

theorem ofNames_of_isName (hne : names ≠ []) (h : ∀ name ∈ names, IsName name) :
    ∃ set, ofNames names = .ok set ∧ set.names = names.eraseDups := by
  have hnone : names.findSome? Rejection.ofName? = none :=
    List.findSome?_eq_none_iff.mpr fun name hname =>
      Rejection.ofName?_eq_none_iff.mpr (h name hname)
  unfold ofNames
  split
  · next hsome => simp [hnone] at hsome
  · rw [dif_neg hne]
    exact ⟨_, rfl, rfl⟩

theorem ofNames_of_findSome? {rejection : Rejection}
    (h : names.findSome? Rejection.ofName? = some rejection) :
    ofNames names = .error rejection := by
  unfold ofNames
  split
  · next other hother =>
    rw [h, Option.some.injEq] at hother
    rw [hother]
  · next hnone => simp [h] at hnone

/-- Names behind the first bad one are not looked at. -/
theorem ofNames_of_ofName? {before after : List String} {name : String} {rejection : Rejection}
    (h : names = before ++ name :: after) (hbefore : ∀ good ∈ before, IsName good)
    (hname : Rejection.ofName? name = some rejection) : ofNames names = .error rejection :=
  ofNames_of_findSome? (List.findSome?_eq_some_iff.mpr ⟨before, name, after, h, hname,
    fun good hgood => Rejection.ofName?_eq_none_iff.mpr (hbefore good hgood)⟩)

theorem ofNames_cases (names : List String) :
    (names = [] ∧ ofNames names = .error .noNames) ∨
      (names ≠ [] ∧ (∀ name ∈ names, IsName name) ∧
        ∃ set, ofNames names = .ok set ∧ set.names = names.eraseDups) ∨
      ∃ before name after rejection, names = before ++ name :: after ∧
        (∀ good ∈ before, IsName good) ∧ Rejection.ofName? name = some rejection ∧
        ofNames names = .error rejection := by
  cases hfirst : names.findSome? Rejection.ofName? with
  | some rejection =>
    obtain ⟨before, name, after, hnames, hname, hbefore⟩ := List.findSome?_eq_some_iff.mp hfirst
    have hgood : ∀ good ∈ before, IsName good :=
      fun good h => Rejection.ofName?_eq_none_iff.mp (hbefore good h)
    have herror := ofNames_of_findSome? hfirst
    exact .inr (.inr ⟨before, name, after, rejection, hnames, hgood, hname, herror⟩)
  | none =>
    have hgood : ∀ name ∈ names, IsName name := fun name h =>
      Rejection.ofName?_eq_none_iff.mp (List.findSome?_eq_none_iff.mp hfirst name h)
    by_cases hne : names = []
    · subst hne
      exact .inl ⟨rfl, rfl⟩
    · exact .inr (.inl ⟨hne, hgood, ofNames_of_isName hne hgood⟩)

theorem ofNames_names (set : TagSet) :
    ∃ again, ofNames set.names = .ok again ∧ again.names = set.names := by
  obtain ⟨again, h, hnames⟩ := ofNames_of_isName set.names_ne_nil set.isName
  exact ⟨again, h, hnames.trans (eraseDups_of_nodup set.nodup)⟩

theorem tracks_of_names_eq {set : TagSet} (h : set.names = names.eraseDups) :
    set.Tracks names where
  mentions := h ▸ firstMentions_eraseDups names
  contains_iff name := by rw [contains, List.contains_iff_mem, h, List.mem_eraseDups]
  rebuilt := set.ofNames_names

theorem accepted_of_ofNames {set : TagSet} (h : ofNames names = .ok set) :
    names ≠ [] ∧ (∀ name ∈ names, IsName name) ∧ set.names = names.eraseDups := by
  rcases ofNames_cases names with ⟨_, herror⟩ | ⟨hne, hgood, other, hok, hnames⟩ |
      ⟨_, _, _, _, _, _, _, herror⟩
  · cases herror.symm.trans h
  · cases hok.symm.trans h
    exact ⟨hne, hgood, hnames⟩
  · cases herror.symm.trans h

theorem exists_ofNames_iff :
    (∃ set, ofNames names = .ok set) ↔ names ≠ [] ∧ ∀ name ∈ names, IsName name := by
  constructor
  · rintro ⟨set, h⟩
    obtain ⟨hne, hgood, _⟩ := accepted_of_ofNames h
    exact ⟨hne, hgood⟩
  · rintro ⟨hne, hgood⟩
    obtain ⟨set, h, _⟩ := ofNames_of_isName hne hgood
    exact ⟨set, h⟩

theorem refusedWith_iff {message : String} :
    (∃ rejection, ofNames names = .error rejection ∧ rejection.message = message) ↔
      RefusedWith names message := by
  constructor
  · rintro ⟨rejection, h, rfl⟩
    rcases ofNames_cases names with ⟨hnil, herror⟩ | ⟨_, _, _, hok, _⟩ |
        ⟨before, name, after, _, hnames, hbefore, hname, herror⟩
    · cases herror.symm.trans h
      exact .noNames hnil
    · cases hok.symm.trans h
    · cases herror.symm.trans h
      rcases Rejection.ofName?_eq_some_iff.mp hname with ⟨rfl, rfl⟩ |
          ⟨front, c, back, hsplit, hfront, hc, rfl⟩
      · exact .emptyName hnames hbefore
      · exact .invalidCharacter hnames hbefore hsplit hfront hc
  · intro h
    cases h with
    | noNames hnil =>
      subst hnil
      exact ⟨.noNames, rfl, rfl⟩
    | emptyName hnames hbefore =>
      have hname := Rejection.ofName?_eq_some_iff.mpr (.inl ⟨rfl, rfl⟩)
      exact ⟨.emptyName, ofNames_of_ofName? hnames hbefore hname, rfl⟩
    | @invalidCharacter before after name front back c hnames hbefore hsplit hfront hc =>
      have hname := Rejection.ofName?_eq_some_iff.mpr
        (.inr ⟨front, c, back, hsplit, hfront, hc, rfl⟩)
      exact ⟨.invalidCharacter name c, ofNames_of_ofName? hnames hbefore hname, rfl⟩

theorem refusedWith_noNames_iff :
    RefusedWith names "tag set must contain at least one element name" ↔ names = [] := by
  refine ⟨fun h => ?_, RefusedWith.noNames⟩
  generalize hmessage : "tag set must contain at least one element name" = message at h
  have hfifth := congrArg (fun text => text.toList[4]?) hmessage
  cases h with
  | noNames hnil => exact hnil
  | emptyName => exact absurd hfifth (by decide)
  | invalidCharacter => simp at hfifth

theorem exists_entry_of_ofToml {text : String} {set : TagSet} (h : ofToml text = .ok set) :
    ∃ entry plain, TagSetEntry.ofText? text = some entry ∧
      ofNames entry.elements = .ok plain ∧ set.names = plain.names := by
  cases hentry : TagSetEntry.ofText? text with
  | none =>
    rw [ofToml, hentry] at h
    cases h
  | some entry =>
    rw [ofToml_of_entry hentry] at h
    cases hnames : ofNames entry.elements with
    | error rejection =>
      rw [toTagSet_of_error hnames] at h
      cases h
    | ok plain =>
      rw [toTagSet_of_ok hnames] at h
      cases h
      exact ⟨entry, plain, rfl, hnames, rfl⟩

end TagSet

/-- A list of names makes a tag set exactly if it has names and all of them are good. The set has
each name once, where it is mentioned first. Else the message blames the first bad name and the
first bad character of it. A set that is read from a file is a set of the names listed there. -/
theorem ofNames_accepts_and_refuses (names : List String) :
    ((∃ set, TagSet.ofNames names = .ok set) ↔ names ≠ [] ∧ ∀ name ∈ names, name ≠ "" ∧
      ∀ c ∈ name.toList, c ≠ '<' ∧ c ≠ '>' ∧ c ≠ '/' ∧ isBlank c = false) ∧
    (∀ set, TagSet.ofNames names = .ok set → set.Tracks names) ∧
    (∀ message, (∃ rejection, TagSet.ofNames names = .error rejection ∧
      rejection.message = message) ↔ RefusedWith names message) ∧
    (RefusedWith names "tag set must contain at least one element name" ↔ names = []) ∧
    ∀ text set, TagSet.ofToml text = .ok set →
      ∃ entry, TagSetEntry.ofText? text = some entry ∧ entry.elements ≠ [] ∧
        (∀ name ∈ entry.elements, IsName name) ∧ set.Tracks entry.elements := by
  refine ⟨?_, ?_, fun message => TagSet.refusedWith_iff, TagSet.refusedWith_noNames_iff, ?_⟩
  · simp only [← endsName_eq_false_iff]
    exact TagSet.exists_ofNames_iff
  · intro set h
    obtain ⟨_, _, hnames⟩ := TagSet.accepted_of_ofNames h
    exact TagSet.tracks_of_names_eq hnames
  · intro text set h
    obtain ⟨entry, plain, hentry, hplain, hsame⟩ := TagSet.exists_entry_of_ofToml h
    obtain ⟨hne, hgood, hnames⟩ := TagSet.accepted_of_ofNames hplain
    exact ⟨entry, hentry, hne, hgood, TagSet.tracks_of_names_eq (hsame.trans hnames)⟩

theorem ofNames_accepts_and_refuses_repeated_name :
    let names := ["nav", "x.y", "nav"]
    let text := "[tags]\nelements = ['nav', \"x.y\", \"nav\"]"
    ∃ set written, TagSet.ofNames names = .ok set ∧ TagSet.ofToml text = .ok written ∧
      set.Tracks names ∧ ∃ entry, TagSetEntry.ofText? text = some entry ∧
        entry.elements ≠ [] ∧ (∀ name ∈ entry.elements, IsName name) ∧
        written.Tracks entry.elements := by
  intro names text
  obtain ⟨_, htracks, _, _, htoml⟩ := ofNames_accepts_and_refuses names
  have hgood : names ≠ [] ∧ ∀ name ∈ names, IsName name := by decide
  obtain ⟨set, hset⟩ := TagSet.exists_ofNames_iff.mpr hgood
  cases hwritten : TagSet.ofToml text with
  | error fault =>
    have hok : (TagSet.ofToml text).isOk = true := by decide +kernel
    rw [hwritten] at hok
    exact Bool.noConfusion hok
  | ok written => exact ⟨set, written, hset, rfl, htracks set hset, htoml text written hwritten⟩

end TagLint
