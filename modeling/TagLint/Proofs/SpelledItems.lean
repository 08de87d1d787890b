import Mathlib.Data.List.Basic
import Mathlib.Data.Option.Basic
import TagLint.Arguments

/-! Command lines as sentences. What a command line gives is a row of paths and values of
options, and the items that are read from it are just those that it spells. -/

namespace TagLint

def OptionName.word : OptionName → String
  | tags => "tags"
  | tagsFile => "tags-file"
  | format => "format"
  | logLevel => "log-level"

def OptionName.flag (option : OptionName) : String :=
  "--" ++ option.word

inductive Given
  | path (text : String)
  | value (option : OptionName) (text : String)
deriving DecidableEq, Repr

/-- A lone hyphen is the only plain argument that begins with one. -/
def IsPlain (argument : String) : Prop :=
  argument = "-" ∨ argument.toList.head? ≠ some '-'

/-- The command lines for what is given. A value is joined to its option by an equals sign or
stands behind it. All that follows two hyphens is a path. -/
inductive Spells : List String → List Given → Prop
  | nothing : Spells [] []
  | onlyPaths (paths : List String) : Spells ("--" :: paths) (paths.map .path)
  | path {argument : String} {arguments : List String} {given : List Given}
      (hplain : IsPlain argument) (hrest : Spells arguments given) :
      Spells (argument :: arguments) (.path argument :: given)
  | joined (option : OptionName) (text : String) {arguments : List String} {given : List Given}
      (hrest : Spells arguments given) :
      Spells ((option.flag ++ "=" ++ text) :: arguments) (.value option text :: given)
  | apart (option : OptionName) {text : String} {arguments : List String} {given : List Given}
      (hplain : IsPlain text) (hrest : Spells arguments given) :
      Spells (option.flag :: text :: arguments) (.value option text :: given)

def Item.given? : Item → Option Given
  | path text => some (.path text)
  | value option text _ => some (.value option text)
  | _ => none

section Arguments

variable {argument : String} {option : OptionName}

theorem OptionName.ofText?_eq_some_iff {text : String} :
    OptionName.ofText? text = some option ↔ text = option.word := by
  constructor
  · unfold OptionName.ofText?
    split <;> rintro ⟨⟩ <;> rfl
  · rintro rfl
    cases option <;> rfl

theorem equals_not_mem_word (option : OptionName) : '=' ∉ option.word.toList := by
  cases option <;> decide

theorem mayBeValue_iff : mayBeValue argument = true ↔ IsPlain argument := by
  simp [mayBeValue, IsPlain]

theorem IsPlain.ne_hyphens (h : IsPlain argument) : argument ≠ "--" := by
  rintro rfl
  exact absurd h (by simp [IsPlain])

theorem readLong_joined (option : OptionName) (text : List Char) :
    readLong (option.word.toList ++ '=' :: text) =
      .item (.value option (String.ofList text) true) := by
  have hword : ∀ c ∈ option.word.toList, (c != '=') = true :=
    fun c hc => bne_iff_ne.mpr fun heq => equals_not_mem_word option (heq ▸ hc)
  have htake : (option.word.toList ++ '=' :: text).takeWhile (· != '=') = option.word.toList := by
    simp [List.takeWhile_append_of_pos hword]
  have hdrop : (option.word.toList ++ '=' :: text).dropWhile (· != '=') = '=' :: text := by
    simp [List.dropWhile_append_of_pos hword]
  simp only [readLong, htake, hdrop, String.ofList_toList, OptionName.ofText?_eq_some_iff.mpr rfl]

/-- A text behind two hyphens names an option, perhaps with its value, or gives nothing. -/
theorem readLong_cases (text : List Char) :
    (∃ option : OptionName, text = option.word.toList) ∨
      (∃ (option : OptionName) (value : List Char), text = option.word.toList ++ '=' :: value) ∨
      ∃ item, readLong text = .item item ∧ item.given? = none := by
  have htext := List.takeWhile_append_dropWhile (p := (· != '=')) (l := text)
  cases hname : OptionName.ofText? (String.ofList (text.takeWhile (· != '='))) with
  | none =>
    refine .inr (.inr ?_)
    simp only [readLong, hname]
    split
    · exact ⟨_, rfl, by split <;> rfl⟩
    · split
      · exact ⟨_, rfl, by split <;> rfl⟩
      · exact ⟨_, rfl, rfl⟩
  | some option =>
    have hword : text.takeWhile (· != '=') = option.word.toList := by
      rw [← OptionName.ofText?_eq_some_iff.mp hname, String.toList_ofList]
    rw [hword] at htext
    cases hdrop : text.dropWhile (· != '=') with
    | nil => exact .inl ⟨option, by rw [← htext, hdrop, List.append_nil]⟩
    | cons c value =>
      have hc : c = '=' := by
        have := List.head?_dropWhile_not (· != '=') text
        simpa [hdrop] using this
      exact .inr (.inl ⟨option, value, by rw [← htext, hdrop, hc]⟩)

theorem readArgument_plain (h : IsPlain argument) : readArgument argument = .item (.path argument) := by
  rcases h with rfl | h
  · rfl
  · unfold readArgument
    split <;> simp_all

theorem readArgument_flag (option : OptionName) : readArgument option.flag = .opens option := by
  cases option <;> decide

theorem readArgument_joined (option : OptionName) (text : String) :
    readArgument (option.flag ++ "=" ++ text) = .item (.value option text true) := by
  have hread := readLong_joined option text.toList
  have hchars : (option.flag ++ "=" ++ text).toList =
      '-' :: '-' :: (option.word.toList ++ '=' :: text.toList) := by
    simp [OptionName.flag]
  rw [readArgument, hchars]
  simpa using hread

theorem not_plain_cases (h : ¬ IsPlain argument) :
    (∃ option : OptionName, argument = option.flag) ∨
      (∃ (option : OptionName) (text : String), argument = option.flag ++ "=" ++ text) ∨
      ∃ item, readArgument argument = .item item ∧ item.given? = none := by
  simp only [IsPlain, not_or, not_not] at h
  obtain ⟨rest, hchars⟩ := List.head?_eq_some_iff.mp h.2
  rw [← String.ofList_toList (s := argument), hchars]
  cases rest with
  | nil => exact absurd (String.toList_inj.mp hchars) h.1
  | cons c text =>
    by_cases hc : c = '-'
    · subst hc
      rcases readLong_cases text with ⟨option, rfl⟩ | ⟨option, value, rfl⟩ | ⟨item, hitem, hnone⟩
      · exact .inl ⟨option, String.toList_inj.mp (by simp [OptionName.flag])⟩
      · exact .inr (.inl ⟨option, String.ofList value, String.toList_inj.mp
          (by simp [OptionName.flag])⟩)
      · exact .inr (.inr ⟨item, by simpa [readArgument] using hitem, hnone⟩)
    · refine .inr (.inr ?_)
      simp only [readArgument, String.toList_ofList]
      split <;> simp_all [Item.given?]

theorem readArgument_cases (argument : String) :
    (IsPlain argument ∧ readArgument argument = .item (.path argument)) ∨
      (∃ option : OptionName, argument = option.flag ∧ readArgument argument = .opens option) ∨
      (∃ (option : OptionName) (text : String), argument = option.flag ++ "=" ++ text ∧
        readArgument argument = .item (.value option text true)) ∨
      ∃ item, readArgument argument = .item item ∧ item.given? = none := by
  by_cases hplain : IsPlain argument
  · exact .inl ⟨hplain, readArgument_plain hplain⟩
  rcases not_plain_cases hplain with ⟨option, rfl⟩ | ⟨option, text, rfl⟩ | hnone
  · exact .inr (.inl ⟨option, rfl, readArgument_flag option⟩)
  · exact .inr (.inr (.inl ⟨option, text, rfl, readArgument_joined option text⟩))
  · exact .inr (.inr (.inr hnone))

theorem flag_of_readArgument (h : readArgument argument = .opens option) :
    argument = option.flag := by
  rcases readArgument_cases argument with ⟨_, hread⟩ | ⟨other, rfl, hread⟩ |
    ⟨other, text, rfl, hread⟩ | ⟨item, hread, _⟩ <;> cases hread.symm.trans h
  rfl

theorem given_of_readArgument {item : Item} {given : Given}
    (h : readArgument argument = .item item) (hgiven : item.given? = some given) :
    (IsPlain argument ∧ given = .path argument) ∨
      ∃ (option : OptionName) (text : String),
        argument = option.flag ++ "=" ++ text ∧ given = .value option text := by
  rcases readArgument_cases argument with ⟨hplain, hread⟩ | ⟨option, rfl, hread⟩ |
    ⟨option, text, rfl, hread⟩ | ⟨other, hread, hnone⟩ <;> cases hread.symm.trans h
  · cases hgiven
    exact .inl ⟨hplain, rfl⟩
  · cases hgiven
    exact .inr ⟨option, text, rfl, rfl⟩
  · cases hnone.symm.trans hgiven

theorem flag_ne_hyphens (option : OptionName) : option.flag ≠ "--" := by
  cases option <;> decide

theorem joined_ne_hyphens (option : OptionName) (text : String) :
    option.flag ++ "=" ++ text ≠ "--" := by
  intro h
  have hread := readArgument_joined option text
  have hhyphens : readArgument "--" = .item .unknown := by decide
  rw [h, hhyphens] at hread
  cases hread

end Arguments

section Items

variable {argument : String} {rest : List String} {given : List Given}

theorem readItems_hyphens (paths : List String) :
    readItems ("--" :: paths) = paths.map Item.path := by
  unfold readItems
  rfl

theorem readItems_item {item : Item} (hne : argument ≠ "--")
    (hread : readArgument argument = .item item) :
    readItems (argument :: rest) = item :: readItems rest := by
  rw [readItems, if_neg hne]
  exact hread

theorem readItems_opens {option : OptionName} {text : String} (hne : argument ≠ "--")
    (hread : readArgument argument = .opens option) (htext : IsPlain text) :
    readItems (argument :: text :: rest) = .value option text false :: readItems rest := by
  rw [readItems.eq_def]
  simp only [if_neg hne, hread, if_pos (mayBeValue_iff.mpr htext)]

theorem map_given?_path (paths : List String) :
    (paths.map Item.path).map Item.given? = (paths.map Given.path).map some := by
  simp [Item.given?]

theorem map_given?_of_spells {arguments : List String} (h : Spells arguments given) :
    (readItems arguments).map Item.given? = given.map some := by
  induction h with
  | nothing => rfl
  | onlyPaths paths => rw [readItems_hyphens, map_given?_path]
  | path hplain _ ih =>
    rw [readItems_item hplain.ne_hyphens (readArgument_plain hplain)]
    simp [ih, Item.given?]
  | joined option text _ ih =>
    rw [readItems_item (joined_ne_hyphens option text) (readArgument_joined option text)]
    simp [ih, Item.given?]
  | apart option hplain _ ih =>
    rw [readItems_opens (flag_ne_hyphens option) (readArgument_flag option) hplain]
    simp [ih, Item.given?]

theorem spells_of_map_given? {arguments : List String}
    (h : (readItems arguments).map Item.given? = given.map some) : Spells arguments given := by
  fun_induction readItems arguments generalizing given with
  | case1 =>
    rw [eq_comm, List.map_nil, List.map_eq_nil_iff] at h
    exact h ▸ .nothing
  | case2 paths =>
    rw [map_given?_path] at h
    exact List.map_injective_iff.mpr (Option.some_injective Given) h ▸ .onlyPaths paths
  | case3 argument hne item rest hread ih =>
    obtain ⟨first, given, rfl, hfirst, hrest⟩ := List.map_eq_cons_iff.mp h.symm
    rcases given_of_readArgument hread hfirst.symm with ⟨hplain, rfl⟩ | ⟨option, text, rfl, rfl⟩
    · exact .path hplain (ih hrest.symm)
    · exact .joined option text (ih hrest.symm)
  | case4 =>
    obtain ⟨_, _, _, hfirst, _⟩ := List.map_eq_cons_iff.mp h.symm
    cases hfirst
  | case5 argument hne option next later hread hnext ih =>
    obtain ⟨first, given, rfl, hfirst, hrest⟩ := List.map_eq_cons_iff.mp h.symm
    cases hfirst
    rw [flag_of_readArgument hread]
    exact .apart option (mayBeValue_iff.mp hnext) (ih hrest.symm)
  | case6 =>
    obtain ⟨_, _, _, hfirst, _⟩ := List.map_eq_cons_iff.mp h.symm
    cases hfirst

end Items

end TagLint
