import Mathlib.Data.List.Perm.Basic
import TagLint.Proofs.SpelledItems

/-! Which command lines lead to a run, and with which arguments. The paths and the lists of names
keep their order, nothing else matters. -/

namespace TagLint

def Given.path? : Given → Option String
  | path text => some text
  | value .. => none

def Given.valueOf? (option : OptionName) : Given → Option String
  | path _ => none
  | value other text => if other = option then some text else none

def givenPaths (given : List Given) : List String :=
  given.filterMap Given.path?

def givenValues (option : OptionName) (given : List Given) : List String :=
  given.filterMap (Given.valueOf? option)

/-- What a user may give. -/
structure IsProper (given : List Given) : Prop where
  has_path : givenPaths given ≠ []
  no_empty_path : "" ∉ givenPaths given
  at_most_once : ∀ option, option ≠ .tags → (givenValues option given).length ≤ 1
  no_empty_file : "" ∉ givenValues .tagsFile given
  known_format : ∀ text ∈ givenValues .format given, text = "text" ∨ text = "json"

/-- The arguments that are given, and else the default ones. -/
def argumentsOf (given : List Given) : Arguments where
  paths := givenPaths given
  tags? :=
    if givenValues .tags given = [] then none
    else some ((givenValues .tags given).flatMap splitNames)
  tagsFile? := (givenValues .tagsFile given).head?
  format := if "json" ∈ givenValues .format given then .json else .text
  logLevel := (givenValues .logLevel given).headD "warn"

section Given

variable {given other : List Given} {option : OptionName}

@[simp]
theorem givenPaths_path (text : String) (given : List Given) :
    givenPaths (.path text :: given) = text :: givenPaths given :=
  rfl

@[simp]
theorem givenPaths_value (option : OptionName) (text : String) (given : List Given) :
    givenPaths (.value option text :: given) = givenPaths given :=
  rfl

@[simp]
theorem givenValues_path (option : OptionName) (text : String) (given : List Given) :
    givenValues option (.path text :: given) = givenValues option given :=
  rfl

@[simp]
theorem givenValues_value (option other : OptionName) (text : String) (given : List Given) :
    givenValues option (.value other text :: given) =
      if other = option then text :: givenValues option given else givenValues option given := by
  by_cases h : other = option <;> simp [givenValues, Given.valueOf?, h]

theorem filterMap_eq_of_map_given? {α : Type} {items : List Item} {f : Given → Option α}
    (h : items.map Item.given? = given.map some) :
    items.filterMap (fun item => item.given?.bind f) = given.filterMap f := by
  have hmap := congrArg (List.filterMap (·.bind f)) h
  simpa [List.filterMap_map, Function.comp_def] using hmap

theorem filterMap_path? {items : List Item} (h : items.map Item.given? = given.map some) :
    items.filterMap Item.path? = givenPaths given := by
  rw [givenPaths, ← filterMap_eq_of_map_given? h]
  refine List.filterMap_congr fun item _ => ?_
  cases item <;> rfl

theorem valuesOf_eq {items : List Item} (option : OptionName)
    (h : items.map Item.given? = given.map some) :
    Arguments.valuesOf option items = givenValues option given := by
  rw [givenValues, ← filterMap_eq_of_map_given? h]
  refine List.filterMap_congr fun item _ => ?_
  cases item <;> rfl

end Given

/-- What may be given behind the options that have been used. -/
structure IsAllowed (used : List OptionName) (given : List Given) : Prop where
  no_empty_path : "" ∉ givenPaths given
  at_most_once : ∀ option, option ≠ .tags →
    (givenValues option given).length + (if option ∈ used then 1 else 0) ≤ 1
  accepted : ∀ option, ∀ text ∈ givenValues option given, option.accepts text = true

section Judgement

variable {used : List OptionName} {given : List Given}

theorem isAllowed_nil (used : List OptionName) : IsAllowed used [] where
  no_empty_path := by simp [givenPaths]
  at_most_once option _ := by
    split <;> simp [givenValues]
  accepted := by simp [givenValues]

theorem isAllowed_path {text : String} :
    IsAllowed used (.path text :: given) ↔ text ≠ "" ∧ IsAllowed used given := by
  constructor
  · rintro ⟨hpaths, honce, haccepted⟩
    rw [givenPaths_path, List.mem_cons, not_or] at hpaths
    exact ⟨fun h => hpaths.1 h.symm, hpaths.2, honce, haccepted⟩
  · rintro ⟨htext, hpaths, honce, haccepted⟩
    exact ⟨by simp [hpaths, htext.symm], honce, haccepted⟩

theorem isRepeatable_iff {option : OptionName} : option.isRepeatable = true ↔ option = .tags := by
  cases option <;> simp [OptionName.isRepeatable]

theorem mem_givenValues_value {option other : OptionName} {text value : String} :
    value ∈ givenValues other (.value option text :: given) ↔
      (option = other ∧ value = text) ∨ value ∈ givenValues other given := by
  by_cases h : option = other <;> simp [h]

theorem length_givenValues_value_le_iff {option other : OptionName} {text : String} :
    (givenValues other (.value option text :: given)).length +
        (if other ∈ used then 1 else 0) ≤ 1 ↔
      (option = other → option ∉ used) ∧
        (givenValues other given).length + (if other ∈ option :: used then 1 else 0) ≤ 1 := by
  by_cases h : option = other
  · subst h
    by_cases hused : option ∈ used <;> simp [hused]
  · simp [h, Ne.symm h]

theorem isAllowed_value {option : OptionName} {text : String} :
    IsAllowed used (.value option text :: given) ↔
      (option = .tags ∨ option ∉ used) ∧ option.accepts text = true ∧
        IsAllowed (option :: used) given := by
  constructor
  · rintro ⟨hpaths, honce, haccepted⟩
    have hfirst : option = .tags ∨ option ∉ used := by
      by_cases htags : option = .tags
      · exact .inl htags
      · exact .inr ((length_givenValues_value_le_iff.mp (honce option htags)).1 rfl)
    refine ⟨hfirst, haccepted option text (mem_givenValues_value.mpr (.inl ⟨rfl, rfl⟩)), hpaths,
      fun other hother => (length_givenValues_value_le_iff.mp (honce other hother)).2,
      fun other value hvalue => haccepted other value (mem_givenValues_value.mpr (.inr hvalue))⟩
  · rintro ⟨hfirst, htext, hpaths, honce, haccepted⟩
    refine ⟨hpaths, fun other hother => ?_, fun other value hvalue => ?_⟩
    · refine length_givenValues_value_le_iff.mpr ⟨?_, honce other hother⟩
      rintro rfl
      exact hfirst.resolve_left hother
    · rcases mem_givenValues_value.mp hvalue with ⟨rfl, rfl⟩ | hvalue
      · exact htext
      · exact haccepted other value hvalue

theorem firstStop?_cons_eq_none_iff {item : Item} {items : List Item} :
    Item.firstStop? used (item :: items) = none ↔
      item.stop? used = none ∧ Item.firstStop? (item.option?.toList ++ used) items = none := by
  rw [Item.firstStop?]
  cases hstop : item.stop? used with
  | none => simp
  | some stop => by_cases hlate : item.isJudgedLate <;> simp [hlate]

theorem stop?_path_eq_none_iff {text : String} :
    (Item.path text).stop? used = none ↔ text ≠ "" := by
  simp [Item.stop?]

theorem stop?_value_eq_none_iff {option : OptionName} {text : String} {joined : Bool} :
    (Item.value option text joined).stop? used = none ↔
      (option = .tags ∨ option ∉ used) ∧ option.accepts text = true := by
  rw [← isRepeatable_iff]
  by_cases hrepeatable : option.isRepeatable <;> by_cases hused : option ∈ used <;>
    simp [Item.stop?, hrepeatable, hused]

theorem exists_given_of_stop? {item : Item} (h : item.stop? used = none) :
    ∃ first, item.given? = some first := by
  cases item with
  | path text => exact ⟨_, rfl⟩
  | value option text joined => exact ⟨_, rfl⟩
  | _ => cases h

theorem exists_given_of_firstStop? {items : List Item} (h : Item.firstStop? used items = none) :
    ∃ given : List Given, items.map Item.given? = given.map some := by
  induction items generalizing used with
  | nil => exact ⟨[], rfl⟩
  | cons item items ih =>
    rw [firstStop?_cons_eq_none_iff] at h
    obtain ⟨first, hfirst⟩ := exists_given_of_stop? h.1
    obtain ⟨given, hgiven⟩ := ih h.2
    exact ⟨first :: given, by rw [List.map_cons, List.map_cons, hfirst, hgiven]⟩

theorem firstStop?_eq_none_iff {items : List Item}
    (h : items.map Item.given? = given.map some) :
    Item.firstStop? used items = none ↔ IsAllowed used given := by
  induction items generalizing used given with
  | nil =>
    rw [eq_comm, List.map_nil, List.map_eq_nil_iff] at h
    exact iff_of_true rfl (h ▸ isAllowed_nil used)
  | cons item items ih =>
    obtain ⟨first, given, rfl, hfirst, hrest⟩ := List.map_eq_cons_iff.mp h.symm
    rw [firstStop?_cons_eq_none_iff, ih hrest.symm]
    cases item with
    | path text =>
      cases hfirst
      rw [stop?_path_eq_none_iff, isAllowed_path]
      rfl
    | value option text joined =>
      cases hfirst
      rw [stop?_value_eq_none_iff, isAllowed_value, and_assoc]
      rfl
    | _ => cases hfirst

theorem format_accepts_iff {text : String} :
    OptionName.format.accepts text = true ↔ text = "text" ∨ text = "json" := by
  simp only [OptionName.accepts, Format.ofText?]
  split <;> simp_all

theorem isProper_iff : IsProper given ↔ givenPaths given ≠ [] ∧ IsAllowed [] given := by
  constructor
  · rintro ⟨hpath, hpaths, honce, hfile, hformat⟩
    refine ⟨hpath, hpaths, by simpa using honce, fun option text htext => ?_⟩
    cases option with
    | tags => rfl
    | tagsFile => exact bne_iff_ne.mpr fun hempty => hfile (hempty ▸ htext)
    | format => exact format_accepts_iff.mpr (hformat text htext)
    | logLevel => rfl
  · rintro ⟨hpath, hpaths, honce, haccepted⟩
    refine ⟨hpath, hpaths, by simpa using honce, fun hempty => ?_, fun text htext => ?_⟩
    · exact absurd (haccepted .tagsFile "" hempty) (by decide)
    · exact format_accepts_iff.mp (haccepted .format text htext)

end Judgement

section Parse

variable {given : List Given} {items : List Item}

theorem format_ofItems (h : items.map Item.given? = given.map some) (hproper : IsProper given) :
    (Arguments.ofItems items).format =
      if "json" ∈ givenValues .format given then .json else .text := by
  have honce := hproper.at_most_once .format (by decide)
  have hknown := hproper.known_format
  rw [Arguments.ofItems, valuesOf_eq .format h]
  match hvalues : givenValues .format given with
  | [] => rfl
  | [text] =>
    rw [hvalues] at hknown
    rcases hknown text List.mem_cons_self with rfl | rfl <;> rfl
  | _ :: _ :: _ => simp [hvalues] at honce

theorem ofItems_eq (h : items.map Item.given? = given.map some) (hproper : IsProper given) :
    Arguments.ofItems items = argumentsOf given := by
  have htags : (Arguments.ofItems items).tags? = (argumentsOf given).tags? := by
    rw [Arguments.ofItems, valuesOf_eq .tags h, argumentsOf]
    cases givenValues .tags given <;> rfl
  have hlevel : (Arguments.ofItems items).logLevel = (argumentsOf given).logLevel := by
    rw [Arguments.ofItems, valuesOf_eq .logLevel h, argumentsOf]
    cases givenValues .logLevel given <;> rfl
  have hfile : (Arguments.ofItems items).tagsFile? = (argumentsOf given).tagsFile? :=
    congrArg List.head? (valuesOf_eq .tagsFile h)
  have hformat : (Arguments.ofItems items).format = (argumentsOf given).format :=
    format_ofItems h hproper
  have hpaths : (Arguments.ofItems items).paths = (argumentsOf given).paths := filterMap_path? h
  cases hitems : Arguments.ofItems items
  simp_all only [argumentsOf]

theorem parse_eq_ok_iff {arguments : List String} {result : Arguments} :
    Arguments.parse arguments = .ok result ↔
      ∃ given, Spells arguments given ∧ IsProper given ∧ result = argumentsOf given := by
  constructor
  · intro h
    unfold Arguments.parse at h
    cases hstop : Item.firstStop? [] (readItems arguments) with
    | some stop => simp [hstop] at h
    | none =>
      obtain ⟨given, hgiven⟩ := exists_given_of_firstStop? hstop
      simp only [hstop, filterMap_path? hgiven] at h
      split at h
      · cases h
      · rename_i hpaths
        have hproper : IsProper given :=
          isProper_iff.mpr ⟨hpaths, (firstStop?_eq_none_iff hgiven).mp hstop⟩
        cases h
        exact ⟨given, spells_of_map_given? hgiven, hproper, ofItems_eq hgiven hproper⟩
  · rintro ⟨given, hspells, hproper, rfl⟩
    have hgiven := map_given?_of_spells hspells
    have hpaths := (isProper_iff.mp hproper).1
    have hstop := (firstStop?_eq_none_iff hgiven).mpr (isProper_iff.mp hproper).2
    simp only [Arguments.parse, hstop, filterMap_path? hgiven, if_neg hpaths,
      ofItems_eq hgiven hproper]

end Parse

section Order

variable {given other : List Given} {arguments rearranged : List String}

theorem Spells.unique (h : Spells arguments given) (hother : Spells arguments other) :
    given = other :=
  List.map_injective_iff.mpr (Option.some_injective Given)
    ((map_given?_of_spells h).symm.trans (map_given?_of_spells hother))

theorem givenValues_eq_of_perm {option : OptionName} (h : other.Perm given)
    (hlength : (givenValues option given).length ≤ 1) :
    givenValues option other = givenValues option given := by
  have hperm : (givenValues option other).Perm (givenValues option given) := h.filterMap _
  match hvalues : givenValues option given with
  | [] => exact List.perm_nil.mp (hvalues ▸ hperm)
  | [text] => exact List.perm_singleton.mp (hvalues ▸ hperm)
  | _ :: _ :: _ => simp [hvalues] at hlength

theorem IsProper.congr (h : IsProper given) (hpaths : givenPaths other = givenPaths given)
    (hvalues : ∀ option, givenValues option other = givenValues option given) :
    IsProper other where
  has_path := hpaths ▸ h.has_path
  no_empty_path := hpaths ▸ h.no_empty_path
  at_most_once option := hvalues option ▸ h.at_most_once option
  no_empty_file := hvalues .tagsFile ▸ h.no_empty_file
  known_format := hvalues .format ▸ h.known_format

theorem argumentsOf_congr (hpaths : givenPaths other = givenPaths given)
    (hvalues : ∀ option, givenValues option other = givenValues option given) :
    argumentsOf other = argumentsOf given := by
  simp only [argumentsOf, hpaths, hvalues]

theorem parse_rearranged {result : Arguments} (h : Arguments.parse arguments = .ok result)
    (hgiven : Spells arguments given) (hother : Spells rearranged other)
    (hperm : other.Perm given) (hpaths : givenPaths other = givenPaths given)
    (htags : givenValues .tags other = givenValues .tags given) :
    Arguments.parse rearranged = .ok result := by
  obtain ⟨spelled, hspelled, hproper, rfl⟩ := parse_eq_ok_iff.mp h
  obtain rfl := hspelled.unique hgiven
  have hvalues : ∀ option, givenValues option other = givenValues option spelled := by
    intro option
    by_cases hoption : option = .tags
    · exact hoption ▸ htags
    · exact givenValues_eq_of_perm hperm (hproper.at_most_once option hoption)
  exact parse_eq_ok_iff.mpr
    ⟨other, hother, hproper.congr hpaths hvalues, (argumentsOf_congr hpaths hvalues).symm⟩

end Order

theorem not_mem_of_mem_splitOn {α : Type} [BEq α] [LawfulBEq α] {mark : α} {text piece : List α}
    (h : piece ∈ text.splitOn mark) : mark ∉ piece := by
  induction text generalizing piece with
  | nil => simp_all
  | cons c text ih =>
    rw [List.splitOn_cons_eq_if_modifyHead] at h
    by_cases hc : c = mark
    · rw [if_pos (beq_iff_eq.mpr hc), List.mem_cons] at h
      rcases h with rfl | h
      · exact List.not_mem_nil
      · exact ih h
    · rw [if_neg (by simpa using hc)] at h
      obtain ⟨first, later, hpieces⟩ := List.exists_cons_of_ne_nil (List.splitOn_ne_nil mark text)
      rw [hpieces] at h ih
      rcases List.mem_cons.mp h with rfl | h
      · simp [ih List.mem_cons_self, Ne.symm hc]
      · exact ih (List.mem_cons_of_mem _ h)

theorem splitNames_eq_iff {text : String} {names : List String} :
    splitNames text = names ↔
      names ≠ [] ∧ (∀ name ∈ names, ',' ∉ name.toList) ∧ ",".intercalate names = text := by
  constructor
  · rintro rfl
    refine ⟨by simp [splitNames], fun name hname => ?_, ?_⟩
    · obtain ⟨piece, hpiece, rfl⟩ := List.mem_map.mp hname
      rw [String.toList_ofList]
      exact not_mem_of_mem_splitOn hpiece
    · rw [← String.toList_inj, String.toList_intercalate, splitNames, List.map_map]
      simp [Function.comp_def]
  · rintro ⟨hne, hcomma, rfl⟩
    have hsplit : ([','].intercalate (names.map String.toList)).splitOn ',' =
        names.map String.toList :=
      List.splitOn_intercalate ',' (by simpa using hcomma) (by simpa using hne)
    rw [splitNames, String.toList_intercalate]
    simp [hsplit]

/-- A command line leads to a run if and only if it spells something proper, which then are the
arguments of the run. -/
theorem parse_iff_spells_proper (arguments : List String) (result : Arguments) :
    (Arguments.parse arguments = .ok result ↔
      ∃ given, Spells arguments given ∧ IsProper given ∧ result = argumentsOf given) ∧
    (∀ text names, splitNames text = names ↔
      names ≠ [] ∧ (∀ name ∈ names, ',' ∉ name.toList) ∧ ",".intercalate names = text) ∧
    ∀ given other rearranged, Arguments.parse arguments = .ok result →
      Spells arguments given → Spells rearranged other → other.Perm given →
      givenPaths other = givenPaths given →
      givenValues .tags other = givenValues .tags given →
      Arguments.parse rearranged = .ok result :=
  ⟨parse_eq_ok_iff, fun _ _ => splitNames_eq_iff,
    fun _ _ _ h hgiven hother hperm hpaths htags =>
      parse_rearranged h hgiven hother hperm hpaths htags⟩

theorem parse_iff_spells_proper_mixed_line :
    Arguments.parse ["a.html", "--format=json", "--tags", "div,nav", "--", "--b.html"] =
      .ok ⟨["a.html", "--b.html"], some ["div", "nav"], none, .json, "warn"⟩ := by
  let given : List Given :=
    [.value .tags "div,nav", .value .format "json", .path "a.html", .path "--b.html"]
  let other : List Given :=
    [.path "a.html", .value .format "json", .value .tags "div,nav", .path "--b.html"]
  have hgiven : Spells ["--tags=div,nav", "--format", "json", "a.html", "--", "--b.html"] given :=
    .joined .tags "div,nav" (.apart .format (by simp [IsPlain])
      (.path (by simp [IsPlain]) (.onlyPaths ["--b.html"])))
  have hother : Spells ["a.html", "--format=json", "--tags", "div,nav", "--", "--b.html"] other :=
    .path (by simp [IsPlain]) (.joined .format "json"
      (.apart .tags (by simp [IsPlain]) (.onlyPaths ["--b.html"])))
  exact (parse_iff_spells_proper _ _).2.2 given other _ (by decide +kernel) hgiven hother
    (by decide) rfl rfl

end TagLint
