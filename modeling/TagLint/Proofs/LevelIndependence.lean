import Mathlib.Data.List.Forall2
import TagLint.Proofs.Requests

/-! What the choice of a log level has no influence on. Command lines that differ in the given
level only are read as items that differ there only, and are judged alike. -/

namespace TagLint

/-- Items that are the same, or both give a level. -/
inductive Item.Alike : Item → Item → Prop
  | same (item : Item) : Item.Alike item item
  | level (text other : String) (joined otherJoined : Bool) :
    Item.Alike (.value .logLevel text joined) (.value .logLevel other otherJoined)

/-- The arguments that give a level. -/
def GivesLevel (arguments : List String) : Prop :=
  (∃ level, arguments = ["--log-level=" ++ level]) ∨
    ∃ level, IsPlain level ∧ arguments = ["--log-level", level]

/-- Command lines that are the same but for the level that they give. Behind the end of the options
none is given. -/
inductive AlikeLines : List String → List String → Prop
  | same (line : List String) : AlikeLines line line
  | level {before way other : List String} (after : List String) (hbefore : "--" ∉ before)
      (hway : GivesLevel way) (hother : GivesLevel other) :
      AlikeLines (before ++ (way ++ after)) (before ++ (other ++ after))

/-- Results of reading a command line that lead to the same run but for its log. -/
inductive AlikeResults : Except Stop Arguments → Except Stop Arguments → Prop
  | request (request : Request) : AlikeResults (.error request.stop) (.error request.stop)
  | usage (error other : UsageError) : AlikeResults (.error (.usage error)) (.error (.usage other))
  | run (arguments : Arguments) (level : String) :
    AlikeResults (.ok arguments) (.ok { arguments with logLevel := level })

section Items

variable {used : List OptionName} {items others : List Item}

theorem Item.Alike.option?_eq {item other : Item} (h : item.Alike other) :
    item.option? = other.option? := by
  cases h <;> rfl

theorem Item.Alike.map_request?_stop? {item other : Item} (h : item.Alike other) :
    (item.stop? used).map Stop.request? = (other.stop? used).map Stop.request? := by
  cases h with
  | same => rfl
  | level => simp [Item.stop?, OptionName.accepts]

theorem map_request?_firstStop?_congr (h : List.Forall₂ Item.Alike items others) :
    (Item.firstStop? used items).map Stop.request? =
      (Item.firstStop? used others).map Stop.request? := by
  induction h generalizing used with
  | nil => rfl
  | cons hitem _ ih =>
    rw [map_request?_firstStop?_cons, map_request?_firstStop?_cons, hitem.map_request?_stop?,
      hitem.option?_eq, ih]

theorem filterMap_congr_of_alike {α : Type} {f : Item → Option α}
    (hf : ∀ text joined, f (.value .logLevel text joined) = none)
    (h : List.Forall₂ Item.Alike items others) : items.filterMap f = others.filterMap f := by
  induction h with
  | nil => rfl
  | cons hitem _ ih =>
    cases hitem with
    | same item => rw [List.filterMap_cons, List.filterMap_cons, ih]
    | level => rw [List.filterMap_cons_none (hf _ _), List.filterMap_cons_none (hf _ _), ih]

theorem valuesOf_congr {option : OptionName} (hoption : option ≠ .logLevel)
    (h : List.Forall₂ Item.Alike items others) :
    Arguments.valuesOf option items = Arguments.valuesOf option others :=
  filterMap_congr_of_alike (fun _ _ => if_neg hoption.symm) h

theorem ofItems_congr (h : List.Forall₂ Item.Alike items others) :
    Arguments.ofItems others =
      { Arguments.ofItems items with logLevel := (Arguments.ofItems others).logLevel } := by
  have hpaths := filterMap_congr_of_alike (f := Item.path?) (fun _ _ => rfl) h
  simp only [Arguments.ofItems, hpaths,
    valuesOf_congr (show OptionName.tags ≠ .logLevel by decide) h,
    valuesOf_congr (show OptionName.tagsFile ≠ .logLevel by decide) h,
    valuesOf_congr (show OptionName.format ≠ .logLevel by decide) h]

end Items

section Lines

theorem exists_usage_of_request? {stop : Stop} (h : stop.request? = none) :
    ∃ error, stop = .usage error := by
  cases stop with
  | usage error => exact ⟨error, rfl⟩
  | _ => cases h

theorem alikeResults_of_items {line other : List String}
    (h : List.Forall₂ Item.Alike (readItems line) (readItems other)) :
    AlikeResults (Arguments.parse line) (Arguments.parse other) := by
  have hstops := @map_request?_firstStop?_congr [] _ _ h
  have hpaths := filterMap_congr_of_alike (f := Item.path?) (fun _ _ => rfl) h
  cases hline : Item.firstStop? [] (readItems line) with
  | none =>
    rw [hline, Option.map_none, eq_comm, Option.map_eq_none_iff] at hstops
    simp only [Arguments.parse, hline, hstops, hpaths]
    split
    · exact .usage _ _
    · rw [ofItems_congr h]
      exact .run _ _
  | some stop =>
    rw [hline, Option.map_some, eq_comm, Option.map_eq_some_iff] at hstops
    obtain ⟨otherStop, hother, hrequests⟩ := hstops
    simp only [Arguments.parse, hline, hother]
    cases hrequest : stop.request? with
    | some request =>
      rw [Stop.request?_eq_some_iff.mp (hrequests.trans hrequest),
        Stop.request?_eq_some_iff.mp hrequest]
      exact .request request
    | none =>
      obtain ⟨error, rfl⟩ := exists_usage_of_request? hrequest
      obtain ⟨otherError, rfl⟩ := exists_usage_of_request? (hrequests.trans hrequest)
      exact .usage error otherError

theorem readItems_level {way : List String} (h : GivesLevel way) (rest : List String) :
    ∃ text joined, readItems (way ++ rest) = .value .logLevel text joined :: readItems rest := by
  rcases h with ⟨level, rfl⟩ | ⟨level, hplain, rfl⟩
  · exact ⟨level, true, readItems_item (joined_ne_hyphens .logLevel level)
      (readArgument_joined .logLevel level)⟩
  · exact ⟨level, false, readItems_opens (flag_ne_hyphens .logLevel)
      (readArgument_flag .logLevel) hplain⟩

theorem readItems_missing {argument next : String} {option : OptionName} (hne : argument ≠ "--")
    (hread : readArgument argument = .opens option) (hnext : ¬ IsPlain next)
    (rest : List String) :
    readItems (argument :: next :: rest) = .missingValue option :: readItems (next :: rest) := by
  rw [readItems.eq_def]
  simp only [if_neg hne, hread, if_neg (mt mayBeValue_iff.mp hnext)]

/-- No option in front takes the level for its value. -/
theorem exists_head_of_givesLevel {way : List String} (h : GivesLevel way) :
    ∃ first later, way = first :: later ∧ ¬ IsPlain first := by
  rcases h with ⟨level, rfl⟩ | ⟨level, _, rfl⟩
  · have hhyphen : ("--log-level=" ++ level).toList.head? = some '-' := by simp
    refine ⟨_, [], rfl, ?_⟩
    rintro (hlone | hhead)
    · exact absurd (congrArg String.toList hlone) (by simp)
    · exact hhead hhyphen
  · exact ⟨_, [level], rfl, by simp [IsPlain]⟩

theorem forall₂_alike_same (items : List Item) : List.Forall₂ Item.Alike items items :=
  List.forall₂_same.mpr fun item _ => .same item

theorem readItems_alike {before way other : List String} (hbefore : "--" ∉ before)
    (hway : GivesLevel way) (hother : GivesLevel other) (after : List String) :
    List.Forall₂ Item.Alike (readItems (before ++ (way ++ after)))
      (readItems (before ++ (other ++ after))) := by
  have hlevel : List.Forall₂ Item.Alike (readItems (way ++ after)) (readItems (other ++ after)) := by
    obtain ⟨text, joined, hread⟩ := readItems_level hway after
    obtain ⟨otherText, otherJoined, hreadOther⟩ := readItems_level hother after
    rw [hread, hreadOther]
    exact .cons (.level _ _ _ _) (forall₂_alike_same _)
  induction before using readItems.induct with
  | case1 => exact hlevel
  | case2 => exact absurd List.mem_cons_self hbefore
  | case3 argument hne item rest hread ih =>
    rw [List.mem_cons, not_or] at hbefore
    rw [List.cons_append, List.cons_append, readItems_item hne hread, readItems_item hne hread]
    exact .cons (.same item) (ih hbefore.2)
  | case4 argument hne option hread =>
    obtain ⟨first, later, rfl, hfirst⟩ := exists_head_of_givesLevel hway
    obtain ⟨otherFirst, otherLater, rfl, hotherFirst⟩ := exists_head_of_givesLevel hother
    rw [List.singleton_append, List.singleton_append, List.cons_append, List.cons_append,
      readItems_missing hne hread hfirst, readItems_missing hne hread hotherFirst]
    exact .cons (.same _) hlevel
  | case5 argument hne option next later hread hnext ih =>
    have hplain := mayBeValue_iff.mp hnext
    rw [List.mem_cons, List.mem_cons, not_or, not_or] at hbefore
    simp only [List.cons_append]
    rw [readItems_opens hne hread hplain, readItems_opens hne hread hplain]
    exact .cons (.same _) (ih hbefore.2.2)
  | case6 argument hne option next later hread hnext ih =>
    have hplain := mt mayBeValue_iff.mpr hnext
    rw [List.mem_cons, not_or] at hbefore
    simp only [List.cons_append] at ih ⊢
    rw [readItems_missing hne hread hplain, readItems_missing hne hread hplain]
    exact .cons (.same _) (ih hbefore.2)

theorem parse_alike {line other : List String} (h : AlikeLines line other) :
    AlikeResults (Arguments.parse line) (Arguments.parse other) := by
  cases h with
  | same => exact alikeResults_of_items (forall₂_alike_same _)
  | level after hbefore hway hother =>
    exact alikeResults_of_items (readItems_alike hbefore hway hother after)

end Lines

end TagLint
