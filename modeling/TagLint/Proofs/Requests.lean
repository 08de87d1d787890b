import TagLint.Arguments
import TagLint.Proofs.AcceptedArguments

/-! Which command lines ask for the help or the version text. The request counts if nothing is
wrong in front of it, whatever stands behind. -/

namespace TagLint

inductive Request
  | help
  | version
deriving DecidableEq, Repr

namespace Request

def word : Request → String
  | help => "help"
  | version => "version"

def letter : Request → Char
  | help => 'h'
  | version => 'V'

def text : Request → String
  | help => helpText
  | version => versionText

def item : Request → Item
  | help => .help
  | version => .version

def stop : Request → Stop
  | help => .help
  | version => .version

/-- The word behind two hyphens, or the letter behind one and perhaps other letters after it. -/
def IsAskedBy (request : Request) (argument : String) : Prop :=
  argument = "--" ++ request.word ∨ ['-', request.letter] <+: argument.toList

end Request

/-- The request stands behind something that may be given and in front of the end of the
options. -/
def AsksFor (request : Request) (arguments : List String) : Prop :=
  ∃ front argument back given, arguments = front ++ argument :: back ∧ "--" ∉ front ∧
    Spells front given ∧ IsAllowed [] given ∧ request.IsAskedBy argument

def Stop.request? : Stop → Option Request
  | help => some .help
  | version => some .version
  | usage _ => none

variable {request : Request}

section Judgement

variable {used : List OptionName} {stop : Stop} {item : Item} {items : List Item}

theorem Stop.request?_eq_some_iff : stop.request? = some request ↔ stop = request.stop := by
  cases stop <;> cases request <;> simp [Stop.request?, Request.stop]

theorem stop?_eq_request_iff : item.stop? used = some request.stop ↔ item = request.item := by
  cases item with
  | path text => cases request <;> simp [Item.stop?, Request.stop, Request.item]
  | value option text joined =>
    simp only [Item.stop?]
    split
    · cases request <;> simp [Request.stop, Request.item]
    · split <;> cases request <;> simp [Request.stop, Request.item]
  | _ => cases request <;> simp [Item.stop?, Request.stop, Request.item]

theorem request?_of_overruling? {later : List Item} (h : item.overruling? later = some stop) :
    stop.request? = none := by
  simp only [Item.overruling?] at h
  split at h <;> cases h <;> rfl

theorem request?_of_judgedLate (hlate : item.isJudgedLate = true)
    (h : item.stop? used = some stop) : stop.request? = none := by
  cases hrequest : stop.request? with
  | none => rfl
  | some request =>
    rw [Stop.request?_eq_some_iff.mp hrequest, stop?_eq_request_iff] at h
    subst h
    cases request <;> cases hlate

/-- Only the kind of a usage error depends on the items behind the one that stops. -/
theorem map_request?_firstStop?_cons :
    (Item.firstStop? used (item :: items)).map Stop.request? =
      ((item.stop? used).map Stop.request?).or
        ((Item.firstStop? (item.option?.toList ++ used) items).map Stop.request?) := by
  rw [Item.firstStop?]
  cases hstop : item.stop? used with
  | none => rfl
  | some stop =>
    by_cases hlate : item.isJudgedLate = true
    · have hnone := request?_of_judgedLate hlate hstop
      cases hoverruling : item.overruling? items with
      | none => simp [hlate]
      | some other => simp [hlate, hnone, request?_of_overruling? hoverruling]
    · simp [hlate]

theorem firstStop?_eq_request_iff :
    Item.firstStop? used items = some request.stop ↔
      ∃ front back, items = front ++ request.item :: back ∧ Item.firstStop? used front = none := by
  have hrequest (stop? : Option Stop) :
      stop? = some request.stop ↔ stop?.map Stop.request? = some (some request) := by
    simp [Option.map_eq_some_iff, Stop.request?_eq_some_iff]
  induction items generalizing used with
  | nil => simp [Item.firstStop?]
  | cons item items ih =>
    rw [hrequest, map_request?_firstStop?_cons]
    cases hstop : item.stop? used with
    | none =>
      have hitem : item ≠ request.item := by
        rintro rfl
        cases hstop.symm.trans (stop?_eq_request_iff.mpr rfl)
      rw [Option.map_none, Option.none_or, ← hrequest]
      refine (@ih _).trans ⟨?_, ?_⟩
      · rintro ⟨front, back, rfl, hfront⟩
        exact ⟨item :: front, back, rfl, firstStop?_cons_eq_none_iff.mpr ⟨hstop, hfront⟩⟩
      · rintro ⟨front, back, hitems, hfront⟩
        cases front with
        | nil => exact absurd (List.cons.inj hitems).1 hitem
        | cons first front =>
          obtain ⟨rfl, rfl⟩ := List.cons.inj hitems
          exact ⟨front, back, rfl, (firstStop?_cons_eq_none_iff.mp hfront).2⟩
    | some stop =>
      rw [Option.map_some, Option.some_or, Option.some_inj, Stop.request?_eq_some_iff]
      constructor
      · rintro rfl
        exact ⟨[], items, by rw [stop?_eq_request_iff.mp hstop, List.nil_append], rfl⟩
      · rintro ⟨front, back, hitems, hfront⟩
        cases front with
        | nil =>
          rw [(List.cons.inj hitems).1, stop?_eq_request_iff.mpr rfl] at hstop
          exact (Option.some.inj hstop).symm
        | cons first front =>
          obtain ⟨rfl, _⟩ := List.cons.inj hitems
          cases hstop.symm.trans (firstStop?_cons_eq_none_iff.mp hfront).1

end Judgement

section Arguments

variable {argument : String} {arguments : List String}

theorem eq_word_of_readLong {text : List Char} (h : readLong text = .item request.item) :
    String.ofList (text.takeWhile (· != '=')) = request.word ∧ text.dropWhile (· != '=') = [] := by
  cases hname : OptionName.ofText? (String.ofList (text.takeWhile (· != '='))) with
  | some option =>
    cases hdrop : text.dropWhile (· != '=') <;> simp only [readLong, hname, hdrop] at h <;>
      cases request <;> cases h
  | none =>
    cases hdrop : text.dropWhile (· != '=') with
    | nil =>
      simp only [readLong, hname, hdrop] at h
      split at h
      · next hhelp =>
        cases request <;> cases h
        exact ⟨hhelp, rfl⟩
      · split at h
        · next hversion =>
          cases request <;> cases h
          exact ⟨hversion, rfl⟩
        · cases request <;> cases h
    | cons c value =>
      simp only [readLong, hname, hdrop] at h
      split at h
      · cases request <;> cases h
      · split at h <;> cases request <;> cases h

theorem readLong_eq_request_iff {text : List Char} :
    readLong text = .item request.item ↔ text = request.word.toList := by
  constructor
  · intro h
    obtain ⟨hword, hdrop⟩ := eq_word_of_readLong h
    have htext := List.takeWhile_append_dropWhile (p := (· != '=')) (l := text)
    rw [hdrop, List.append_nil] at htext
    rw [← htext, ← hword, String.toList_ofList]
  · rintro rfl
    cases request <;> decide

theorem readArgument_eq_request_iff :
    readArgument argument = .item request.item ↔ request.IsAskedBy argument := by
  constructor
  · unfold readArgument
    split
    · next text hchars =>
      rw [readLong_eq_request_iff]
      rintro rfl
      exact .inl (String.toList_inj.mp (by simp [hchars]))
    · next text hchars =>
      intro h
      cases request <;> cases h
      exact .inr ⟨text, hchars.symm⟩
    · next text hchars =>
      intro h
      cases request <;> cases h
      exact .inr ⟨text, hchars.symm⟩
    · cases request <;> rintro ⟨⟩
    · cases request <;> rintro ⟨⟩
  · rintro (rfl | ⟨text, hchars⟩)
    · cases request <;> decide
    · rw [readArgument, ← hchars]
      cases request <;> rfl

theorem readItems_append {front : List String} {given : List Given} (h : Spells front given)
    (hfront : "--" ∉ front) (rest : List String) :
    readItems (front ++ rest) = readItems front ++ readItems rest := by
  induction h with
  | nothing => rfl
  | onlyPaths => exact absurd List.mem_cons_self hfront
  | path hplain _ ih =>
    rw [List.mem_cons, not_or] at hfront
    rw [List.cons_append, readItems_item hplain.ne_hyphens (readArgument_plain hplain),
      readItems_item hplain.ne_hyphens (readArgument_plain hplain), ih hfront.2, List.cons_append]
  | joined option text _ ih =>
    rw [List.mem_cons, not_or] at hfront
    rw [List.cons_append,
      readItems_item (joined_ne_hyphens option text) (readArgument_joined option text),
      readItems_item (joined_ne_hyphens option text) (readArgument_joined option text),
      ih hfront.2, List.cons_append]
  | apart option hplain _ ih =>
    rw [List.mem_cons, List.mem_cons, not_or, not_or] at hfront
    rw [List.cons_append, List.cons_append,
      readItems_opens (flag_ne_hyphens option) (readArgument_flag option) hplain,
      readItems_opens (flag_ne_hyphens option) (readArgument_flag option) hplain, ih hfront.2.2,
      List.cons_append]

theorem given?_request (request : Request) : request.item.given? = none := by
  cases request <;> rfl

theorem exists_request_of_readItems {front back : List Item} {given : List Given}
    (hitems : readItems arguments = front ++ request.item :: back)
    (hgiven : front.map Item.given? = given.map some) :
    ∃ before argument after, arguments = before ++ argument :: after ∧ "--" ∉ before ∧
      Spells before given ∧ request.IsAskedBy argument := by
  have hrequest := given?_request request
  fun_induction readItems arguments generalizing front given with
  | case1 => simp at hitems
  | case2 paths =>
    have hmem : request.item ∈ paths.map Item.path := hitems ▸ by simp
    obtain ⟨path, _, hpath⟩ := List.mem_map.mp hmem
    rw [← hpath] at hrequest
    cases hrequest
  | case3 argument hne item rest hread ih =>
    cases front with
    | nil =>
      obtain ⟨rfl, rfl⟩ := List.cons.inj hitems
      obtain rfl : given = [] := List.map_eq_nil_iff.mp hgiven.symm
      exact ⟨[], argument, rest, rfl, List.not_mem_nil, .nothing,
        readArgument_eq_request_iff.mp hread⟩
    | cons first front =>
      obtain ⟨rfl, hrest⟩ := List.cons.inj hitems
      obtain ⟨one, given, rfl, hone, hlater⟩ := List.map_eq_cons_iff.mp hgiven.symm
      obtain ⟨before, asked, after, rfl, hend, hspells, hasked⟩ := ih hrest hlater.symm
      refine ⟨argument :: before, asked, after, rfl, ?_, ?_, hasked⟩
      · exact List.not_mem_cons_of_ne_of_not_mem (Ne.symm hne) hend
      · rcases given_of_readArgument hread hone.symm with ⟨hplain, rfl⟩ | ⟨option, text, rfl, rfl⟩
        · exact .path hplain hspells
        · exact .joined option text hspells
  | case4 argument hne option hread =>
    cases front with
    | nil => cases request <;> cases hitems
    | cons first front =>
      obtain ⟨rfl, _⟩ := List.cons.inj hitems
      cases given <;> cases hgiven
  | case5 argument hne option next later hread hnext ih =>
    cases front with
    | nil => cases request <;> cases hitems
    | cons first front =>
      obtain ⟨rfl, hrest⟩ := List.cons.inj hitems
      obtain ⟨one, given, rfl, hone, hlater⟩ := List.map_eq_cons_iff.mp hgiven.symm
      obtain ⟨before, asked, after, rfl, hend, hspells, hasked⟩ := ih hrest hlater.symm
      have hplain := mayBeValue_iff.mp hnext
      cases hone
      refine ⟨argument :: next :: before, asked, after, rfl, ?_, ?_, hasked⟩
      · exact List.not_mem_cons_of_ne_of_not_mem (Ne.symm hne)
          (List.not_mem_cons_of_ne_of_not_mem hplain.ne_hyphens.symm hend)
      · rw [flag_of_readArgument hread]
        exact .apart option hplain hspells
  | case6 argument hne option next later hread hnext ih =>
    cases front with
    | nil => cases request <;> cases hitems
    | cons first front =>
      obtain ⟨rfl, _⟩ := List.cons.inj hitems
      cases given <;> cases hgiven

theorem parse_eq_request_iff :
    Arguments.parse arguments = .error request.stop ↔ AsksFor request arguments := by
  have hparse : Arguments.parse arguments = .error request.stop ↔
      Item.firstStop? [] (readItems arguments) = some request.stop := by
    cases hstop : Item.firstStop? [] (readItems arguments) with
    | some stop => simp [Arguments.parse, hstop]
    | none =>
      by_cases hpaths : (readItems arguments).filterMap Item.path? = []
      · cases request <;> simp only [Arguments.parse, hstop, hpaths] <;> simp [Request.stop]
      · simp only [Arguments.parse, hstop, hpaths]
        simp
  rw [hparse, firstStop?_eq_request_iff]
  constructor
  · rintro ⟨front, back, hitems, hfront⟩
    obtain ⟨given, hgiven⟩ := exists_given_of_firstStop? hfront
    obtain ⟨before, argument, after, harguments, hend, hspells, hasked⟩ :=
      exists_request_of_readItems hitems hgiven
    exact ⟨before, argument, after, given, harguments, hend, hspells,
      (firstStop?_eq_none_iff hgiven).mp hfront, hasked⟩
  · rintro ⟨front, argument, back, given, rfl, hend, hspells, hallowed, hasked⟩
    have hread := readArgument_eq_request_iff.mpr hasked
    have hne : argument ≠ "--" := by
      rintro rfl
      cases request <;> cases hread
    refine ⟨readItems front, readItems back, ?_,
      (firstStop?_eq_none_iff (map_given?_of_spells hspells)).mpr hallowed⟩
    rw [readItems_append hspells hend, readItems_item hne hread]

end Arguments

end TagLint
