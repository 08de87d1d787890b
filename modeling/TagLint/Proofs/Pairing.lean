import Mathlib.Data.List.Induction
import Mathlib.Data.List.Sort
import TagLint.Proofs.WellNested

/-! Which closing tag belongs to which opening tag. The pairs are positions in a
list of kinds, so the names of the tags have no part in them. A stack of positions
finds them: a closing tag is paired with the position on top of the stack before
it, and the positions left at the end are those of the unpaired opening tags. -/

namespace TagLint

/-- Opening and closing tags in pairs, properly nested, whatever their names. -/
def Balanced (kinds : List Tag.Kind) : Prop :=
  Nested (fun first last => first = .opening ∧ last = .closing) kinds

/-- An opening tag at `o` and a closing tag at `c` are paired if the tags strictly
between them are balanced. -/
structure Paired (kinds : List Tag.Kind) (o c : Nat) : Prop where
  lt : o < c
  opening : kinds[o]? = some .opening
  closing : kinds[c]? = some .closing
  balanced : Balanced ((kinds.take c).drop (o + 1))

def pushOrPop (positions : List Nat) : Tag.Kind × Nat → List Nat
  | (.opening, position) => position :: positions
  | (.closing, _) => positions.tail

def openPositions (kinds : List Tag.Kind) : List Nat :=
  kinds.zipIdx.foldl pushOrPop []

@[simp]
theorem openPositions_nil : openPositions [] = [] :=
  rfl

theorem openPositions_opening (kinds : List Tag.Kind) :
    openPositions (kinds ++ [.opening]) = kinds.length :: openPositions kinds := by
  simp [openPositions, pushOrPop, List.zipIdx_append]

theorem openPositions_closing (kinds : List Tag.Kind) :
    openPositions (kinds ++ [.closing]) = (openPositions kinds).tail := by
  simp [openPositions, pushOrPop, List.zipIdx_append]

theorem openPositions_balanced {inner : List Tag.Kind} (h : Balanced inner)
    (kinds : List Tag.Kind) : openPositions (kinds ++ inner) = openPositions kinds := by
  induction h generalizing kinds with
  | nil => rw [List.append_nil]
  | @pair first last inner later hmatch _ _ ihinner ihlater =>
    obtain ⟨rfl, rfl⟩ := hmatch
    have hassoc : kinds ++ .opening :: (inner ++ .closing :: later) =
        kinds ++ [.opening] ++ inner ++ [.closing] ++ later := by simp
    rw [hassoc, ihlater, openPositions_closing, ihinner, openPositions_opening, List.tail_cons]

/-- Behind the innermost open tag everything is balanced, and before it the stack
was the rest of what it is now. -/
theorem exists_of_openPositions_eq_cons {kinds : List Tag.Kind} {o : Nat} {outer : List Nat}
    (h : openPositions kinds = o :: outer) :
    ∃ before inner, kinds = before ++ .opening :: inner ∧ before.length = o ∧
      openPositions before = outer ∧ Balanced inner := by
  induction hn : kinds.length using Nat.strong_induction_on generalizing kinds o outer with
  | _ n ih =>
    cases kinds using List.reverseRecOn with
    | nil => simp at h
    | append_singleton kinds kind =>
      rw [List.length_append, List.length_singleton] at hn
      cases kind with
      | opening =>
        rw [openPositions_opening, List.cons.injEq] at h
        exact ⟨kinds, [], rfl, h.1, h.2, .nil⟩
      | closing =>
        rw [openPositions_closing] at h
        obtain ⟨top, htop⟩ : ∃ top, openPositions kinds = top :: o :: outer := by
          cases hs : openPositions kinds with
          | nil => simp [hs] at h
          | cons top rest => exact ⟨top, by rw [← h, hs, List.tail_cons]⟩
        obtain ⟨middle, inner, rfl, _, hmiddle, hinner⟩ := ih _ (by omega) htop rfl
        rw [List.length_append, List.length_cons] at hn
        obtain ⟨before, gap, rfl, hlength, hbefore, hgap⟩ := ih _ (by omega) hmiddle rfl
        exact ⟨before, gap ++ .opening :: (inner ++ [.closing]), by simp, hlength, hbefore,
          hgap.append (.enclose ⟨rfl, rfl⟩ hinner)⟩

theorem lt_length_of_mem_openPositions {kinds : List Tag.Kind} {o : Nat}
    (h : o ∈ openPositions kinds) : o < kinds.length := by
  induction kinds using List.reverseRecOn with
  | nil => simp at h
  | append_singleton kinds kind ih =>
    rw [List.length_append, List.length_singleton]
    cases kind with
    | opening =>
      rw [openPositions_opening, List.mem_cons] at h
      rcases h with rfl | h
      · exact Nat.lt_succ_self _
      · exact Nat.lt_succ_of_lt (ih h)
    | closing =>
      rw [openPositions_closing] at h
      exact Nat.lt_succ_of_lt (ih (List.mem_of_mem_tail h))

theorem openPositions_pairwise (kinds : List Tag.Kind) :
    (openPositions kinds).Pairwise (· > ·) := by
  induction kinds using List.reverseRecOn with
  | nil => exact .nil
  | append_singleton kinds kind ih =>
    cases kind with
    | opening =>
      rw [openPositions_opening]
      exact .cons (fun o ho => lt_length_of_mem_openPositions ho) ih
    | closing =>
      rw [openPositions_closing]
      exact ih.sublist (List.tail_sublist _)

theorem paired_iff {kinds : List Tag.Kind} {o c : Nat} :
    Paired kinds o c ↔
      kinds[c]? = some .closing ∧ (openPositions (kinds.take c)).head? = some o := by
  constructor
  · rintro ⟨hlt, hopening, hclosing, hbalanced⟩
    obtain ⟨hc, _⟩ := List.getElem?_eq_some_iff.mp hclosing
    have hfront : (kinds.take c).take (o + 1) = kinds.take o ++ [.opening] := by
      rw [List.take_take, Nat.min_eq_left hlt, List.take_add_one, hopening]
      rfl
    have hlength : (kinds.take o).length = o := List.length_take_of_le (by omega)
    refine ⟨hclosing, ?_⟩
    rw [← List.take_append_drop (o + 1) (kinds.take c), openPositions_balanced hbalanced, hfront,
      openPositions_opening, List.head?_cons, hlength]
  · rintro ⟨hclosing, hhead⟩
    obtain ⟨outer, houter⟩ := List.head?_eq_some_iff.mp hhead
    obtain ⟨before, inner, htake, rfl, _, hinner⟩ := exists_of_openPositions_eq_cons houter
    have hlt : before.length < c := by
      have hlength := congrArg List.length htake
      simp only [List.length_take, List.length_append, List.length_cons] at hlength
      omega
    refine ⟨hlt, ?_, hclosing, ?_⟩
    · rw [← List.getElem?_take_of_lt hlt, htake]
      simp
    · rw [htake]
      simpa using hinner

theorem balanced_iff {kinds : List Tag.Kind} :
    Balanced kinds ↔ openPositions (.opening :: kinds) = [0] := by
  constructor
  · intro h
    exact openPositions_balanced h [.opening]
  · intro h
    obtain ⟨before, inner, hsplit, hlength, _, hinner⟩ := exists_of_openPositions_eq_cons h
    rw [List.length_eq_zero_iff.mp hlength, List.nil_append, List.cons.injEq] at hsplit
    exact hsplit.2 ▸ hinner

instance (kinds : List Tag.Kind) : Decidable (Balanced kinds) :=
  decidable_of_iff _ balanced_iff.symm

instance (kinds : List Tag.Kind) (o c : Nat) : Decidable (Paired kinds o c) :=
  decidable_of_iff _ paired_iff.symm

/-- The position of the opening tag that is paired with a closing tag. -/
def partner? (kinds : List Tag.Kind) (c : Nat) : Option Nat :=
  (List.range c).find? fun o => Paired kinds o c

def positionsOf (kind : Tag.Kind) (kinds : List Tag.Kind) : List Nat :=
  (List.range kinds.length).filter fun position => kinds[position]? = some kind

/-- The positions of the opening tags without a partner, from left to right. -/
def unpaired (kinds : List Tag.Kind) : List Nat :=
  (positionsOf .opening kinds).filter fun o => ∀ c < kinds.length, ¬ Paired kinds o c

theorem Paired.opening_unique {kinds : List Tag.Kind} {o o' c : Nat} (h : Paired kinds o c)
    (h' : Paired kinds o' c) : o = o' := by
  have hhead := (paired_iff.mp h).2
  rw [(paired_iff.mp h').2] at hhead
  exact (Option.some.inj hhead).symm

theorem paired_of_partner? {kinds : List Tag.Kind} {o c : Nat} (h : partner? kinds c = some o) :
    Paired kinds o c := by
  have hfound := List.find?_some h
  exact of_decide_eq_true hfound

theorem partner?_eq_some_iff {kinds : List Tag.Kind} {o c : Nat} :
    partner? kinds c = some o ↔ Paired kinds o c := by
  refine ⟨paired_of_partner?, fun h => ?_⟩
  cases hfound : partner? kinds c with
  | none =>
    have hnone := List.find?_eq_none.mp hfound o (List.mem_range.mpr h.lt)
    exact absurd (decide_eq_true h) hnone
  | some o' => rw [(paired_of_partner? hfound).opening_unique h]

example : (List.range 5).map (partner? [.closing, .opening, .opening, .closing, .closing]) =
    [none, none, none, some 2, some 1] := by
  decide

theorem partner?_eq {kinds : List Tag.Kind} {c : Nat} (h : kinds[c]? = some .closing) :
    partner? kinds c = (openPositions (kinds.take c)).head? := by
  apply Option.ext
  intro o
  rw [partner?_eq_some_iff, paired_iff, and_iff_right h]

theorem partner?_append {kinds : List Tag.Kind} {c : Nat} (h : kinds[c]? = some .closing)
    (more : List Tag.Kind) : partner? (kinds ++ more) c = partner? kinds c := by
  obtain ⟨hc, _⟩ := List.getElem?_eq_some_iff.mp h
  rw [partner?_eq h, partner?_eq (by rwa [List.getElem?_append_left hc]),
    List.take_append_of_le_length (Nat.le_of_lt hc)]

theorem mem_positionsOf {kind : Tag.Kind} {kinds : List Tag.Kind} {position : Nat} :
    position ∈ positionsOf kind kinds ↔ kinds[position]? = some kind := by
  simp only [positionsOf, List.mem_filter, List.mem_range, decide_eq_true_eq,
    and_iff_right_iff_imp]
  intro h
  exact (List.getElem?_eq_some_iff.mp h).1

theorem positionsOf_snoc (kind last : Tag.Kind) (kinds : List Tag.Kind) :
    positionsOf kind (kinds ++ [last]) =
      positionsOf kind kinds ++ if last = kind then [kinds.length] else [] := by
  have hfront : ∀ position ∈ List.range kinds.length,
      (kinds ++ [last])[position]? = kinds[position]? := by
    intro position h
    exact List.getElem?_append_left (List.mem_range.mp h)
  rw [positionsOf, List.length_append, List.length_singleton, List.range_succ, List.filter_append,
    List.filter_congr fun position h => by rw [hfront position h]]
  by_cases h : last = kind <;> simp [positionsOf, h]

theorem getElem?_snoc_eq_some_iff {kinds : List Tag.Kind} {last kind : Tag.Kind} {position : Nat} :
    (kinds ++ [last])[position]? = some kind ↔
      kinds[position]? = some kind ∨ position = kinds.length ∧ last = kind := by
  rcases Nat.lt_trichotomy position kinds.length with h | rfl | h
  · rw [List.getElem?_append_left h]
    simp [Nat.ne_of_lt h]
  · simp
  · have hlast : (kinds ++ [last]).length ≤ position := by simpa using Nat.succ_le_of_lt h
    rw [List.getElem?_eq_none hlast, List.getElem?_eq_none (Nat.le_of_lt h)]
    simp [Nat.ne_of_gt h]

theorem paired_snoc_iff {kinds : List Tag.Kind} {last : Tag.Kind} {o c : Nat} :
    Paired (kinds ++ [last]) o c ↔ Paired kinds o c ∨
      c = kinds.length ∧ last = .closing ∧ (openPositions kinds).head? = some o := by
  rw [paired_iff, paired_iff, getElem?_snoc_eq_some_iff, or_and_right]
  refine or_congr (and_congr_right fun h => ?_) ?_
  · obtain ⟨hc, _⟩ := List.getElem?_eq_some_iff.mp h
    rw [List.take_append_of_le_length (Nat.le_of_lt hc)]
  · rw [and_assoc]
    refine and_congr_right fun h => ?_
    rw [h, List.take_left]

theorem mem_tail_openPositions_iff {kinds : List Tag.Kind} {o : Nat} :
    o ∈ (openPositions kinds).tail ↔
      o ∈ openPositions kinds ∧ (openPositions kinds).head? ≠ some o := by
  have hsorted := openPositions_pairwise kinds
  cases hs : openPositions kinds with
  | nil => simp
  | cons top outer =>
    rw [hs, List.pairwise_cons] at hsorted
    rw [List.tail_cons, List.head?_cons, List.mem_cons, ne_eq, Option.some.injEq]
    constructor
    · exact fun h => ⟨.inr h, Nat.ne_of_gt (hsorted.1 o h)⟩
    · rintro ⟨rfl | h, hne⟩
      · exact absurd rfl hne
      · exact h

theorem mem_openPositions_iff {kinds : List Tag.Kind} {o : Nat} :
    o ∈ openPositions kinds ↔ kinds[o]? = some .opening ∧ ∀ c, ¬ Paired kinds o c := by
  induction kinds using List.reverseRecOn with
  | nil => simp
  | append_singleton kinds last ih =>
    rw [getElem?_snoc_eq_some_iff]
    simp only [paired_snoc_iff, not_or, forall_and]
    cases last with
    | opening =>
      have hlast : ∀ c, ¬ Paired kinds kinds.length c := by
        intro c hc
        simpa using hc.opening
      rw [openPositions_opening, List.mem_cons, ih]
      by_cases h : o = kinds.length
      · subst h
        simp [hlast]
      · simp [h]
    | closing =>
      rw [openPositions_closing, mem_tail_openPositions_iff, ih]
      simp [and_assoc]

theorem unpaired_eq_reverse (kinds : List Tag.Kind) :
    unpaired kinds = (openPositions kinds).reverse := by
  have hsorted : (unpaired kinds).Pairwise (· < ·) :=
    (List.pairwise_lt_range.filter _).filter _
  have hsorted' : (openPositions kinds).reverse.Pairwise (· < ·) :=
    List.pairwise_reverse.mpr (openPositions_pairwise kinds)
  refine hsorted.eq_of_mem_iff hsorted' fun o => ?_
  rw [unpaired, List.mem_filter, mem_positionsOf, List.mem_reverse, mem_openPositions_iff,
    decide_eq_true_eq]
  refine and_congr_right fun _ => ⟨fun h c hpaired => ?_, fun h c _ => h c⟩
  exact h c (List.getElem?_eq_some_iff.mp hpaired.closing).1 hpaired

theorem partners_append_unpaired_perm (kinds : List Tag.Kind) :
    ((positionsOf .closing kinds).filterMap (partner? kinds) ++ unpaired kinds).Perm
      (positionsOf .opening kinds) := by
  rw [unpaired_eq_reverse]
  induction kinds using List.reverseRecOn with
  | nil => exact .refl _
  | append_singleton kinds last ih =>
    have hfront : (positionsOf .closing kinds).filterMap (partner? (kinds ++ [last])) =
        (positionsOf .closing kinds).filterMap (partner? kinds) :=
      List.filterMap_congr fun c hc => partner?_append (mem_positionsOf.mp hc) [last]
    rw [positionsOf_snoc, positionsOf_snoc, List.filterMap_append, hfront]
    cases last with
    | opening =>
      rw [openPositions_opening]
      simpa using ih.append_right [kinds.length]
    | closing =>
      have hpartner : partner? (kinds ++ [.closing]) kinds.length =
          (openPositions kinds).head? := by
        rw [partner?_eq (by simp), List.take_left]
      rw [openPositions_closing]
      cases hs : openPositions kinds with
      | nil => simpa [hpartner, hs] using ih
      | cons top outer =>
        rw [hs, List.reverse_cons] at ih
        have hswap : ([top] ++ outer.reverse).Perm (outer.reverse ++ [top]) := List.perm_append_comm
        simpa [hpartner, hs] using (hswap.append_left _).trans ih

end TagLint
