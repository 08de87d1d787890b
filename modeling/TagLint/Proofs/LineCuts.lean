import Mathlib.Data.List.TakeWhile
import TagLint.Text.Lines

/-! Where a text may be cut in two without changing its physical lines: behind a
line end, unless the cut parts a carriage return from the line feed that belongs
to it. -/

namespace TagLint

/-- The two texts meet at a line end that is wholly in the first one. -/
def MeetAtLineEnd (text more : List Char) : Prop :=
  (text = [] ∨ text.getLast? = some '\n' ∨ text.getLast? = some '\r') ∧
    ¬ (text.getLast? = some '\r' ∧ more.head? = some '\n')

instance (text more : List Char) : Decidable (MeetAtLineEnd text more) :=
  inferInstanceAs (Decidable (_ ∧ _))

theorem getLast?_eq_of_suffix {tail text : List Char} (h : tail <:+ text) (hne : tail ≠ []) :
    tail.getLast? = text.getLast? := by
  obtain ⟨front, rfl⟩ := h
  rw [List.getLast?_append, List.getLast?_eq_some_getLast hne, Option.some_or]

theorem MeetAtLineEnd.of_suffix {text tail more : List Char} (h : MeetAtLineEnd text more)
    (hsuffix : tail <:+ text) : MeetAtLineEnd tail more := by
  by_cases hnil : tail = []
  · exact ⟨.inl hnil, by simp [hnil]⟩
  · rw [MeetAtLineEnd, getLast?_eq_of_suffix hsuffix hnil]
    exact ⟨.inr (h.1.resolve_left (hsuffix.ne_nil hnil)), h.2⟩

theorem afterLineEnd_suffix (text : List Char) : afterLineEnd text <:+ text := by
  unfold afterLineEnd
  split
  · exact (List.suffix_cons _ _).trans (List.suffix_cons _ _)
  · exact List.suffix_cons _ _
  · exact List.suffix_rfl

theorem laterLines_suffix (text : List Char) : laterLines text <:+ text :=
  (afterLineEnd_suffix _).trans (List.dropWhile_suffix _)

theorem isLineEnd_eq_true_iff {c : Char} : isLineEnd c = true ↔ c = '\n' ∨ c = '\r' := by
  simp [isLineEnd]

theorem isLineEnd_of_mem_firstLine {text : List Char} {c : Char} (h : c ∈ firstLine text) :
    isLineEnd c = false := by
  simpa using List.mem_takeWhile_imp h

theorem isLineEnd_of_head?_dropWhile {text : List Char} {c : Char}
    (h : c ∈ (text.dropWhile (!isLineEnd ·)).head?) : isLineEnd c = true := by
  simpa [Option.mem_def.mp h] using List.head?_dropWhile_not (!isLineEnd ·) text

theorem firstLine_append_dropWhile (text : List Char) :
    firstLine text ++ text.dropWhile (!isLineEnd ·) = text :=
  List.takeWhile_append_dropWhile

theorem afterLineEnd_carriageReturn {rest : List Char} (h : rest.head? ≠ some '\n') :
    afterLineEnd ('\r' :: rest) = rest := by
  cases rest with
  | nil => rfl
  | cons c rest =>
    have hc : c ≠ '\n' := fun he => h (by rw [he, List.head?_cons])
    simp [afterLineEnd, hc]

/-- The ends that a line can have: one of three line ends, or the end of the text. -/
theorem lineEnd_cases {text : List Char} (h : ∀ c ∈ text.head?, isLineEnd c = true) :
    text = [] ∨ text = '\n' :: afterLineEnd text ∨ text = '\r' :: '\n' :: afterLineEnd text ∨
      text = '\r' :: afterLineEnd text ∧ (afterLineEnd text).head? ≠ some '\n' := by
  cases text with
  | nil => exact .inl rfl
  | cons c rest =>
    rcases isLineEnd_eq_true_iff.mp (h c rfl) with rfl | rfl
    · exact .inr (.inl (by simp [afterLineEnd]))
    · by_cases hrest : rest.head? = some '\n'
      · obtain ⟨later, rfl⟩ := List.head?_eq_some_iff.mp hrest
        exact .inr (.inr (.inl (by simp [afterLineEnd])))
      · rw [afterLineEnd_carriageReturn hrest]
        exact .inr (.inr (.inr ⟨rfl, hrest⟩))

theorem afterLineEnd_append {text more : List Char} (h : text ≠ [])
    (hcut : ¬ (text.getLast? = some '\r' ∧ more.head? = some '\n')) :
    afterLineEnd (text ++ more) = afterLineEnd text ++ more := by
  cases text with
  | nil => exact absurd rfl h
  | cons c rest =>
    by_cases hc : c = '\r'
    · subst hc
      cases rest with
      | nil => exact afterLineEnd_carriageReturn fun hmore => hcut ⟨rfl, hmore⟩
      | cons d rest => by_cases hd : d = '\n' <;> simp [afterLineEnd, hd]
    · simp [afterLineEnd, hc]

theorem dropWhile_ne_nil {text : List Char}
    (h : text.getLast? = some '\n' ∨ text.getLast? = some '\r') :
    text.dropWhile (!isLineEnd ·) ≠ [] := by
  intro hnil
  have hall := List.dropWhile_eq_nil_iff.mp hnil
  rcases h with h | h <;> exact absurd (hall _ (List.mem_of_getLast? h)) (by decide)

theorem firstLine_append {text : List Char} (h : text.dropWhile (!isLineEnd ·) ≠ [])
    (more : List Char) : firstLine (text ++ more) = firstLine text := by
  have hlength : (text.takeWhile (!isLineEnd ·)).length ≠ text.length := by
    intro heq
    have hsum := congrArg List.length (firstLine_append_dropWhile text)
    rw [List.length_append, firstLine, heq, Nat.add_eq_left] at hsum
    exact h (List.length_eq_zero_iff.mp hsum)
  rw [firstLine, List.takeWhile_append, if_neg hlength, firstLine]

theorem laterLines_append {text more : List Char} (h : text.dropWhile (!isLineEnd ·) ≠ [])
    (hcut : ¬ (text.getLast? = some '\r' ∧ more.head? = some '\n')) :
    laterLines (text ++ more) = laterLines text ++ more := by
  have hlast : (text.dropWhile (!isLineEnd ·)).getLast? = text.getLast? :=
    getLast?_eq_of_suffix (List.dropWhile_suffix _) h
  rw [laterLines, List.dropWhile_append, if_neg (by simpa using h), laterLines]
  exact afterLineEnd_append h (hlast ▸ hcut)

theorem splitLines_append {text more : List Char} (h : MeetAtLineEnd text more) :
    splitLines (text ++ more) = splitLines text ++ splitLines more := by
  induction text using splitLines.induct with
  | case1 => rw [List.nil_append, splitLines, List.nil_append]
  | case2 c rest ih =>
    have hend : (c :: rest).getLast? = some '\n' ∨ (c :: rest).getLast? = some '\r' :=
      h.1.resolve_left (List.cons_ne_nil c rest)
    have hrest := dropWhile_ne_nil hend
    rw [List.cons_append, splitLines, ← List.cons_append, firstLine_append hrest,
      laterLines_append hrest h.2, ih (h.of_suffix (laterLines_suffix _)), splitLines,
      List.cons_append]

theorem physicalLines_append {content more : String}
    (h : MeetAtLineEnd content.toList more.toList) :
    physicalLines (content ++ more) = physicalLines content ++ physicalLines more := by
  rw [physicalLines, String.toList_append, splitLines_append h, List.map_append]
  rfl

end TagLint
