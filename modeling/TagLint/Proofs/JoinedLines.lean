import Mathlib.Logic.Function.Iterate
import TagLint.Proofs.LineCuts
import TagLint.Proofs.TextBlocks

/-! Lines joined by line ends, and split again. Every text is made of its physical lines, each with
one of the line ends behind it, and lines that were joined come back whichever line ends they had. -/

namespace TagLint

/-- What may stand behind a line. -/
inductive LineEnd
  | lineFeed
  | carriageReturn
  | both
  | endOfText
deriving DecidableEq, Repr

def LineEnd.toText : LineEnd → String
  | lineFeed => "\n"
  | carriageReturn => "\r"
  | both => "\r\n"
  | endOfText => ""

structure EndedLine where
  line : String
  lineEnd : LineEnd
deriving DecidableEq, Repr

def EndedLine.toText (ended : EndedLine) : String :=
  ended.line ++ ended.lineEnd.toText

def joinLines (lines : List EndedLine) : String :=
  String.join (lines.map EndedLine.toText)

def HasNoLineEnd (line : String) : Prop :=
  '\n' ∉ line.toList ∧ '\r' ∉ line.toList

instance (line : String) : Decidable (HasNoLineEnd line) :=
  inferInstanceAs (Decidable (_ ∧ _))

/-- The end of the text ends the last line only, if there is something on it. A carriage return
does not meet a line feed, which would belong to it. -/
def EndedLine.Fits (ended : EndedLine) (later : List EndedLine) : Prop :=
  (ended.lineEnd = .endOfText → ended.line ≠ "" ∧ later = []) ∧
    (ended.lineEnd = .carriageReturn → (joinLines later).toList.head? ≠ some '\n')

instance (ended : EndedLine) (later : List EndedLine) : Decidable (ended.Fits later) :=
  inferInstanceAs (Decidable (_ ∧ _))

/-- The lines can be joined, each with the end that it has. -/
def AreJoinable : List EndedLine → Prop
  | [] => True
  | ended :: later => HasNoLineEnd ended.line ∧ ended.Fits later ∧ AreJoinable later

instance decidableAreJoinable : (lines : List EndedLine) → Decidable (AreJoinable lines)
  | [] => isTrue trivial
  | _ :: later =>
    have := decidableAreJoinable later
    inferInstanceAs (Decidable (_ ∧ _ ∧ _))

section Join

variable {ended : EndedLine} {later : List EndedLine}

theorem toList_joinLines_cons (ended : EndedLine) (later : List EndedLine) :
    (joinLines (ended :: later)).toList =
      ended.line.toList ++ (ended.lineEnd.toText.toList ++ (joinLines later).toList) := by
  simp [joinLines, EndedLine.toText]

theorem hasNoLineEnd_iff {line : String} :
    HasNoLineEnd line ↔ ∀ c ∈ line.toList, isLineEnd c = false := by
  constructor
  · rintro ⟨hfeed, hreturn⟩ c hc
    refine Bool.eq_false_iff.mpr fun hend => ?_
    rcases isLineEnd_eq_true_iff.mp hend with rfl | rfl
    · exact hfeed hc
    · exact hreturn hc
  · intro h
    exact ⟨fun hmem => absurd (h _ hmem) (by decide), fun hmem => absurd (h _ hmem) (by decide)⟩

theorem LineEnd.isLineEnd_of_mem_toText {lineEnd : LineEnd} {c : Char}
    (h : c ∈ lineEnd.toText.toList) : isLineEnd c = true := by
  rw [isLineEnd_eq_true_iff]
  cases lineEnd <;> simp [toText] at h <;> tauto

theorem LineEnd.toText_ne_nil {lineEnd : LineEnd} (h : lineEnd ≠ .endOfText) :
    lineEnd.toText.toList ≠ [] := by
  cases lineEnd with
  | endOfText => exact absurd rfl h
  | _ => simp [toText]

theorem EndedLine.Fits.head? (h : ended.Fits later) :
    ∀ c ∈ (ended.lineEnd.toText.toList ++ (joinLines later).toList).head?, isLineEnd c = true := by
  intro c hc
  by_cases hend : ended.lineEnd = .endOfText
  · rw [hend, (h.1 hend).2] at hc
    cases hc
  · rw [List.head?_append_of_ne_nil _ (LineEnd.toText_ne_nil hend)] at hc
    exact LineEnd.isLineEnd_of_mem_toText (List.mem_of_mem_head? hc)

theorem EndedLine.Fits.afterLineEnd (h : ended.Fits later) :
    afterLineEnd (ended.lineEnd.toText.toList ++ (joinLines later).toList) =
      (joinLines later).toList := by
  cases hend : ended.lineEnd with
  | lineFeed => rfl
  | carriageReturn => exact afterLineEnd_carriageReturn (h.2 hend)
  | both => rfl
  | endOfText =>
    rw [(h.1 hend).2]
    rfl

theorem EndedLine.Fits.ne_nil (h : ended.Fits later) :
    (joinLines (ended :: later)).toList ≠ [] := by
  rw [toList_joinLines_cons]
  by_cases hend : ended.lineEnd = .endOfText
  · have hline : ended.line.toList ≠ [] := fun hnil =>
      (h.1 hend).1 (String.toList_eq_nil_iff.mp hnil)
    simp [hline]
  · simp [LineEnd.toText_ne_nil hend]

theorem splitLines_of_ne_nil {text : List Char} (h : text ≠ []) :
    splitLines text = firstLine text :: splitLines (laterLines text) := by
  cases text with
  | nil => exact absurd rfl h
  | cons c rest => rw [splitLines]

theorem splitLines_joinLines_cons (hline : HasNoLineEnd ended.line) (h : ended.Fits later) :
    splitLines (joinLines (ended :: later)).toList =
      ended.line.toList :: splitLines (joinLines later).toList := by
  have hfirst : firstLine (joinLines (ended :: later)).toList = ended.line.toList := by
    rw [toList_joinLines_cons]
    exact takeWhile_block (hasNoLineEnd_iff.mp hline) h.head?
  have hparts := firstLine_append_dropWhile (joinLines (ended :: later)).toList
  rw [hfirst, toList_joinLines_cons, List.append_cancel_left_eq] at hparts
  rw [splitLines_of_ne_nil h.ne_nil, hfirst, laterLines, toList_joinLines_cons, hparts,
    h.afterLineEnd]

theorem physicalLines_joinLines {lines : List EndedLine} (h : AreJoinable lines) :
    physicalLines (joinLines lines) = lines.map EndedLine.line := by
  induction lines with
  | nil => simp [joinLines, physicalLines, splitLines]
  | cons ended later ih =>
    obtain ⟨hline, hfits, hlater⟩ := h
    rw [physicalLines, splitLines_joinLines_cons hline hfits, List.map_cons, String.ofList_toList,
      List.map_cons, ← ih hlater, physicalLines]

/-- No line that follows a carriage return can begin with a line feed. -/
theorem head?_joinLines_of_carriageReturn {lines : List String}
    (h : ∀ line ∈ lines, HasNoLineEnd line) :
    (joinLines (lines.map (⟨·, .carriageReturn⟩))).toList.head? ≠ some '\n' := by
  cases lines with
  | nil => simp [joinLines]
  | cons line lines =>
    have hline := (h line List.mem_cons_self).1
    intro hhead
    rw [List.map_cons, toList_joinLines_cons, List.head?_append, Option.or_eq_some_iff] at hhead
    rcases hhead with hhead | ⟨_, hhead⟩
    · exact hline (List.mem_of_mem_head? hhead)
    · simp [LineEnd.toText] at hhead

theorem areJoinable_map {lineEnd : LineEnd} {lines : List String} (hend : lineEnd ≠ .endOfText)
    (h : ∀ line ∈ lines, HasNoLineEnd line) : AreJoinable (lines.map (⟨·, lineEnd⟩)) := by
  induction lines with
  | nil => trivial
  | cons line lines ih =>
    rw [List.forall_mem_cons] at h
    refine ⟨h.1, ⟨fun htext => absurd htext hend, ?_⟩, ih h.2⟩
    rintro rfl
    exact head?_joinLines_of_carriageReturn h.2

end Join

section Split

variable (text : List Char)

theorem exists_lineEnd : ∃ lineEnd : LineEnd,
    text.dropWhile (!isLineEnd ·) = lineEnd.toText.toList ++ laterLines text ∧
      (lineEnd = .endOfText → laterLines text = []) ∧
      (lineEnd = .carriageReturn → (laterLines text).head? ≠ some '\n') := by
  have hhead : ∀ c ∈ (text.dropWhile (!isLineEnd ·)).head?, isLineEnd c = true :=
    fun _ => isLineEnd_of_head?_dropWhile
  rcases lineEnd_cases hhead with hrest | hrest | hrest | ⟨hrest, hafter⟩
  · have hnothing : laterLines text = [] := by
      rw [laterLines, hrest]
      rfl
    have hparts : text.dropWhile (!isLineEnd ·) = "".toList ++ laterLines text := by
      rw [hrest, hnothing]
      rfl
    exact ⟨.endOfText, hparts, fun _ => hnothing, by simp⟩
  · exact ⟨.lineFeed, hrest, by simp, by simp⟩
  · exact ⟨.both, hrest, by simp, by simp⟩
  · exact ⟨.carriageReturn, hrest, by simp, fun _ => hafter⟩

theorem exists_joinable : ∃ lines : List EndedLine, AreJoinable lines ∧
    (joinLines lines).toList = text ∧
      lines.map EndedLine.line = (splitLines text).map String.ofList := by
  induction text using splitLines.induct with
  | case1 => exact ⟨[], trivial, by simp [joinLines], by simp [splitLines]⟩
  | case2 c rest ih =>
    obtain ⟨later, hlater, hjoined, hlines⟩ := ih
    obtain ⟨lineEnd, hrest, hend, hreturn⟩ := exists_lineEnd (c :: rest)
    have htext := firstLine_append_dropWhile (c :: rest)
    rw [hrest] at htext
    let ended : EndedLine := ⟨String.ofList (firstLine (c :: rest)), lineEnd⟩
    have hplain : HasNoLineEnd ended.line := by
      rw [hasNoLineEnd_iff, String.toList_ofList]
      exact fun _ => isLineEnd_of_mem_firstLine
    have hlast : lineEnd = .endOfText → ended.line ≠ "" ∧ later = [] := by
      intro hlineEnd
      have hnothing := hend hlineEnd
      refine ⟨fun hempty => ?_, ?_⟩
      · have hfirst : firstLine (c :: rest) = [] := by simpa [ended] using hempty
        rw [hfirst, hnothing, hlineEnd] at htext
        simp [LineEnd.toText] at htext
      · rw [hnothing, splitLines, List.map_nil, List.map_eq_nil_iff] at hlines
        exact hlines
    have hfits : ended.Fits later := ⟨hlast, fun hlineEnd => hjoined ▸ hreturn hlineEnd⟩
    refine ⟨ended :: later, ⟨hplain, hfits, hlater⟩, ?_, ?_⟩
    · rw [toList_joinLines_cons, hjoined, String.toList_ofList]
      exact htext
    · rw [List.map_cons, hlines, splitLines, List.map_cons]

/-- The split takes one line after the other, and it ends when nothing is left. -/
theorem iterate_laterLines : laterLines^[(splitLines text).length] text = [] ∧
    ∀ n < (splitLines text).length, laterLines^[n] text ≠ [] := by
  induction text using splitLines.induct with
  | case1 => simp [splitLines]
  | case2 c rest ih =>
    rw [splitLines, List.length_cons]
    refine ⟨ih.1, fun n hn => ?_⟩
    cases n with
    | zero => exact List.cons_ne_nil c rest
    | succ n => exact ih.2 n (Nat.lt_of_succ_lt_succ hn)

end Split

/-- Splitting a text ends, and the text is made of its lines with an end behind each. Lines that
are joined come back, with any line ends that do not run into one another, so also if all of them
are ended alike. -/
theorem physicalLines_undo_joinLines :
    (∀ content : String, let rounds := (physicalLines content).length
      laterLines^[rounds] content.toList = [] ∧
        (∀ n < rounds, laterLines^[n] content.toList ≠ []) ∧
        ∃ lines : List EndedLine, AreJoinable lines ∧ joinLines lines = content ∧
          lines.map EndedLine.line = physicalLines content) ∧
      (∀ lines : List EndedLine, AreJoinable lines →
        physicalLines (joinLines lines) = lines.map EndedLine.line) ∧
      ∀ (lineEnd : LineEnd) (lines : List String), lineEnd ≠ .endOfText →
        (∀ line ∈ lines, HasNoLineEnd line) →
          physicalLines (joinLines (lines.map (⟨·, lineEnd⟩))) = lines := by
  refine ⟨fun content => ?_, fun lines => physicalLines_joinLines, fun lineEnd lines hend h => ?_⟩
  · have hrounds : (physicalLines content).length = (splitLines content.toList).length := by
      rw [physicalLines, List.length_map]
    obtain ⟨hdone, hbefore⟩ := iterate_laterLines content.toList
    obtain ⟨lines, hjoinable, hjoined, hlines⟩ := exists_joinable content.toList
    rw [hrounds]
    exact ⟨hdone, hbefore, lines, hjoinable, String.toList_inj.mp hjoined, hlines⟩
  · rw [physicalLines_joinLines (areJoinable_map hend h), List.map_map]
    exact List.map_id lines

theorem physicalLines_undo_joinLines_mixed_ends :
    let lines : List EndedLine := [⟨"", .carriageReturn⟩, ⟨"", .both⟩, ⟨"", .lineFeed⟩,
      ⟨"x", .carriageReturn⟩, ⟨"<y>", .endOfText⟩]
    AreJoinable lines ∧ joinLines lines = "\r\r\n\nx\r<y>" ∧
      physicalLines (joinLines lines) = ["", "", "", "x", "<y>"] ∧
      physicalLines (joinLines (["", "", "x"].map (⟨·, .carriageReturn⟩))) = ["", "", "x"] := by
  intro lines
  obtain ⟨_, hback, halike⟩ := physicalLines_undo_joinLines
  have hjoinable : AreJoinable lines := by decide
  exact ⟨hjoinable, by decide, hback lines hjoinable,
    halike .carriageReturn ["", "", "x"] (by decide) (by decide)⟩

end TagLint
