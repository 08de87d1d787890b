import Mathlib.Data.List.Forall2
import TagLint.Proofs.QuotedTexts
import TagLint.Toml.Document

/-! Documents that are written line by line, each line a header or a key with its value. They read
back as the statements that were written. -/

namespace TagLint.Toml

open Reader

def isLayout (c : Char) : Bool :=
  isGap c || c == '\n' || c == '\r' || c == '#'

theorem skipLayout_cons {c : Char} (h : isLayout c = false) (rest : List Char) :
    skipLayout (c :: rest) = c :: rest := by
  simp only [isLayout, Bool.or_eq_false_iff, beq_eq_false_iff_ne] at h
  obtain ⟨⟨⟨hgap, hline⟩, hreturn⟩, hhash⟩ := h
  rw [skipLayout, skipLayoutFrom]
  · simp [hgap, hline, hhash]
  · simp [hreturn]

theorem skipLayout_space (rest : List Char) : skipLayout (' ' :: rest) = skipLayout rest := by
  rw [skipLayout, skipLayoutFrom]
  · simp [isGap, skipLayout]
  · simp

theorem skipLayout_newline (rest : List Char) : skipLayout ('\n' :: rest) = skipLayout rest := by
  rw [skipLayout, skipLayoutFrom]
  · simp [skipLayout]
  · simp

/-! Values. -/

/-- The reader takes the text for the value. The text does not begin like a gap or the end of an
array, and goes on with no other quote. -/
structure Takes {α : Type} (reader : Reader α) (text : List Char) (value : α) : Prop where
  head : ∃ c later, text = c :: later ∧ isLayout c = false ∧ c ≠ ']'
  read : ∀ rest, rest.head? ≠ some '"' → reader.read (text ++ rest) = some (value, rest)

def arrayText (items : List (List Char)) : List Char :=
  '[' :: ([',', ' '].intercalate items ++ [']'])

section

variable {α : Type} {item : Reader α} {text : List Char} {value : α} {texts : List (List Char)}
  {values : List α}

theorem afterLayout_read {c : Char} (h : isLayout c = false) (reader : Reader α)
    (rest : List Char) : (afterLayout reader).read (c :: rest) = reader.read (c :: rest) := by
  rw [afterLayout, behind_read, skipLayout_cons h]

theorem Takes.afterLayout (h : Takes item text value) {rest : List Char}
    (hrest : rest.head? ≠ some '"') :
    (Toml.afterLayout item).read (text ++ rest) = some (value, rest) := by
  obtain ⟨c, later, htext, hc, _⟩ := h.head
  rw [← h.read rest hrest, htext, List.cons_append, afterLayout_read hc]

theorem Takes.closer (h : Takes item text value) (rest : List Char) :
    (Toml.afterLayout (mark ']')).read (text ++ rest) = none := by
  obtain ⟨c, later, rfl, hc, hcloser⟩ := h.head
  rw [List.cons_append, afterLayout_read hc, mark_read_cons, if_neg hcloser]

theorem readItems_space (item : Reader α) (separator closing : Reader Unit) (rest : List Char) :
    Reader.readItems (afterLayout item) (afterLayout separator) (afterLayout closing)
        (' ' :: rest) =
      Reader.readItems (afterLayout item) (afterLayout separator) (afterLayout closing) rest := by
  have hskip {β : Type} (reader : Reader β) :
      (afterLayout reader).read (' ' :: rest) = (afterLayout reader).read rest := by
    rw [afterLayout, behind_read, behind_read, skipLayout_space]
  rw [readItems_eq, hskip, hskip, ← readItems_eq]

theorem readItems_texts (h : List.Forall₂ (Takes item) texts values) (rest : List Char) :
    Reader.readItems (afterLayout item) (afterLayout (mark ',')) (afterLayout (mark ']'))
      ([',', ' '].intercalate texts ++ ']' :: rest) = some (values, rest) := by
  have hcloser : (afterLayout (mark ']')).read (']' :: rest) = some ((), rest) :=
    afterLayout_read (by decide) _ _
  induction h with
  | nil => rw [List.intercalate_nil, List.nil_append, readItems_eq, hcloser]
  | @cons text value texts values htakes hlater ih =>
    cases hlater with
    | nil =>
      have hitem := htakes.afterLayout (show (']' :: rest).head? ≠ some '"' by simp)
      have hcomma : (afterLayout (mark ',')).read (']' :: rest) = none :=
        afterLayout_read (by decide) _ _
      rw [List.intercalate_singleton, readItems_eq, htakes.closer, hitem]
      simp [hcomma, hcloser]
    | @cons next _ later _ _ _ =>
      let behind := [',', ' '].intercalate (next :: later) ++ ']' :: rest
      have hitem := htakes.afterLayout (show (',' :: ' ' :: behind).head? ≠ some '"' by simp)
      have hcomma : (afterLayout (mark ',')).read (',' :: ' ' :: behind) =
          some ((), ' ' :: behind) :=
        afterLayout_read (by decide) _ _
      have htext : [',', ' '].intercalate (text :: next :: later) ++ ']' :: rest =
          text ++ ',' :: ' ' :: behind := by
        simp [List.intercalate_cons_cons, behind]
      rw [htext, readItems_eq, htakes.closer, hitem]
      simp [hcomma, readItems_space, ih, behind]

end

theorem takes_quoted (escaping : Escaping) (s : String) (depth : Nat) :
    Takes (value depth) (escaping.quoted s) (.text s) where
  head := ⟨'"', _, rfl, by decide⟩
  read rest hrest := by
    have hquoted := escaping.quotedText_read s hrest
    have hplain : plainValue.read (escaping.quoted s ++ rest) = some (.text s, rest) := by
      simp [plainValue, hquoted]
    cases depth with
    | zero => exact hplain
    | succ depth =>
      have hopener {α : Type} (opener closer : Char) (item : Reader α) (h : '"' ≠ opener) :
          (listIn opener closer item).read (escaping.quoted s ++ rest) = none := by
        rw [Escaping.quoted, List.cons_append]
        simp [listIn, h]
      simp [value, array, inlineTable, hopener, hplain]

theorem takes_array {texts : List (List Char)} {values : List Value} {depth : Nat}
    (h : List.Forall₂ (Takes (value depth)) texts values) :
    Takes (value (depth + 1)) (arrayText texts) (.array values) where
  head := ⟨'[', _, rfl, by decide⟩
  read rest _ := by
    have hitems := readItems_texts h rest
    simp [value, array, listIn, arrayText, hitems]

/-! Lines. -/

structure TakesLine (line : List Char) (written : Statement) : Prop where
  head : ∃ c later, line = c :: later ∧ isLayout c = false ∧ c ≠ '\ufeff'
  read : ∀ rest, statement.read (line ++ '\n' :: rest) = some (written, '\n' :: rest)

def headerLine (key : String) : List Char :=
  '[' :: (key.toList ++ [']'])

def assignmentLine (key : String) (value : List Char) : List Char :=
  key.toList ++ " = ".toList ++ value

def IsBareKey (key : String) : Prop :=
  key ≠ "" ∧ ∀ c ∈ key.toList, isBareChar c = true

instance (key : String) : Decidable (IsBareKey key) :=
  have : Decidable (∀ c ∈ key.toList, isBareChar c = true) := List.decidableBAll _ _
  inferInstanceAs (Decidable (_ ∧ _))

theorem ne_of_isBareChar {c d : Char} (hc : isBareChar c = true) (hd : isBareChar d = false) :
    c ≠ d := by
  rintro rfl
  rw [hc] at hd
  exact Bool.noConfusion hd

theorem isLayout_of_isBareChar {c : Char} (h : isBareChar c = true) : isLayout c = false := by
  have hspace := ne_of_isBareChar h (show isBareChar ' ' = false by decide)
  have htab := ne_of_isBareChar h (show isBareChar '\t' = false by decide)
  have hline := ne_of_isBareChar h (show isBareChar '\n' = false by decide)
  have hreturn := ne_of_isBareChar h (show isBareChar '\r' = false by decide)
  have hhash := ne_of_isBareChar h (show isBareChar '#' = false by decide)
  simp [isLayout, isGap, hspace, htab, hline, hreturn, hhash]

theorem afterGap_read {α : Type} {c : Char} (h : isLayout c = false) (reader : Reader α)
    (rest : List Char) : (afterGap reader).read (c :: rest) = reader.read (c :: rest) := by
  simp only [isLayout, Bool.or_eq_false_iff] at h
  simp [afterGap, skipGap, h.1.1.1]

section

variable {key : String}

theorem IsBareKey.head (h : IsBareKey key) :
    ∃ c later, key.toList = c :: later ∧ isBareChar c = true := by
  obtain ⟨c, later, hkey⟩ := List.exists_cons_of_ne_nil (mt String.toList_eq_nil_iff.mp h.1)
  exact ⟨c, later, hkey, h.2 c (hkey ▸ List.mem_cons_self)⟩

theorem keyPath_read (h : IsBareKey key) {rest : List Char}
    (hrest : ∀ c ∈ rest.head?, isBareChar c = false)
    (hpoint : (afterGap (mark '.')).read rest = none) (limit : Nat) :
    (keyPath (limit + 1)).read (key.toList ++ rest) = some ([key], rest) := by
  have hkey : Toml.key.read (key.toList ++ rest) = some (key, rest) := by
    have hword := word_read (mt String.toList_eq_nil_iff.mp h.1) h.2 hrest
    simp [Toml.key, hword]
  simp [keyPath, hkey, hpoint]

theorem takesLine_header (h : IsBareKey key) : TakesLine (headerLine key) (.table [key]) where
  head := ⟨'[', _, rfl, by decide⟩
  read rest := by
    obtain ⟨c, later, hkey, hc⟩ := h.head
    have hpath : (afterGap (keyPath maxPath)).read (key.toList ++ ']' :: '\n' :: rest) =
        some ([key], ']' :: '\n' :: rest) := by
      rw [hkey, List.cons_append, afterGap_read (isLayout_of_isBareChar hc), ← List.cons_append,
        ← hkey]
      exact keyPath_read h (by simp [isBareChar]) rfl _
    have hnext : (mark '[').read (key.toList ++ ']' :: '\n' :: rest) = none := by
      rw [hkey, List.cons_append, mark_read_cons,
        if_neg (ne_of_isBareChar hc (by decide))]
    have hcloser : (afterGap (mark ']')).read (']' :: '\n' :: rest) = some ((), '\n' :: rest) :=
      rfl
    simp [statement, nextTableHeader, tableHeader, headerPath, headerLine, hnext, hpath, hcloser]

theorem takesLine_assignment (h : IsBareKey key) {text : List Char} {written : Value}
    (hvalue : Takes (value maxDepth) text written) :
    TakesLine (assignmentLine key text) (.assign [key] written) where
  head := by
    obtain ⟨c, later, hkey, hc⟩ := h.head
    exact ⟨c, later ++ (" = ".toList ++ text), by simp [assignmentLine, hkey],
      isLayout_of_isBareChar hc, ne_of_isBareChar hc (by decide)⟩
  read rest := by
    obtain ⟨c, later, hkey, hc⟩ := h.head
    obtain ⟨d, tail, htext, hd, _⟩ := hvalue.head
    have hpath : (keyPath maxPath).read
        (key.toList ++ ' ' :: '=' :: ' ' :: (text ++ '\n' :: rest)) =
          some ([key], ' ' :: '=' :: ' ' :: (text ++ '\n' :: rest)) :=
      keyPath_read h (by simp [isBareChar]) rfl _
    have hequals : (afterGap (mark '=')).read (' ' :: '=' :: ' ' :: (text ++ '\n' :: rest)) =
        some ((), ' ' :: (text ++ '\n' :: rest)) := rfl
    have hread : (afterGap (value maxDepth)).read (' ' :: (text ++ '\n' :: rest)) =
        some (written, '\n' :: rest) := by
      have hskip : (afterGap (value maxDepth)).read (' ' :: (text ++ '\n' :: rest)) =
          (afterGap (value maxDepth)).read (text ++ '\n' :: rest) := rfl
      rw [hskip, htext, List.cons_append, afterGap_read hd, ← List.cons_append, ← htext]
      exact hvalue.read _ (by simp)
    have hheader : (mark '[').read (key.toList ++ ' ' :: '=' :: ' ' :: (text ++ '\n' :: rest)) =
        none := by
      rw [hkey, List.cons_append, mark_read_cons, if_neg (ne_of_isBareChar hc (by decide))]
    have hline : assignmentLine key text ++ '\n' :: rest =
        key.toList ++ ' ' :: '=' :: ' ' :: (text ++ '\n' :: rest) := by
      simp [assignmentLine]
    rw [hline]
    simp [statement, nextTableHeader, tableHeader, assignment, pair, hheader, hpath, hequals, hread]

end

theorem statements_newline (text : List Char) : statements ('\n' :: text) = statements text := by
  rw [statements_eq, statements_eq text, skipLayout_newline, afterLayout, behind_read,
    behind_read, skipLayout_newline]

theorem statements_lines {lines : List (List Char)} {written : List Statement}
    (h : List.Forall₂ TakesLine lines written) :
    statements (lines.flatMap (· ++ ['\n'])) = some written := by
  induction h with
  | nil =>
    rw [List.flatMap_nil, statements_eq]
    rfl
  | @cons line first lines later hline _ ih =>
    let rest := lines.flatMap (· ++ ['\n'])
    obtain ⟨c, tail, htext, hc, _⟩ := hline.head
    have hread : (afterLayout statement).read (line ++ '\n' :: rest) =
        some (first, '\n' :: rest) := by
      rw [← hline.read, htext, List.cons_append, afterLayout_read hc]
    have hskip : skipLayout (line ++ '\n' :: rest) ≠ [] := by
      rw [htext, List.cons_append, skipLayout_cons hc]
      exact List.cons_ne_nil _ _
    have hend : atLineEnd ('\n' :: rest) = true := rfl
    rw [List.flatMap_cons, List.append_assoc, List.singleton_append, statements_eq,
      if_neg hskip, hread, Option.bind_some, if_pos hend, statements_newline, ih]
    rfl

theorem document?_lines {lines : List (List Char)} {written : List Statement}
    (h : List.Forall₂ TakesLine lines written) :
    document? (String.ofList (lines.flatMap (· ++ ['\n']))) =
      (written.foldlM Draft.add Draft.empty).map Draft.root := by
  have hmark : withoutByteOrderMark (lines.flatMap (· ++ ['\n'])) =
      lines.flatMap (· ++ ['\n']) := by
    cases h with
    | nil => rfl
    | cons hline _ =>
      obtain ⟨c, tail, rfl, _, hc⟩ := hline.head
      simp [withoutByteOrderMark, hc]
  rw [document?, String.toList_ofList, hmark, statements_lines h]
  cases hfold : written.foldlM Draft.add Draft.empty <;> simp [hfold]

end TagLint.Toml
