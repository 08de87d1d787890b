import TagLint.Toml.Text

/-! Texts written in double quotes. There are several ways to write a character there, and
whichever is taken for each of them, the text reads back as it was. -/

namespace TagLint.Toml

open Reader

/-- The escapes of one letter, with the characters for which they stand. -/
def letterEscapes : List (Char × Char) :=
  [('b', '\x08'), ('t', '\t'), ('n', '\n'), ('f', '\x0c'), ('r', '\r'), ('e', '\x1b'),
    ('"', '"'), ('\\', '\\')]

/-- The letters that begin an escape by number, with how many digits follow. -/
def numberEscapes : List (Char × Nat) :=
  [('x', 2), ('u', 4), ('U', 8)]

/-- The ways to write a character in double quotes. -/
inductive SpellsChar : List Char → Char → Prop
  | plain {c : Char} (hcontrol : c = '\t' ∨ 0x20 ≤ c.toNat) (hdelete : c.toNat ≠ 0x7f)
      (hquote : c ≠ '"') (hbackslash : c ≠ '\\') : SpellsChar [c] c
  | letter {letter c : Char} (h : (letter, c) ∈ letterEscapes) : SpellsChar ['\\', letter] c
  | number {letter c : Char} {digits : List Char} (h : (letter, digits.length) ∈ numberEscapes)
      (hdigits : numberBelow? 0x110000 16 digits = some c.toNat) :
      SpellsChar ('\\' :: letter :: digits) c

/-- A choice of one way to write each character. -/
structure Escaping where
  write : Char → List Char
  spells : ∀ c, SpellsChar (write c) c

def escaped (c : Char) : List Char :=
  match letterEscapes.find? (·.2 = c) with
  | some (letter, _) => ['\\', letter]
  | none =>
    if c.toNat < 0x20 ∨ c.toNat = 0x7f then
      ['\\', 'u', '0', '0', (c.toNat / 16).digitChar, (c.toNat % 16).digitChar]
    else [c]

theorem numberBelow?_digitChars : ∀ n < 0x80,
    numberBelow? 0x110000 16 ['0', '0', (n / 16).digitChar, (n % 16).digitChar] = some n := by
  decide

theorem spellsChar_escaped (c : Char) : SpellsChar (escaped c) c := by
  cases hfind : letterEscapes.find? (·.2 = c) with
  | some found =>
    obtain ⟨letter, d⟩ := found
    have hmem := List.mem_of_find?_eq_some hfind
    have hchar := List.find?_some hfind
    obtain rfl : d = c := of_decide_eq_true hchar
    rw [escaped, hfind]
    exact .letter hmem
  | none =>
    have hquote : c ≠ '"' := by
      rintro rfl
      exact absurd hfind (by decide)
    have hbackslash : c ≠ '\\' := by
      rintro rfl
      exact absurd hfind (by decide)
    rw [escaped, hfind]
    by_cases h : c.toNat < 0x20 ∨ c.toNat = 0x7f
    · have hdigits := numberBelow?_digitChars c.toNat (by omega)
      have hletter : ('u', 4) ∈ numberEscapes := by decide
      rw [if_pos h]
      exact .number hletter hdigits
    · rw [not_or, Nat.not_lt] at h
      rw [if_neg (not_or.mpr ⟨Nat.not_lt.mpr h.1, h.2⟩)]
      exact .plain (.inr h.1) h.2 hquote hbackslash

/-- Escapes only where there is no other way, and by a letter where there is one. -/
instance : Inhabited Escaping :=
  ⟨escaped, spellsChar_escaped⟩

theorem shortEscape?_letter : ∀ entry ∈ letterEscapes, shortEscape? entry.1 = some entry.2 := by
  decide

theorem moreDigits?_letter : ∀ entry ∈ numberEscapes, shortEscape? entry.1 = none ∧
    ∃ more, moreDigits? entry.1 = some more ∧ entry.2 = more + 1 := by
  decide

namespace SpellsChar

variable {text : List Char} {c : Char}

theorem head (h : SpellsChar text c) : ∃ d later, text = d :: later ∧ d ≠ '"' := by
  cases h with
  | plain _ _ hquote _ => exact ⟨c, [], rfl, hquote⟩
  | letter => exact ⟨'\\', _, rfl, by decide⟩
  | number => exact ⟨'\\', _, rfl, by decide⟩

theorem read (h : SpellsChar text c) (rest : List Char) :
    (textChar basicQuoting).read (text ++ rest) = some (c, rest) := by
  cases h with
  | plain hcontrol hdelete _ hbackslash =>
    have hprintable : isPrintable c = true := by simpa [isPrintable, hdelete] using hcontrol
    simp [textChar, basicQuoting, plainChar, hprintable, hbackslash]
  | @letter letter _ h =>
    have hletter := shortEscape?_letter _ h
    simp [textChar, basicQuoting, plainChar, escape, hletter]
  | @number letter _ digits h hdigits =>
    obtain ⟨hletter, more, hmore, hlength⟩ := moreDigits?_letter _ h
    have hnumber := hexNumber_read hlength hdigits rest
    simp [textChar, basicQuoting, plainChar, escape, hletter, hmore, hnumber, ofCodePoint?_toNat]

end SpellsChar

namespace Escaping

variable (escaping : Escaping)

def quoted (s : String) : List Char :=
  '"' :: (s.toList.flatMap escaping.write ++ ['"'])

theorem readPieces_write (chars rest : List Char) :
    readPieces (textChar basicQuoting) (mark '"')
        (chars.flatMap escaping.write ++ '"' :: rest) = some ((chars, ()), rest) := by
  induction chars with
  | nil => rw [readPieces_eq]; simp
  | cons c chars ih =>
    have hspells := escaping.spells c
    have hclosing : (mark '"').read
        (escaping.write c ++ (chars.flatMap escaping.write ++ '"' :: rest)) = none := by
      obtain ⟨d, later, hwrite, hd⟩ := hspells.head
      rw [hwrite, List.cons_append, mark_read_cons, if_neg hd]
    rw [List.flatMap_cons, List.append_assoc, readPieces_eq, hclosing, hspells.read]
    simp [ih]

/-- What stands behind may not be another quote, with which three of them could begin a text over
several lines. -/
theorem quotedText_read (s : String) {rest : List Char} (hrest : rest.head? ≠ some '"') :
    quotedText.read (escaping.quoted s ++ rest) = some (s, rest) := by
  have hmark : basicQuoting.mark = '"' := rfl
  have hbody := escaping.readPieces_write s.toList rest
  have hline : (lineText basicQuoting).read (escaping.quoted s ++ rest) = some (s, rest) := by
    simp [lineText, hmark, quoted, hbody]
  have hblock : (blockText basicQuoting).read (escaping.quoted s ++ rest) = none := by
    cases hchars : s.toList with
    | nil =>
      have hthird : (mark '"').read rest = none := by
        cases rest with
        | nil => rfl
        | cons c rest => simpa [mark_read_cons] using hrest
      simp [blockText, threeMarks, hmark, quoted, hchars, hthird]
    | cons c chars =>
      obtain ⟨d, later, hwrite, hd⟩ := (escaping.spells c).head
      simp [blockText, threeMarks, hmark, quoted, hchars, hwrite, hd]
  simp [quotedText, lineOrBlockText, hblock, hline]

end Escaping

end TagLint.Toml
