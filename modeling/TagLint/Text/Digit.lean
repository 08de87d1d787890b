import TagLint.Text.Reader

/-! Digits and the numbers that they write. -/

namespace TagLint

def hexValue? (c : Char) : Option Nat :=
  if '0' ≤ c ∧ c ≤ '9' then some (c.toNat - '0'.toNat)
  else if 'a' ≤ c ∧ c ≤ 'f' then some (c.toNat - 'a'.toNat + 10)
  else if 'A' ≤ c ∧ c ≤ 'F' then some (c.toNat - 'A'.toNat + 10)
  else none

/-- The value of a digit in a radix of at most sixteen. -/
def digitValue? (radix : Nat) (c : Char) : Option Nat :=
  (hexValue? c).filter (· < radix)

def isDigitOf (radix : Nat) (c : Char) : Bool :=
  (digitValue? radix c).isSome

/-- The number that digits write, if it is below the limit. No digits write zero. -/
def numberBelow? (limit radix : Nat) (digits : List Char) : Option Nat :=
  digits.foldlM
    (fun n c => ((digitValue? radix c).map (radix * n + ·)).filter (· < limit)) 0

theorem numberBelow?_snoc {limit radix n : Nat} {digits : List Char} {last : Char}
    (h : numberBelow? limit radix (digits ++ [last]) = some n) :
    ∃ high low, numberBelow? limit radix digits = some high ∧ hexValue? last = some low ∧
      n = radix * high + low := by
  rw [numberBelow?, List.foldlM_append] at h
  obtain ⟨high, hhigh, h⟩ := Option.bind_eq_some_iff.mp h
  simp only [digitValue?, List.foldlM_cons, List.foldlM_nil, bind_pure, Option.filter_eq_some_iff,
    Option.map_eq_some_iff] at h
  obtain ⟨⟨low, ⟨hlow, _⟩, hsum⟩, _⟩ := h
  exact ⟨high, low, hhigh, hlow, hsum.symm⟩

theorem numberBelow?_concat {limit radix high low : Nat} {digits : List Char} {last : Char}
    (hhigh : numberBelow? limit radix digits = some high) (hlow : hexValue? last = some low)
    (hradix : low < radix) (hlimit : radix * high + low < limit) :
    numberBelow? limit radix (digits ++ [last]) = some (radix * high + low) := by
  rw [numberBelow?] at hhigh
  rw [numberBelow?, List.foldlM_append, hhigh]
  simp [digitValue?, hlow, hradix, hlimit]

theorem hexValue?_digitChar : ∀ n < 16, hexValue? n.digitChar = some n := by
  decide

theorem numberBelow?_toDigits {limit n : Nat} (h : n < limit) :
    numberBelow? limit 16 (Nat.toDigits 16 n) = some n := by
  induction n using Nat.strongRecOn with
  | ind n ih =>
    rw [Nat.toDigits_eq_if (by decide)]
    split
    · next hsmall =>
      have hnone : numberBelow? limit 16 [] = some 0 := rfl
      have hvalue := numberBelow?_concat hnone (hexValue?_digitChar n hsmall) hsmall (by omega)
      simpa using hvalue
    · next hlarge =>
      have hmod := Nat.mod_lt n (show 0 < 16 by decide)
      have hhigh := ih (n / 16) (by omega) (by omega)
      have hsum := Nat.div_add_mod n 16
      rw [numberBelow?_concat hhigh (hexValue?_digitChar (n % 16) hmod) hmod (by omega), hsum]

/-- How many digits follow the first one in an escape that gives a character by its number. -/
def moreDigits? : Char → Option Nat
  | 'x' => some 1
  | 'u' => some 3
  | 'U' => some 7
  | _ => none

/-- A number in hexadecimal with one digit more than the given count. -/
def hexNumber : (more : Nat) → Reader Nat
  | 0 => (Reader.char fun _ => true).filterMap hexValue?
  | more + 1 =>
    (hexNumber more).andThen fun high => (hexNumber 0).map fun low => 16 * high + low

theorem hexNumber_read {more limit n : Nat} {digits : List Char}
    (hlength : digits.length = more + 1) (h : numberBelow? limit 16 digits = some n)
    (rest : List Char) : (hexNumber more).read (digits ++ rest) = some (n, rest) := by
  induction more generalizing digits n rest with
  | zero =>
    obtain ⟨c, rfl⟩ := List.length_eq_one_iff.mp hlength
    obtain ⟨high, low, hhigh, hlow, rfl⟩ := @numberBelow?_snoc _ _ _ [] _ h
    cases hhigh
    simp [hexNumber, hlow]
  | succ more ih =>
    have hne : digits ≠ [] := List.ne_nil_of_length_eq_add_one hlength
    obtain ⟨high, low, hhigh, hlow, rfl⟩ :=
      numberBelow?_snoc (List.dropLast_concat_getLast hne ▸ h)
    have hread := ih (by simp [hlength]) hhigh (digits.getLast hne :: rest)
    rw [← List.dropLast_concat_getLast hne, List.append_assoc]
    simp [hexNumber, hread, hlow]

def ofCodePoint? (n : Nat) : Option Char :=
  if n.isValidChar then some (Char.ofNat n) else none

theorem ofCodePoint?_toNat (c : Char) : ofCodePoint? c.toNat = some c := by
  have hvalid : c.toNat.isValidChar := c.valid
  rw [ofCodePoint?, if_pos hvalid, Char.ofNat_toNat]

end TagLint
