import TagLint.Text.Digit

/-! Values without quotes or brackets: truth values, numbers, dates and times. Nothing is kept of
dates and times. A document is read without working out its numbers, so a word that only begins
like an integer passes for one. Whether a word writes a number that can be represented is a
question of its own. -/

namespace TagLint.Toml

/-- The number that the first digits of the text write, and the text behind. -/
def digits? (width : Nat) (text : List Char) : Option (Nat × List Char) :=
  let digits := text.take width
  if digits.length = width ∧ digits.all Char.isDigit then
    some (digits.foldl (fun n c => 10 * n + (c.toNat - '0'.toNat)) 0, text.drop width)
  else none

def mark? (c : Char) : List Char → Option (List Char)
  | d :: rest => if d = c then some rest else none
  | [] => none

def isLeapYear (year : Nat) : Bool :=
  year % 4 == 0 && (year % 100 != 0 || year % 400 == 0)

def daysIn (year month : Nat) : Nat :=
  if month = 2 then if isLeapYear year then 29 else 28
  else if month = 4 ∨ month = 6 ∨ month = 9 ∨ month = 11 then 30
  else 31

def date? (text : List Char) : Option (List Char) := do
  let (year, text) ← digits? 4 text
  let (month, text) ← digits? 2 (← mark? '-' text)
  let (day, text) ← digits? 2 (← mark? '-' text)
  if 1 ≤ month ∧ month ≤ 12 ∧ 1 ≤ day ∧ day ≤ daysIn year month then some text else none

def hourMinute? (text : List Char) : Option (List Char) := do
  let (hour, text) ← digits? 2 text
  let (minute, text) ← digits? 2 (← mark? ':' text)
  if hour ≤ 23 ∧ minute ≤ 59 then some text else none

def secondFraction? : List Char → Option (List Char)
  | '.' :: c :: rest => if c.isDigit then some (rest.dropWhile Char.isDigit) else none
  | '.' :: [] => none
  | text => some text

/-- Drops a time of day. The seconds may be missing, and a leap second may be
given. -/
def time? (text : List Char) : Option (List Char) := do
  let text ← hourMinute? text
  match text with
  | ':' :: text =>
    let (second, text) ← digits? 2 text
    if second ≤ 60 then secondFraction? text else none
  | text => some text

def isOffset : List Char → Bool
  | ['Z'] => true
  | ['z'] => true
  | '+' :: text => hourMinute? text == some []
  | '-' :: text => hourMinute? text == some []
  | _ => false

/-- A date, a time of day, or a date with a time of day and perhaps an offset. -/
def isMoment (text : List Char) : Bool :=
  match date? text with
  | some [] => true
  | some (separator :: text) =>
    (separator == 'T' || separator == 't' || separator == ' ') &&
      (time? text).any fun offset => offset.isEmpty || isOffset offset
  | none => time? text == some []

/-- A word that passes for a number, with its signs and underscores. -/
inductive Number
  | integer (radix : Nat) (word : List Char)
  | float (word : List Char)
deriving DecidableEq, Repr

def withoutSign : List Char → List Char
  | '+' :: rest => rest
  | '-' :: rest => rest
  | text => text

/-- Each underscore stands between two digits. What is in front of the text is a
digit or not. -/
def hasSoundUnderscores (isDigit : Char → Bool) : (behindDigit : Bool) → List Char → Bool
  | _, [] => true
  | behindDigit, c :: rest =>
    if c = '_' then
      behindDigit && rest.head?.any isDigit && hasSoundUnderscores isDigit false rest
    else hasSoundUnderscores isDigit (isDigit c) rest

/-- The same for a word without a prefix, where a sign counts as a digit. -/
def hasSoundSpacing (isDigit : Char → Bool) : List Char → Bool
  | [] => false
  | c :: rest => c != '_' && hasSoundUnderscores isDigit true rest

def isFloatMark (c : Char) : Bool :=
  c == '.' || c == 'e' || c == 'E'

/-- The digits behind a prefix that names the radix. There may be none. -/
def isRadixed (radix : Nat) (digits : List Char) : Bool :=
  digits.all (fun c => isDigitOf radix c || c == '_') &&
    hasSoundUnderscores (isDigitOf radix) false digits

/-- A word that begins like a decimal integer, without a needless zero. What
follows an underscore may be anything that cannot belong to a float. -/
def isDecimal (word : List Char) : Bool :=
  let size := withoutSign word
  let rest := size.dropWhile Char.isDigit
  size == ['0'] ||
    size != [] && size.head? != some '0' && (rest.isEmpty || rest.head? == some '_') &&
      !rest.any isFloatMark && hasSoundSpacing (isDigitOf 16) word

def integer? : List Char → Option Number
  | '0' :: 'x' :: digits => if isRadixed 16 digits then some (.integer 16 digits) else none
  | '0' :: 'o' :: digits => if isRadixed 8 digits then some (.integer 8 digits) else none
  | '0' :: 'b' :: digits => if isRadixed 2 digits then some (.integer 2 digits) else none
  | word => if isDecimal word then some (.integer 10 word) else none

/-- A text cut at the first character of a kind, which is left out. -/
def cutAt (isCut : Char → Bool) (text : List Char) : List Char × Option (List Char) :=
  match text.dropWhile (!isCut ·) with
  | _ :: after => (text.takeWhile (!isCut ·), some after)
  | [] => (text, none)

def floatParts (size : List Char) : List Char × Option (List Char) × Option (List Char) :=
  let (mantissa, exponent?) := cutAt (fun c => c == 'e' || c == 'E') size
  let (whole, fraction?) := cutAt (· == '.') mantissa
  (whole, fraction?, exponent?)

def hasDigitsOnly (text : List Char) : Bool :=
  text.any Char.isDigit && text.all fun c => c.isDigit || c == '_'

def isFraction (size : List Char) : Bool :=
  let (whole, fraction?, exponent?) := floatParts size
  hasDigitsOnly whole && (whole.head? != some '0' || whole.countP Char.isDigit == 1) &&
    (fraction?.isSome || exponent?.isSome) && fraction?.all hasDigitsOnly &&
    exponent?.all fun exponent => hasDigitsOnly (withoutSign exponent)

/-- A size without limit, or none at all. -/
def isSpecial (size : List Char) : Bool :=
  size == "inf".toList || size == "nan".toList

def float? (word : List Char) : Option Number :=
  let size := withoutSign word
  if isSpecial size ∨ isFraction size ∧ hasSoundSpacing Char.isDigit word then some (.float word)
  else none

/-- Integers fit into 128 bits, positive ones also without room for a sign. -/
def integerFits (radix : Nat) (word : List Char) : Bool :=
  let digits := (withoutSign word).filter (· != '_')
  let limit := if word.head? = some '-' then Nat.pow 2 127 + 1 else Nat.pow 2 128
  digits != [] && (numberBelow? limit radix digits).isSome

/-- The least whole number that double precision rounds to infinity. -/
def floatLimit : Nat :=
  Nat.pow 2 1024 - Nat.pow 2 970

/-- How many digits the whole part of a float may have. -/
def maxWholeDigits : Nat := 309

/-- The exponent that a text with a sign writes. Beyond a billion it decides alone. -/
def exponentValue (text : List Char) : Int :=
  let size : Nat := (numberBelow? (Nat.pow 10 9) 10 (withoutSign text)).getD (Nat.pow 10 9)
  if text.head? = some '-' then -size else size

/-- Only the whole part of the size decides whether it is below the limit. -/
def fractionFits (size : List Char) : Bool :=
  let (whole, fraction?, exponent?) := floatParts (size.filter (· != '_'))
  let digits := whole ++ fraction?.getD []
  let significant := digits.dropWhile (· == '0')
  let point : Int :=
    whole.length + significant.length - digits.length + (exponent?.map exponentValue).getD 0
  let wholePart := (significant ++ List.replicate maxWholeDigits '0').take point.toNat
  significant.isEmpty ||
    point ≤ maxWholeDigits && (numberBelow? floatLimit 10 wholePart).isSome

def Number.fits : Number → Bool
  | integer radix word => integerFits radix word
  | float word => isSpecial (withoutSign word) || fractionFits (withoutSign word)

inductive Scalar
  | boolean
  | number (n : Number)
  | moment
deriving DecidableEq, Repr

/-- Only numbers can be out of range. -/
def Scalar.fits : Scalar → Bool
  | number n => n.fits
  | _ => true

def scalar? (word : List Char) : Option Scalar :=
  if word = "true".toList ∨ word = "false".toList then some .boolean
  else if isMoment word then some .moment
  else ((float? word).orElse fun _ => integer? word).map .number

/-- A character that does not end a word outside quotes. -/
def isWordChar (c : Char) : Bool :=
  !"=,[]\x7b\x7d# \t\r\n".toList.contains c

/-- The word at the front of the text. A date and a time may stand apart by one
space. -/
def scalarWord (text : List Char) : List Char :=
  let word := text.takeWhile isWordChar
  match date? word, text.drop word.length with
  | some [], ' ' :: c :: rest =>
    if c.isDigit then word ++ ' ' :: c :: rest.takeWhile isWordChar else word
  | _, _ => word

def scalar : Reader Scalar where
  read text :=
    let word := scalarWord text
    if word = [] ∨ text = [] then none
    else (scalar? word).map fun value => (value, text.drop word.length)
  shortens {text _ _} h := by
    simp only at h
    split at h
    · simp at h
    · rename_i hne
      obtain ⟨_, _, h⟩ := Option.map_eq_some_iff.mp h
      cases h
      have hword := List.length_pos_iff.mpr fun hnil => hne (.inl hnil)
      have htext := List.length_pos_iff.mpr fun hnil => hne (.inr hnil)
      simp only [List.length_drop]
      omega

end TagLint.Toml
