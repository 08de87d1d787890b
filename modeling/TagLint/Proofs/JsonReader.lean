import TagLint.Json
import TagLint.Text.Digit

/-! Reading JSON. Blanks and line ends may stand between any two parts. The values read
are those that can be written, so a text with a null, a sign or a fraction is refused. -/

namespace TagLint.Json

open Reader

def isSpace (c : Char) : Bool :=
  c == ' ' || c == '\t' || c == '\n' || c == '\r'

def skipSpace (text : List Char) : List Char :=
  text.dropWhile isSpace

theorem length_skipSpace_le (text : List Char) : (skipSpace text).length ≤ text.length :=
  (List.dropWhile_suffix _).length_le

def afterSpace {α : Type} (reader : Reader α) : Reader α :=
  reader.behind skipSpace length_skipSpace_le

def shortEscape? : Char → Option Char
  | '"' => some '"'
  | '\\' => some '\\'
  | '/' => some '/'
  | 'b' => some '\x08'
  | 'f' => some '\x0c'
  | 'n' => some '\n'
  | 'r' => some '\r'
  | 't' => some '\t'
  | _ => none

def codeUnit : Reader Nat :=
  (mark 'u').andThen fun _ => hexNumber 3

def between (low high : Nat) (n : Nat) : Option Nat :=
  if low ≤ n ∧ n ≤ high then some n else none

/-- A character behind U+FFFF, written by two units. -/
def surrogates : Reader Char :=
  (codeUnit.filterMap (between 0xd800 0xdbff)).andThen fun high =>
    (mark '\\').andThen fun _ =>
      (codeUnit.filterMap (between 0xdc00 0xdfff)).filterMap fun low =>
        ofCodePoint? (0x10000 + 0x400 * (high - 0xd800) + (low - 0xdc00))

def escapedChar : Reader Char :=
  (mark '\\').andThen fun _ =>
    ((char fun _ => true).filterMap shortEscape?).orElse
      ((codeUnit.filterMap ofCodePoint?).orElse surrogates)

/-- Control characters do not stand in a text as they are. -/
def plainChar : Reader Char :=
  char fun c => c != '"' && c != '\\' && 0x20 ≤ c.toNat

def quotedText : Reader String :=
  (mark '"').andThen fun _ =>
    ((plainChar.orElse escapedChar).upTo (mark '"')).map fun body => String.ofList body.1

/-- Digits without a needless zero in front. -/
def number? (word : List Char) : Option Nat :=
  if word.all Char.isDigit ∧ (word.head? = some '0' → word = ['0']) then
    some (Nat.ofDigitChars 10 word 0)
  else none

def scalar? (word : List Char) : Option Json :=
  if word = "true".toList then some (.flag true)
  else if word = "false".toList then some (.flag false)
  else (number? word).map .number

def scalar : Reader Json :=
  (word Char.isAlphanum).filterMap scalar?

/-- Members between two brackets with commas between them. -/
def members {α : Type} (opener closer : Char) (member : Reader α) : Reader (List α) :=
  (mark opener).andThen fun _ =>
    ((afterSpace (mark closer)).map fun _ => []).orElse
      ((afterSpace member).andThen fun first =>
        (((afterSpace (mark ',')).andThen fun _ => afterSpace member).upTo
          (afterSpace (mark closer))).map fun later => first :: later.1)

def field (value : Reader Json) : Reader (String × Json) :=
  quotedText.andThen fun key =>
    (afterSpace (mark ':')).andThen fun _ => (afterSpace value).map fun value => (key, value)

/-- A value with fewer levels than given. What stands in brackets is one level further in. -/
def value : (depth : Nat) → Reader Json
  | 0 => refuse
  | depth + 1 =>
    (quotedText.map .text).orElse <| scalar.orElse <|
      ((members '[' ']' (value depth)).map .list).orElse
        ((members '\x7b' '\x7d' (field (value depth))).map .object)

/-- The value that a whole text writes. No text has more levels than characters. -/
def ofText? (text : String) : Option Json :=
  ((afterSpace (value (text.length + 1))).read text.toList).bind fun found =>
    if skipSpace found.2 = [] then some found.1 else none

def field? (key : String) : Json → Option Json
  | object fields => fields.lookup key
  | _ => none

def asText? : Json → Option String
  | text s => some s
  | _ => none

def asNumber? : Json → Option Nat
  | number n => some n
  | _ => none

def asFlag? : Json → Option Bool
  | flag b => some b
  | _ => none

def asList? : Json → Option (List Json)
  | list items => some items
  | _ => none

end TagLint.Json
