import TagLint.Regex.Bracket

/-! The tokens of a regular expression in its written form. -/

namespace TagLint.Regex

open Reader

/-- A change of the rules for what follows: a letter, and whether it is switched on. -/
abbrev Switch := Char × Bool

inductive Token
  | set (set : CharSet)
  | anyChar
  | edge (edge : Edge)
  | start
  | finish
  | times (least : Nat) (most? : Option Nat)
  | bar
  | switches (switches : List Switch)
  | opening (switches : List Switch)
  | closing

/-- The switches that letters stand for. Behind a hyphen they switch off. -/
def switches? (letters : List Char) : Option (List Switch) :=
  let on := letters.takeWhile (· != '-')
  let off := (letters.dropWhile (· != '-')).drop 1
  if letters.Nodup ∧ letters.getLast? ≠ some '-' then
    some (on.map (·, true) ++ off.map (·, false))
  else none

def switchLetters : List Char :=
  ['i', 'm', 's', 'u', 'U', '-']

/-- Switches for the group that they open, or for the rest of the group around them. -/
def switchToken : Reader Token :=
  (mark '(').andThen fun _ => (mark '?').andThen fun _ =>
    ((char switchLetters.contains).upTo (char fun c => c == ':' || c == ')')).filterMap fun found =>
      (switches? found.1).bind fun switches =>
        if found.2 = ':' then some (.opening switches)
        else if switches = [] then none
        else some (.switches switches)

def isNameStart (c : Char) : Bool :=
  c.isAlpha || c == '_' || 0x80 ≤ c.toNat

def isNameChar (c : Char) : Bool :=
  isNameStart c || c.isDigit || c == '.' || c == '[' || c == ']'

/-- The opening of a group with a name. The name has no use. -/
def namedOpening : Reader Token :=
  let opener := ((mark '(').andThen fun _ => mark '?').goingOn
    (fun _ rest => rest.head? == some 'P') fun _ => mark 'P'
  (opener.andThen fun _ => (mark '<').andThen fun _ => char isNameStart).andThen fun _ =>
    ((char isNameChar).upTo (mark '>')).map fun _ => .opening []

def opening : Reader Token :=
  (((mark '(').map fun _ => Token.opening []).goingOn
    (fun _ rest => rest.head? == some '?') fun _ => .refuse).orElse
    (namedOpening.orElse switchToken)

def skipBlanks (text : List Char) : List Char :=
  text.dropWhile isBlank

def afterBlanks {α : Type} (reader : Reader α) : Reader α :=
  reader.behind skipBlanks fun _ => (List.dropWhile_suffix _).length_le

def count : Reader Nat :=
  afterBlanks ((word Char.isDigit).filterMap (numberBelow? (Nat.pow 2 32) 10))

/-- Counts between braces: one, or a least and perhaps a greatest one. -/
def bracedRepetition : Reader Token :=
  (mark '\x7b').andThen fun _ => count.andThen fun least =>
    let exact : Reader Token := (afterBlanks (mark '\x7d')).map fun _ => .times least (some least)
    let atLeast : Reader Token := (afterBlanks (mark ',')).andThen fun _ =>
      (mark '\x7d').map fun _ => .times least none
    let between : Reader Token := (afterBlanks (mark ',')).andThen fun _ =>
      count.andThen fun most => (afterBlanks (mark '\x7d')).filterMap fun _ =>
        if least ≤ most then some (.times least (some most)) else none
    exact.orElse (atLeast.orElse between)

/-- How often the token in front may occur. Whether it prefers few or many
occurrences makes no difference to whether there is a match. -/
def repetition : Reader Token :=
  let signs : Reader Token := anyChar.filterMap fun c =>
    match c with
    | '*' => some (.times 0 none)
    | '+' => some (.times 1 none)
    | '?' => some (.times 0 (some 1))
    | _ => none
  (signs.orElse bracedRepetition).goingOn (fun _ rest => rest.head? == some '?') fun token =>
    (mark '?').map fun _ => token

def maxDepth : Nat := 250

def Escaped.token : Escaped → Token
  | literal c => .set (.single c)
  | set s => .set s
  | edge e => .edge e

def Token.ofChar? : Char → Option Token
  | '.' => some .anyChar
  | '^' => some .start
  | '$' => some .finish
  | '|' => some .bar
  | ')' => some .closing
  | c => if "\\([\x7b*+?".toList.contains c then none else some (.set (.single c))

def token : Reader Token :=
  opening.orElse (repetition.orElse (((bracket maxDepth).map .set).orElse
    ((escaped.map Escaped.token).orElse (anyChar.filterMap Token.ofChar?))))

def tokens (text : List Char) : Option (List Token) :=
  match h : token.read text with
  | some (first, rest) =>
    have := token.shortens h
    (tokens rest).map (first :: ·)
  | none => if text = [] then some [] else none
termination_by text.length

end TagLint.Regex
