import TagLint.Regex.Basic
import TagLint.Text.Digit

/-! Sets of characters as they are written: by an escape, or between brackets. -/

namespace TagLint.Regex

open Reader

inductive Escaped
  | literal (c : Char)
  | set (set : CharSet)
  | edge (edge : Edge)

def controlChar? : Char → Option Char
  | 'a' => some '\x07'
  | 't' => some '\t'
  | 'n' => some '\n'
  | 'v' => some '\x0b'
  | 'f' => some '\x0c'
  | 'r' => some '\r'
  | _ => none

/-- Characters without a meaning stand for themselves. Letters and digits do not. -/
def isPunctuation (c : Char) : Bool :=
  c.toNat < 0x80 && !c.isAlphanum && c != '<' && c != '>'

def namedSet? : Char → Option CharSet
  | 'd' => some .digit
  | 'D' => some (.allBut .digit)
  | 's' => some .blank
  | 'S' => some (.allBut .blank)
  | 'w' => some .wordChar
  | 'W' => some (.allBut .wordChar)
  | _ => none

def edge? : Char → Option Edge
  | 'A' => some .textStart
  | 'z' => some .textEnd
  | 'b' => some .wordEdge
  | 'B' => some .noWordEdge
  | '<' => some .wordStart
  | '>' => some .wordEnd
  | _ => none

def anyChar : Reader Char :=
  char fun _ => true

/-- A number between braces, which has any count of digits but at least one. -/
def bracedNumber : Reader Nat :=
  (mark '\x7b').andThen fun _ =>
    ((word (isDigitOf 16)).filterMap (numberBelow? 0x110000 16)).andThen fun n =>
      (mark '\x7d').map fun _ => n

def numberedChar : Reader Char :=
  (anyChar.filterMap moreDigits?).andThen fun more =>
    (bracedNumber.orElse (hexNumber more)).filterMap ofCodePoint?

def escaped : Reader Escaped :=
  let byLetter : Reader Escaped := anyChar.filterMap fun c =>
    if isPunctuation c then some (.literal c)
    else ((controlChar? c).map .literal).or (((namedSet? c).map .set).or ((edge? c).map .edge))
  (mark '\\').andThen fun _ => byLetter.orElse (numberedChar.map .literal)

def classOf? : String → Option CharSet
  | "alnum" => some (.union [.range 'a' 'z', .range 'A' 'Z', .digit])
  | "alpha" => some (.union [.range 'a' 'z', .range 'A' 'Z'])
  | "ascii" => some (.range '\x00' '\x7f')
  | "blank" => some (.union [.single ' ', .single '\t'])
  | "cntrl" => some (.union [.range '\x00' '\x1f', .single '\x7f'])
  | "digit" => some .digit
  | "graph" => some (.range '!' '~')
  | "lower" => some (.range 'a' 'z')
  | "print" => some (.range ' ' '~')
  | "punct" =>
    some (.union [.range '!' '/', .range ':' '@', .range '[' '\x60', .range '\x7b' '~'])
  | "space" => some (.union [.range '\t' '\r', .single ' '])
  | "upper" => some (.range 'A' 'Z')
  | "word" => some (.union [.range 'a' 'z', .range 'A' 'Z', .digit, .single '_'])
  | "xdigit" => some (.union [.digit, .range 'a' 'f', .range 'A' 'F'])
  | _ => none

def namedClass : Reader CharSet :=
  let opener : Reader (CharSet → CharSet) :=
    (mark '[').andThen fun _ =>
      ((mark ':').andThen fun _ => (mark '^').map fun _ => .allBut).orElse
        ((mark ':').map fun _ => id)
  opener.andThen fun change =>
    ((word Char.isAlpha).filterMap fun name => classOf? (String.ofList name)).andThen fun set =>
      (mark ':').andThen fun _ => (mark ']').map fun _ => change set

/-- How two sets between the same brackets are joined. -/
inductive Join
  | common
  | difference
  | eitherAlone

def Join.apply : Join → CharSet → CharSet → CharSet
  | common, one, other => .both one other
  | difference, one, other => .both one (.allBut other)
  | eitherAlone, one, other => .both (.either one other) (.allBut (.both one other))

inductive Member
  | set (set : CharSet)
  | join (join : Join)

def join : Reader Member :=
  let twice (c : Char) (join : Join) : Reader Member :=
    (mark c).andThen fun _ => (mark c).map fun _ => .join join
  (twice '&' .common).orElse ((twice '-' .difference).orElse (twice '~' .eitherAlone))

def single (isPlain : Char → Bool) : Reader Escaped :=
  escaped.orElse ((char isPlain).map .literal)

def Escaped.set? : Escaped → Option CharSet
  | literal c => some (.single c)
  | set s => some s
  | edge _ => none

def range? : Escaped → Escaped → Option CharSet
  | .literal first, .literal last => if first ≤ last then some (.range first last) else none
  | _, _ => none

/-- A hyphen between two members makes them the ends of a range. -/
def isRangeMark : List Char → Bool
  | '-' :: c :: _ => c != ']' && c != '-'
  | _ => false

def member : Reader CharSet :=
  let first := single fun c => c != '\\' && c != '['
  let last := single (· != '\\')
  (first.goingOn (fun _ rest => isRangeMark rest) fun first =>
    (mark '-').andThen fun _ => last.filterMap fun last =>
      (range? first last).map .set).filterMap Escaped.set?

/-- The set of some members, which are joined from the left to the right. -/
def joinMembers (finish : CharSet → CharSet) (sets : List CharSet) : List Member → CharSet
  | [] => finish (.union sets)
  | .set s :: members => joinMembers finish (s :: sets) members
  | .join j :: members => joinMembers (j.apply (finish (.union sets))) [] members

structure BracketStart where
  isNegated : Bool
  literal? : Option Char

/-- A closing bracket or hyphens right behind the opening stand for themselves. -/
def bracketStart : Reader BracketStart :=
  let opened : Reader BracketStart := (mark '[').map fun _ => ⟨false, none⟩
  let negated := opened.goingOn (fun _ rest => rest.head? == some '^') fun _ =>
    (mark '^').map fun _ => ⟨true, none⟩
  let hyphened := negated.goingOn (fun _ rest => rest.head? == some '-') fun start =>
    (word (· == '-')).map fun _ => { start with literal? := some '-' }
  hyphened.goingOn (fun start rest => start.literal?.isNone && rest.head? == some ']') fun start =>
    (mark ']').map fun _ => { start with literal? := some ']' }

/-- A set between brackets with at most the given depth of brackets inside. -/
def bracket : (depth : Nat) → Reader CharSet
  | 0 => .refuse
  | depth + 1 =>
    let piece := join.orElse ((namedClass.orElse ((bracket depth).orElse member)).map .set)
    bracketStart.andThen fun start => (piece.upTo (mark ']')).map fun body =>
      let set := joinMembers id (start.literal?.map CharSet.single).toList body.1
      if start.isNegated then .allBut set else set

end TagLint.Regex
