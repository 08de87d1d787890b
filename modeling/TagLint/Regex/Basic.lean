import TagLint.Text.Lines

/-! Regular expressions, and whether a match begins anywhere in a text. A search
keeps one mark for each place in the text, also for its end: the places that are
reached so far. -/

namespace TagLint

namespace Regex

inductive CharSet
  | range (first last : Char)
  | either (one other : CharSet)
  | both (one other : CharSet)
  | allBut (set : CharSet)

namespace CharSet

/-- Upper and lower case are known of the ASCII letters only. -/
def contains (ignoresCase : Bool) : CharSet → Char → Bool
  | range first last, c =>
    (if ignoresCase then [c, c.toLower, c.toUpper] else [c]).any fun c => first ≤ c && c ≤ last
  | either one other, c => one.contains ignoresCase c || other.contains ignoresCase c
  | both one other, c => one.contains ignoresCase c && other.contains ignoresCase c
  | allBut set, c => !set.contains ignoresCase c

def single (c : Char) : CharSet :=
  range c c

def all : CharSet :=
  range '\x00' (Char.ofNat 0x10ffff)

def union (sets : List CharSet) : CharSet :=
  sets.foldr either (allBut all)

def digit : CharSet :=
  range '0' '9'

def blank : CharSet :=
  union (blankRanges.map fun range => .range (Char.ofNat range.1) (Char.ofNat range.2))

/-- What words consist of. Beyond ASCII everything but blanks is taken to belong to a word, though
punctuation and symbols do not. -/
def wordChar : CharSet :=
  union [range 'a' 'z', range 'A' 'Z', digit, single '_',
    both (range '\u00aa' (Char.ofNat 0x10ffff)) (allBut blank)]

end CharSet

inductive Edge
  | textStart
  | textEnd
  | lineStart
  | lineEnd
  | wordEdge
  | noWordEdge
  | wordStart
  | wordEnd
deriving DecidableEq, Repr

/-- The condition for a place between two characters. At the ends of the text
one of them is missing. -/
def Edge.holds (edge : Edge) (before? after? : Option Char) : Bool :=
  let behindWord := before?.any (CharSet.wordChar.contains false)
  let beforeWord := after?.any (CharSet.wordChar.contains false)
  match edge with
  | textStart => before?.isNone
  | textEnd => after?.isNone
  | lineStart => before?.all (· == '\n')
  | lineEnd => after?.all (· == '\n')
  | wordEdge => behindWord != beforeWord
  | noWordEdge => behindWord == beforeWord
  | wordStart => !behindWord && beforeWord
  | wordEnd => behindWord && !beforeWord

/-- The places of a text at which a condition holds, given what is in front of it. -/
def Edge.marks (edge : Edge) : (before? : Option Char) → List Char → List Bool
  | before?, [] => [edge.holds before? none]
  | before?, c :: rest => edge.holds before? (some c) :: edge.marks (some c) rest

end Regex

inductive Regex
  | empty
  | oneOf (set : Regex.CharSet) (ignoresCase : Bool)
  | edge (edge : Regex.Edge)
  | append (first second : Regex)
  | either (one other : Regex)
  | times (least : Nat) (most? : Option Nat) (body : Regex)

namespace Regex

/-- Takes a step a number of times, or until it changes nothing. -/
def iterate (step : List Bool → List Bool) : Nat → List Bool → List Bool
  | 0, marks => marks
  | n + 1, marks =>
    let next := step marks
    if next = marks then marks else iterate step n next

/-- The places behind the matches that begin at the marked places. -/
def advance (text : List Char) : Regex → List Bool → List Bool
  | empty, marks => marks
  | oneOf set ignoresCase, marks =>
    false :: List.zipWith (fun c mark => mark && set.contains ignoresCase c) text marks
  | edge e, marks => List.zipWith and (e.marks none text) marks
  | append first second, marks => second.advance text (first.advance text marks)
  | either one other, marks => List.zipWith or (one.advance text marks) (other.advance text marks)
  | times least most? body, marks =>
    let step := body.advance text
    let more := (most?.map (· - least)).getD text.length
    iterate (fun marks => List.zipWith or marks (step marks)) more (iterate step least marks)

def isFoundIn (regex : Regex) (text : String) : Bool :=
  let chars := text.toList
  (regex.advance chars (List.replicate (chars.length + 1) true)).any id

end Regex

end TagLint
