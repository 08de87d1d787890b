import TagLint.Regex.Token

/-! The regular expression that a text writes. Its tokens are taken one by one,
and a stack holds the groups that are open. -/

namespace TagLint.Regex

structure Rules where
  ignoresCase : Bool
  hasLines : Bool
  /-- A line feed is like any other character. -/
  dotTakesAll : Bool

def Rules.change (rules : Rules) (switch : Switch) : Rules :=
  match switch.1 with
  | 'i' => { rules with ignoresCase := switch.2 }
  | 'm' => { rules with hasLines := switch.2 }
  | 's' => { rules with dotTakesAll := switch.2 }
  | _ => rules

structure Group where
  rules : Rules
  /-- The alternatives in front of the latest one. -/
  alternatives : List Regex
  /-- The parts of the latest alternative, the last one first. A change of the
  rules is a part without an expression, so that it cannot be repeated. -/
  parts : List (Option Regex)

namespace Group

def empty (rules : Rules) : Group :=
  ⟨rules, [], []⟩

def push (group : Group) (regex : Regex) : Group :=
  { group with parts := some regex :: group.parts }

def latest (group : Group) : Regex :=
  (group.parts.filterMap id).foldl (fun later part => part.append later) .empty

def regex (group : Group) : Regex :=
  group.alternatives.foldl .either group.latest

end Group

/-- The groups that are open, from the inside to the outside. -/
structure Draft where
  inner : Group
  outer : List Group

namespace Draft

def push (draft : Draft) (regex : Regex) : Draft :=
  { draft with inner := draft.inner.push regex }

def add (draft : Draft) : Token → Option Draft
  | .set set => some (draft.push (.oneOf set draft.inner.rules.ignoresCase))
  | .anyChar =>
    let set := if draft.inner.rules.dotTakesAll then CharSet.all else .allBut (.single '\n')
    some (draft.push (.oneOf set false))
  | .edge e => some (draft.push (.edge e))
  | .start => some (draft.push (.edge (if draft.inner.rules.hasLines then .lineStart else .textStart)))
  | .finish => some (draft.push (.edge (if draft.inner.rules.hasLines then .lineEnd else .textEnd)))
  | .times least most? =>
    match draft.inner.parts with
    | some body :: parts =>
      some { draft with inner := { draft.inner with parts := some (.times least most? body) :: parts } }
    | _ => none
  | .bar =>
    let group := draft.inner
    some { draft with inner := { group with
      alternatives := group.latest :: group.alternatives, parts := [] } }
  | .switches switches =>
    let group := draft.inner
    some { draft with inner := { group with
      rules := switches.foldl Rules.change group.rules, parts := none :: group.parts } }
  | .opening switches =>
    some ⟨.empty (switches.foldl Rules.change draft.inner.rules), draft.inner :: draft.outer⟩
  | .closing =>
    match draft.outer with
    | group :: outer => some ⟨group.push draft.inner.regex, outer⟩
    | [] => none

end Draft

def ofText? (text : String) : Option Regex := do
  let tokens ← tokens text.toList
  let draft ← tokens.foldlM Draft.add ⟨.empty ⟨false, false, false⟩, []⟩
  if draft.outer.isEmpty then some draft.inner.regex else none

end TagLint.Regex
