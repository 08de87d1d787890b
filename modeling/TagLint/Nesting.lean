import TagLint.Scanner
import TagLint.Text.Lines

/-! The check of a document. Its tags are walked through with a stack of open elements. An
opening tag is pushed. A closing tag takes the innermost element off, whatever its name, and is
at fault if the names differ or no element is open. -/

namespace TagLint

inductive Finding
  /-- A closing tag where no element is open. -/
  | unexpectedClose (line : Nat) (name : String)
  /-- A closing tag that does not name the innermost open element. -/
  | mismatched (line : Nat) (expected found : String) (openedAt : Nat)
  /-- An element that is open at the end of the document. -/
  | unclosed (name : String) (openedAt : Nat)
deriving DecidableEq, Repr

inductive Finding.Kind
  | unexpectedClose
  | mismatched
  | unclosed
deriving DecidableEq, Repr

namespace Finding

def kind : Finding → Kind
  | unexpectedClose .. => .unexpectedClose
  | mismatched .. => .mismatched
  | unclosed .. => .unclosed

def line? : Finding → Option Nat
  | unexpectedClose line _ => some line
  | mismatched line .. => some line
  | unclosed .. => none

def message : Finding → String
  | unexpectedClose line name =>
    "Unexpected closing tag </" ++ name ++ "> at line " ++ toString line
  | mismatched line expected found _ =>
    "Mismatched tag. Expected </" ++ expected ++ "> but found </" ++ found ++ "> at line "
      ++ toString line
  | unclosed name openedAt =>
    "Unclosed tag <" ++ name ++ "> opened at line " ++ toString openedAt

end Finding

structure OpenElement where
  name : String
  line : Nat
deriving DecidableEq, Repr

/-- The open elements, the innermost first. -/
abbrev NestingStack := List OpenElement

inductive Step
  | push (element : OpenElement)
  | pop (element : OpenElement)
  | report (finding : Finding)
deriving DecidableEq, Repr

def Step.finding? : Step → Option Finding
  | .report finding => some finding
  | _ => none

namespace NestingStack

def outermostFirst (stack : NestingStack) : List OpenElement :=
  stack.reverse

inductive Operation
  | push (element : OpenElement)
  | pop
deriving DecidableEq, Repr

/-- The stack after an operation, the element taken from it, and the steps. -/
structure Change where
  stack : NestingStack
  popped? : Option OpenElement
  steps : List Step
deriving DecidableEq, Repr

/-- A pop of the empty stack is no step. -/
def apply (stack : NestingStack) : Operation → Change
  | .push element => ⟨element :: stack, none, [.push element]⟩
  | .pop =>
    match stack with
    | [] => ⟨[], none, []⟩
    | innermost :: outer => ⟨outer, some innermost, [.pop innermost]⟩

end NestingStack

/-- The fault of a closing tag that met the given innermost element. -/
def closingFault? (tag : Tag) : Option OpenElement → Option Finding
  | none => some (.unexpectedClose tag.line tag.name)
  | some element =>
    if element.name = tag.name then none
    else some (.mismatched tag.line element.name tag.name element.line)

structure Walk where
  steps : List Step
  stack : NestingStack
deriving DecidableEq, Repr

namespace NestingStack

def meet (stack : NestingStack) (tag : Tag) : Walk :=
  match tag.kind with
  | .opening =>
    let change := stack.apply (.push ⟨tag.name, tag.line⟩)
    ⟨change.steps, change.stack⟩
  | .closing =>
    let change := stack.apply .pop
    ⟨change.steps ++ ((closingFault? tag change.popped?).map Step.report).toList, change.stack⟩

def walk (stack : NestingStack) : List Tag → Walk
  | [] => ⟨[], stack⟩
  | tag :: tags =>
    let now := stack.meet tag
    let later := walk now.stack tags
    ⟨now.steps ++ later.steps, later.stack⟩

/-- One report for each element that is left, the outermost first. -/
def leftOpen (stack : NestingStack) : List Step :=
  stack.outermostFirst.map fun element => .report (.unclosed element.name element.line)

end NestingStack

/-- The findings on a document, in the order in which they were made. -/
structure Validation where
  findings : List Finding
deriving DecidableEq, Repr

namespace Validation

def isBalanced (validation : Validation) : Bool :=
  validation.findings.isEmpty

def count (validation : Validation) (kind : Finding.Kind) : Nat :=
  validation.findings.countP (·.kind == kind)

def unclosed (validation : Validation) : List Finding :=
  validation.findings.filter (·.kind == .unclosed)

end Validation

/-- All steps of a check, the reports at the end of the document included. -/
structure Inspection where
  lineCount : Nat
  steps : List Step
  openAtEnd : NestingStack
deriving DecidableEq, Repr

namespace Inspection

def ofTags (lineCount : Nat) (tags : List Tag) : Inspection :=
  let walk := NestingStack.walk [] tags
  ⟨lineCount, walk.steps ++ walk.stack.leftOpen, walk.stack⟩

def validation (inspection : Inspection) : Validation :=
  ⟨inspection.steps.filterMap Step.finding?⟩

end Inspection

namespace Scanner

def inspect (scanner : Scanner) (lines : List String) : Inspection :=
  .ofTags lines.length (scanner.scanLines lines)

def validate (scanner : Scanner) (lines : List String) : Validation :=
  (scanner.inspect lines).validation

def validateDocument (scanner : Scanner) (content : String) : Validation :=
  scanner.validate (physicalLines content)

end Scanner

end TagLint
