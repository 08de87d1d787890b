import TagLint.Toml.Text
import TagLint.Toml.Table

/-! Reading a document: its statements one by one, then the table that they
build together. -/

namespace TagLint.Toml

open Reader

def maxDepth : Nat := 80

def pair (equals : Reader Unit) (value : Reader Value) : Reader (List String × Value) :=
  (keyPath maxPath).andThen fun path => equals.andThen fun _ =>
    value.map fun value => (path, value)

/-- A key and its value in a table between braces. They need not stand on one line. -/
def field (value : Reader Value) : Reader (List String × Value) :=
  pair (afterLayout (mark '=')) (afterLayout value)

/-- Items with commas between, behind the mark that opens them. -/
def listIn {α : Type} (opener closer : Char) (item : Reader α) : Reader (List α) :=
  (mark opener).andThen fun _ =>
    (afterLayout item).listUpTo (afterLayout (mark ',')) (afterLayout (mark closer))

def array (value : Reader Value) : Reader Value :=
  (listIn '[' ']' value).map Value.array

def inlineTable? (fields : List (List String × Value)) : Option Value :=
  let add (table : Table) (field : List String × Value) := table.assign field.1 field.2
  (fields.foldlM add (.empty .inline)).map Table.toValue

def inlineTable (value : Reader Value) : Reader Value :=
  (listIn '\x7b' '\x7d' (field value)).filterMap inlineTable?

def plainValue : Reader Value :=
  (quotedText.map Value.text).orElse (scalar.map Value.scalar)

/-- A value with at most the given depth of brackets and braces. -/
def value : (depth : Nat) → Reader Value
  | 0 => plainValue
  | depth + 1 => (array (value depth)).orElse ((inlineTable (value depth)).orElse plainValue)

inductive Statement
  | table (path : List String)
  | nextTable (path : List String)
  | assign (path : List String) (value : Value)

/-- The path of a header and one closing bracket, from behind the opening ones. -/
def headerPath : Reader (List String) :=
  (afterGap (keyPath maxPath)).andThen fun path => (afterGap (mark ']')).map fun _ => path

def tableHeader : Reader Statement :=
  (mark '[').andThen fun _ => headerPath.map Statement.table

def nextTableHeader : Reader Statement :=
  (mark '[').andThen fun _ => (mark '[').andThen fun _ =>
    headerPath.andThen fun path => (mark ']').map fun _ => .nextTable path

def assignment : Reader Statement :=
  (pair (afterGap (mark '=')) (afterGap (value maxDepth))).map fun pair =>
    .assign pair.1 pair.2

def statement : Reader Statement :=
  nextTableHeader.orElse (tableHeader.orElse assignment)

def statements (text : List Char) : Option (List Statement) :=
  if skipLayout text = [] then some []
  else
    match h : (afterLayout statement).read text with
    | none => none
    | some (first, rest) =>
      have := (afterLayout statement).shortens h
      if atLineEnd rest then (statements rest).map (first :: ·) else none
termination_by text.length

theorem statements_eq (text : List Char) :
    statements text =
      if skipLayout text = [] then some []
      else ((afterLayout statement).read text).bind fun first =>
        if atLineEnd first.2 then (statements first.2).map (first.1 :: ·) else none := by
  rw [statements]
  split
  · rfl
  · split <;> simp_all

/-- A document as it is built, with the path of the latest header. -/
structure Draft where
  header : List String
  root : Table

namespace Draft

def empty : Draft :=
  ⟨[], .empty .header⟩

/-- A key belongs to the table of the latest header. -/
def add (draft : Draft) : Statement → Option Draft
  | .table path => (draft.root.openTable path).map (Draft.mk path)
  | .nextTable path => (draft.root.openNext path).map (Draft.mk path)
  | .assign path value =>
    (draft.root.descend .header (Table.assign path value) draft.header).map (Draft.mk draft.header)

end Draft

def withoutByteOrderMark : List Char → List Char
  | '\ufeff' :: rest => rest
  | text => text

def document? (text : String) : Option Table := do
  let statements ← statements (withoutByteOrderMark text.toList)
  let draft ← statements.foldlM Draft.add Draft.empty
  some draft.root

end TagLint.Toml
