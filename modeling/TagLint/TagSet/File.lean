import TagLint.TagSet.Basic
import TagLint.Toml.Document

/-! Tag sets that are written down as TOML. A table with the key of the set
holds the names and perhaps a name and a description of the set itself. The
same three may stand in an array, in a fixed order. Other keys mean nothing, but
their values have to fit. -/

namespace TagLint

/-- A tag set as it is written, before its names are looked at. -/
structure TagSetEntry where
  name? : Option String
  description? : Option String
  elements : List String
deriving DecidableEq, Repr

inductive TagSetFault
  | malformed
  | rejected (rejection : Rejection)
deriving DecidableEq, Repr

def TagSetFault.message : TagSetFault → String
  | malformed => "invalid tag set TOML"
  | rejected rejection => rejection.message

namespace Toml.Value

def asText? : Value → Option String
  | text s => some s
  | _ => none

def asTexts? : Value → Option (List String)
  | array items => items.mapM asText?
  | _ => none

end Toml.Value

namespace TagSetEntry

/-- A key that may be missing, but has to be a text if it is there. -/
def optionalText? (table : Toml.Table) (key : String) : Option (Option String) :=
  match table.find? key with
  | none => some none
  | some value => value.asText?.map some

def ofTable? (table : Toml.Table) : Option TagSetEntry := do
  guard (table.othersFit ["name", "description", "elements"])
  let name? ← optionalText? table "name"
  let description? ← optionalText? table "description"
  let elements ← (← table.find? "elements").asTexts?
  some ⟨name?, description?, elements⟩

/-- What follows the third item is left alone. -/
def ofItems? : List Toml.Value → Option TagSetEntry
  | name :: description :: elements :: _ => do
    some ⟨some (← name.asText?), some (← description.asText?), ← elements.asTexts?⟩
  | _ => none

def ofValue? : Toml.Value → Option TagSetEntry
  | .table origin entries => ofTable? ⟨origin, entries⟩
  | .array items => ofItems? items
  | _ => none

def ofText? (text : String) : Option TagSetEntry := do
  let document ← Toml.document? text
  guard (document.othersFit ["tags"])
  ofValue? (← document.find? "tags")

def toTagSet (entry : TagSetEntry) : Except Rejection TagSet :=
  (TagSet.ofNames entry.elements).map fun set =>
    { set with name? := entry.name?, description? := entry.description? }

end TagSetEntry

def TagSet.ofToml (text : String) : Except TagSetFault TagSet :=
  match TagSetEntry.ofText? text with
  | none => .error .malformed
  | some entry => entry.toTagSet.mapError .rejected

end TagLint
