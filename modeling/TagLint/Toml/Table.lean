import TagLint.Toml.Scalar

/-! The values of a document and the tables that are built of them. A table remembers how it came
about, because that decides what may be added to it later. Each table is defined once: a header may
take up a table that was only implied, a key with points may enter only tables without a header of
their own and makes them tables of its kind, and nothing may enter a table between braces. -/

namespace TagLint.Toml

inductive Origin
  /-- Defined by a header of its own, or the document itself. -/
  | header
  /-- Passed through by the header of a table inside it. -/
  | implied
  /-- Passed through by the path of a key. -/
  | dotted
  /-- Written between braces. -/
  | inline
deriving DecidableEq, Repr

inductive Value
  | text (s : String)
  | scalar (s : Scalar)
  | array (items : List Value)
  | table (origin : Origin) (entries : List (String × Value))
  /-- The tables that one header has opened, without the latest one. -/
  | tables (earlier : List (List (String × Value))) (latest : List (String × Value))

namespace Value

mutual

def fits : Value → Bool
  | text _ => true
  | scalar s => s.fits
  | array items => itemsFit items
  | table _ entries => entriesFit entries
  | tables earlier latest => tablesFit earlier && entriesFit latest

def itemsFit : List Value → Bool
  | [] => true
  | item :: items => fits item && itemsFit items

def entriesFit : List (String × Value) → Bool
  | [] => true
  | (_, value) :: entries => fits value && entriesFit entries

def tablesFit : List (List (String × Value)) → Bool
  | [] => true
  | entries :: rest => entriesFit entries && tablesFit rest

end

end Value

structure Table where
  origin : Origin
  entries : List (String × Value)

namespace Table

def empty (origin : Origin) : Table :=
  ⟨origin, []⟩

def toValue (table : Table) : Value :=
  .table table.origin table.entries

/-- The values of all keys but the given ones fit. -/
def othersFit (table : Table) (keys : List String) : Bool :=
  table.entries.all fun entry => keys.contains entry.1 || entry.2.fits

def find? (table : Table) (key : String) : Option Value :=
  table.entries.lookup key

def put (table : Table) (key : String) (value : Value) : Table :=
  if (table.find? key).isSome then
    { table with entries := table.entries.map fun entry =>
        if entry.1 = key then (key, value) else entry }
  else { table with entries := (key, value) :: table.entries }

end Table

inductive Way
  | header
  | key
deriving DecidableEq, Repr

/-- The origin of a table that is missing on the way. -/
def Way.creates : Way → Origin
  | header => .implied
  | key => .dotted

/-- What becomes of the origin of a table on the way, if the way may enter it. -/
def Way.enters? : Way → Origin → Option Origin
  | _, .inline => none
  | header, origin => some origin
  | key, .header => none
  | key, _ => some .dotted

namespace Table

/-- Changes the table that a path leads to. In a list of tables the way leads
through the latest one. -/
def descend (way : Way) (change : Table → Option Table) : List String → Table → Option Table
  | [], table => change table
  | key :: path, table =>
    match table.find? key with
    | none => (descend way change path (.empty way.creates)).map fun inner =>
        table.put key inner.toValue
    | some (.table origin entries) =>
      (way.enters? origin).bind fun origin =>
        (descend way change path ⟨origin, entries⟩).map fun inner => table.put key inner.toValue
    | some (.tables earlier latest) =>
      (descend way change path ⟨.header, latest⟩).map fun inner =>
        table.put key (.tables earlier inner.entries)
    | some _ => none

/-- Changes the entry that a path leads to, given its value if there is one. -/
def define (way : Way) (change : Table → Option Value → Option Value) (path : List String)
    (table : Table) : Option Table :=
  match path.getLast? with
  | none => none
  | some key => descend way
      (fun inner => (change inner (inner.find? key)).map (inner.put key)) path.dropLast table

/-- Gives a value to a new key. The table that holds it must have come about by
the path of a key if and only if the path is longer than one key. -/
def assign (path : List String) (value : Value) : Table → Option Table :=
  define .key
    (fun inner old? =>
      if old?.isNone ∧ (inner.origin = .dotted ↔ 1 < path.length) then some value else none)
    path

def openTable : List String → Table → Option Table :=
  define .header fun _ old? =>
    match old? with
    | none => some (Table.empty .header).toValue
    | some (.table .implied entries) => some (.table .header entries)
    | some _ => none

def openNext : List String → Table → Option Table :=
  define .header fun _ old? =>
    match old? with
    | none => some (.tables [] [])
    | some (.tables earlier latest) => some (.tables (latest :: earlier) [])
    | some _ => none

end Table

end TagLint.Toml
