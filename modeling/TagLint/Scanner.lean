import TagLint.TagSet.Basic

/-! Scanning a line for tags. A tag is an occurrence of a tracked name behind `<` or `</`. Behind
`<` and an optional slash the names are tried in a fixed order and the first that fits is taken,
so every name has to stand behind the names that it begins. Nothing after the name is looked at.
What a scanner looks for is also written as a regular expression, and there is no scanner where
the compiler of such patterns refuses it. -/

namespace TagLint

inductive Tag.Kind
  | opening
  | closing
deriving DecidableEq, Repr

structure Tag where
  kind : Tag.Kind
  name : String
  line : Nat
deriving DecidableEq, Repr

structure Scanner where
  alternatives : List String
deriving DecidableEq, Repr

/-- Names by their size in bytes, the longest first. Names of one size keep
their order. -/
def longestFirst (names : List String) : List String :=
  names.mergeSort fun a b => b.utf8ByteSize ≤ a.utf8ByteSize

def TagSet.scanner (set : TagSet) : Scanner :=
  ⟨longestFirst set.names⟩

namespace Scanner

def name? (scanner : Scanner) (text : List Char) : Option String :=
  scanner.alternatives.find? fun name => name.toList.isPrefixOf text

/-- The tag whose `<` stands before the text. A slash is read as the sign of a
closing tag if a name follows it, and else as part of a name. -/
def tagAt? (scanner : Scanner) (text : List Char) : Option (Tag.Kind × String) :=
  let closing? :=
    match text with
    | '/' :: rest => scanner.name? rest
    | _ => none
  match closing? with
  | some name => some (.closing, name)
  | none => (scanner.name? text).map (.opening, ·)

def width : Tag.Kind × String → Nat
  | (.opening, name) => name.length
  | (.closing, name) => name.length + 1

/-- The tags of a line from left to right. The scan goes on behind each tag. -/
def scan (scanner : Scanner) (line : Nat) : List Char → List Tag
  | [] => []
  | c :: rest =>
    if c = '<' then
      match scanner.tagAt? rest with
      | some found => ⟨found.1, found.2, line⟩ :: scan scanner line (rest.drop (width found))
      | none => scan scanner line rest
    else scan scanner line rest
termination_by text => text.length
decreasing_by all_goals simp; try omega

def scanLine (scanner : Scanner) (text : String) (line : Nat) : List Tag :=
  scanner.scan line text.toList

def scanLines (scanner : Scanner) (lines : List String) : List Tag :=
  (lines.zipIdx 1).flatMap fun numbered => scanner.scanLine numbered.1 numbered.2

end Scanner

/-- A character with a meaning of its own in a pattern. -/
def isOperator (c : Char) : Bool :=
  "\\.+*?()|[]\x7b\x7d^$#&-~".toList.contains c

def escapeOperators (name : List Char) : List Char :=
  name.flatMap fun c => if isOperator c then ['\\', c] else [c]

def Scanner.pattern (scanner : Scanner) : String :=
  let names := scanner.alternatives.map fun name => escapeOperators name.toList
  "<(/?)(" ++ String.ofList (['|'].intercalate names) ++ ")"

/-- What a run has to know of a compiler of patterns: the fault for which it refuses a pattern. -/
structure PatternCompiler where
  fault? : String → Option String

/-- The greatest size of a compiled pattern in bytes. -/
def maxCompiled : Nat := 10485760

/-- The size of one state of a compiled pattern in bytes. -/
def stateSize : Nat := 32

/-- A compiler that refuses what gets too large. It counts one state for each byte of the pattern,
which is close for one long name. Many names take about two for each byte. -/
def PatternCompiler.sizeLimited : PatternCompiler where
  fault? pattern :=
    if stateSize * pattern.utf8ByteSize ≤ maxCompiled then none
    else some ("Compiled regex exceeds size limit of " ++ toString maxCompiled ++ " bytes.")

def TagSet.compile (set : TagSet) (compiler : PatternCompiler) : Except String Scanner :=
  match compiler.fault? set.scanner.pattern with
  | some fault => .error fault
  | none => .ok set.scanner

end TagLint
