import TagLint.Nesting
import TagLint.Regex.Text

/-! The log of a run: what is worth a message, how the message reads, and at which level it
stands. A filter says which messages are shown. It is written as level words with commas between,
each for all topics or for those whose names begin with a given text. Behind a slash may stand a
regular expression for the messages. -/

namespace TagLint

inductive Level
  | error
  | warn
  | info
  | debug
  | trace
deriving DecidableEq, Repr

namespace Level

def all : List Level :=
  [error, warn, info, debug, trace]

def name : Level → String
  | error => "ERROR"
  | warn => "WARN"
  | info => "INFO"
  | debug => "DEBUG"
  | trace => "TRACE"

def verbosity : Level → Nat
  | error => 1
  | warn => 2
  | info => 3
  | debug => 4
  | trace => 5

end Level

def lowercase (text : String) : String :=
  String.ofList (text.toList.map Char.toLower)

/-- How much a level word lets through, in letters of any case. -/
def verbosityOf? (word : String) : Option Nat :=
  if lowercase word = "off" then some 0
  else (Level.all.find? fun level => lowercase level.name == lowercase word).map Level.verbosity

inductive Topic
  | run
  | tagSets
  | scanning
  | checking
deriving DecidableEq, Repr

def Topic.name : Topic → String
  | run => "tag_nesting_check::cli"
  | tagSets => "tag_nesting_check::tags"
  | scanning => "tag_nesting_check::parser::scanner"
  | checking => "tag_nesting_check::validation::engine"

inductive Event
  | scannerReady (scanner : Scanner)
  | step (step : Step)
  | checked (lines findings unclosed : Nat)
  | tagSetLoaded (set : TagSet) (path : String)
  | tracking (set : TagSet)
  | fileChecked (path : String) (validation : Validation)
deriving DecidableEq

namespace Event

def level : Event → Level
  | scannerReady _ => .trace
  | step (.push _) => .trace
  | step (.pop _) => .trace
  | step (.report _) => .debug
  | checked .. => .debug
  | tagSetLoaded .. => .debug
  | tracking _ => .debug
  | fileChecked .. => .info

def topic : Event → Topic
  | scannerReady _ => .scanning
  | step _ => .checking
  | checked .. => .checking
  | tagSetLoaded .. => .tagSets
  | tracking _ => .run
  | fileChecked .. => .run

def frameText (element : OpenElement) : String :=
  "<" ++ element.name ++ "> (line " ++ toString element.line ++ ")"

def text : Event → String
  | scannerReady scanner => "Tag pattern: " ++ scanner.pattern
  | step (.push element) => "push " ++ frameText element
  | step (.pop element) => "pop " ++ frameText element
  | step (.report finding) => finding.message
  | checked lines findings unclosed =>
    "Checked " ++ toString lines ++ " lines: " ++ toString findings ++ " diagnostics, "
      ++ toString unclosed ++ " unclosed"
  | tagSetLoaded set path =>
    "Loaded " ++ toString set.size ++ " tag names from " ++ path
  | tracking set =>
    let description := (set.description?.map (", " ++ ·)).getD ""
    "Tracking " ++ toString set.size ++ " tags (" ++ set.name?.getD "custom" ++ description
      ++ "): " ++ ", ".intercalate set.names
  | fileChecked path validation =>
    path ++ ": " ++
      if validation.isBalanced then "balanced"
      else toString validation.findings.length ++ " diagnostics"

def message (event : Event) : String :=
  event.level.name ++ " " ++ event.text

end Event

/-- The events of a check, the summary last. -/
def Inspection.events (inspection : Inspection) : List Event :=
  inspection.steps.map Event.step ++
    [.checked inspection.lineCount inspection.validation.findings.length
      inspection.openAtEnd.length]

/-- How much is shown of the topics whose names begin with a text, or of all. -/
structure Directive where
  topic? : Option String
  verbosity : Nat
deriving DecidableEq, Repr

namespace Directive

/-- A word that is no level names topics of which everything is shown. An equals
sign may stand between a name and its level. -/
def ofText? (text : List Char) : Option Directive :=
  match text.splitOn '=' with
  | [word] =>
    let word := String.ofList word
    some (match verbosityOf? word with
      | some verbosity => ⟨none, verbosity⟩
      | none => ⟨some word, Level.trace.verbosity⟩)
  | [topic, level] =>
    let level := String.ofList (trimBlanks level)
    let verbosity? := if level = "" then some Level.trace.verbosity else verbosityOf? level
    verbosity?.map (⟨some (String.ofList topic), ·⟩)
  | _ => none

def covers (directive : Directive) (topic : Topic) : Bool :=
  directive.topic?.all fun text => text.toList.isPrefixOf topic.name.toList

/-- A directive counts for more, the more of the name it gives. -/
def weight (directive : Directive) : Nat :=
  (directive.topic?.map String.length).getD 0

end Directive

structure LogFilter where
  directives : List Directive
  regex? : Option Regex

namespace LogFilter

/-- A directive takes the place of one for the same topics. -/
def insert (directives : List Directive) (directive : Directive) : List Directive :=
  if directives.any (·.topic? == directive.topic?) then
    directives.map fun old => if old.topic? = directive.topic? then directive else old
  else directives ++ [directive]

def directivesOf (text : List Char) : List Directive :=
  let texts := (text.splitOn ',').map trimBlanks
  ((texts.filter (!·.isEmpty)).filterMap Directive.ofText?).foldl insert []

/-- With more than one slash a text says nothing. A malformed regular expression
is left out. -/
def ofText (text : String) : LogFilter :=
  match text.toList.splitOn '/' with
  | [directives] => ⟨directivesOf directives, none⟩
  | [directives, regex] => ⟨directivesOf directives, Regex.ofText? (String.ofList regex)⟩
  | _ => ⟨[], none⟩

/-- How much is shown of a topic. The weightiest directive decides, and the last
one of equal weight. Without any directive only errors are shown. -/
def verbosity (filter : LogFilter) (topic : Topic) : Nat :=
  if filter.directives = [] then Level.error.verbosity
  else
    let heavier (old? : Option Directive) (directive : Directive) :=
      if old?.all (·.weight ≤ directive.weight) then some directive else old?
    (((filter.directives.filter (·.covers topic)).foldl heavier none).map (·.verbosity)).getD 0

def admits (filter : LogFilter) (event : Event) : Bool :=
  event.level.verbosity ≤ filter.verbosity event.topic &&
    filter.regex?.all (·.isFoundIn event.text)

end LogFilter

end TagLint
