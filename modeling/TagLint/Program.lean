import TagLint.Arguments
import TagLint.Files
import TagLint.Log
import TagLint.Report
import TagLint.TagSet.File

/-! One run of the checker, and the whole program around it. A run loads the tag set, compiles its
pattern, reads and checks the files in their order and writes the report. The first failure ends
the run, and the log keeps what happened before. Findings are no failure. The program shows what
the run has written, how it ended, and those of its log messages that a filter lets through. -/

namespace TagLint

inductive Failure
  | namesRejected (rejection : Rejection)
  | tagFileUnreadable (path : String) (error : ReadError)
  | tagFileFaulty (path : String) (fault : TagSetFault)
  | patternRefused (fault : String)
  | fileUnreadable (path : String) (error : ReadError)
deriving DecidableEq, Repr

def Failure.message : Failure → String
  | namesRejected rejection => rejection.message
  | tagFileUnreadable path error => "failed to read tag set file " ++ path ++ ": " ++ error.name
  | tagFileFaulty path fault => "failed to load tag set from " ++ path ++ ": " ++ fault.message
  | patternRefused fault => "failed to compile tag pattern: " ++ fault
  | fileUnreadable path error => "failed to read " ++ path ++ ": " ++ error.name

/-- What has happened and what has been written, and the value or the failure at the end. -/
structure Run (α : Type) where
  log : List Event
  written : String
  outcome : Except Failure α

namespace Run

variable {α β : Type}

def bind (run : Run α) (next : α → Run β) : Run β :=
  match run.outcome with
  | .error failure => ⟨run.log, run.written, .error failure⟩
  | .ok value =>
    let later := next value
    ⟨run.log ++ later.log, run.written ++ later.written, later.outcome⟩

instance : Monad Run where
  pure value := ⟨[], "", .ok value⟩
  bind := bind

def emit (events : List Event) : Run Unit :=
  ⟨events, "", .ok ()⟩

def write (text : String) : Run Unit :=
  ⟨[], text, .ok ()⟩

def ofExcept {ε : Type} (failure : ε → Failure) (result : Except ε α) : Run α :=
  ⟨[], "", result.mapError failure⟩

/-- What a run without a failure has written. -/
def result (run : Run Unit) : Except Failure String :=
  run.outcome.map fun _ => run.written

end Run

inductive TagSource
  | names (names : List String)
  | file (path : String)
  | userFile (file : UserTagFile)
  | builtin

structure Config where
  paths : List String
  tagSource : TagSource
  format : Format

/-- A list of names wins over a file, and a given file over that of the user. -/
def Config.ofArguments (arguments : Arguments) (files : Files) : Config where
  paths := arguments.paths
  tagSource :=
    match arguments.tags?, arguments.tagsFile?, files.userTags? with
    | some names, _, _ => .names names
    | none, some path, _ => .file path
    | none, none, some file => .userFile file
    | none, none, none => .builtin
  format := arguments.format

def loadTagFile (path : String) (content : Except ReadError ByteArray) : Run TagSet := do
  let text ← Run.ofExcept (.tagFileUnreadable path) (content.bind decodeText)
  let set ← Run.ofExcept (.tagFileFaulty path) (TagSet.ofToml text)
  Run.emit [.tagSetLoaded set path]
  return set

def TagSource.load (files : Files) : TagSource → Run TagSet
  | .names list => Run.ofExcept .namesRejected (TagSet.ofNames list)
  | .file path => loadTagFile path (files.read path)
  | .userFile tagFile => loadTagFile tagFile.path tagFile.content
  | .builtin => return TagSet.builtin

def TagSource.loadScanner (source : TagSource) (compiler : PatternCompiler) (files : Files) :
    Run Scanner := do
  let set ← source.load files
  Run.emit [.tracking set, .scannerReady set.scanner]
  Run.ofExcept .patternRefused (set.compile compiler)

def checkFile (files : Files) (scanner : Scanner) (path : String) : Run Report := do
  let content ← Run.ofExcept (.fileUnreadable path) ((files.read path).bind decodeText)
  let inspection := scanner.inspect (physicalLines content)
  Run.emit (inspection.events ++ [.fileChecked path inspection.validation])
  return ⟨path, inspection.validation⟩

def checkFiles (files : Files) (scanner : Scanner) : List String → Run (List Report)
  | [] => return []
  | path :: paths => do
    let report ← checkFile files scanner path
    let reports ← checkFiles files scanner paths
    return report :: reports

def Config.check (config : Config) (compiler : PatternCompiler) (files : Files) :
    Run (List Report) := do
  let scanner ← config.tagSource.loadScanner compiler files
  checkFiles files scanner config.paths

/-- Nothing is written before all files are checked. -/
def Config.run (config : Config) (compiler : PatternCompiler) (files : Files) : Run Unit := do
  let reports ← config.check compiler files
  Run.write (Report.render reports config.format)

structure Outcome where
  exitCode : Nat
  output : String
  log : List Event
  /-- What the user is told if there was no run or it failed. -/
  complaint? : Option String

def UsageError.message : UsageError → String
  | unknownArgument => "unexpected argument"
  | needlessValue => "unexpected value"
  | missingValue _ => "a value is required"
  | invalidValue _ text => "invalid value '" ++ text ++ "'"
  | repeatedOption _ => "an option was given twice"
  | emptyPath => "invalid value ''"
  | noPath => "at least one path is required"

/-- The filter in the environment wins over the one among the arguments. -/
def execute (compiler : PatternCompiler) (arguments : List String) (files : Files)
    (environmentFilter? : Option String) : Outcome :=
  match Arguments.parse arguments with
  | .error .help => ⟨0, helpText, [], none⟩
  | .error .version => ⟨0, versionText, [], none⟩
  | .error (.usage error) => ⟨2, "", [], some error.message⟩
  | .ok arguments =>
    let run := (Config.ofArguments arguments files).run compiler files
    let filter := LogFilter.ofText (environmentFilter?.getD arguments.logLevel)
    let log := run.log.filter filter.admits
    match run.outcome with
    | .error failure => ⟨1, run.written, log, some failure.message⟩
    | .ok _ => ⟨0, run.written, log, none⟩

end TagLint
