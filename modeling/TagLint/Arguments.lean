import TagLint.Report

/-! What a command line asks for. Its items are paths, options with their values, and requests for
help or for the version. Items are judged from left to right and the first fault or request ends
the judgement. A value that stands apart from its option, and a row of paths, are judged only when
the next argument has been read, so an argument that cannot be read wins over a fault just before
it. -/

namespace TagLint

inductive OptionName
  | tags
  | tagsFile
  | format
  | logLevel
deriving DecidableEq, Repr

namespace OptionName

def ofText? : String → Option OptionName
  | "tags" => some tags
  | "tags-file" => some tagsFile
  | "format" => some format
  | "log-level" => some logLevel
  | _ => none

/-- Only the list of tags may be given in several parts. -/
def isRepeatable : OptionName → Bool
  | tags => true
  | _ => false

end OptionName

def Format.ofText? : String → Option Format
  | "text" => some .text
  | "json" => some .json
  | _ => none

inductive Item
  | path (text : String)
  /-- An option and its value, which may be joined to it by an equals sign. -/
  | value (option : OptionName) (text : String) (joined : Bool)
  | missingValue (option : OptionName)
  | help
  | version
  | unknown
  /-- Help or version with a value. -/
  | needlessValue
deriving DecidableEq, Repr

/-- What an argument says before the next one is looked at. -/
inductive ArgumentRole
  | item (item : Item)
  /-- An option whose value has to follow. -/
  | opens (option : OptionName)
deriving DecidableEq, Repr

def readLong (text : List Char) : ArgumentRole :=
  let name := String.ofList (text.takeWhile (· != '='))
  let value? :=
    match text.dropWhile (· != '=') with
    | _ :: value => some (String.ofList value)
    | [] => none
  match OptionName.ofText? name, value? with
  | some option, some value => .item (.value option value true)
  | some option, none => .opens option
  | none, value? =>
    if name = "help" then .item (if value?.isSome then .needlessValue else .help)
    else if name = "version" then .item (if value?.isSome then .needlessValue else .version)
    else .item .unknown

/-- An argument in front of the end of the options. A lone hyphen is a path. -/
def readArgument (argument : String) : ArgumentRole :=
  match argument.toList with
  | '-' :: '-' :: text => readLong text
  | '-' :: 'h' :: _ => .item .help
  | '-' :: 'V' :: _ => .item .version
  | '-' :: _ :: _ => .item .unknown
  | _ => .item (.path argument)

/-- An argument that may be the value of the option in front of it. -/
def mayBeValue (argument : String) : Bool :=
  argument == "-" || argument.toList.head? != some '-'

/-- The items of a list of arguments. Behind two hyphens there are only paths. -/
def readItems : List String → List Item
  | [] => []
  | argument :: rest =>
    if argument = "--" then rest.map .path
    else
      match readArgument argument, rest with
      | .item item, rest => item :: readItems rest
      | .opens option, [] => [.missingValue option]
      | .opens option, next :: later =>
        if mayBeValue next then .value option next false :: readItems later
        else .missingValue option :: readItems (next :: later)

inductive UsageError
  | unknownArgument
  | needlessValue
  | missingValue (option : OptionName)
  | invalidValue (option : OptionName) (text : String)
  | repeatedOption (option : OptionName)
  | emptyPath
  | noPath
deriving DecidableEq, Repr

/-- Why a command line does not lead to a run. -/
inductive Stop
  | help
  | version
  | usage (error : UsageError)
deriving DecidableEq, Repr

structure Arguments where
  paths : List String
  tags? : Option (List String)
  tagsFile? : Option String
  format : Format
  logLevel : String
deriving DecidableEq, Repr

def OptionName.accepts : OptionName → String → Bool
  | .tags, _ => true
  | .tagsFile, text => text != ""
  | .format, text => (Format.ofText? text).isSome
  | .logLevel, _ => true

namespace Item

def path? : Item → Option String
  | path text => some text
  | _ => none

def valueOf? (option : OptionName) : Item → Option String
  | value other text _ => if other = option then some text else none
  | _ => none

def option? : Item → Option OptionName
  | value option _ _ => some option
  | _ => none

def stop? (used : List OptionName) : Item → Option Stop
  | path text => if text = "" then some (.usage .emptyPath) else none
  | value option text _ =>
    if !option.isRepeatable && used.contains option then some (.usage (.repeatedOption option))
    else if option.accepts text then none
    else some (.usage (.invalidValue option text))
  | missingValue option => some (.usage (.missingValue option))
  | help => some .help
  | version => some .version
  | unknown => some (.usage .unknownArgument)
  | needlessValue => some (.usage .needlessValue)

/-- An item is judged late if the argument behind it is read before. -/
def isJudgedLate : Item → Bool
  | path _ => true
  | value _ _ joined => !joined
  | missingValue _ => true
  | _ => false

/-- The argument that is read before a late item is judged, if it is unreadable. -/
def overruling? (item : Item) (later : List Item) : Option Stop :=
  let next := if item.path?.isSome then later.dropWhile (·.path?.isSome) else later
  match next.head? with
  | some unknown => some (.usage .unknownArgument)
  | some needlessValue => some (.usage .needlessValue)
  | _ => none

def firstStop? (used : List OptionName) : List Item → Option Stop
  | [] => none
  | item :: later =>
    match item.stop? used with
    | none => firstStop? (item.option?.toList ++ used) later
    | some stop =>
      if item.isJudgedLate then some ((item.overruling? later).getD stop) else some stop

end Item

def splitNames (text : String) : List String :=
  (text.toList.splitOn ',').map String.ofList

namespace Arguments

def valuesOf (option : OptionName) (items : List Item) : List String :=
  items.filterMap (Item.valueOf? option)

def ofItems (items : List Item) : Arguments where
  paths := items.filterMap Item.path?
  tags? :=
    match valuesOf .tags items with
    | [] => none
    | lists => some (lists.flatMap splitNames)
  tagsFile? := (valuesOf .tagsFile items).head?
  format := ((valuesOf .format items).head?.bind Format.ofText?).getD .text
  logLevel := (valuesOf .logLevel items).head?.getD "warn"

def parse (arguments : List String) : Except Stop Arguments :=
  let items := readItems arguments
  match Item.firstStop? [] items with
  | some stop => .error stop
  | none =>
    if items.filterMap Item.path? = [] then .error (.usage .noPath) else .ok (ofItems items)

end Arguments

def versionText : String :=
  "nestcheck 0.1.0\n"

def helpText : String :=
  "Check that block-level markup tags open and close in nested order\n" ++
  "\n" ++
  "Usage: nestcheck [OPTIONS] <PATHS>...\n" ++
  "\n" ++
  "Arguments:\n" ++
  "  <PATHS>...  Documents to check\n" ++
  "\n" ++
  "Options:\n" ++
  "      --tags <TAGS>            Comma-separated tag names to track (e.g., 'div,nav,footer')\n" ++
  "      --tags-file <TAGS_FILE>  TOML file with a [tags] elements list\n" ++
  "      --format <FORMAT>        Report format [default: text] [possible values: text, json]\n" ++
  "      --log-level <LOG_LEVEL>  Log level (trace, debug, info, warn, error) [default: warn]\n" ++
  "  -h, --help                   Print help\n" ++
  "  -V, --version                Print version\n"

end TagLint
