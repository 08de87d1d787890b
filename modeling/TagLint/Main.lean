import TagLint.Program

/-! The command line. All files that the arguments name are read beforehand, so
that the run itself is a function of what was read. -/

namespace TagLint

def notADirectoryCode : UInt32 := 20

def nameTooLongCode : UInt32 := 36

/-- Kinds of errors that share a constructor are told apart by the number that the
system gives them. -/
def ReadError.ofIO : IO.Error → ReadError
  | .noFileOrDirectory .. => .notFound
  | .noSuchThing .. => .notFound
  | .permissionDenied .. => .permissionDenied
  | .inappropriateType _ code _ => if code = notADirectoryCode then .notADirectory else .isADirectory
  | .invalidArgument _ code _ => if code = nameTooLongCode then .nameTooLong else .invalidInput
  | _ => .other

def readContent (path : String) : IO (Except ReadError ByteArray) := do
  try
    return .ok (← IO.FS.readBinFile path)
  catch error =>
    return .error (.ofIO error)

def settingsDirectory? : IO (Option String) := do
  match ← IO.getEnv "XDG_CONFIG_HOME" with
  | some directory => if directory.startsWith "/" then return some directory else homeSettings?
  | none => homeSettings?
where
  homeSettings? : IO (Option String) := do
    match ← IO.getEnv "HOME" with
    | some home => return if home.isEmpty then none else some (home ++ "/.config")
    | none => return none

/-- There is a file at the path, as far as can be seen. -/
def isPlainFile (path : String) : IO Bool := do
  try
    let place ← IO.FS.realPath path
    return (← place.metadata).type == .file
  catch _ =>
    return false

def userTagFile? : IO (Option UserTagFile) := do
  match ← settingsDirectory? with
  | none => return none
  | some directory =>
    let path := directory ++ "/nestcheck/tags.toml"
    if ← isPlainFile path then return some ⟨path, ← readContent path⟩ else return none

/-- The content of each file that a run with the arguments may need. -/
def filesFor (arguments : Arguments) : IO Files := do
  let tagFiles := if arguments.tags?.isSome then [] else arguments.tagsFile?.toList
  let contents ← (tagFiles ++ arguments.paths).mapM fun path => return (path, ← readContent path)
  let userTags? ←
    if arguments.tags?.isSome || arguments.tagsFile?.isSome then pure none else userTagFile?
  return { read := fun path => (contents.lookup path).getD (.error .notFound), userTags? }

def filterVariable : String :=
  "RUST_LOG"

end TagLint

open TagLint in
def main (arguments : List String) : IO UInt32 := do
  let files ←
    match Arguments.parse arguments with
    | .ok parsed => filesFor parsed
    | .error _ => pure ⟨fun _ => .error .notFound, none⟩
  let outcome := execute .sizeLimited arguments files (← IO.getEnv filterVariable)
  let stderr ← IO.getStderr
  for event in outcome.log do
    stderr.putStrLn
      ("[" ++ event.level.name ++ " " ++ event.topic.name ++ "] " ++ event.text)
  for complaint in outcome.complaint? do
    stderr.putStrLn ("Error: " ++ complaint)
  (← IO.getStdout).putStr outcome.output
  return outcome.exitCode.toUInt32
