/-! Reading files. A run knows files only by what reading a path gives, and by
the tag file of the user if there is one. A tree of files below a working
directory is one way to answer that. -/

namespace TagLint

inductive ReadError
  | notFound
  | permissionDenied
  | notADirectory
  | isADirectory
  | nameTooLong
  | invalidInput
  | invalidData
  | other
deriving DecidableEq, Repr

def ReadError.name : ReadError → String
  | notFound => "NotFound"
  | permissionDenied => "PermissionDenied"
  | notADirectory => "NotADirectory"
  | isADirectory => "IsADirectory"
  | nameTooLong => "InvalidFilename"
  | invalidInput => "InvalidInput"
  | invalidData => "InvalidData"
  | other => "Other"

structure UserTagFile where
  path : String
  content : Except ReadError ByteArray

structure Files where
  read : String → Except ReadError ByteArray
  userTags? : Option UserTagFile

def decodeText (bytes : ByteArray) : Except ReadError String :=
  match String.fromUTF8? bytes with
  | some text => .ok text
  | none => .error .invalidData

def splitPath (path : String) : List String :=
  (path.toList.splitOn '/').map String.ofList

/-- Files and directories by the names that lead to them. The directories on the
way to one that is listed need not be listed. -/
structure FileTree where
  files : List (List String × ByteArray)
  directories : List (List String)

namespace FileTree

inductive Node
  | file (content : ByteArray)
  | directory

def node? (tree : FileTree) (names : List String) : Option Node :=
  match tree.files.lookup names with
  | some content => some (.file content)
  | none =>
    if names = [] ∨ tree.directories.any names.isPrefixOf ∨
        tree.files.any (fun file => names.isPrefixOf file.1) then some .directory
    else none

/-- The greatest size of a name in bytes. -/
def maxName : Nat := 255

/-- The greatest size of a path in bytes. -/
def maxPath : Nat := 4095

def absence (name : String) : ReadError :=
  if name.utf8ByteSize ≤ maxName then .notFound else .nameTooLong

/-- Where a path has led so far. Outside the tree nothing is known to exist but
the directories themselves. -/
inductive Place
  | inside (names : List String)
  | outside
deriving DecidableEq, Repr

def enter (tree : FileTree) (place : Place) (name : String) : Except ReadError Place :=
  match place with
  | .outside =>
    if name = "" ∨ name = "." ∨ name = ".." then .ok .outside else .error (absence name)
  | .inside names =>
    match tree.node? names with
    | none => .error .notFound
    | some (.file _) => .error .notADirectory
    | some .directory =>
      if name = "" ∨ name = "." then .ok (.inside names)
      else if name = ".." then
        if names = [] then .ok .outside else .ok (.inside names.dropLast)
      else if (tree.node? (names ++ [name])).isSome then .ok (.inside (names ++ [name]))
      else .error (absence name)

def contentAt (tree : FileTree) : Place → Except ReadError ByteArray
  | .outside => .error .isADirectory
  | .inside names =>
    match tree.node? names with
    | none => .error .notFound
    | some .directory => .error .isADirectory
    | some (.file content) => .ok content

def read (tree : FileTree) (path : String) : Except ReadError ByteArray := do
  if path.contains '\x00' then throw .invalidInput
  if path = "" then throw .notFound
  if maxPath < path.utf8ByteSize then throw .nameTooLong
  let start : Place := if path.startsWith "/" then .outside else .inside []
  let place ← (splitPath path).foldlM tree.enter start
  tree.contentAt place

end FileTree

end TagLint
