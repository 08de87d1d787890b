/-! Data in JSON and its written form, with one member of a list or an object
on each line and two spaces for each level. -/

namespace TagLint

inductive Json
  | text (s : String)
  | number (n : Nat)
  | flag (b : Bool)
  | list (items : List Json)
  | object (fields : List (String × Json))

namespace Json

/-- A character inside quotes. Control characters have an escape. -/
def escape (c : Char) : List Char :=
  match c with
  | '"' => ['\\', '"']
  | '\\' => ['\\', '\\']
  | '\x08' => ['\\', 'b']
  | '\t' => ['\\', 't']
  | '\n' => ['\\', 'n']
  | '\x0c' => ['\\', 'f']
  | '\r' => ['\\', 'r']
  | c =>
    if c.toNat < 0x20 then
      ['\\', 'u', '0', '0', (c.toNat / 16).digitChar, (c.toNat % 16).digitChar]
    else [c]

def quoted (s : String) : List Char :=
  '"' :: s.toList.flatMap escape ++ ['"']

def indent (depth : Nat) : List Char :=
  List.replicate (2 * depth) ' '

/-- Members between two brackets, which stand side by side if there are none. -/
def bracketed (opener closer : Char) (depth : Nat) (members : List (List Char)) : List Char :=
  if members.isEmpty then [opener, closer]
  else
    opener :: '\n' :: [',', '\n'].intercalate (members.map (indent (depth + 1) ++ ·))
      ++ '\n' :: indent depth ++ [closer]

mutual

def write : Json → Nat → List Char
  | text s, _ => quoted s
  | number n, _ => Nat.toDigits 10 n
  | flag true, _ => "true".toList
  | flag false, _ => "false".toList
  | list items, depth => bracketed '[' ']' depth (writeItems items (depth + 1))
  | object fields, depth => bracketed '\x7b' '\x7d' depth (writeFields fields (depth + 1))

def writeItems : List Json → Nat → List (List Char)
  | [], _ => []
  | item :: items, depth => write item depth :: writeItems items depth

def writeFields : List (String × Json) → Nat → List (List Char)
  | [], _ => []
  | (key, value) :: fields, depth =>
    (quoted key ++ [':', ' '] ++ write value depth) :: writeFields fields depth

end

end Json

end TagLint
