import TagLint.Text.Digit

/-! Texts and keys, and what may stand between the parts of a document: blanks within a line, line
ends, and comments. A text stands in double quotes, where a backslash begins an escape, or in
single quotes, where it does not. Three quotes begin a text that may run over several lines. Keys
are bare or quoted words, and paths of them with points between. -/

namespace TagLint.Toml

open Reader

/-- A character that may stand as it is in comments and strings. -/
def isPrintable (c : Char) : Bool :=
  c == '\t' || (0x20 ≤ c.toNat && c.toNat != 0x7f)

def isGap (c : Char) : Bool :=
  c == ' ' || c == '\t'

def skipGap (text : List Char) : List Char :=
  text.dropWhile isGap

theorem length_skipGap_le (text : List Char) : (skipGap text).length ≤ text.length :=
  (List.dropWhile_suffix _).length_le

def afterGap {α : Type} (reader : Reader α) : Reader α :=
  reader.behind skipGap length_skipGap_le

def newline : Reader (List Char) :=
  ((mark '\n').map fun _ => ['\n']).orElse
    ((mark '\r').andThen fun _ => (mark '\n').map fun _ => ['\r', '\n'])

def skipNewline (text : List Char) : List Char :=
  match newline.read text with
  | some (_, rest) => rest
  | none => text

theorem length_skipNewline_le (text : List Char) : (skipNewline text).length ≤ text.length := by
  unfold skipNewline
  split
  · exact Nat.le_of_lt (newline.shortens ‹_›)
  · exact Nat.le_refl _

def skipBlankLines (text : List Char) : List Char :=
  match text with
  | '\r' :: '\n' :: rest => skipBlankLines rest
  | c :: rest => if isGap c || c == '\n' then skipBlankLines rest else c :: rest
  | [] => []

theorem length_skipBlankLines_le (text : List Char) :
    (skipBlankLines text).length ≤ text.length := by
  fun_induction skipBlankLines text with
  | case1 rest ih => simp only [List.length_cons]; omega
  | case2 c rest _ _ ih => simp only [List.length_cons]; omega
  | case3 => exact Nat.le_refl _
  | case4 => exact Nat.le_refl _

def skipComment : List Char → List Char
  | '#' :: rest => rest.dropWhile isPrintable
  | text => text

/-- Drops all blanks, line ends and comments, from within a comment or not. -/
def skipLayoutFrom (inComment : Bool) : List Char → List Char
  | '\r' :: '\n' :: rest => skipLayoutFrom false rest
  | c :: rest =>
    if c = '\n' then skipLayoutFrom false rest
    else if inComment then
      if isPrintable c then skipLayoutFrom true rest else c :: rest
    else if isGap c then skipLayoutFrom false rest
    else if c = '#' then skipLayoutFrom true rest
    else c :: rest
  | [] => []

def skipLayout (text : List Char) : List Char :=
  skipLayoutFrom false text

theorem length_skipLayout_le (text : List Char) : (skipLayout text).length ≤ text.length := by
  suffices h : ∀ inComment, (skipLayoutFrom inComment text).length ≤ text.length from h false
  intro inComment
  fun_induction skipLayoutFrom inComment text <;> grind

def afterLayout {α : Type} (reader : Reader α) : Reader α :=
  reader.behind skipLayout length_skipLayout_le

/-- Nothing but blanks and a comment is left of the line. -/
def atLineEnd (text : List Char) : Bool :=
  let left := skipComment (skipGap text)
  left.isEmpty || (newline.read left).isSome

structure Quoting where
  mark : Char
  escapes : Bool

def basicQuoting : Quoting :=
  ⟨'"', true⟩

def literalQuoting : Quoting :=
  ⟨'\'', false⟩

def shortEscape? : Char → Option Char
  | 'b' => some '\x08'
  | 't' => some '\t'
  | 'n' => some '\n'
  | 'f' => some '\x0c'
  | 'r' => some '\r'
  | 'e' => some '\x1b'
  | '"' => some '"'
  | '\\' => some '\\'
  | _ => none

def escape : Reader Char :=
  (mark '\\').andThen fun _ =>
    ((char fun _ => true).filterMap shortEscape?).orElse
      (((char fun _ => true).filterMap moreDigits?).andThen fun more =>
        (hexNumber more).filterMap ofCodePoint?)

def plainChar (quoting : Quoting) : Reader Char :=
  char fun c => isPrintable c && !(quoting.escapes && c == '\\')

def textChar (quoting : Quoting) : Reader Char :=
  if quoting.escapes then (plainChar quoting).orElse escape else plainChar quoting

def lineText (quoting : Quoting) : Reader String :=
  (mark quoting.mark).andThen fun _ =>
    ((textChar quoting).upTo (mark quoting.mark)).map fun body => String.ofList body.1

def threeMarks (quoting : Quoting) : Reader Unit :=
  (mark quoting.mark).andThen fun _ => (mark quoting.mark).andThen fun _ => mark quoting.mark

/-- The end of a text over several lines. Up to two marks in front of the three
closing ones still belong to the text. -/
def blockClosing (quoting : Quoting) : Reader (List Char) :=
  let three := (threeMarks quoting).map fun _ => []
  let four := (mark quoting.mark).andThen fun _ =>
    (threeMarks quoting).map fun _ => [quoting.mark]
  let five := (mark quoting.mark).andThen fun _ => (mark quoting.mark).andThen fun _ =>
    (threeMarks quoting).map fun _ => [quoting.mark, quoting.mark]
  five.orElse (four.orElse three)

/-- A backslash at the end of a line takes away all blanks and line ends up to
the next character. -/
def continuation : Reader (List Char) :=
  (((mark '\\').andThen fun _ => afterGap newline).before skipBlankLines
    length_skipBlankLines_le).map fun _ => []

def blockPiece (quoting : Quoting) : Reader (List Char) :=
  let piece := ((textChar quoting).map fun c => [c]).orElse newline
  if quoting.escapes then continuation.orElse piece else piece

/-- A text over several lines. A line end right behind the opening marks is no
part of it. -/
def blockText (quoting : Quoting) : Reader String :=
  ((threeMarks quoting).before skipNewline length_skipNewline_le).andThen fun _ =>
    ((blockPiece quoting).upTo (blockClosing quoting)).map fun body =>
      String.ofList (body.1.flatten ++ body.2)

def lineOrBlockText (quoting : Quoting) : Reader String :=
  (blockText quoting).orElse (lineText quoting)

def quotedText : Reader String :=
  (lineOrBlockText basicQuoting).orElse (lineOrBlockText literalQuoting)

def isBareChar (c : Char) : Bool :=
  c.isAlphanum || c == '_' || c == '-'

/-- A bare word, or a text on one line. -/
def key : Reader String :=
  ((word isBareChar).map String.ofList).orElse
    ((lineText basicQuoting).orElse (lineText literalQuoting))

/-- A path of at most the given number of keys. Blanks may stand around the
points. -/
def keyPath : (limit : Nat) → Reader (List String)
  | 0 => .refuse
  | limit + 1 =>
    let longer := key.andThen fun first => (afterGap (mark '.')).andThen fun _ =>
      (afterGap (keyPath limit)).map fun path => first :: path
    longer.orElse (key.map fun name => [name])

def maxPath : Nat := 80

end TagLint.Toml
