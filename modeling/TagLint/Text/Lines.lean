/-! Where the words and the physical lines of a text end. A line ends at a line feed, at a
carriage return, or at the two in this order, which count as one end. The end of the text ends
the last line, so a final line end opens no further line. -/

namespace TagLint

/-- The characters with the Unicode property White_Space, as ranges of code points. -/
def blankRanges : List (Nat × Nat) :=
  [(0x09, 0x0d), (0x20, 0x20), (0x85, 0x85), (0xa0, 0xa0), (0x1680, 0x1680),
    (0x2000, 0x200a), (0x2028, 0x2029), (0x202f, 0x202f), (0x205f, 0x205f), (0x3000, 0x3000)]

def isBlank (c : Char) : Bool :=
  blankRanges.any fun range => range.1 ≤ c.toNat && c.toNat ≤ range.2

def trimBlanks (text : List Char) : List Char :=
  ((text.dropWhile isBlank).reverse.dropWhile isBlank).reverse

def isLineEnd (c : Char) : Bool :=
  c == '\n' || c == '\r'

/-- What follows the line end at the front of the text. -/
def afterLineEnd : List Char → List Char
  | '\r' :: '\n' :: rest => rest
  | _ :: rest => rest
  | [] => []

theorem length_afterLineEnd_lt {text : List Char} (h : text ≠ []) :
    (afterLineEnd text).length < text.length := by
  unfold afterLineEnd
  split <;> grind

def firstLine (text : List Char) : List Char :=
  text.takeWhile (!isLineEnd ·)

def laterLines (text : List Char) : List Char :=
  afterLineEnd (text.dropWhile (!isLineEnd ·))

theorem length_laterLines_lt {text : List Char} (h : text ≠ []) :
    (laterLines text).length < text.length := by
  have hdrop : (text.dropWhile (!isLineEnd ·)).length ≤ text.length :=
    (List.dropWhile_suffix _).length_le
  unfold laterLines
  by_cases hnil : text.dropWhile (!isLineEnd ·) = []
  · rw [hnil]
    exact List.length_pos_iff.mpr h
  · exact Nat.lt_of_lt_of_le (length_afterLineEnd_lt hnil) hdrop

def splitLines : List Char → List (List Char)
  | [] => []
  | c :: rest => firstLine (c :: rest) :: splitLines (laterLines (c :: rest))
termination_by text => text.length
decreasing_by exact length_laterLines_lt (List.cons_ne_nil c rest)

def physicalLines (content : String) : List String :=
  (splitLines content.toList).map String.ofList

end TagLint
