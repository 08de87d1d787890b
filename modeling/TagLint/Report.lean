import TagLint.Json
import TagLint.Nesting

/-! Reports on the checks of files, as text or as one JSON list. In text, a closing tag at fault
has a line of its own, the elements left open share one headline. With several files each block
begins with the path, and a file without findings is said to be in order. -/

namespace TagLint

structure Report where
  path : String
  validation : Validation
deriving DecidableEq, Repr

inductive Format
  | text
  | json
deriving DecidableEq, Repr

namespace Finding

/-- The line of a finding outside the block of elements left open. -/
def faultLine? : Finding → Option String
  | unclosed .. => none
  | finding => some ("Error: " ++ finding.message ++ "\n")

/-- The line of a finding inside the block of elements left open. -/
def leftOpenLine? : Finding → Option String
  | unclosed name openedAt =>
    some (" - <" ++ name ++ "> (opened at line " ++ toString openedAt ++ ")\n")
  | _ => none

end Finding

namespace Report

def faultLines (report : Report) : List String :=
  report.validation.findings.filterMap Finding.faultLine?

def leftOpenLines (report : Report) : List String :=
  match report.validation.findings.filterMap Finding.leftOpenLine? with
  | [] => []
  | lines => "Error: Unclosed tags at end of file:\n" :: lines

def textLines (report : Report) : List String :=
  report.faultLines ++ report.leftOpenLines

def headedTextLines (report : Report) : List String :=
  ("==> " ++ report.path ++ " <==\n") ::
    if report.validation.isBalanced then ["OK\n"] else report.textLines

/-- Paths are shown if there is more than one file. -/
def renderText (reports : List Report) : String :=
  match reports with
  | [report] => String.join report.textLines
  | reports => String.join (reports.flatMap headedTextLines)

end Report

def Finding.toJson : Finding → Json
  | unexpectedClose line name => .object
    [("kind", .text "UnexpectedClose"), ("line", .number line), ("name", .text name)]
  | mismatched line expected found openedAt => .object
    [("kind", .text "Mismatched"), ("line", .number line), ("expected", .text expected),
      ("found", .text found), ("opened_at", .number openedAt)]
  | unclosed name openedAt => .object
    [("kind", .text "UnclosedAtEof"), ("name", .text name), ("opened_at", .number openedAt)]

namespace Report

def toJson (report : Report) : Json :=
  .object
    [("path", .text report.path), ("balanced", .flag report.validation.isBalanced),
      ("diagnostics", .list (report.validation.findings.map Finding.toJson))]

def renderJson (reports : List Report) : String :=
  String.ofList ((Json.list (reports.map toJson)).write 0 ++ ['\n'])

end Report

def Report.render (reports : List Report) : Format → String
  | .text => renderText reports
  | .json => renderJson reports

end TagLint
