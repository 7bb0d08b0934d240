import ClientGen.Options
import ClientGen.Text.Space

/-! Indentation of generated code from the brackets at the ends of its lines. -/

namespace ClientGen.Layout

def isOpening (c : Char) : Bool := c == '(' || c == '\x7b' || c == '['

def isClosing (c : Char) : Bool := c == ')' || c == '\x7d' || c == ']'

/-- Puts a blank before the star of a continued comment. -/
def spaceStar : List Char → List Char
  | '*' :: rest => ' ' :: '*' :: rest
  | line => line

def isComment (line : List Char) : Bool :=
  "/*".toList.isPrefixOf line || " *".toList.isPrefixOf line || "//".toList.isPrefixOf line

def opens (line : List Char) : Bool := (line.getLast?.map isOpening).getD false

def closes (line : List Char) : Bool := (line.head?.map isClosing).getD false

/-- The depth of a line at a depth, and the depth after it. A comment moves nothing; a closing line
moves out unless the depth is zero. -/
def place (depth : Nat) (line : List Char) : Nat × Nat :=
  if isComment line then (depth, depth)
  else
    let inner := if opens line then depth + 1 else depth
    if closes line && depth != 0 then (depth - 1, inner - 1) else (depth, inner)

/-- The lines with a tab for each depth; a blank line after a blank line is dropped. -/
def indentLines (depth : Nat) (afterBlank : Bool) : List (List Char) → List (List Char)
  | [] => []
  | raw :: rest =>
    let line := spaceStar (Text.trim raw)
    if line = [] then
      if afterBlank then indentLines depth true rest else [] :: indentLines depth true rest
    else
      let (level, next) := place depth line
      (List.replicate level '\t' ++ line) :: indentLines next false rest

/-- Drops blank lines from both ends. -/
def trimBlankLines (lines : List (List Char)) : List (List Char) :=
  ((lines.dropWhile (· == [])).reverse.dropWhile (· == [])).reverse

def tabbedLines (source : List Char) : List (List Char) :=
  trimBlankLines (indentLines 0 false (Text.lines source))

/-- Indents a source by tabs and ends it with one line feed. -/
def tabbed (source : List Char) : List Char :=
  Text.join ['\n'] (tabbedLines source) ++ ['\n']

/-- What stands for one tab at the start of a line. -/
def unit : Indent → List Char
  | .spaces4 => [' ', ' ', ' ', ' ']
  | .spaces2 => [' ', ' ']
  | .tab => ['\t']

def replaceTabs (unit : List Char) (atStart : Bool) : List Char → List Char
  | [] => []
  | c :: rest =>
    if c = '\t' ∧ atStart then unit ++ replaceTabs unit true rest
    else c :: replaceTabs unit (c == '\n') rest

def reindent (indent : Indent) (source : List Char) : List Char :=
  replaceTabs (unit indent) true source

def format (indent : Indent) (source : List Char) : List Char := reindent indent (tabbed source)

end ClientGen.Layout
