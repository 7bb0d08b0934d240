/-! White space and line breaks of every script. -/

namespace ClientGen.Text

/-- White space: separators, tabs, line breaks and the four information separators. -/
def isSpace (c : Char) : Bool :=
  let n := c.toNat
  (0x09 ≤ n && n ≤ 0x0d) || (0x1c ≤ n && n ≤ 0x20) || n == 0x85 || n == 0xa0 || n == 0x1680 ||
    (0x2000 ≤ n && n ≤ 0x200a) || n == 0x2028 || n == 0x2029 || n == 0x202f || n == 0x205f ||
    n == 0x3000

def isLineBreak (c : Char) : Bool :=
  let n := c.toNat
  (0x0a ≤ n && n ≤ 0x0d) || (0x1c ≤ n && n ≤ 0x1e) || n == 0x85 || n == 0x2028 || n == 0x2029

/-- Drops the characters in `p` from the end. -/
def dropRightWhile (p : Char → Bool) (s : List Char) : List Char :=
  (s.reverse.dropWhile p).reverse

/-- Drops the characters in `p` from both ends. -/
def trimWhile (p : Char → Bool) (s : List Char) : List Char :=
  dropRightWhile p (s.dropWhile p)

/-- Drops surrounding white space. -/
def trim (s : List Char) : List Char := trimWhile isSpace s

def isBlank (s : List Char) : Bool := s.all isSpace

/-- Lines of a text whose current line has the reversed characters `current`. -/
def linesFrom (current : List Char) : List Char → List (List Char)
  | [] => if current.isEmpty then [] else [current.reverse]
  | '\r' :: '\n' :: rest => current.reverse :: linesFrom [] rest
  | c :: rest =>
    if isLineBreak c then current.reverse :: linesFrom [] rest else linesFrom (c :: current) rest

/-- Lines without their breaks; a carriage return and line feed are one break, and a final break
opens no further line. -/
def lines (s : List Char) : List (List Char) := linesFrom [] s

/-- Reads every carriage return, alone or before a line feed, as a line feed. -/
def unifyNewlines : List Char → List Char
  | [] => []
  | '\r' :: '\n' :: rest => '\n' :: unifyNewlines rest
  | c :: rest => (if c = '\r' then '\n' else c) :: unifyNewlines rest

end ClientGen.Text
