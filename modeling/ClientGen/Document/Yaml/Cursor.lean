import ClientGen.Fault
import ClientGen.Number.Reader

/-! A place in a YAML text, and the characters that matter for its layout. -/

namespace ClientGen.Yaml

/-- What is wrong with a YAML text. -/
inductive Flaw where
  /-- A character that a text must not hold. -/
  | character
  /-- A piece of text that is no token, or a token where none of its kind may start. -/
  | token
  /-- A key without the colon that its place demands. -/
  | key
  | order
  /-- An anchor that is not defined, or defined twice. -/
  | anchor
  | documents
  /-- A tag without meaning here, or one that does not fit its value. -/
  | tag
  | value (form : Malformed)
deriving DecidableEq, Repr

def Flaw.message : Flaw → String
  | .character => "a character is not allowed"
  | .token => "no token can start here"
  | .key => "could not find an expected colon"
  | .order => "the tokens make no document"
  | .anchor => "an anchor is undefined or defined twice"
  | .documents => "more than one document"
  | .tag => "a tag does not fit its value"
  | .value _ => "a value has the wrong form"

/-- The unread text and the place where it starts; `size` counts the characters of the whole
text. -/
structure Cursor where
  rest : List Char
  size : Nat
  index : Nat := 0
  line : Nat := 0
  column : Nat := 0
deriving Inhabited

def isBreak (c : Char) : Bool :=
  c == '\n' || c == '\r' || c == '\u0085' || c == '\u2028' || c == '\u2029'

/-- Blanks that separate tokens on a line. -/
def isBlank (c : Char) : Bool := c == ' ' || c == '\t'

/-- Whether a character, or the end of the text, ends a line. -/
def endsLine : Option Char → Bool
  | none => true
  | some c => isBreak c

/-- Whether a character, or the end of the text, ends a line or is a blank. -/
def endsWord : Option Char → Bool
  | none => true
  | some c => isBreak c || isBlank c

/-- Whether a character, or the end of the text, ends a line or is a space. -/
def endsItem : Option Char → Bool
  | none => true
  | some c => isBreak c || c == ' '

/-- Characters of names: ASCII letters, digits, dashes and underscores. -/
def isNameChar (c : Char) : Bool := c.isAlphanum || c == '-' || c == '_'

namespace Cursor

def ofText (text : List Char) : Cursor := { rest := text, size := text.length }

/-- More than the number of unread characters. -/
def budget (c : Cursor) : Nat := c.size - c.index + 1

def peek (c : Cursor) : Option Char := c.rest.head?

def peekAt (c : Cursor) (n : Nat) : Option Char := c.rest[n]?

/-- Whether the next character is `ch`. -/
def isAt (c : Cursor) (ch : Char) : Bool := c.peek == some ch

def next (c : Cursor) : Cursor :=
  match c.rest with
  | [] => c
  | ch :: rest =>
    if isBreak ch ∧ ¬ (ch = '\r' ∧ rest.head? = some '\n') then
      { c with rest, index := c.index + 1, line := c.line + 1, column := 0 }
    else if ch = '\ufeff' then { c with rest, index := c.index + 1 }
    else { c with rest, index := c.index + 1, column := c.column + 1 }

/-- Moves past several characters. -/
def forward (c : Cursor) : Nat → Cursor
  | 0 => c
  | n + 1 => forward c.next n

def takeWhile (c : Cursor) (p : Char → Bool) : List Char × Cursor :=
  let taken := c.rest.takeWhile p
  (taken, c.forward taken.length)

/-- Moves past the characters in a class. -/
def skipWhile (c : Cursor) (p : Char → Bool) : Cursor := (c.takeWhile p).2

def skipSpaces (c : Cursor) : Cursor := c.skipWhile (· == ' ')

def skipComment (c : Cursor) : Cursor :=
  if c.isAt '#' then c.skipWhile fun ch => !isBreak ch else c

/-- Reads a line break; the breaks of paragraphs and lines stay what they are, others become a line
feed. -/
def lineBreak (c : Cursor) : List Char × Cursor :=
  match c.rest with
  | '\r' :: '\n' :: _ => (['\n'], c.forward 2)
  | ch :: _ =>
    if ch = '\u2028' ∨ ch = '\u2029' then ([ch], c.next)
    else if isBreak ch then (['\n'], c.next)
    else ([], c)
  | [] => ([], c)

/-- Whether a line starts with three characters that mark the limit of a document. -/
def atMark (c : Cursor) (ch : Char) : Bool :=
  c.rest.take 3 == [ch, ch, ch] && endsWord (c.peekAt 3)

/-- Whether a line starts with a mark that ends the document. -/
def atDocumentMark (c : Cursor) : Bool := c.atMark '-' || c.atMark '.'

end Cursor

end ClientGen.Yaml
