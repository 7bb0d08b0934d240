import ClientGen.Document.Node
import ClientGen.Number.Reader
import ClientGen.Text.Point

/-! Reading JSON text, with the place and cause of the first error. -/

namespace ClientGen.Json

/-- What is wrong with a JSON text. -/
inductive Flaw where
  | byteOrderMark
  | value
  | memberName
  | colon
  | comma
  | trailingText
  | controlCharacter
  | unterminatedString
  | escape
  | unicodeEscape
  /-- An integer of too many digits. -/
  | longInteger (digits : Nat)
deriving DecidableEq, Repr

def Flaw.message : Flaw → String
  | .byteOrderMark => "Unexpected UTF-8 BOM (decode using utf-8-sig)"
  | .value => "Expecting value"
  | .memberName => "Expecting property name enclosed in double quotes"
  | .colon => "Expecting ':' delimiter"
  | .comma => "Expecting ',' delimiter"
  | .trailingText => "Extra data"
  | .controlCharacter => "Invalid control character at"
  | .unterminatedString => "Unterminated string starting at"
  | .escape => "Invalid \\escape"
  | .unicodeEscape => "Invalid \\uXXXX escape"
  | .longInteger digits =>
    s!"Exceeds the limit ({Numeral.digitLimit} digits) for integer string conversion: " ++
      s!"value has {digits} digits; use sys.set_int_max_str_digits() to increase the limit"

/-- A flaw and the number of characters before it. -/
structure ReadError where
  flaw : Flaw
  offset : Nat
deriving DecidableEq, Repr

/-- Whether a text with an error is no JSON at all; one with an integer of too many digits is. -/
def ReadError.ofNotation (e : ReadError) : Bool :=
  match e.flaw with
  | .longInteger _ => false
  | _ => true

/-- The message of an error in a text; an error of the notation has a place, whose lines and columns
count from one. -/
def ReadError.message (e : ReadError) (text : List Char) : String :=
  let before := text.take e.offset
  let line := before.count '\n' + 1
  let column := (before.reverse.takeWhile (· != '\n')).length + 1
  if e.ofNotation then s!"{e.flaw.message}: line {line} column {column} (char {e.offset})"
  else e.flaw.message

/-- The unread characters and the number of those read. -/
structure Cursor where
  rest : List Char
  offset : Nat

namespace Cursor

def next (c : Cursor) : Cursor := ⟨c.rest.drop 1, c.offset + 1⟩

/-- Moves past several characters. -/
def advance (c : Cursor) (n : Nat) : Cursor := ⟨c.rest.drop n, c.offset + n⟩

/-- Moves past blanks, tabs and line ends. -/
def skipBlanks (c : Cursor) : Cursor :=
  let blanks := c.rest.takeWhile fun ch => ch == ' ' || ch == '\t' || ch == '\n' || ch == '\r'
  c.advance blanks.length

/-- An error at the current place. -/
def fail {α : Type} (c : Cursor) (flaw : Flaw) : Except ReadError α := .error ⟨flaw, c.offset⟩

end Cursor

/-- The value of a hexadecimal digit. -/
def hexValue? (c : Char) : Option Nat :=
  if c.isDigit then some (c.toNat - 48)
  else if 'a' ≤ c ∧ c ≤ 'f' then some (c.toNat - 87)
  else if 'A' ≤ c ∧ c ≤ 'F' then some (c.toNat - 55)
  else none

/-- The number written by four hexadecimal digits. -/
def hexUnit? (s : List Char) : Option Nat :=
  if s.length = 4 then s.foldlM (fun n c => (hexValue? c).map (16 * n + ·)) 0 else none

/-- The character named by a single letter after a backslash. -/
def simpleEscape? : Char → Option Char
  | '"' => some '"'
  | '\\' => some '\\'
  | '/' => some '/'
  | 'b' => some '\x08'
  | 'f' => some '\x0c'
  | 'n' => some '\n'
  | 'r' => some '\r'
  | 't' => some '\t'
  | _ => none

/-- Reads the four digits after `\u`, and the second half of a pair if one follows. Half of a pair
alone stays what it is. -/
def readUnicodeEscape (c : Cursor) : Except ReadError (Text.Point × Cursor) :=
  match hexUnit? (c.rest.take 4) with
  | none => .error ⟨.unicodeEscape, c.offset - 1⟩
  | some unit =>
    let after := c.advance 4
    if after.rest = [] then .error ⟨.unicodeEscape, c.offset - 1⟩
    else if 0xd800 ≤ unit ∧ unit < 0xdc00 then
      match after.rest with
      | '\\' :: 'u' :: tail =>
        if tail.length ≤ 4 then .ok (.ofCode unit, after)
        else
          match hexUnit? (tail.take 4) with
          | none => .error ⟨.unicodeEscape, after.offset + 1⟩
          | some low =>
            if 0xdc00 ≤ low ∧ low < 0xe000 then
              .ok (.ofCode (0x10000 + (unit - 0xd800) * 0x400 + (low - 0xdc00)), after.advance 6)
            else .ok (.ofCode unit, after)
      | _ => .ok (.ofCode unit, after)
    else .ok (.ofCode unit, after)

/-- Reads a string after its opening quote at `start`. What is done is spelled and reversed. -/
def readString (start : Nat) : (fuel : Nat) → (done : List Char) → Cursor →
    Except ReadError (String × Cursor)
  | 0, _, _ => .error ⟨.unterminatedString, start⟩
  | fuel + 1, done, c =>
    match c.rest with
    | [] => .error ⟨.unterminatedString, start⟩
    | '"' :: _ => .ok (String.ofList done.reverse, c.next)
    | '\\' :: [] => .error ⟨.unterminatedString, start⟩
    | '\\' :: 'u' :: _ => do
      let (p, c) ← readUnicodeEscape (c.advance 2)
      readString start fuel (p.spelling.reverse ++ done) c
    | '\\' :: letter :: _ =>
      match simpleEscape? letter with
      | some ch => readString start fuel (ch :: done) (c.advance 2)
      | none => c.fail .escape
    | ch :: _ =>
      if ch.toNat < 0x20 then c.fail .controlCharacter
      else readString start fuel ((Text.Point.char ch).spelling.reverse ++ done) c.next

/-- Digits of an exponent with the letter and sign before them, if there are any. -/
def exponentPart (s : List Char) : List Char :=
  match s with
  | e :: rest =>
    if e = 'e' ∨ e = 'E' then
      let (signs, digits) :=
        match rest with
        | '+' :: tail => (['+'], tail)
        | '-' :: tail => (['-'], tail)
        | _ => ([], rest)
      let digits := digits.takeWhile Char.isDigit
      if digits = [] then [] else e :: (signs ++ digits)
    else []
  | [] => []

/-- Digits of a fraction with the point before them, if there are any. -/
def fractionPart (s : List Char) : List Char :=
  match s with
  | '.' :: rest =>
    let digits := rest.takeWhile Char.isDigit
    if digits = [] then [] else '.' :: digits
  | _ => []

/-- Digits of a whole number: a zero alone, or digits that do not start with zero. -/
def wholePart (s : List Char) : List Char :=
  match s with
  | '0' :: _ => ['0']
  | _ => s.takeWhile Char.isDigit

/-- Reads a number: without fraction and exponent it is an integer, which must not have too many
digits. -/
def readNumber (c : Cursor) : Except ReadError (Node × Cursor) :=
  let negative := c.rest.head? == some '-'
  let start := if negative then c.next else c
  let whole := wholePart start.rest
  if whole = [] then c.fail .value
  else
    let c := start.advance whole.length
    let fraction := fractionPart c.rest
    let c := c.advance fraction.length
    let exponent := exponentPart c.rest
    let c := c.advance exponent.length
    if fraction = [] ∧ exponent = [] then
      if whole.length ≤ Numeral.digitLimit then
        .ok (.int (Numeral.signed negative (Numeral.natOfDigits whole)), c)
      else c.fail (.longInteger whole.length)
    else
      match Numeral.decimal? negative (whole ++ fraction ++ exponent) with
      | some x => .ok (.float x, c)
      | none => c.fail .value

/-- The words that stand for values. -/
def words : List (String × Node) :=
  [("null", .null), ("true", .bool true), ("false", .bool false), ("NaN", .float .nan),
    ("Infinity", .float (.infinite false)), ("-Infinity", .float (.infinite true))]

def readAtom (c : Cursor) : Except ReadError (Node × Cursor) :=
  match words.find? fun (word, _) => word.toList.isPrefixOf c.rest with
  | some (word, value) => .ok (value, c.advance word.length)
  | none => readNumber c

mutual

/-- Reads one value. The fuel is never below the number of unread characters. -/
def readValue : (fuel : Nat) → Cursor → Except ReadError (Node × Cursor)
  | 0, c => c.fail .value
  | fuel + 1, c =>
    match c.rest with
    | '"' :: _ => do
      let (s, c) ← readString c.offset (fuel + 1) [] c.next
      .ok (.str s, c)
    | '[' :: _ =>
      let c := c.next.skipBlanks
      match c.rest with
      | ']' :: _ => .ok (.list [], c.next)
      | _ => readItems fuel [] c
    | '\x7b' :: _ =>
      let c := c.next.skipBlanks
      match c.rest with
      | '\x7d' :: _ => .ok (.map [], c.next)
      | _ => readMembers fuel [] c
    | _ => readAtom c

def readItems : (fuel : Nat) → (done : List Node) → Cursor → Except ReadError (Node × Cursor)
  | 0, _, c => c.fail .value
  | fuel + 1, done, c => do
    let (item, c) ← readValue fuel c
    let c := c.skipBlanks
    match c.rest with
    | ']' :: _ => .ok (.list (item :: done).reverse, c.next)
    | ',' :: _ => readItems fuel (item :: done) c.next.skipBlanks
    | _ => c.fail .comma

/-- Reads the members of a map up to its closing brace. -/
def readMembers : (fuel : Nat) → (done : Entries) → Cursor → Except ReadError (Node × Cursor)
  | 0, _, c => c.fail .memberName
  | fuel + 1, done, c =>
    match c.rest with
    | '"' :: _ => do
      let (key, c) ← readString c.offset (fuel + 1) [] c.next
      let c := c.skipBlanks
      match c.rest with
      | ':' :: _ =>
        let (value, c) ← readValue fuel c.next.skipBlanks
        let done := done.insert (.str key) value
        let c := c.skipBlanks
        match c.rest with
        | '\x7d' :: _ => .ok (.map done, c.next)
        | ',' :: _ => readMembers fuel done c.next.skipBlanks
        | _ => c.fail .comma
      | _ => c.fail .colon
    | _ => c.fail .memberName

end

/-- Reads a text that holds one value and blanks around it. -/
def read (text : List Char) : Except ReadError Node :=
  if text.head? = some '\ufeff' then .error ⟨.byteOrderMark, 0⟩
  else do
    let (value, c) ← readValue (2 * text.length + 2) (Cursor.mk text 0).skipBlanks
    let c := c.skipBlanks
    if c.rest = [] then .ok value else c.fail .trailingText

end ClientGen.Json
