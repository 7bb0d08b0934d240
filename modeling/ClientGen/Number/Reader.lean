import ClientGen.Number.Double
import ClientGen.Text.DecimalDigit
import ClientGen.Text.Space

/-! Reading integers and decimal fractions from text. -/

namespace ClientGen.Numeral

/-- Blanks around a numeral that holds ASCII characters only. -/
def isAsciiBlank (c : Char) : Bool := c == ' ' || ('\t' ≤ c && c ≤ '\r')

/-- Spells digits of every script in ASCII and white space as blanks, unless the text is ASCII
already; other characters belong to no numeral. -/
def ascii? (s : List Char) : Option (List Char) :=
  if s.all (·.toNat < 0x80) then some s
  else s.mapM fun c =>
    if c.toNat < 0x80 then some c
    else if Text.isSpace c then some ' '
    else (Text.decimalValue? c).map fun d => Char.ofNat (48 + d)

/-- The numeral inside a text, without the blanks around it. -/
def body? (s : List Char) : Option (List Char) :=
  (ascii? s).map (Text.trimWhile isAsciiBlank)

/-- Takes a sign off; the flag tells a minus. -/
def sign : List Char → Bool × List Char
  | '-' :: rest => (true, rest)
  | '+' :: rest => (false, rest)
  | s => (false, s)

/-- Drops single underscores between digits; an underscore anywhere else spoils the numeral. -/
def dropSeparators? (afterDigit : Bool) : List Char → Option (List Char)
  | [] => some []
  | '_' :: c :: rest =>
    if afterDigit && c.isDigit then (dropSeparators? true rest).map (c :: ·) else none
  | c :: rest => if c = '_' then none else (dropSeparators? c.isDigit rest).map (c :: ·)

def natOfDigits (s : List Char) : Nat := s.foldl (fun n c => 10 * n + (c.toNat - 48)) 0

def signed (negative : Bool) (n : Nat) : Int := if negative then -(n : Int) else n

/-- How many digits a decimal numeral may have, zeros before the others included. -/
def digitLimit : Nat := 4300

/-- Whether an integer has a decimal numeral. -/
def hasText (i : Int) : Bool := decide ((Nat.toDigits 10 i.natAbs).length ≤ digitLimit)

/-- Reads an integer: blanks, a sign, then digits with single underscores between them. -/
def int? (s : List Char) : Option Int := do
  let (negative, rest) := sign (← body? s)
  let digits ← dropSeparators? false rest
  if digits ≠ [] ∧ digits.all Char.isDigit ∧ digits.length ≤ digitLimit then
    some (signed negative (natOfDigits digits))
  else none

/-- Reads an exponent part, empty or a sign and digits after an `e`. -/
def exponent? : List Char → Option Int
  | [] => some 0
  | e :: rest =>
    let (negative, digits) := sign rest
    if (e = 'e' ∨ e = 'E') ∧ digits ≠ [] ∧ digits.all Char.isDigit then
      some (signed negative (natOfDigits digits))
    else none

/-- Reads an unsigned decimal fraction with at least one digit. -/
def decimal? (negative : Bool) (s : List Char) : Option Double := do
  let whole := s.takeWhile Char.isDigit
  let rest := s.dropWhile Char.isDigit
  let (fraction, rest) :=
    match rest with
    | '.' :: tail => (tail.takeWhile Char.isDigit, tail.dropWhile Char.isDigit)
    | _ => ([], rest)
  if whole = [] ∧ fraction = [] then none
  else
    let e ← exponent? rest
    some (Double.ofDecimal negative (natOfDigits (whole ++ fraction)) (e - fraction.length))

/-- Reads a floating-point number: a decimal fraction, an infinity or not-a-number in any case. -/
def double? (s : List Char) : Option Double := do
  let (negative, rest) := sign (← dropSeparators? false (← body? s))
  let word := String.ofList (rest.map Char.toLower)
  if word = "inf" ∨ word = "infinity" then some (.infinite negative)
  else if word = "nan" then some .nan
  else decimal? negative rest

end ClientGen.Numeral
