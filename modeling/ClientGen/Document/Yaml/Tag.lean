import ClientGen.Document.Yaml.Token

/-! Tags, and the values that scalars stand for. -/

namespace ClientGen.Yaml

inductive Tag where
  | null
  | bool
  | int
  | float
  | binary
  | timestamp
  | merge
  | value
  | str
  | seq
  | map
  | omap
  | pairs
  | other (name : String)
deriving DecidableEq, Repr, Inhabited

/-- What the tags of the core types start with. -/
def coreNamespace : String := "tag:yaml.org,2002:"

/-- The names of the core types. -/
def coreTags : List (String × Tag) :=
  [("null", .null), ("bool", .bool), ("int", .int), ("float", .float), ("binary", .binary),
    ("timestamp", .timestamp), ("merge", .merge), ("value", .value), ("str", .str), ("seq", .seq),
    ("map", .map), ("omap", .omap), ("pairs", .pairs)]

def Tag.ofName (name : String) : Tag :=
  if coreNamespace.toList.isPrefixOf name.toList then
    (coreTags.lookup (String.ofList (name.toList.drop coreNamespace.length))).getD (.other name)
  else .other name

namespace Plain

def unsigned : List Char → List Char
  | '-' :: rest => rest
  | '+' :: rest => rest
  | s => s

/-- Digits of a class with underscores, at least one. -/
def isRun (p : Char → Bool) (s : List Char) : Bool :=
  !s.isEmpty && s.all fun c => p c || c == '_'

/-- A decimal number with underscores after its first digit. -/
def isDecimal (first : Char → Bool) : List Char → Bool
  | [] => false
  | c :: rest => first c && rest.all fun c => c.isDigit || c == '_'

/-- A part of a number in base sixty: up to two digits below sixty. -/
def isSixty : List Char → Bool
  | [c] => c.isDigit
  | [c, d] => '0' ≤ c && c ≤ '5' && d.isDigit
  | _ => false

def isOctal (c : Char) : Bool := '0' ≤ c && c ≤ '7'

def isPositive (c : Char) : Bool := '1' ≤ c && c ≤ '9'

def isHex (c : Char) : Bool := (Token.hexValue? c).isSome

/-- Numbers in several bases, and in base sixty with colons. -/
def isInteger (s : List Char) : Bool :=
  let s := unsigned s
  match s with
  | '0' :: 'b' :: rest => isRun (fun c => c == '0' || c == '1') rest
  | '0' :: 'x' :: rest => isRun isHex rest
  | ['0'] => true
  | '0' :: rest => isRun isOctal rest
  | _ =>
    match Text.splitOn ':' s with
    | [whole] => isDecimal isPositive whole
    | first :: rest => isDecimal isPositive first && rest.all isSixty
    | [] => false

/-- A signed exponent, or none. -/
def isExponent : List Char → Bool
  | [] => true
  | e :: sign :: digits =>
    (e == 'e' || e == 'E') && (sign == '-' || sign == '+') && !digits.isEmpty &&
      digits.all Char.isDigit
  | _ => false

/-- The part after the point of a fraction, with an exponent. -/
def isFractionTail (s : List Char) : Bool :=
  isExponent (s.dropWhile fun c => c.isDigit || c == '_')

def isSixtyFraction (s : List Char) : Bool :=
  match Text.splitOn ':' s with
  | first :: parts =>
    match parts.getLast? with
    | none => false
    | some last =>
      let whole := last.takeWhile (· != '.')
      let tail := last.dropWhile (· != '.')
      isDecimal Char.isDigit first && parts.dropLast.all isSixty && isSixty whole &&
        !tail.isEmpty && (tail.drop 1).all fun c => c.isDigit || c == '_'
  | [] => false

/-- Fractions with a point, the infinities, and not-a-number. -/
def isFraction (s : List Char) : Bool :=
  let u := unsigned s
  let whole := u.takeWhile (· != '.')
  let tail := (u.dropWhile (· != '.')).drop 1
  let hasPoint := u.contains '.'
  (hasPoint && isDecimal Char.isDigit whole && isFractionTail tail) ||
    (match s with
      | '.' :: d :: rest => d.isDigit && isFractionTail rest
      | _ => false) ||
    isSixtyFraction u ||
    [".inf", ".Inf", ".INF"].any (fun w => w.toList == u) ||
    [".nan", ".NaN", ".NAN"].any (fun w => w.toList == s)

def truthWords : List (String × Bool) :=
  [("yes", true), ("no", false), ("true", true), ("false", false), ("on", true), ("off", false)]

/-- A word in small letters, in capitals, or with a capital first. -/
def isCased (s : String) : Bool :=
  let lower := s.toList.map Char.toLower
  let upper := s.toList.map Char.toUpper
  s.toList == lower || s.toList == upper || s.toList == upper.take 1 ++ lower.drop 1

/-- The truth value of a word in small letters. -/
def truth? (s : String) : Option Bool :=
  truthWords.lookup (String.ofList (s.toList.map Char.toLower))

def takeDigits (least most : Nat) (s : List Char) : Option (Nat × List Char) :=
  let digits := (s.take most).takeWhile Char.isDigit
  if digits.length < least then none
  else some (Numeral.natOfDigits digits, s.drop digits.length)

def takeChar (c : Char) : List Char → Option (List Char)
  | d :: rest => if c = d then some rest else none
  | [] => none

/-- The parts of a date or of a time. -/
structure Moment where
  date : CalendarDate
  time : Option (Nat × Nat × Nat × Nat) := none
  offset : Option Int := none

/-- Reads the offset from universal time. -/
def offset? (s : List Char) : Option (Option Int) :=
  match s.dropWhile isBlank with
  | [] => if s = [] then some none else none
  | ['Z'] => some (some 0)
  | sign :: rest =>
    if sign = '+' ∨ sign = '-' then do
      let (hours, rest) ← takeDigits 1 2 rest
      let minutes ←
        match rest with
        | [] => some 0
        | _ => do
          let (minutes, rest) ← takeDigits 2 2 (← takeChar ':' rest)
          if rest = [] then some minutes else none
      let total : Int := hours * 60 + minutes
      some (some (if sign = '-' then -total else total))
    else none

/-- Reads the time of a day and the offset after it. -/
def time? (s : List Char) : Option ((Nat × Nat × Nat × Nat) × Option Int) := do
  let (hour, rest) ← takeDigits 1 2 s
  let (minute, rest) ← takeDigits 2 2 (← takeChar ':' rest)
  let (second, rest) ← takeDigits 2 2 (← takeChar ':' rest)
  let (fraction, rest) :=
    match rest with
    | '.' :: tail => (tail.takeWhile Char.isDigit, tail.dropWhile Char.isDigit)
    | _ => ([], rest)
  let micros := (fraction ++ List.replicate 6 '0').take 6
  let offset ← offset? rest
  some ((hour, minute, second, if fraction = [] then 0 else Numeral.natOfDigits micros), offset)

/-- Reads a date, or a date and a time after a `T` or blanks; the month and the day may have one
digit. -/
def moment? (s : List Char) : Option Moment := do
  let (year, rest) ← takeDigits 4 4 s
  let (month, afterMonth) ← takeDigits 1 2 (← takeChar '-' rest)
  let (day, afterDay) ← takeDigits 1 2 (← takeChar '-' afterMonth)
  let date : CalendarDate := ⟨year, month, day⟩
  match afterDay with
  | [] => some { date }
  | c :: rest =>
    let timeText ←
      if c = 'T' ∨ c = 't' then some rest
      else if isBlank c then some (rest.dropWhile isBlank)
      else none
    let (time, offset) ← time? timeText
    some { date, time := some time, offset }

/-- Whether a plain scalar is a date or a time; a date without a time has all its digits. -/
def isMoment (s : List Char) : Bool :=
  (moment? s).any fun m => m.time.isSome || s.length == 10

/-- The type of a plain scalar. -/
def tag (s : String) : Tag :=
  let chars := s.toList
  if isCased s && (truth? s).isSome then .bool
  else if isFraction chars then .float
  else if isInteger chars then .int
  else if s = "<<" then .merge
  else if s = "~" || s = "" || (isCased s && s.toList.map Char.toLower == "null".toList) then .null
  else if isMoment chars then .timestamp
  else if s = "=" then .value
  else .str

end Plain

def addDoubles (x y : Double) : Double :=
  match x, y with
  | .finite n m e, .finite n' m' e' =>
    let low := min e e'
    let part (n : Bool) (m : Nat) (e : Int) : Int :=
      Numeral.signed n (m * Nat.pow 2 (e - low).toNat)
    let sum := part n m e + part n' m' e'
    if low ≥ 0 then Double.ofRatio (sum < 0) (sum.natAbs * Nat.pow 2 low.toNat) 1
    else Double.ofRatio (sum < 0) sum.natAbs (Nat.pow 2 (-low).toNat)
  | x, _ => x

/-- The product of a double and a natural number that is a double. -/
def scaleDouble (x : Double) (k : Nat) : Double :=
  match x with
  | .finite n m e =>
    if e ≥ 0 then Double.ofRatio n (m * k * Nat.pow 2 e.toNat) 1
    else Double.ofRatio n (m * k) (Nat.pow 2 (-e).toNat)
  | x => x

namespace Construct

def malformed {α : Type} (form : Malformed) : Except Flaw α := .error (.value form)

/-- The number of digits in a base up to sixteen. -/
def digitsIn (base : Nat) (s : List Char) : Except Flaw Nat :=
  match s.mapM Token.hexValue? with
  | some (d :: rest) =>
    if (d :: rest).all (· < base) then .ok ((d :: rest).foldl (fun n d => base * n + d) 0)
    else malformed .notListed
  | _ => malformed .notListed

/-- An integer of any notation. -/
def integer (s : String) : Except Flaw Int := do
  let chars := s.toList.filter (· != '_')
  let (negative, body) := Numeral.sign chars
  let part (s : List Char) : Except Flaw Int :=
    match Numeral.int? s with
    | some i => .ok i
    | none => malformed .notListed
  let i : Int ←
    match body with
    | [] => malformed .outOfRange
    | ['0'] => pure 0
    | '0' :: 'b' :: rest => (digitsIn 2 rest).map Int.ofNat
    | '0' :: 'x' :: rest => (digitsIn 16 rest).map Int.ofNat
    | '0' :: rest => (digitsIn 8 rest).map Int.ofNat
    | _ => do
      let parts ← (Text.splitOn ':' body).mapM part
      pure (parts.foldl (fun i part => 60 * i + part) 0)
  return if negative then -i else i

def negateIf (negative : Bool) (x : Double) : Double :=
  match x with
  | .finite n m e => .finite (n != negative) m e
  | .infinite n => .infinite (n != negative)
  | .nan => .nan

/-- A floating-point number of any notation. -/
def float (s : String) : Except Flaw Double := do
  let chars := (s.toList.filter (· != '_')).map Char.toLower
  if chars = [] then malformed .outOfRange
  let (negative, body) := Numeral.sign chars
  if body = ".inf".toList then return .infinite negative
  if body = ".nan".toList then return .nan
  let part (s : List Char) : Except Flaw Double :=
    match Numeral.double? s with
    | some x => .ok x
    | none => malformed .notListed
  let parts ← (Text.splitOn ':' body).mapM part
  match parts.reverse with
  | [x] => return negateIf negative x
  | xs =>
    let (sum, _) := xs.foldl
      (fun (sum, base) x => (addDoubles sum (scaleDouble x base), base * 60)) (Double.zero false, 1)
    return negateIf negative sum

def daysOfMonth (year month : Nat) : Nat :=
  if month = 2 then
    if year % 4 = 0 ∧ (year % 100 ≠ 0 ∨ year % 400 = 0) then 29 else 28
  else if month ∈ [4, 6, 9, 11] then 30
  else 31

def isDate (d : CalendarDate) : Bool :=
  1 ≤ d.year && 1 ≤ d.month && d.month ≤ 12 && 1 ≤ d.day && d.day ≤ daysOfMonth d.year d.month

def moment (s : String) : Except Flaw Scalar :=
  match Plain.moment? s.toList with
  | none => malformed .noFeature
  | some m =>
    if !isDate m.date then malformed .notListed
    else
      match m.time with
      | none => .ok (.date m.date)
      | some (hour, minute, second, micros) =>
        let offsetFits := ((m.offset.map Int.natAbs).getD 0) < 1440
        if hour < 24 ∧ minute < 60 ∧ second < 60 ∧ offsetFits then
          .ok (.time ⟨m.date, hour, minute, second, micros, m.offset⟩)
        else malformed .notListed

/-- The value of a character in base sixty-four. -/
def sixBits? (c : Char) : Option Nat :=
  if 'A' ≤ c ∧ c ≤ 'Z' then some (c.toNat - 65)
  else if 'a' ≤ c ∧ c ≤ 'z' then some (c.toNat - 71)
  else if c.isDigit then some (c.toNat + 4)
  else if c = '+' then some 62
  else if c = '/' then some 63
  else none

/-- Reads bytes written in base sixty-four; other characters are passed over. -/
def bytesFrom (count left pads : Nat) (done : List UInt8) : List Char → Option (List UInt8)
  | [] => if count = 0 then some done.reverse else none
  | c :: rest =>
    if c = '=' then
      if count ≥ 2 ∧ count + pads + 1 ≥ 4 then some done.reverse
      else bytesFrom count left (if count ≥ 2 then pads + 1 else pads) done rest
    else
      match sixBits? c with
      | none => bytesFrom count left pads done rest
      | some v =>
        match count with
        | 0 => bytesFrom 1 v 0 done rest
        | 1 => bytesFrom 2 (v % 16) 0 ((left * 4 + v / 16).toUInt8 :: done) rest
        | 2 => bytesFrom 3 (v % 4) 0 ((left * 16 + v / 4).toUInt8 :: done) rest
        | _ => bytesFrom 0 0 0 ((left * 64 + v).toUInt8 :: done) rest

/-- Bytes written in base sixty-four. -/
def bytes (s : String) : Except Flaw Scalar :=
  if s.toList.any (·.toNat ≥ 0x80) then .error .tag
  else
    match bytesFrom 0 0 0 [] s.toList with
    | some b => .ok (.bytes b)
    | none => .error .tag

/-- The value of a scalar of a type. -/
def scalar (tag : Tag) (s : String) : Except Flaw Scalar :=
  match tag with
  | .null => .ok .null
  | .bool =>
    match Plain.truth? s with
    | some b => .ok (.bool b)
    | none => malformed .noMember
  | .int => (integer s).map .int
  | .float => (float s).map .float
  | .binary => bytes s
  | .timestamp => moment s
  | .str => .ok (.str s)
  | _ => .error .tag

end Construct

end ClientGen.Yaml
