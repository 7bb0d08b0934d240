import ClientGen.Fault
import ClientGen.Number.Reader

/-! Reading records from documents, collecting the issues of all their fields. -/

namespace ClientGen

/-- A value read with issues; with any issue the value only fills its place. -/
structure Checked (α : Type) where
  value : α
  issues : List Issue := []

namespace Checked

instance : Monad Checked where
  pure a := ⟨a, []⟩
  bind m f :=
    let r := f m.value
    ⟨r.value, m.issues ++ r.issues⟩

/-- An issue at the current place, with a value to go on with. -/
def issue {α : Type} (kind : IssueKind) (filler : α) : Checked α := ⟨filler, [⟨[], kind⟩]⟩

/-- Issues inside a field or at a position of a list. -/
def within {α : Type} (segment : String) (m : Checked α) : Checked α :=
  ⟨m.value, m.issues.map fun i => { i with path := segment :: i.path }⟩

/-- The value, if there is no issue. -/
def result {α : Type} (m : Checked α) : Except (List Issue) α :=
  if m.issues.isEmpty then .ok m.value else .error m.issues

/-- An issue of the record as a whole, which shows only if its fields have none. -/
def ensure {α : Type} (m : Checked α) (holds : α → Bool) (message : α → String) : Checked α :=
  if m.issues.isEmpty && !holds m.value then issue (.rule (message m.value)) m.value else m

end Checked

abbrev FieldReader (α : Type) := Node → Checked α

namespace FieldReader

def text : FieldReader String
  | .str s => pure s
  | _ => Checked.issue .notText ""

/-- Texts of a field for truth values, in small letters. -/
def truthWords : List (String × Bool) :=
  [("0", false), ("off", false), ("f", false), ("false", false), ("n", false), ("no", false),
    ("1", true), ("on", true), ("t", true), ("true", true), ("y", true), ("yes", true)]

/-- Whether a double is an integer of 64 bits. -/
def isWord (x : Double) : Bool := x.toInt?.any fun i => i.natAbs < 0x8000000000000000

/-- Reads a truth value; zero, one and some words stand for truth values. -/
def truth : FieldReader Bool
  | .bool b => pure b
  | .int i =>
    if i = 0 then pure false else if i = 1 then pure true else Checked.issue .booleanText false
  | .float x =>
    if x.equalsInt 0 then pure false
    else if x.equalsInt 1 then pure true
    else Checked.issue (if isWord x then .booleanText else .notBoolean) false
  | .str s =>
    match truthWords.lookup (String.ofList (s.toList.map Char.toLower)) with
    | some b => pure b
    | none => Checked.issue .booleanText false
  | _ => Checked.issue .notBoolean false

def dropZeroFraction (s : List Char) : List Char :=
  match s.dropWhile (· != '.') with
  | '.' :: zeros => if zeros ≠ [] ∧ zeros.all (· == '0') then s.takeWhile (· != '.') else s
  | _ => s

/-- A text without surrounding white space, if all that is left is ASCII. -/
def asciiText? (s : String) : Option (List Char) :=
  let body := Text.trim s.toList
  if body.all (·.toNat < 0x80) then some body else none

/-- Reads an integer; integral fractions of 64 bits, truth values and numerals stand for
integers. -/
def integer : FieldReader Int
  | .int i => pure i
  | .bool b => pure (if b then 1 else 0)
  | .float x =>
    match x, x.toInt? with
    | _, some i => if isWord x then pure i else Checked.issue .longInteger 0
    | .finite .., none => Checked.issue .fractionalInteger 0
    | _, none => Checked.issue .notFinite 0
  | .str s =>
    match (asciiText? s).bind fun body => Numeral.int? (dropZeroFraction body) with
    | some i => pure i
    | none => Checked.issue .integerText 0
  | _ => Checked.issue .notInteger 0

/-- Reads a floating-point number; integers, truth values and numerals stand for numbers. -/
def number : FieldReader Double
  | .float x => pure x
  | .int i =>
    match Double.ofInt? i with
    | some x => pure x
    | none => Checked.issue .notNumber (Double.zero false)
  | .bool b => pure (Double.ofRatio false (if b then 1 else 0) 1)
  | .str s =>
    match (asciiText? s).bind Numeral.double? with
    | some x => pure x
    | none => Checked.issue .numberText (Double.zero false)
  | _ => Checked.issue .notNumber (Double.zero false)

def oneOf {α : Type} (words : List (String × α)) (filler : α) : FieldReader α
  | .str s =>
    match words.lookup s with
    | some a => pure a
    | none => Checked.issue .notListed filler
  | _ => Checked.issue .notListed filler

/-- Reads nothing as no value. -/
def optional {α : Type} (reader : FieldReader α) : FieldReader (Option α)
  | .null => pure none
  | node => do
    let value ← reader node
    pure (some value)

def items {α : Type} (reader : FieldReader α) : (position : Nat) → List Node → Checked (List α)
  | _, [] => pure []
  | position, item :: rest => do
    let head ← (reader item).within (toString position)
    let tail ← items reader (position + 1) rest
    pure (head :: tail)

def list {α : Type} (reader : FieldReader α) : FieldReader (List α)
  | .list nodes => items reader 0 nodes
  | _ => Checked.issue .notList []

/-- Reads a field of a record, or takes a value in its place. -/
def field {α : Type} (es : Entries) (name : String) (reader : FieldReader α) (absent : α) :
    Checked α :=
  match Entries.get? es name with
  | some node => (reader node).within name
  | none => pure absent

def mandatory {α : Type} (es : Entries) (name : String) (reader : FieldReader α) (filler : α) :
    Checked α :=
  match Entries.get? es name with
  | some node => (reader node).within name
  | none => (Checked.issue .missing filler).within name

def record {α : Type} (reader : Entries → Checked α) (filler : α) : FieldReader α
  | .map es => reader es
  | _ => Checked.issue .notRecord filler

end FieldReader

end ClientGen
