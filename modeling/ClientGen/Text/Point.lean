/-! Texts that may hold half of a surrogate pair alone. Such a half is no character, so all texts
spell the last code point, which is no character in use, twice, and a half as that code point with
one in the private range behind it. Text from outside is spelled when it is read. -/

namespace ClientGen

/-- Digits of `n` in lower-case hexadecimal, padded with zeros to a width. -/
def hexDigits (width n : Nat) : List Char :=
  let digits := Nat.toDigits 16 n
  List.replicate (width - digits.length) '0' ++ digits

namespace Text

/-- A character, or half of a surrogate pair by its distance from the first of them. -/
inductive Point where
  | char (c : Char)
  | half (offset : Fin 0x800)
deriving DecidableEq, Repr

/-- The code point that halves are spelled with. -/
def mark : Char := Char.ofNat 0x10ffff

namespace Point

def spelling : Point → List Char
  | .char c => if c = mark then [mark, mark] else [c]
  | .half offset => [mark, Char.ofNat (0xe000 + offset)]

/-- The number of a code point. -/
def code : Point → Nat
  | .char c => c.toNat
  | .half offset => 0xd800 + offset

/-- The point with a number in the range of code points. -/
def ofCode (n : Nat) : Point :=
  if h : 0xd800 ≤ n ∧ n < 0xe000 then .half ⟨n - 0xd800, by omega⟩ else .char (Char.ofNat n)

end Point

/-- The points that a text spells. -/
def points : List Char → List Point
  | a :: b :: rest =>
    if a ≠ mark then .char a :: points (b :: rest)
    else if b = mark then .char mark :: points rest
    else if h : 0xe000 ≤ b.toNat ∧ b.toNat < 0xe800 then
      .half ⟨b.toNat - 0xe000, by omega⟩ :: points rest
    else .char a :: points (b :: rest)
  | [a] => [.char a]
  | [] => []

/-- Spells text from outside. -/
def spell (s : List Char) : List Char := s.flatMap fun c => (Point.char c).spelling

/-- The characters that a text spells; a half, which no text outside has, is replaced. -/
def characters (s : List Char) : List Char :=
  (points s).map fun p =>
    match p with
    | .char c => c
    | .half _ => Char.ofNat 0xfffd

/-- A run of halves, which have no bytes: their number, and that of the points before them. -/
structure Unencodable where
  first : Nat
  count : Nat
  code : Nat
deriving DecidableEq, Repr

def Unencodable.message (u : Unencodable) : String :=
  let place :=
    if u.count ≤ 1 then
      let digits := String.ofList (hexDigits 4 u.code)
      s!"character '\\u{digits}' in position {u.first}"
    else
      let last := u.first + u.count - 1
      s!"characters in position {u.first}-{last}"
  s!"'utf-8' codec can't encode {place}: surrogates not allowed"

def Point.isHalf : Point → Bool
  | .char _ => false
  | .half _ => true

/-- The first halves of a text, if there are any. -/
def unencodable? (s : List Char) : Option Unencodable :=
  let before := (points s).takeWhile (!·.isHalf)
  match (points s).dropWhile (!·.isHalf) with
  | [] => none
  | p :: rest => some ⟨before.length, ((p :: rest).takeWhile (·.isHalf)).length, p.code⟩

end Text

end ClientGen
