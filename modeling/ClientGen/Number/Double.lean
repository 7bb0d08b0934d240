/-! Binary floating-point numbers with 53 significant bits, in exact arithmetic. -/

namespace ClientGen

/-- A finite value is `± significand · 2 ^ exponent`, with the significand below `2 ^ 53` and as
large as the least exponent `-1074` admits. -/
inductive Double where
  | nan
  | infinite (negative : Bool)
  | finite (negative : Bool) (significand : Nat) (exponent : Int)
deriving DecidableEq, Repr, Inhabited

namespace Double

/-- The least exponent of a finite value. -/
def minExponent : Int := -1074

/-- The greatest exponent of a finite value. -/
def maxExponent : Int := 971

def zero (negative : Bool) : Double := .finite negative 0 minExponent

/-- The integer nearest to a quotient; a half goes to the even neighbour. -/
def roundDiv (num den : Nat) : Nat :=
  let q := num / den
  let r := num % den
  if 2 * r > den || (2 * r == den && q % 2 == 1) then q + 1 else q

/-- The quotient `num / den` scaled by `2 ^ (-e)`, rounded to an integer. -/
def scaledRound (num den : Nat) (e : Int) : Nat :=
  if e ≥ 0 then roundDiv num (den * Nat.pow 2 e.toNat)
  else roundDiv (num * Nat.pow 2 (-e).toNat) den

/-- The double nearest to `± num / den`; a tie goes to the even significand. -/
def ofRatio (negative : Bool) (num den : Nat) : Double :=
  if num = 0 then zero negative
  else
    let guess : Int := (num.log2 : Int) - den.log2 - 52
    -- The quotient has 53 or 54 bits at `guess - 1`, so one of two exponents fits.
    let fits (e : Int) : Bool :=
      if e ≥ 0 then decide (num < den * Nat.pow 2 (53 + e.toNat))
      else decide (num * Nat.pow 2 (-e).toNat < den * Nat.pow 2 53)
    let e := max minExponent (if fits (guess - 1) then guess - 1 else guess)
    let m := scaledRound num den e
    let (m, e) := if m = Nat.pow 2 53 then (Nat.pow 2 52, e + 1) else (m, e)
    if e > maxExponent then .infinite negative else .finite negative m e

/-- The double nearest to `± digits · 10 ^ exponent`. -/
def ofDecimal (negative : Bool) (digits : Nat) (exponent : Int) : Double :=
  if digits = 0 then zero negative
  else
    -- Bounds of the decimal logarithm keep the powers below small.
    let low := (digits.log2 : Int) * 3 / 10 + exponent
    let high := (digits.log2 + 1 : Int) * 31 / 100 + 1 + exponent
    if low > 310 then .infinite negative
    else if high < -330 then zero negative
    else if exponent ≥ 0 then ofRatio negative (digits * Nat.pow 10 exponent.toNat) 1
    else ofRatio negative digits (Nat.pow 10 (-exponent).toNat)

/-- The double nearest to an integer, unless it lies beyond the finite values. -/
def ofInt? (i : Int) : Option Double :=
  match ofRatio (i < 0) i.natAbs 1 with
  | .infinite _ => none
  | x => some x

/-- The value of a finite integral double. -/
def toInt? : Double → Option Int
  | .finite negative m e =>
    let signed (n : Nat) : Int := if negative then -(n : Int) else n
    if e ≥ 0 then some (signed (m * Nat.pow 2 e.toNat))
    else
      let unit := Nat.pow 2 (-e).toNat
      if m % unit = 0 then some (signed (m / unit)) else none
  | _ => none

/-- Whether a double is the number `i`. -/
def equalsInt (x : Double) (i : Int) : Bool := x.toInt? == some i

/-- Equality of numbers: the two zeros are equal. -/
def equals : Double → Double → Bool
  | .finite _ 0 _, .finite _ 0 _ => true
  | x, y => x == y

def isZero : Double → Bool
  | .finite _ m _ => m == 0
  | _ => false

end Double

end ClientGen
