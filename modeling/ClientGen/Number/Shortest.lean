import ClientGen.Number.Double

/-! The shortest decimal text that reads back as a double. -/

namespace ClientGen.Double

/-- A positive number `num / den`. -/
structure Ratio where
  num : Nat
  den : Nat

/-- The exponent `k` with `10 ^ (k - 1) ≤ r < 10 ^ k`. -/
def Ratio.decimalExponent (r : Ratio) : Int :=
  -- The estimate from the binary logarithm is at most one too small in each direction.
  let estimate : Int := ((r.num.log2 : Int) - r.den.log2) * 30103 / 100000
  let below (k : Int) : Bool :=
    if k ≥ 0 then decide (r.num < r.den * Nat.pow 10 k.toNat)
    else decide (r.num * Nat.pow 10 (-k).toNat < r.den)
  if below (estimate - 1) then estimate - 1
  else if below estimate then estimate
  else if below (estimate + 1) then estimate + 1
  else estimate + 2

/-- Multiplies by a power of ten. -/
def Ratio.scale (r : Ratio) (k : Int) : Ratio :=
  if k ≥ 0 then ⟨r.num * Nat.pow 10 k.toNat, r.den⟩ else ⟨r.num, r.den * Nat.pow 10 (-k).toNat⟩

/-- Comparison of a ratio with a natural number: `n ≤ r`, or `n < r` when the bound is open. -/
def Ratio.above (r : Ratio) (n : Nat) (closed : Bool) : Bool :=
  if closed then n * r.den ≤ r.num else n * r.den < r.num

/-- Comparison of a ratio with a natural number: `r ≤ n`, or `r < n` when the bound is open. -/
def Ratio.below (r : Ratio) (n : Nat) (closed : Bool) : Bool :=
  if closed then r.num ≤ n * r.den else r.num < n * r.den

/-- Digits `d` and exponent `k` of a decimal `d · 10 ^ k`. -/
structure Decimal where
  digits : Nat
  exponent : Int

/-- The decimals on a grid of `count` digits that round to the value, the nearer first. -/
def nearestOnGrid (value low high : Ratio) (closed : Bool) (k : Int) (count : Nat) :
    Option Decimal :=
  let shift := (count : Int) - k
  let v := value.scale shift
  let low := low.scale shift
  let high := high.scale shift
  let floor := v.num / v.den
  let inside (d : Nat) : Bool := low.below d closed && high.above d closed
  let rest := v.num % v.den
  let upFirst := 2 * rest > v.den || (2 * rest == v.den && floor % 2 == 1)
  let order := if upFirst then [floor + 1, floor] else [floor, floor + 1]
  (order.find? inside).map fun d => ⟨d, -shift⟩

/-- The shortest decimal that rounds to the positive value `m · 2 ^ e`, and of those the nearest. -/
def shortest (m : Nat) (e : Int) : Decimal :=
  let quarters (n : Nat) : Ratio :=
    if e ≥ 2 then ⟨n * Nat.pow 2 (e - 2).toNat, 1⟩ else ⟨n, Nat.pow 2 (2 - e).toNat⟩
  let value := quarters (4 * m)
  let low := quarters (if m = Nat.pow 2 52 ∧ e > minExponent then 4 * m - 1 else 4 * m - 2)
  let high := quarters (4 * m + 2)
  let closed := m % 2 == 0
  let k := value.decimalExponent
  let counts := (List.range 17).map (· + 1)
  match counts.findSome? (nearestOnGrid value low high closed k) with
  | some d => d
  | none => ⟨m, 0⟩

def digitsOf (n : Nat) : List Char := Nat.toDigits 10 n

/-- Drops trailing zeros of the digits into the exponent. -/
def Decimal.trimmed (d : Decimal) : List Char × Int :=
  let digits := digitsOf d.digits
  let kept := (digits.reverse.dropWhile (· == '0')).reverse
  (kept, d.exponent + (digits.length - kept.length : Nat))

/-- Writes digits with the decimal point after the first `point` of them. -/
def positional (digits : List Char) (point : Int) : List Char :=
  if point ≤ 0 then '0' :: '.' :: (List.replicate (-point).toNat '0' ++ digits)
  else
    let n := point.toNat
    if digits.length ≤ n then digits ++ List.replicate (n - digits.length) '0' ++ ['.', '0']
    else digits.take n ++ '.' :: digits.drop n

/-- Writes digits with the point after the first one and a signed exponent of two digits or more. -/
def scientific (digits : List Char) (exponent : Int) : List Char :=
  let mantissa :=
    match digits with
    | d :: [] => [d]
    | d :: rest => d :: '.' :: rest
    | [] => []
  let size := digitsOf exponent.natAbs
  mantissa ++ 'e' :: (if exponent < 0 then '-' else '+') ::
    (if size.length < 2 then '0' :: size else size)

/-- The shortest text that reads back: positional from `1e-4` to below `1e16`, always with a point
or an exponent. -/
def text : Double → String
  | .nan => "nan"
  | .infinite negative => if negative then "-inf" else "inf"
  | .finite negative m e =>
    let sign := if negative then "-" else ""
    if m = 0 then sign ++ "0.0"
    else
      let (digits, exponent) := (shortest m e).trimmed
      let point := exponent + digits.length
      sign ++ String.ofList
        (if -4 < point ∧ point ≤ 16 then positional digits point else scientific digits (point - 1))

end ClientGen.Double
