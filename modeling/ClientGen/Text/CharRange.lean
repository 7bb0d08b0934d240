/-! Sets of characters given by ranges of code points. -/

namespace ClientGen.Text

/-- The first and the last code point of a run of characters. -/
abbrev CharRange := Nat × Nat

/-- Membership in one of several ranges. -/
def inRanges (ranges : Array CharRange) (c : Char) : Bool :=
  ranges.any fun (first, last) => first ≤ c.toNat && c.toNat ≤ last

end ClientGen.Text
