/-! Names that are told apart by a number. -/

namespace ClientGen.Naming

/-- A base name, or for a number from two on the base, a separator and the number. -/
def numbered (base separator : String) (k : Nat) : String :=
  if k < 2 then base else base ++ separator ++ toString k

/-- The first of `budget` numbered names from `k` on that is not taken. -/
def seekFresh (taken : List String) (base separator : String) : (budget k : Nat) → String
  | 0, k => numbered base separator k
  | budget + 1, k =>
    if numbered base separator k ∈ taken then seekFresh taken base separator budget (k + 1)
    else numbered base separator k

/-- A base name if it is free, else the base with the least number from two on that makes it free.
One of the first `taken.length + 1` numbered names is free. -/
def fresh (taken : List String) (base separator : String) : String :=
  seekFresh taken base separator taken.length 1

end ClientGen.Naming
