/-! Replacing, splitting and joining lists of characters. -/

namespace ClientGen.Text

/-- Replaces the occurrences of a pattern from left to right; the empty pattern occurs nowhere. -/
def replaceAll (pattern replacement : List Char) : List Char → List Char
  | [] => []
  | c :: rest =>
    if pattern ≠ [] ∧ pattern.isPrefixOf (c :: rest) then
      replacement ++ replaceAll pattern replacement (rest.drop (pattern.length - 1))
    else c :: replaceAll pattern replacement rest
termination_by s => s.length
decreasing_by
  · rw [List.length_drop, List.length_cons]
    omega
  · exact Nat.lt_succ_self rest.length

/-- Writes each run of characters outside `p` as one mark. -/
def markGaps (p : Char → Bool) (mark : Char) (inGap : Bool) : List Char → List Char
  | [] => []
  | c :: rest =>
    if p c then c :: markGaps p mark false rest
    else if inGap then markGaps p mark true rest
    else mark :: markGaps p mark true rest

/-- The pieces between the characters `sep`; there is one more piece than separators. -/
def splitOn (sep : Char) : List Char → List (List Char)
  | [] => [[]]
  | c :: rest =>
    if c = sep then [] :: splitOn sep rest
    else
      match splitOn sep rest with
      | [] => [[c]]
      | piece :: pieces => (c :: piece) :: pieces

def join (sep : List Char) (pieces : List (List Char)) : List Char :=
  List.intercalate sep pieces

def occursIn (pattern : List Char) : List Char → Bool
  | [] => pattern.isEmpty
  | c :: rest => pattern.isPrefixOf (c :: rest) || occursIn pattern rest

/-- The number of characters before the first occurrence of a pattern. -/
def position? (pattern : List Char) : List Char → Option Nat
  | [] => if pattern.isEmpty then some 0 else none
  | c :: rest =>
    if pattern.isPrefixOf (c :: rest) then some 0 else (position? pattern rest).map (· + 1)

end ClientGen.Text
