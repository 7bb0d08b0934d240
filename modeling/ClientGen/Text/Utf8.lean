/-! Reading bytes as UTF-8 text, with the place and cause of the first error. -/

namespace ClientGen.Text.Utf8

inductive Cause where
  | startByte
  | continuationByte
  | endOfData
deriving DecidableEq, Repr

/-- A run of bytes that is no character. -/
structure Flaw where
  first : Nat
  count : Nat
  byte : UInt8
  cause : Cause
deriving DecidableEq, Repr

def Cause.text : Cause → String
  | .startByte => "invalid start byte"
  | .continuationByte => "invalid continuation byte"
  | .endOfData => "unexpected end of data"

def Flaw.message (f : Flaw) : String :=
  let place :=
    if f.count ≤ 1 then
      let digits := Nat.toDigits 16 f.byte.toNat
      let hex := String.ofList (List.replicate (2 - digits.length) '0' ++ digits)
      s!"byte 0x{hex} in position {f.first}"
    else
      let last := f.first + f.count - 1
      s!"bytes in position {f.first}-{last}"
  s!"'utf-8' codec can't decode {place}: {f.cause.text}"

/-- The number of bytes after a start byte, and the bounds of the first of them. -/
def shape? (b : UInt8) : Option (Nat × Nat × Nat) :=
  let n := b.toNat
  if 0xc2 ≤ n ∧ n ≤ 0xdf then some (1, 0x80, 0xbf)
  else if n = 0xe0 then some (2, 0xa0, 0xbf)
  else if n = 0xed then some (2, 0x80, 0x9f)
  else if 0xe1 ≤ n ∧ n ≤ 0xef then some (2, 0x80, 0xbf)
  else if n = 0xf0 then some (3, 0x90, 0xbf)
  else if n = 0xf4 then some (3, 0x80, 0x8f)
  else if 0xf1 ≤ n ∧ n ≤ 0xf3 then some (3, 0x80, 0xbf)
  else none

/-- Reads continuation bytes; `taken` bytes of the character have been read. -/
def continuation (first taken : Nat) (start : UInt8) : (count low high code : Nat) → List UInt8 →
    Except Flaw Nat
  | 0, _, _, code, _ => .ok code
  | _ + 1, _, _, _, [] => .error ⟨first, taken, start, .endOfData⟩
  | count + 1, low, high, code, b :: rest =>
    if low ≤ b.toNat ∧ b.toNat ≤ high then
      continuation first (taken + 1) start count 0x80 0xbf (code * 64 + (b.toNat - 0x80)) rest
    else .error ⟨first, taken, start, .continuationByte⟩

def decodeFrom (position : Nat) (done : List Char) (bytes : List UInt8) :
    Except Flaw (List Char) :=
  match bytes with
  | [] => .ok done.reverse
  | b :: rest =>
    if b.toNat < 0x80 then decodeFrom (position + 1) (Char.ofNat b.toNat :: done) rest
    else
      match shape? b with
      | none => .error ⟨position, 1, b, .startByte⟩
      | some (count, low, high) =>
        let bits := b.toNat % (if count = 1 then 32 else if count = 2 then 16 else 8)
        match continuation position 1 b count low high bits rest with
        | .error flaw => .error flaw
        | .ok code =>
          decodeFrom (position + count + 1) (Char.ofNat code :: done) (rest.drop count)
termination_by bytes.length
decreasing_by
  · exact Nat.lt_succ_self rest.length
  · rw [List.length_drop, List.length_cons]
    omega

def decode (bytes : List UInt8) : Except Flaw (List Char) := decodeFrom 0 [] bytes

end ClientGen.Text.Utf8
