import ClientGen.Number.Double

/-! Documents: scalars, lists, and maps that keep the order of their entries. -/

namespace ClientGen

structure CalendarDate where
  year : Nat
  month : Nat
  day : Nat
deriving DecidableEq, Repr, Inhabited

/-- A time of a day, with the offset from universal time in minutes if the text gave one. -/
structure Timestamp where
  date : CalendarDate
  hour : Nat
  minute : Nat
  second : Nat
  microsecond : Nat
  offset : Option Int
deriving DecidableEq, Repr, Inhabited

/-- A value without parts; these are the possible keys of a map. -/
inductive Scalar where
  | null
  | bool (b : Bool)
  | int (i : Int)
  | float (x : Double)
  | str (s : String)
  | date (d : CalendarDate)
  | time (t : Timestamp)
  | bytes (b : List UInt8)
deriving DecidableEq, Repr, Inhabited

inductive Node where
  | scalar (s : Scalar)
  | list (items : List Node)
  | map (entries : List (Scalar × Node))
deriving Repr, Inhabited

namespace Node

@[match_pattern] abbrev null : Node := .scalar .null

@[match_pattern] abbrev bool (b : Bool) : Node := .scalar (.bool b)

@[match_pattern] abbrev int (i : Int) : Node := .scalar (.int i)

@[match_pattern] abbrev float (x : Double) : Node := .scalar (.float x)

@[match_pattern] abbrev str (s : String) : Node := .scalar (.str s)

end Node

namespace Scalar

/-- The number that a scalar counts as; truth values count as zero and one. -/
def number? : Scalar → Option (Int ⊕ Double)
  | .bool b => some (.inl (if b then 1 else 0))
  | .int i => some (.inl i)
  | .float x => some (.inr x)
  | _ => none

/-- Equality of keys: numbers are compared by value, whatever their kind. -/
def sameKey (a b : Scalar) : Bool :=
  match a.number?, b.number? with
  | some (.inl i), some (.inl j) => i == j
  | some (.inl i), some (.inr x) => x.equalsInt i
  | some (.inr x), some (.inl i) => x.equalsInt i
  | some (.inr x), some (.inr y) => x.equals y
  | _, _ => a == b

def text? : Scalar → Option String
  | .str s => some s
  | _ => none

/-- Nothing, zero, falsehood and the empty text count as absent. -/
def isPresent : Scalar → Bool
  | .null => false
  | .bool b => b
  | .int i => i != 0
  | .float x => !x.isZero
  | .str s => s != ""
  | .date _ | .time _ => true
  | .bytes b => !b.isEmpty

end Scalar

/-- Entries of a map in order. -/
abbrev Entries := List (Scalar × Node)

namespace Entries

def find? (entries : Entries) (key : Scalar) : Option Node :=
  (List.find? (fun entry => entry.1.sameKey key) entries).map (·.2)

def get? (entries : Entries) (key : String) : Option Node := entries.find? (.str key)

/-- Sets a key: a key that is there keeps its place and spelling, a new one comes last. -/
def insert (entries : Entries) (key : Scalar) (value : Node) : Entries :=
  match entries with
  | [] => [(key, value)]
  | (k, v) :: rest =>
    if k.sameKey key then (k, value) :: rest else (k, v) :: insert rest key value

end Entries

theorem Entries.mem_of_find? {es : Entries} {key : Scalar} {value : Node}
    (h : es.find? key = some value) : ∃ k, (k, value) ∈ es := by
  obtain ⟨⟨k, v⟩, hf, rfl⟩ := Option.map_eq_some_iff.1 h
  exact ⟨k, List.mem_of_find?_eq_some hf⟩

namespace Node

theorem sizeOf_lt_of_mem {es : Entries} {key : Scalar} {value : Node} (h : (key, value) ∈ es) :
    sizeOf value < sizeOf (Node.map es) := by
  have hm := List.sizeOf_lt_of_mem h
  simp only [Prod.mk.sizeOf_spec, Node.map.sizeOf_spec] at hm ⊢
  omega

theorem sizeOf_lt_of_entry {es : Entries} {key : String} {value : Node}
    (h : es.get? key = some value) : sizeOf value < sizeOf (Node.map es) := by
  obtain ⟨_, hm⟩ := Entries.mem_of_find? h
  exact sizeOf_lt_of_mem hm

/-- The entries of a map; any other value has none. -/
def entries : Node → Entries
  | .map es => es
  | _ => []

/-- The value of a text key, if the node is a map that holds it. -/
def get? (node : Node) (key : String) : Option Node := node.entries.get? key

theorem sizeOf_lt_of_get? {node value : Node} {key : String} (h : node.get? key = some value) :
    sizeOf value < sizeOf node := by
  cases node with
  | map es => exact sizeOf_lt_of_entry h
  | scalar s => exact nomatch h
  | list items => exact nomatch h

def isMap : Node → Bool
  | .map _ => true
  | _ => false

def text? : Node → Option String
  | .str s => some s
  | _ => none

/-- Nothing, zero, falsehood, the empty text and empty collections count as absent. -/
def isPresent : Node → Bool
  | .scalar s => s.isPresent
  | .list items => !items.isEmpty
  | .map es => !es.isEmpty

/-- Whether a node is the truth value `b`. -/
def isBool (node : Node) (b : Bool) : Bool :=
  match node with
  | .bool c => b == c
  | _ => false

end Node

end ClientGen
