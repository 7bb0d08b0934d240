import ClientGen.Fault
import ClientGen.Number.Reader
import ClientGen.Text.Replace

/-! Pointers into a document: `#/` and the keys and positions on the way to a value. -/

namespace ClientGen.Pointer

/-- Reads the escapes of a segment: `~1` is a slash and `~0` a tilde. -/
def unescapeChars : List Char → List Char
  | [] => []
  | '~' :: '1' :: rest => '/' :: unescapeChars rest
  | '~' :: '0' :: rest => '~' :: unescapeChars rest
  | c :: rest => c :: unescapeChars rest

/-- Writes a key as a segment. -/
def escapeChars (s : List Char) : List Char :=
  s.flatMap fun c => if c = '~' then ['~', '0'] else if c = '/' then ['~', '1'] else [c]

/-- The item at a position; a negative position counts from the end. -/
def itemAt? (items : List Node) (position : Int) : Option Node :=
  if position ≥ 0 then items[position.toNat]?
  else if position.natAbs ≤ items.length then items[items.length - position.natAbs]?
  else none

/-- Takes one step into a value. -/
def step (node : Node) (segment : String) : Except ReferenceFault Node :=
  match node with
  | .map es =>
    match Entries.get? es segment with
    | some value => .ok value
    | none => .error (.missingKey segment)
  | .list items =>
    match (Numeral.int? segment.toList).bind (itemAt? items) with
    | some value => .ok value
    | none => .error (.badIndex segment)
  | _ => .error (.notContainer node.kindName)

/-- Takes the steps of several segments. -/
def walk (node : Node) : List String → Except ReferenceFault Node
  | [] => .ok node
  | segment :: rest => do walk (← step node segment) rest

/-- The unescaped segments of a local reference. -/
def segments? (ref : String) : Option (List String) :=
  match ref.toList with
  | '#' :: '/' :: rest =>
    some ((Text.splitOn '/' rest).map fun s => String.ofList (unescapeChars s))
  | _ => none

/-- The value that a local reference points to. -/
def resolve (root : Node) (ref : String) : Except Fault Node :=
  match segments? ref with
  | none => .error (.unresolved ref .external)
  | some segments =>
    match walk root segments with
    | .ok node => .ok node
    | .error fault => .error (.unresolved ref fault)

/-- The text at `$ref`, where it is one. -/
def reference? (node : Node) : Option String := (node.get? "$ref").bind Node.text?

mutual

/-- All texts at `$ref` in a value. -/
def references : Node → List String
  | .scalar _ => []
  | .list items => referencesOfItems items
  | .map es => referencesOfEntries es

/-- All texts at `$ref` in the items of a list. -/
def referencesOfItems : List Node → List String
  | [] => []
  | item :: rest => references item ++ referencesOfItems rest

/-- All texts at `$ref` in the entries of a map. -/
def referencesOfEntries : List (Scalar × Node) → List String
  | [] => []
  | (key, value) :: rest =>
    (match key, value with
      | .str "$ref", .scalar (.str s) => [s]
      | _, _ => []) ++ references value ++ referencesOfEntries rest

end

/-- Follows a chain of references from a value to a map without one. The references in `pending`
have not been met; meeting another one means that the chain never ends. -/
def chase (root : Node) (pending : List String) (node : Node) : Except Fault Node :=
  match node with
  | .map es =>
    match Entries.get? es "$ref" with
    | none => .ok node
    | some (.scalar (.str ref)) =>
      if _h : ref ∈ pending then do
        let target ← resolve root ref
        if target.isMap then chase root (pending.erase ref) target
        else .error (.unresolved ref .notObject)
      else .error (.unresolved ref .circular)
    | some (.scalar _) => .error (.malformed .noFeature)
    | some _ => .error (.malformed .wrongKind)
  | _ => .ok node
termination_by pending.length
decreasing_by
  rw [List.length_erase_of_mem _h]
  have := List.length_pos_of_mem _h
  omega

/-- Follows a chain of references from a value, in the document `root`. -/
def dereference (root node : Node) : Except Fault Node :=
  chase root (references root ++ references node).eraseDups node

end ClientGen.Pointer
