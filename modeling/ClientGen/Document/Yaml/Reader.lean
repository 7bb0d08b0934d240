import ClientGen.Document.Yaml.Tree

/-! Reading YAML text as a document. -/

namespace ClientGen.Yaml

namespace Tree

def pairs? : Tree → Option (List (Tree × Tree))
  | .mapping _ pairs => some pairs
  | _ => none

/-- Whether a value marks its pair as one to merge. -/
def isMerge : Tree → Bool
  | .scalar .merge _ => true
  | _ => false

/-- Reads a lone equals sign as a key like any other. -/
def asKey : Tree → Tree
  | .scalar .value text => .scalar .str text
  | tree => tree

mutual

/-- Replaces the merge pairs of a mapping by the pairs they name, which come first. -/
def flatten : (fuel : Nat) → List (Tree × Tree) → Except Flaw (List (Tree × Tree))
  | 0, _ => .error .order
  | fuel + 1, pairs => do
    let merged ← (pairs.filter fun (key, _) => key.isMerge).mapM fun (_, value) =>
      mergedPairs fuel value
    let own := (pairs.filter fun (key, _) => !key.isMerge).map fun (key, value) =>
      (key.asKey, value)
    return merged.flatten ++ own

/-- The pairs of a mapping to merge, or of several, where the first one comes last. -/
def mergedPairs : (fuel : Nat) → Tree → Except Flaw (List (Tree × Tree))
  | 0, _ => .error .order
  | fuel + 1, value =>
    match value with
    | .mapping _ pairs => flatten fuel pairs
    | .sequence _ items => do
      let lists ← items.mapM fun item =>
        match item.pairs? with
        | some pairs => flatten fuel pairs
        | none => throw .tag
      return lists.reverse.flatten
    | .scalar .. => .error .tag

end

/-- A key, which must be a scalar. -/
def toKey : Tree → Except Flaw Scalar
  | .scalar tag text => Construct.scalar tag text
  | _ => .error .tag

/-- The text of a mapping that is to be one: the value of its equals sign. -/
def valueText? (pairs : List (Tree × Tree)) : Option String :=
  pairs.findSome? fun (key, value) =>
    match key, value with
    | .scalar .value _, .scalar _ text => some text
    | _, _ => none

mutual

def toNode (fuel : Nat) (tree : Tree) : Except Flaw Node :=
  match fuel with
  | 0 => .error .order
  | fuel + 1 =>
    match tree with
    | .scalar tag text => (Construct.scalar tag text).map .scalar
    | .sequence tag items =>
      match tag with
      | .seq => (toNodes fuel items).map .list
      | .omap | .pairs => do
        let lists ← items.mapM fun item =>
          match item.pairs? with
          | some [(key, value)] => do
            return Node.list [← toNode fuel key, ← toNode fuel value]
          | _ => throw .tag
        return .list lists
      | _ => .error .tag
    | .mapping tag pairs =>
      match tag with
      | .map => do
        let pairs ← flatten fuel pairs
        return .map (← toEntries fuel [] pairs)
      | .str | .int | .float | .bool | .null | .timestamp | .binary =>
        match valueText? pairs with
        | some text => (Construct.scalar tag text).map .scalar
        | none => .error .tag
      | _ => .error .tag
termination_by (fuel, 0)

/-- The values of several trees. -/
def toNodes (fuel : Nat) : List Tree → Except Flaw (List Node)
  | [] => .ok []
  | tree :: rest => do
    let head ← toNode fuel tree
    let tail ← toNodes fuel rest
    return head :: tail
termination_by trees => (fuel, trees.length + 1)

/-- The entries of several pairs; a repeated key keeps its place and takes the later value. -/
def toEntries (fuel : Nat) (done : Entries) : List (Tree × Tree) → Except Flaw Entries
  | [] => .ok done
  | (key, value) :: rest => do
    let key ← toKey key
    let value ← toNode fuel value
    toEntries fuel (done.insert key value) rest
termination_by pairs => (fuel, pairs.length + 1)

end

end Tree

/-- Reads a text that holds at most one document. Every level of a value takes a character. -/
def read (text : List Char) : Except Flaw Node := do
  let tokens ← tokens text
  match ← readDocument tokens with
  | none => return .null
  | some tree => tree.toNode (2 * text.length + 4)

end ClientGen.Yaml
