import ClientGen.Document.Yaml.Lexer
import ClientGen.Document.Yaml.Tag

/-! Trees of tagged values, read from tokens; aliases are replaced by what they name. -/

namespace ClientGen.Yaml

inductive Tree where
  | scalar (tag : Tag) (text : String)
  | sequence (tag : Tag) (items : List Tree)
  | mapping (tag : Tag) (pairs : List (Tree × Tree))
deriving Inhabited

/-- The unread tokens, and the values of the anchors so far. -/
structure TokenStream where
  tokens : List Token
  anchors : List (String × Tree) := []

namespace TokenStream

def peek (s : TokenStream) : Option Token := s.tokens.head?

def next (s : TokenStream) : TokenStream := { s with tokens := s.tokens.drop 1 }

/-- Whether the next token is one of several. -/
def isAt (s : TokenStream) (ts : List Token) : Bool := (s.peek.map ts.contains).getD true

/-- Moves past the next token, which must be `t`. -/
def expect (s : TokenStream) (t : Token) : Except Flaw TokenStream :=
  if s.peek == some t then .ok s.next else .error .order

end TokenStream

/-- What the handles of a document's tags stand for. -/
abbrev Handles := List (String × String)

/-- Handles that need no directive. -/
def defaultHandles : Handles := [("!", "!"), ("!!", coreNamespace)]

/-- The anchor and tag before a value. -/
structure Properties where
  anchor : Option String := none
  tag : Option String := none

def fullName (handles : Handles) (name : TagName) : Except Flaw String :=
  match name.handle with
  | none => .ok name.suffix
  | some handle =>
    match handles.lookup handle with
    | some start => .ok (start ++ name.suffix)
    | none => .error .tag

/-- Reads an anchor and a tag in either order. -/
def readProperties (handles : Handles) (s : TokenStream) :
    Except Flaw (Properties × TokenStream) := do
  match s.tokens with
  | .anchor a :: .tag t :: rest =>
    return ({ anchor := some a, tag := some (← fullName handles t) }, { s with tokens := rest })
  | .tag t :: .anchor a :: rest =>
    return ({ anchor := some a, tag := some (← fullName handles t) }, { s with tokens := rest })
  | .anchor a :: rest => return ({ anchor := some a }, { s with tokens := rest })
  | .tag t :: rest => return ({ tag := some (← fullName handles t) }, { s with tokens := rest })
  | _ => return ({}, s)

namespace Properties

/-- The explicit tag, if it is more than a lone exclamation mark. -/
def explicit? (p : Properties) : Option Tag :=
  match p.tag with
  | none | some "!" => none
  | some name => some (.ofName name)

/-- The scalar of a text. A plain one without a tag is typed by its text, as is any one whose tag
is a lone exclamation mark. -/
def scalar (p : Properties) (text : String) (plain : Bool) : Tree :=
  let tag :=
    match p.explicit? with
    | some tag => tag
    | none => if plain || p.tag.isSome then Plain.tag text else .str
  .scalar tag text

/-- Notes the value of an anchor, which must be new. -/
def define (p : Properties) (tree : Tree) (s : TokenStream) : Except Flaw (Tree × TokenStream) :=
  match p.anchor with
  | none => .ok (tree, s)
  | some name =>
    if (s.anchors.lookup name).isSome then .error .anchor
    else .ok (tree, { s with anchors := (name, tree) :: s.anchors })

end Properties

/-- The value that stands where none is written. -/
def emptyTree : Tree := .scalar .null ""

mutual

/-- Reads a value. Block collections count only where `block` says so, and a sequence that is not
indented only where `flush` does. -/
def readTree (handles : Handles) (block flush : Bool) :
    (fuel : Nat) → TokenStream → Except Flaw (Tree × TokenStream)
  | 0, _ => .error .order
  | fuel + 1, s => do
    match s.peek with
    | some (.alias name) =>
      match s.anchors.lookup name with
      | some tree => return (tree, s.next)
      | none => throw .anchor
    | _ =>
      let (p, s) ← readProperties handles s
      if flush && s.peek == some .blockEntry then
        let (items, s) ← readFlushEntries handles fuel s
        p.define (.sequence (p.explicit?.getD .seq) items) s
      else
        match s.peek with
        | some (.scalar text plain) => p.define (p.scalar text plain) s.next
        | some .flowSequenceStart =>
          let (items, s) ← readFlowItems handles true fuel s.next
          p.define (.sequence (p.explicit?.getD .seq) items) s
        | some .flowMappingStart =>
          let (pairs, s) ← readFlowPairs handles true fuel s.next
          p.define (.mapping (p.explicit?.getD .map) pairs) s
        | some .blockSequenceStart =>
          if !block then throw .order
          let (items, s) ← readBlockEntries handles fuel s.next
          p.define (.sequence (p.explicit?.getD .seq) items) s
        | some .blockMappingStart =>
          if !block then throw .order
          let (pairs, s) ← readBlockPairs handles fuel s.next
          p.define (.mapping (p.explicit?.getD .map) pairs) s
        | _ =>
          if p.anchor.isSome || p.tag.isSome then
            let tag := p.explicit?.getD .null
            p.define (.scalar tag "") s
          else throw .order

/-- Reads a value, or none before one of several tokens. -/
def readTreeUnless (handles : Handles) (block flush : Bool) (stops : List Token) :
    (fuel : Nat) → TokenStream → Except Flaw (Tree × TokenStream)
  | 0, _ => .error .order
  | fuel + 1, s =>
    if s.isAt stops then .ok (emptyTree, s) else readTree handles block flush fuel s

/-- Reads the items of a block sequence and its end. -/
def readBlockEntries (handles : Handles) :
    (fuel : Nat) → TokenStream → Except Flaw (List Tree × TokenStream)
  | 0, _ => .error .order
  | fuel + 1, s => do
    if s.peek == some .blockEntry then
      let (item, s) ← readTreeUnless handles true false [.blockEntry, .blockEnd] fuel s.next
      let (items, s) ← readBlockEntries handles fuel s
      return (item :: items, s)
    else return ([], ← s.expect .blockEnd)

/-- Reads the items of a sequence that is not indented. -/
def readFlushEntries (handles : Handles) :
    (fuel : Nat) → TokenStream → Except Flaw (List Tree × TokenStream)
  | 0, _ => .error .order
  | fuel + 1, s => do
    if s.peek == some .blockEntry then
      let (item, s) ←
        readTreeUnless handles true false [.blockEntry, .key, .value, .blockEnd] fuel s.next
      let (items, s) ← readFlushEntries handles fuel s
      return (item :: items, s)
    else return ([], s)

def readBlockPairs (handles : Handles) :
    (fuel : Nat) → TokenStream → Except Flaw (List (Tree × Tree) × TokenStream)
  | 0, _ => .error .order
  | fuel + 1, s => do
    if s.peek == some .key then
      let stops := [Token.key, .value, .blockEnd]
      let (key, s) ← readTreeUnless handles true true stops fuel s.next
      let (value, s) ←
        if s.peek == some .value then readTreeUnless handles true true stops fuel s.next
        else pure (emptyTree, s)
      let (pairs, s) ← readBlockPairs handles fuel s
      return ((key, value) :: pairs, s)
    else return ([], ← s.expect .blockEnd)

/-- Reads the items of a flow sequence and its end; an item may be a single pair. -/
def readFlowItems (handles : Handles) (first : Bool) :
    (fuel : Nat) → TokenStream → Except Flaw (List Tree × TokenStream)
  | 0, _ => .error .order
  | fuel + 1, s => do
    if s.peek == some .flowSequenceEnd then return ([], s.next)
    let s ← if first then pure s else s.expect .flowEntry
    if s.peek == some .flowSequenceEnd then return ([], s.next)
    if s.peek == some .key then
      let (key, s) ← readTreeUnless handles false false [.value, .flowEntry, .flowSequenceEnd]
        fuel s.next
      let (value, s) ←
        if s.peek == some .value then
          readTreeUnless handles false false [.flowEntry, .flowSequenceEnd] fuel s.next
        else pure (emptyTree, s)
      let (items, s) ← readFlowItems handles false fuel s
      return (.mapping .map [(key, value)] :: items, s)
    else
      let (item, s) ← readTree handles false false fuel s
      let (items, s) ← readFlowItems handles false fuel s
      return (item :: items, s)

/-- Reads the pairs of a flow mapping and its end; a value alone is a key. -/
def readFlowPairs (handles : Handles) (first : Bool) :
    (fuel : Nat) → TokenStream → Except Flaw (List (Tree × Tree) × TokenStream)
  | 0, _ => .error .order
  | fuel + 1, s => do
    if s.peek == some .flowMappingEnd then return ([], s.next)
    let s ← if first then pure s else s.expect .flowEntry
    if s.peek == some .flowMappingEnd then return ([], s.next)
    if s.peek == some .key then
      let (key, s) ← readTreeUnless handles false false [.value, .flowEntry, .flowMappingEnd]
        fuel s.next
      let (value, s) ←
        if s.peek == some .value then
          readTreeUnless handles false false [.flowEntry, .flowMappingEnd] fuel s.next
        else pure (emptyTree, s)
      let (pairs, s) ← readFlowPairs handles false fuel s
      return ((key, value) :: pairs, s)
    else
      let (key, s) ← readTree handles false false fuel s
      let (pairs, s) ← readFlowPairs handles false fuel s
      return ((key, emptyTree) :: pairs, s)

end

/-- The directives before a document, and the handles they declare. -/
def readDirectives (versioned : Bool) (handles : Handles) : List Token →
    Except Flaw (Handles × List Token)
  | .directive (.version major _) :: rest =>
    if versioned ∨ major ≠ 1 then .error .order else readDirectives true handles rest
  | .directive (.tagHandle handle start) :: rest =>
    if (handles.lookup handle).isSome then .error .tag
    else readDirectives versioned ((handle, start) :: handles) rest
  | .directive .unknown :: rest => readDirectives versioned handles rest
  | rest => .ok (handles, rest)

/-- Reads the only document of a text; without tokens there is none. -/
def readDocument (tokens : List Token) : Except Flaw (Option Tree) := do
  match tokens with
  | [] => return none
  | first :: _ =>
    let explicit :=
      match first with
      | .directive _ | .documentStart => true
      | _ => false
    let (handles, rest) ← readDirectives false [] tokens
    let handles := handles ++ defaultHandles.filter fun (h, _) => (handles.lookup h).isNone
    let s : TokenStream := { tokens := rest }
    let s ← if explicit then s.expect .documentStart else pure s
    let fuel := 3 * tokens.length + 3
    let startsNone :=
      match s.peek with
      | none | some (.directive _) | some .documentStart | some .documentEnd => explicit
      | _ => false
    let (tree, s) ← if startsNone then pure (emptyTree, s) else readTree handles true false fuel s
    if (s.tokens.dropWhile (· == .documentEnd)) = [] then return some tree
    throw .documents

end ClientGen.Yaml
