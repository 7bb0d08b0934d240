import ClientGen.Document.Yaml.Token

/-! Splitting a YAML text into tokens. Block structure is told by indentation, and a key is known as
such only when its colon comes. -/

namespace ClientGen.Yaml

/-- A place where a token may turn out to be a key: the number of tokens before it, whether its
place demands a colon, and where it starts. -/
structure KeyPlace where
  position : Nat
  required : Bool
  index : Nat
  line : Nat
  column : Nat
deriving Inhabited

/-- The state between two tokens. -/
structure Lexer where
  cursor : Cursor
  tokens : Array Token := #[]
  /-- The number of open flow brackets. -/
  flowDepth : Nat := 0
  /-- The column of the innermost block. -/
  indent : Int := -1
  /-- The columns of the blocks around it. -/
  outer : List Int := []
  /-- Whether a key may start here. -/
  keyAllowed : Bool := true
  /-- Possible keys, with the flow depth of each. -/
  keys : List (Nat × KeyPlace) := []
deriving Inhabited

namespace Lexer

def push (l : Lexer) (t : Token) : Lexer := { l with tokens := l.tokens.push t }

def moveTo (l : Lexer) (c : Cursor) : Lexer := { l with cursor := c }

/-- Moves past blanks, comments and line breaks before the next token. -/
def skipToToken : (fuel : Nat) → Lexer → Lexer
  | 0, l => l
  | fuel + 1, l =>
    let c := l.cursor.skipSpaces.skipComment
    if endsLine c.peek ∧ c.rest ≠ [] then
      let l := l.moveTo c.lineBreak.2
      skipToToken fuel (if l.flowDepth = 0 then { l with keyAllowed := true } else l)
    else l.moveTo c

/-- Forgets possible keys that are on an earlier line or too far back. -/
def dropStaleKeys (l : Lexer) : Except Flaw Lexer :=
  let isStale (k : KeyPlace) : Bool :=
    k.line != l.cursor.line || l.cursor.index - k.index > 1024
  if l.keys.any fun (_, k) => isStale k && k.required then .error .key
  else .ok { l with keys := l.keys.filter fun (_, k) => !isStale k }

def closeBlocks (column : Int) : List Int → Lexer → Lexer
  | [], l => l
  | i :: rest, l =>
    if l.flowDepth = 0 ∧ l.indent > column then
      closeBlocks column rest { l.push .blockEnd with indent := i, outer := rest }
    else l

def unwind (l : Lexer) (column : Int) : Lexer := closeBlocks column l.outer l

def keyHere? (l : Lexer) : Option KeyPlace := l.keys.lookup l.flowDepth

/-- Forgets the possible key at the current flow depth, which must not be one that demands a
colon. -/
def dropKey (l : Lexer) : Except Flaw Lexer :=
  match l.keyHere? with
  | some k =>
    if k.required then .error .key
    else .ok { l with keys := l.keys.filter (·.1 != l.flowDepth) }
  | none => .ok l

/-- Notes that the next token may be a key. -/
def noteKey (l : Lexer) : Except Flaw Lexer :=
  if l.keyAllowed then do
    let l ← l.dropKey
    let required := l.flowDepth == 0 && l.indent == (l.cursor.column : Int)
    let k : KeyPlace :=
      ⟨l.tokens.size, required, l.cursor.index, l.cursor.line, l.cursor.column⟩
    return { l with keys := (l.flowDepth, k) :: l.keys }
  else return l

/-- Opens a block at a column, unless the current one is as far in. -/
def openBlock (l : Lexer) (column : Nat) : Bool × Lexer :=
  if l.indent < (column : Int) then
    (true, { l with indent := column, outer := l.indent :: l.outer })
  else (false, l)

/-- Closes all blocks before a mark of the document's limits. -/
def closeAll (l : Lexer) : Except Flaw Lexer := do
  let l ← (l.unwind (-1)).dropKey
  return { l with keyAllowed := false }

def openFlow (l : Lexer) (t : Token) : Except Flaw Lexer := do
  let l ← l.noteKey
  return ({ l with flowDepth := l.flowDepth + 1, keyAllowed := true }.push t).moveTo l.cursor.next

def closeFlow (l : Lexer) (t : Token) : Except Flaw Lexer := do
  let l ← l.dropKey
  if l.flowDepth = 0 then throw .order
  return ({ l with flowDepth := l.flowDepth - 1, keyAllowed := false }.push t).moveTo l.cursor.next

/-- A comma between the items of a flow collection. -/
def flowEntry (l : Lexer) : Except Flaw Lexer := do
  let l ← { l with keyAllowed := true }.dropKey
  return (l.push .flowEntry).moveTo l.cursor.next

/-- A dash before an item of a block sequence. -/
def blockEntry (l : Lexer) : Except Flaw Lexer := do
  let l ←
    if l.flowDepth = 0 then
      if l.keyAllowed then
        let (opened, l) := l.openBlock l.cursor.column
        pure (if opened then l.push .blockSequenceStart else l)
      else throw .token
    else pure l
  let l ← { l with keyAllowed := true }.dropKey
  return (l.push .blockEntry).moveTo l.cursor.next

/-- A question mark before a key. -/
def explicitKey (l : Lexer) : Except Flaw Lexer := do
  let l ←
    if l.flowDepth = 0 then
      if l.keyAllowed then
        let (opened, l) := l.openBlock l.cursor.column
        pure (if opened then l.push .blockMappingStart else l)
      else throw .token
    else pure l
  let l ← { l with keyAllowed := l.flowDepth == 0 }.dropKey
  return (l.push .key).moveTo l.cursor.next

/-- Puts a token before those from a position on. -/
def insertAt (l : Lexer) (position : Nat) (t : Token) : Lexer :=
  { l with tokens := l.tokens.extract 0 position ++ #[t] ++ l.tokens.extract position }

/-- A colon. The possible key before it becomes one, and may open a block mapping. -/
def value (l : Lexer) : Except Flaw Lexer := do
  let l ←
    match l.keyHere? with
    | some k =>
      let l := { l with keys := l.keys.filter (·.1 != l.flowDepth) }.insertAt k.position .key
      let (opened, l) := if l.flowDepth = 0 then l.openBlock k.column else (false, l)
      let l := if opened then l.insertAt k.position .blockMappingStart else l
      pure { l with keyAllowed := false }
    | none =>
      if l.flowDepth = 0 ∧ !l.keyAllowed then throw .token
      let (opened, l) := if l.flowDepth = 0 then l.openBlock l.cursor.column else (false, l)
      let l := if opened then l.push .blockMappingStart else l
      { l with keyAllowed := l.flowDepth == 0 }.dropKey
  return (l.push .value).moveTo l.cursor.next

/-- A token that may be a key, read from the text. -/
def keyed (l : Lexer) (read : Cursor → Except Flaw (Token × Cursor)) : Except Flaw Lexer := do
  let l ← l.noteKey
  let (t, c) ← read l.cursor
  return ({ l with keyAllowed := false }.push t).moveTo c

def quoted (double : Bool) (c : Cursor) : Except Flaw (Token × Cursor) := do
  let (text, c) ← Token.readQuoted double c.budget [] c.next
  return (.scalar text false, c)

def block (l : Lexer) (folded : Bool) : Except Flaw Lexer := do
  let l ← { l with keyAllowed := true }.dropKey
  let (text, c) ← Token.readBlock folded l.indent l.cursor
  return (l.push (.scalar text false)).moveTo c

def plain (l : Lexer) : Except Flaw Lexer := do
  let l ← l.noteKey
  let (p, c) := Token.readPlain (l.flowDepth != 0) l.indent l.cursor
  let l := { l with keyAllowed := p.atLineStart }
  return (l.push (.scalar (String.ofList (Text.spell p.text)) true)).moveTo c

/-- Whether a plain scalar can start with a character before another one. -/
def startsPlain (inFlow : Bool) (ch : Char) (following : Option Char) : Bool :=
  !(endsWord (some ch) || "-?:,[]\x7b\x7d#&*!|>'\"%@\x60".toList.contains ch) ||
    (!endsWord following && (ch == '-' || (!inFlow && (ch == '?' || ch == ':'))))

def readToken (l : Lexer) (ch : Char) : Except Flaw Lexer := do
  let c := l.cursor
  let inFlow := l.flowDepth != 0
  let separated := endsWord (c.peekAt 1)
  if ch = '%' ∧ c.column = 0 then
    let l ← l.closeAll
    let (t, c) ← Token.readDirective l.cursor
    return (l.push t).moveTo c
  else if c.column = 0 ∧ c.atDocumentMark then
    let l ← l.closeAll
    return (l.push (if ch = '-' then .documentStart else .documentEnd)).moveTo (l.cursor.forward 3)
  else if ch = '[' then l.openFlow .flowSequenceStart
  else if ch = '\x7b' then l.openFlow .flowMappingStart
  else if ch = ']' then l.closeFlow .flowSequenceEnd
  else if ch = '\x7d' then l.closeFlow .flowMappingEnd
  else if ch = ',' then l.flowEntry
  else if ch = '-' ∧ separated then l.blockEntry
  else if ch = '?' ∧ (inFlow ∨ separated) then l.explicitKey
  else if ch = ':' ∧ (inFlow ∨ separated) then l.value
  else if ch = '*' then
    l.keyed fun c => do
      let (name, c) ← Token.readName c
      return (.alias name, c)
  else if ch = '&' then
    l.keyed fun c => do
      let (name, c) ← Token.readName c
      return (.anchor name, c)
  else if ch = '!' then
    l.keyed fun c => do
      let (name, c) ← Token.readTag c
      return (.tag name, c)
  else if ch = '|' ∧ !inFlow then l.block false
  else if ch = '>' ∧ !inFlow then l.block true
  else if ch = '\'' then l.keyed (quoted false)
  else if ch = '"' then l.keyed (quoted true)
  else if startsPlain inFlow ch (c.peekAt 1) then l.plain
  else throw .token

/-- Reads tokens up to the end of the text; each one takes at least one character. -/
def run : (fuel : Nat) → Lexer → Except Flaw Lexer
  | 0, l => .ok l
  | fuel + 1, l => do
    let l ← (skipToToken l.cursor.budget l).dropStaleKeys
    let l := l.unwind l.cursor.column
    match l.cursor.peek with
    | none => l.closeAll
    | some ch => run fuel (← l.readToken ch)

end Lexer

/-- Characters that a text may hold. -/
def isAllowed (c : Char) : Bool :=
  let n := c.toNat
  n == 9 || n == 10 || n == 13 || (0x20 ≤ n && n ≤ 0x7e) || n == 0x85 ||
    (0xa0 ≤ n && n ≤ 0xfffd) || 0x10000 ≤ n

def tokens (text : List Char) : Except Flaw (List Token) := do
  if !text.all isAllowed then throw .character
  let start := Cursor.ofText text
  let start := if start.isAt '\ufeff' then start.next else start
  let l ← Lexer.run (text.length + 1) { cursor := start }
  return l.tokens.toList

end ClientGen.Yaml
