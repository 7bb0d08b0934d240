import ClientGen.Document.Yaml.Cursor

/-! Tokens of a YAML text, and the reading of those that carry text. -/

namespace ClientGen.Yaml

/-- A tag as it is written: a handle, if there is one, and a suffix. -/
structure TagName where
  handle : Option String
  suffix : String
deriving DecidableEq, Repr, Inhabited

inductive Directive where
  | version (major minor : Nat)
  | tagHandle (handle start : String)
  | unknown
deriving DecidableEq, Repr, Inhabited

inductive Token where
  | directive (d : Directive)
  | documentStart
  | documentEnd
  | blockSequenceStart
  | blockMappingStart
  | blockEnd
  | flowSequenceStart
  | flowSequenceEnd
  | flowMappingStart
  | flowMappingEnd
  | blockEntry
  | flowEntry
  | key
  | value
  | alias (name : String)
  | anchor (name : String)
  | tag (name : TagName)
  | scalar (text : String) (plain : Bool)
deriving DecidableEq, Repr, Inhabited

namespace Token

def readName (c : Cursor) : Except Flaw (String × Cursor) := do
  let (name, c) := c.next.takeWhile isNameChar
  let follows := endsWord c.peek || (c.peek.map "?:,]\x7d%@\x60".toList.contains).getD false
  if name ≠ [] ∧ follows then return (String.ofList name, c)
  throw .token

def isTagChar (c : Char) : Bool :=
  c.isAlphanum || "-;/?:@&=+$,_.!~*'()[]%".toList.contains c

/-- The value of a hexadecimal digit. -/
def hexValue? (c : Char) : Option Nat :=
  if c.isDigit then some (c.toNat - 48)
  else if 'a' ≤ c ∧ c ≤ 'f' then some (c.toNat - 87)
  else if 'A' ≤ c ∧ c ≤ 'F' then some (c.toNat - 55)
  else none

/-- The number written by hexadecimal digits. -/
def hexNumber? (s : List Char) : Option Nat :=
  s.foldlM (fun n c => (hexValue? c).map (16 * n + ·)) 0

/-- Reads the escapes of a tag's suffix into bytes. -/
def tagBytes : List Char → Option (List UInt8)
  | [] => some []
  | '%' :: a :: b :: rest => do
    let byte ← hexNumber? [a, b]
    return byte.toUInt8 :: (← tagBytes rest)
  | c :: rest => if c = '%' then none else do return c.toNat.toUInt8 :: (← tagBytes rest)

/-- Reads the suffix of a tag or the start that a handle stands for. -/
def readTagSuffix (c : Cursor) : Except Flaw (String × Cursor) := do
  let (chars, c) := c.takeWhile isTagChar
  if chars = [] then throw .token
  match tagBytes chars with
  | none => throw .token
  | some bytes =>
    let bytes := ByteArray.mk bytes.toArray
    match String.fromUTF8? bytes with
    | some s => return (s, c)
    | none => throw .token

/-- Reads a tag handle: exclamation marks around a name, or one alone. -/
def readHandle (c : Cursor) : Except Flaw (String × Cursor) := do
  if !c.isAt '!' then throw .token
  let c := c.next
  if c.isAt ' ' then return ("!", c)
  let (name, after) := c.takeWhile isNameChar
  if after.isAt '!' then return ("!" ++ String.ofList name ++ "!", after.next)
  throw .token

def readTag (c : Cursor) : Except Flaw (TagName × Cursor) := do
  let after ←
    if c.peekAt 1 = some '<' then do
      let (suffix, c) ← readTagSuffix (c.forward 2)
      if !c.isAt '>' then throw .token
      pure (TagName.mk none suffix, c.next)
    else if endsWord (c.peekAt 1) then pure (TagName.mk none "!", c.next)
    else do
      let word := (c.rest.drop 1).takeWhile fun ch => !(isBreak ch || ch == ' ')
      let (handle, c) ← if word.contains '!' then readHandle c else pure ("!", c.next)
      let (suffix, c) ← readTagSuffix c
      pure (TagName.mk (some handle) suffix, c)
  if endsItem after.2.peek then return after
  throw .token

/-- Moves past the rest of a line that holds at most a comment. -/
def finishLine (c : Cursor) : Except Flaw Cursor :=
  let c := c.skipSpaces.skipComment
  if endsLine c.peek then .ok c.lineBreak.2 else .error .token

def readVersionNumber (c : Cursor) : Except Flaw (Nat × Cursor) := do
  let (digits, c) := c.takeWhile Char.isDigit
  if digits = [] then throw .token
  if digits.length > Numeral.digitLimit then throw (.value .tooLong)
  return (Numeral.natOfDigits digits, c)

def readDirectiveValue (name : String) (c : Cursor) : Except Flaw (Directive × Cursor) := do
  if name = "YAML" then
    let (major, c) ← readVersionNumber c.skipSpaces
    if !c.isAt '.' then throw .token
    let (minor, c) ← readVersionNumber c.next
    if endsItem c.peek then return (.version major minor, c) else throw .token
  else if name = "TAG" then
    let (handle, c) ← readHandle c.skipSpaces
    if !c.isAt ' ' then throw .token
    let (start, c) ← readTagSuffix c.skipSpaces
    if endsItem c.peek then return (.tagHandle handle start, c) else throw .token
  else return (.unknown, c.skipWhile fun ch => !isBreak ch)

def readDirective (c : Cursor) : Except Flaw (Token × Cursor) := do
  let (name, c) := c.next.takeWhile isNameChar
  if name = [] ∨ !endsItem c.peek then throw .token
  let (d, c) ← readDirectiveValue (String.ofList name) c
  return (.directive d, ← finishLine c)

/-! Quoted scalars -/

/-- The character named by a letter after a backslash. -/
def escapes : List (Char × Char) :=
  [('0', '\x00'), ('a', '\x07'), ('b', '\x08'), ('t', '\t'), ('\t', '\t'), ('n', '\n'),
    ('v', '\x0b'), ('f', '\x0c'), ('r', '\r'), ('e', '\x1b'), (' ', ' '), ('"', '"'),
    ('\\', '\\'), ('/', '/'), ('N', '\u0085'), ('_', '\u00a0'), ('L', '\u2028'),
    ('P', '\u2029')]

/-- The number of hexadecimal digits after a letter after a backslash. -/
def codeWidth? : Char → Option Nat
  | 'x' => some 2
  | 'u' => some 4
  | 'U' => some 8
  | _ => none

/-- The point with a number. -/
def codePoint (code : Nat) : Except Flaw Text.Point :=
  if code > 0x10ffff then .error (.value .notListed) else .ok (.ofCode code)

/-- Reads breaks and blanks inside a quoted scalar after its first break. -/
def readQuotedBreaks : (fuel : Nat) → (done : List Char) → Cursor → Except Flaw (List Char × Cursor)
  | 0, _, _ => .error .token
  | fuel + 1, done, c =>
    if c.atDocumentMark then .error .token
    else
      let c := c.skipWhile isBlank
      if endsLine c.peek ∧ c.rest ≠ [] then
        let (ch, c) := c.lineBreak
        readQuotedBreaks fuel (done ++ ch) c
      else .ok (done, c)

/-- Folds a break and those after it: a single line feed becomes a space. -/
def foldBreaks (first others : List Char) : List Char :=
  (if first ≠ ['\n'] then first else if others = [] then [' '] else []) ++ others

def readEscape (fuel : Nat) (c : Cursor) : Except Flaw (List Char × Cursor) :=
  match c.rest with
  | [] => .error .token
  | ch :: _ =>
    match escapes.lookup ch, codeWidth? ch with
    | some meaning, _ => .ok ([meaning], c.next)
    | none, some width =>
      let digits := c.next.rest.take width
      match hexNumber? digits with
      | some code =>
        if digits.length < width then .error .token
        else do
          let p ← codePoint code
          return (p.spelling, c.next.forward width)
      | none => .error .token
    | none, none =>
      if isBreak ch then readQuotedBreaks fuel [] c.lineBreak.2 else .error .token

/-- Reads a quoted scalar after its opening quote. What is done is spelled and reversed. -/
def readQuoted (double : Bool) :
    (fuel : Nat) → (done : List Char) → Cursor → Except Flaw (String × Cursor)
  | 0, _, _ => .error .token
  | fuel + 1, done, c =>
    match c.rest with
    | [] => .error .token
    | ch :: _ =>
      if ch = (if double then '"' else '\'') then
        if !double && c.peekAt 1 == some '\'' then
          readQuoted double fuel ('\'' :: done) (c.forward 2)
        else .ok (String.ofList done.reverse, c.next)
      else if double ∧ ch = '\\' then do
        let (chars, c) ← readEscape fuel c.next
        readQuoted double fuel (chars.reverse ++ done) c
      else if isBlank ch ∨ isBreak ch then do
        let (blanks, c) := c.takeWhile isBlank
        match c.peek with
        | none => throw .token
        | some ch =>
          if isBreak ch then
            let (first, c) := c.lineBreak
            let (others, c) ← readQuotedBreaks fuel [] c
            readQuoted double fuel ((foldBreaks first others).reverse ++ done) c
          else readQuoted double fuel (blanks.reverse ++ done) c
      else readQuoted double fuel ((Text.Point.char ch).spelling.reverse ++ done) c.next

/-! Block scalars -/

/-- What happens to the breaks at the end of a block scalar. -/
inductive Chomping where
  | clip
  | strip
  | keep
deriving DecidableEq, Repr

def chomping? : Option Char → Option Chomping
  | some '+' => some .keep
  | some '-' => some .strip
  | _ => none

/-- The indentation of a digit other than zero. -/
def increment? : Option Char → Except Flaw (Option Nat)
  | some '0' => .error .token
  | some c => .ok (if c.isDigit then some (c.toNat - 48) else none)
  | none => .ok none

/-- Reads the signs after the mark of a block scalar, in either order. -/
def readBlockSigns (c : Cursor) : Except Flaw ((Chomping × Option Nat) × Cursor) := do
  let signed := chomping? c.peek
  let c := if signed.isSome then c.next else c
  let increment ← increment? c.peek
  let c := if increment.isSome then c.next else c
  let late := if signed.isNone && increment.isSome then chomping? c.peek else none
  let c := if late.isSome then c.next else c
  if !endsItem c.peek then throw .token
  return ((((signed <|> late).getD .clip), increment), c)

/-- Reads blank lines before the first line of a block scalar, and finds its indentation. -/
def readBlockIndent : (fuel : Nat) → (done : List Char) → (widest : Nat) → Cursor →
    (List Char × Nat) × Cursor
  | 0, done, widest, c => ((done, widest), c)
  | fuel + 1, done, widest, c =>
    match c.rest with
    | [] => ((done, widest), c)
    | ch :: _ =>
      if ch = ' ' then
        let c := c.next
        readBlockIndent fuel done (max widest c.column) c
      else if isBreak ch then
        let (b, c) := c.lineBreak
        readBlockIndent fuel (done ++ b) widest c
      else ((done, widest), c)

/-- Moves past at most the spaces of an indentation. -/
def skipIndent (indent : Nat) (c : Cursor) : Cursor :=
  c.forward (min (indent - c.column) (c.rest.takeWhile (· == ' ')).length)

/-- Reads blank lines inside a block scalar. -/
def readBlockBreaks (indent : Nat) : (fuel : Nat) → (done : List Char) → Cursor →
    List Char × Cursor
  | 0, done, c => (done, c)
  | fuel + 1, done, c =>
    let c := skipIndent indent c
    if endsLine c.peek ∧ c.rest ≠ [] then
      let (b, c) := c.lineBreak
      readBlockBreaks indent fuel (done ++ b) c
    else (done, c)

/-- Reads the lines of a block scalar. `breaks` are the breaks before the next line. -/
def readBlockLines (folded : Bool) (chomping : Chomping) (indent : Nat) :
    (fuel : Nat) → (done breaks lastBreak : List Char) → Cursor → List Char × Cursor
  | 0, done, _, _, c => (done, c)
  | fuel + 1, done, breaks, lastBreak, c =>
    let finish (done lastBreak breaks : List Char) (c : Cursor) : List Char × Cursor :=
      (done ++ (if chomping = .strip then [] else lastBreak) ++
        (if chomping = .keep then breaks else []), c)
    if c.column = indent ∧ c.rest ≠ [] then
      let startsFull := !(c.peek.map isBlank).getD false
      let (line, c) := c.takeWhile fun ch => !isBreak ch
      let (b, c) := c.lineBreak
      let (others, c) := readBlockBreaks indent c.budget [] c
      let done := done ++ breaks ++ line
      if c.column = indent ∧ c.rest ≠ [] then
        let foldsHere := folded && b == ['\n'] && startsFull && !(c.peek.map isBlank).getD false
        let glue := if foldsHere then (if others = [] then [' '] else []) else b
        readBlockLines folded chomping indent fuel (done ++ glue) others b c
      else finish done b others c
    else finish done lastBreak breaks c

def readBlock (folded : Bool) (parent : Int) (c : Cursor) : Except Flaw (String × Cursor) := do
  let ((chomping, increment), c) ← readBlockSigns c.next
  let c ← finishLine c
  let least := max 1 (parent + 1).toNat
  let fuel := c.budget
  match increment with
  | none =>
    let ((breaks, widest), c) := readBlockIndent fuel [] 0 c
    let (text, c) := readBlockLines folded chomping (max least widest) fuel [] breaks [] c
    return (String.ofList (Text.spell text), c)
  | some n =>
    let indent := least + n - 1
    let (breaks, c) := readBlockBreaks indent fuel [] c
    let (text, c) := readBlockLines folded chomping indent fuel [] breaks [] c
    return (String.ofList (Text.spell text), c)

/-! Plain scalars -/

/-- The part of a plain scalar up to a blank, a break or a mark of structure. -/
def plainRun (inFlow : Bool) : List Char → List Char
  | [] => []
  | ch :: rest =>
    let afterColon := endsWord rest.head? ||
      (inFlow && (rest.head?.map ",[]\x7b\x7d".toList.contains).getD false)
    if isBlank ch || isBreak ch || (ch == ':' && afterColon) ||
        (inFlow && ",?[]\x7b\x7d".toList.contains ch) then []
    else ch :: plainRun inFlow rest

/-- Reads breaks and spaces after the first break inside a plain scalar; nothing is kept if the
document ends. -/
def readPlainBreaks : (fuel : Nat) → (done : List Char) → Cursor → Option (List Char) × Cursor
  | 0, done, c => (some done, c)
  | fuel + 1, done, c =>
    match c.rest with
    | [] => (some done, c)
    | ch :: _ =>
      if ch = ' ' then readPlainBreaks fuel done c.next
      else if isBreak ch then
        let (b, c) := c.lineBreak
        if c.atDocumentMark then (none, c) else readPlainBreaks fuel (done ++ b) c
      else (some done, c)

/-- Reads the space after a part of a plain scalar, and tells whether it crossed a line. -/
def readPlainSpace (c : Cursor) : List Char × Bool × Cursor :=
  let (spaces, c) := c.takeWhile (· == ' ')
  if endsLine c.peek ∧ c.rest ≠ [] then
    let (first, c) := c.lineBreak
    if c.atDocumentMark then ([], true, c)
    else
      match readPlainBreaks c.budget [] c with
      | (some others, c) => (foldBreaks first others, true, c)
      | (none, c) => ([], true, c)
  else (spaces, false, c)

/-- A plain scalar; `atLineStart` tells whether the cursor crossed a line after it. -/
structure Plain where
  text : List Char
  atLineStart : Bool

/-- Reads the parts of a plain scalar in a block of an indentation. -/
def readPlainParts (inFlow : Bool) (indent : Int) : (fuel : Nat) → (done space : List Char) →
    (crossed : Bool) → Cursor → Plain × Cursor
  | 0, done, _, crossed, c => (⟨done, crossed⟩, c)
  | fuel + 1, done, space, crossed, c =>
    if c.isAt '#' then (⟨done, crossed⟩, c)
    else
      let run := plainRun inFlow c.rest
      if run = [] then (⟨done, crossed⟩, c)
      else
        let done := done ++ space ++ run
        let (space, crossed, c) := readPlainSpace (c.forward run.length)
        if space = [] ∨ c.isAt '#' ∨ (!inFlow ∧ (c.column : Int) < indent) then (⟨done, crossed⟩, c)
        else readPlainParts inFlow indent fuel done space crossed c

/-- Reads a plain scalar in a block of an indentation. -/
def readPlain (inFlow : Bool) (parent : Int) (c : Cursor) : Plain × Cursor :=
  readPlainParts inFlow (parent + 1) c.budget [] [] false c

end Token

end ClientGen.Yaml
