import ClientGen.Api.Parameter
import ClientGen.Api.StatusPhrase

/-! Responses of operations: the result and the documented errors. -/

namespace ClientGen

/-- The result of an operation; the default response has no code. -/
structure Response where
  model : Model
  code : Option Int := none
deriving Inhabited

inductive ErrorCode where
  | status (code : Int)
  | word (text : String)
deriving DecidableEq, Repr, Inhabited

structure ErrorResponse where
  code : ErrorCode
  description : String
deriving DecidableEq, Repr, Inhabited

namespace Response

def void (code : Option Int) (description : Option String) : Response :=
  { model := { shape := .generic, type := { text := "void", base := "void" }, description }, code }

end Response

/-- The integer part of a finite number. -/
def Double.truncate? : Double → Option Int
  | .finite negative m e =>
    let size := if e ≥ 0 then m * Nat.pow 2 e.toNat else m / Nat.pow 2 (-e).toNat
    some (Numeral.signed negative size)
  | _ => none

/-- The integer that a key of a map stands for, if it stands for one. -/
def Scalar.integer? : Scalar → Except Fault (Option Int)
  | .str s => .ok (Numeral.int? s.toList)
  | .int i => .ok (some i)
  | .bool b => .ok (some (if b then 1 else 0))
  | .float (.infinite _) => .error (.malformed .tooLarge)
  | .float x => .ok x.truncate?
  | _ => .error (.malformed .wrongKind)

/-- The responses of an operation by code, and the default one. -/
structure ResponseTable where
  numbered : List (Int × Node) := []
  default : Option Node := none

def isSuccess (code : Int) : Bool := 200 ≤ code && code < 300

namespace ResponseTable

/-- The result: the least code of success, the first of equal ones. -/
def success? (table : ResponseTable) : Option (Int × Node) :=
  (table.numbered.mergeSort fun a b => a.1 ≤ b.1).find? fun (code, _) => isSuccess code

/-- The responses that tell no success, by code. -/
def failures (table : ResponseTable) : List (Int × Node) :=
  (table.numbered.mergeSort fun a b => a.1 ≤ b.1).filter fun (code, _) => !isSuccess code

end ResponseTable

namespace ApiDocument

def responseSchema? (doc : ApiDocument) (response : Node) : Except Fault (Option Node) := do
  match doc.dialect with
  | .swagger2 =>
    let schema ← response.member "schema"
    return if schema.isMap then some schema else none
  | .openApi3 =>
    return (← content? (orEmptyMap (← response.member "content"))).map (·.2)

/-- The result that a response describes. -/
def response (doc : ApiDocument) (code : Option Int) (node : Node) : Except Fault Response := do
  match ← doc.responseSchema? node with
  | none => return .void code (← (← node.member "description").comment)
  | some schema =>
    let m ← doc.anonymousModel schema
    let description ← (← node.member "description").comment
    return { model := { m with description := description <|> m.description }, code }

/-- Adds responses to a table. Keys that are no numbers are ignored. -/
def tabulate (doc : ApiDocument) (table : ResponseTable) : Entries → Except Fault ResponseTable
  | [] => return table
  | (key, raw) :: rest => do
    let node ← if raw.isMap then doc.dereference raw else pure (.map [])
    if (← Node.shown (.scalar key)) = "default" then
      tabulate doc { table with default := some node } rest
    else
      match ← key.integer? with
      | some code => tabulate doc { table with numbered := table.numbered ++ [(code, node)] } rest
      | none => tabulate doc table rest

def errorOf (code : Int) (node : Node) : Except Fault ErrorResponse := do
  let description ← node.member "description"
  let text ← if description.isPresent then description.shown else pure (statusPhrase code)
  return ⟨.status code, text⟩

/-- The error that the default response documents beside a result. -/
def defaultError (node : Node) : Except Fault ErrorResponse := do
  match (← node.member "description").orElse (.str "Default error") with
  | .str text => return ⟨.word "default", text⟩
  | _ => throw (.invalid [⟨["description"], .notText⟩])

/-- The result and the errors of an operation. The result is the response of the least code of
success, else the default response, else nothing. -/
def results (doc : ApiDocument) (responses : Node) :
    Except Fault (List Response × List ErrorResponse) := do
  let table ← doc.tabulate {} (← responses.members)
  let result ←
    match table.success?, table.default with
    | some (code, node), _ => doc.response (some code) node
    | none, some node => doc.response none node
    | none, none => pure (.void none none)
  let failures ← table.failures.mapM fun (code, node) => errorOf code node
  match table.success?, table.default with
  | some _, some node => return ([result], failures ++ [← defaultError node])
  | _, _ => return ([result], failures)

end ApiDocument

end ClientGen
