/-! Taking the arguments of a command apart into switches and operands. -/

namespace ClientGen

/-- A switch: its names, and whether a value belongs to it. -/
structure Switch where
  names : List String
  takesValue : Bool := false
deriving DecidableEq, Repr, Inhabited

/-- Why arguments are refused. -/
inductive ArgumentError where
  | unknownSwitch (name : String)
  | missingValue (name : String)
  | unwantedValue (name : String)
  | badValue (name value : String)
  | extraArgument (argument : String)
  | missingCommand
  | unknownCommand (name : String)
deriving DecidableEq, Repr

def ArgumentError.message : ArgumentError → String
  | .unknownSwitch name => s!"No such option: {name}"
  | .missingValue name => s!"Option '{name}' requires an argument."
  | .unwantedValue name => s!"Option '{name}' does not take a value."
  | .badValue name value => s!"Invalid value for '{name}': '{value}'"
  | .extraArgument argument => s!"Got unexpected extra argument ({argument})"
  | .missingCommand => "Missing command."
  | .unknownCommand name => s!"No such command '{name}'."

/-- A switch with its value, which is empty where none belongs to it. -/
abbrev GivenSwitch := Switch × String

/-- Arguments taken apart: switches in their order, and what is left. -/
structure Arguments where
  given : List GivenSwitch := []
  rest : List String := []
deriving DecidableEq, Repr, Inhabited

namespace Arguments

inductive Meaning where
  | operand
  | endOfSwitches
  /-- Switches with their values, and one that waits for its value. -/
  | switches (met : List GivenSwitch) (waiting : Option (Switch × String))

def switch? (switches : List Switch) (name : String) : Option Switch :=
  switches.find? fun s => s.names.contains name

def ofLong (switches : List Switch) (name : String) (value : Option String) :
    Except ArgumentError Meaning :=
  match switch? switches name with
  | none => .error (.unknownSwitch name)
  | some s =>
    match s.takesValue, value with
    | true, some value => .ok (.switches [(s, value)] none)
    | true, none => .ok (.switches [] (some (s, name)))
    | false, none => .ok (.switches [(s, "")] none)
    | false, some _ => .error (.unwantedValue name)

/-- The switches of a row of short names; what follows the first that takes a value is its value. -/
def ofShort (switches : List Switch) :
    List Char → Except ArgumentError (List GivenSwitch × Option (Switch × String))
  | [] => .ok ([], none)
  | c :: rest => do
    let name := "-" ++ String.singleton c
    match switch? switches name with
    | none => throw (.unknownSwitch name)
    | some s =>
      if s.takesValue then
        if rest.isEmpty then return ([], some (s, name))
        else return ([(s, String.ofList rest)], none)
      else
        let (met, waiting) ← ofShort switches rest
        return ((s, "") :: met, waiting)

def meaning (switches : List Switch) (argument : String) : Except ArgumentError Meaning :=
  match argument.toList with
  | ['-', '-'] => .ok .endOfSwitches
  | '-' :: '-' :: rest =>
    let name := "--" ++ String.ofList (rest.takeWhile (· != '='))
    match rest.dropWhile (· != '=') with
    | [] => ofLong switches name none
    | _ :: value => ofLong switches name (some (String.ofList value))
  | '-' :: c :: rest => do
    let (met, waiting) ← ofShort switches (c :: rest)
    return .switches met waiting
  | _ => .ok .operand

/-- Takes arguments apart after a switch that may wait for its value. Unless `mixed`, the first
operand ends the switches. -/
def parseFrom (switches : List Switch) (mixed : Bool) (waiting : Option (Switch × String)) :
    List String → Except ArgumentError Arguments
  | [] =>
    match waiting with
    | some (_, name) => .error (.missingValue name)
    | none => .ok {}
  | argument :: rest =>
    match waiting with
    | some (s, _) => do
      let a ← parseFrom switches mixed none rest
      return { a with given := (s, argument) :: a.given }
    | none => do
      match ← meaning switches argument with
      | .endOfSwitches => return { rest }
      | .operand =>
        if mixed then
          let a ← parseFrom switches mixed none rest
          return { a with rest := argument :: a.rest }
        else return { rest := argument :: rest }
      | .switches met waiting =>
        let a ← parseFrom switches mixed waiting rest
        return { a with given := met ++ a.given }

def parse (switches : List Switch) (mixed : Bool) (arguments : List String) :
    Except ArgumentError Arguments :=
  parseFrom switches mixed none arguments

def has (a : Arguments) (s : Switch) : Bool := a.given.any fun g => g.1 == s

def value? (a : Arguments) (s : Switch) : Option String :=
  (a.given.reverse.find? fun g => g.1 == s).map (·.2)

end Arguments

end ClientGen
