import ClientGen.Document.Json.Writer

/-! What commands print: data on the standard output, and messages beside it. -/

namespace ClientGen

/-- Printed data and messages. -/
structure Printed where
  data : String := ""
  messages : String := ""
deriving DecidableEq, Repr, Inhabited

instance : Append Printed := ⟨fun a b => ⟨a.data ++ b.data, a.messages ++ b.messages⟩⟩

inductive ReportFormat where
  | plain
  | json
deriving DecidableEq, Repr, Inhabited

def ReportFormat.name : ReportFormat → String
  | .plain => "plain"
  | .json => "json"

structure Report where
  format : ReportFormat := .plain
  isQuiet : Bool := false
  isVerbose : Bool := false
deriving DecidableEq, Repr, Inhabited

namespace Report

def line (text : String) : Printed := { data := text ++ "\n" }

def message (text : String) : Printed := { messages := text ++ "\n" }

def json (value : Node) : Printed := line ((Json.write ⟨some 2, false⟩ value).toOption.getD "")

/-- Cells by their headers; of equal headers the last cell counts. -/
def recordOf (headers row : List String) : Node :=
  .map ((headers.zip row).foldl
    (fun es (header, cell) => Entries.insert es (.str header) (.str cell)) [])

/-- Prints a table: in JSON a list of records, else lines of cells between tabs. -/
def table (r : Report) (headers : List String) (rows : List (List String)) : Printed :=
  match r.format with
  | .json => json (.list (rows.map (recordOf headers)))
  | .plain => line ("\n".intercalate ((headers :: rows).map ("\t".intercalate ·)))

/-- Tells of progress, unless the report is quiet. -/
def info (r : Report) (text : String) : Printed := if r.isQuiet then {} else message text

/-- Tells of success, unless the report is quiet. -/
def success (r : Report) (text : String) : Printed := r.info text

/-- Suggests what to do next, unless the report is quiet. -/
def suggest (r : Report) (text : String) : Printed := r.info ("→ " ++ text)

def warning (text : String) : Printed := message ("Warning: " ++ text)

def error (text : String) : Printed := message ("Error: " ++ text)

/-- Tells a detail, if the report is verbose. -/
def debug (r : Report) (text : String) : Printed :=
  if r.isVerbose then message ("[debug] " ++ text) else {}

end Report

end ClientGen
