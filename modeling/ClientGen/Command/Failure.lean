import ClientGen.Document.Origin
import ClientGen.Workspace.ClientFolder
import ClientGen.Workspace.Settings

/-! Why commands fail. -/

namespace ClientGen

inductive Failure where
  | settings (error : SettingsError)
  | noInput
  | noOutput
  | load (error : LoadError)
  | unresolved (ref : String) (fault : ReferenceFault)
  | write (error : WriteError)
  /-- The document has a form that no rule provides for. -/
  | unexpected (detail : String)
deriving DecidableEq, Repr

namespace Failure

def ofSettings : SettingsError → Failure
  | .noHome => .unexpected (SettingsError.message .full .noHome)
  | e => .settings e

def ofLoad : LoadError → Failure
  | .malformed _ => .unexpected "a value of the document has the wrong form"
  | e => .load e

/-- The failure of a writing. What no rule provides for is unexpected. -/
def ofWrite : WriteError → Failure
  | .noHome => .unexpected (WriteError.message .full .noHome)
  | .unusablePath output => .unexpected (WriteError.message .full (.unusablePath output))
  | .unencodable run => .unexpected run.message
  | e => .write e

def ofFault : Fault → Failure
  | .unresolved ref fault => .unresolved ref fault
  | .malformed _ => .unexpected "a part of the document has the wrong form"
  | .invalid issues => .unexpected (Wording.full.issues "Model" issues)

def exitCode : Failure → Nat
  | .settings _ | .unexpected _ => 1
  | .noInput | .noOutput => 2
  | .load _ => 7
  | .unresolved .. => 8
  | .write _ => 9

def message (w : Wording) : Failure → String
  | .settings e => e.message w
  | .noInput => "No spec given. Pass --input or set SPECGEN_INPUT."
  | .noOutput => "No output directory given. Pass --output or set SPECGEN_OUTPUT."
  | .load e => e.message w
  | .unresolved ref fault => unresolvedMessage ref fault
  | .write e => e.message w
  | .unexpected detail => "Unexpected error: " ++ detail

end Failure

end ClientGen
