import ClientGen.Document.Yaml.Cursor
import ClientGen.Workspace.FileTree

/-! Texts inside messages that tell the details of what went wrong. -/

namespace ClientGen

structure Wording where
  yaml : Yaml.Flaw → String
  unreadable : Text.Utf8.Flaw → String
  unwritable : FileFault → String
  missingTemplate : (template : String) → String
  issues : (record : String) → List Issue → String

namespace Wording

/-- An issue on a line of its own, with the way to its field. -/
def issueLine (i : Issue) : String := "\n" ++ ".".intercalate i.path ++ ": " ++ i.kind.code

def full : Wording where
  yaml := Yaml.Flaw.message
  unreadable := Text.Utf8.Flaw.message
  unwritable := FileFault.message
  missingTemplate template := s!"'{template}' not found"
  issues record issues :=
    s!"{issues.length} validation errors for {record}" ++ String.join (issues.map issueLine)

end Wording

end ClientGen
