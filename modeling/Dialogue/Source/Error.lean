import Dialogue.Files.Error
import Dialogue.Sheet.Fault
import Dialogue.Text.Quoted

/-!
# Failures of a source

Why a source of rows has none to give: each constructor is one cause, and `message` its wording.
-/

namespace Dialogue

/-- Why a source has no rows to give. -/
inductive SourceError where
  /-- Nothing is found at the path. -/
  | notFound (path : String)
  /-- The file at the path cannot be read. -/
  | unreadable (path : String) (cause : Files.FileError)
  /-- The file at the path is no sheet. -/
  | rejected (path : String) (cause : Sheet.SheetError)
  /-- The source is out of reach. -/
  | unavailable (reason : String)
deriving DecidableEq, Repr

namespace SourceError

def message : SourceError → String
  | notFound path => "script source not found at " ++ Text.quoted path
  | unreadable path cause => "failed to read " ++ Text.quoted path ++ ": " ++ cause.message
  | rejected path cause => "sheet " ++ Text.quoted path ++ " rejected: " ++ cause.message
  | unavailable reason => reason

/-- The messages of the failures behind this one, the nearest first. -/
def causes : SourceError → List String
  | notFound _ => []
  | unreadable _ cause => [cause.message]
  | rejected _ cause => [cause.message]
  | unavailable _ => []

end SourceError

end Dialogue
