/-!
# Failures of file operations

The causes for which a path cannot be read, written or made, with the wording and the number the
system gives them.
-/

namespace Dialogue.Files

/-- Why a file operation failed. -/
inductive FileError where
  | notFound
  | alreadyExists
  | notADirectory
  | isADirectory
  | permissionDenied
  | nameTooLong
  /-- The path holds a character that no name can hold. -/
  | invalidPath
  /-- The file holds bytes that are no text. -/
  | notText
deriving DecidableEq, Repr

def FileError.message : FileError → String
  | .notFound => "No such file or directory (os error 2)"
  | .alreadyExists => "File exists (os error 17)"
  | .notADirectory => "Not a directory (os error 20)"
  | .isADirectory => "Is a directory (os error 21)"
  | .permissionDenied => "Permission denied (os error 13)"
  | .nameTooLong => "File name too long (os error 36)"
  | .invalidPath => "file name contained an unexpected NUL byte"
  | .notText => "stream did not contain valid UTF-8"

end Dialogue.Files
