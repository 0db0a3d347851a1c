import Dialogue.Files.Tree
import Dialogue.Sheet.Basic
import Dialogue.Source.Error

/-!
# Sheets under a path

The sheets under a path are the file it names, whatever its name, or all files below the directory
it names whose extension is `csv` in any letter case.

* Sheets are read in the order of `Node.files`; their rows follow one another.
* A sheet whose path is too long is passed over; the first other sheet that cannot be read fails
  them all.
-/

namespace Dialogue.Source

open Files Text

/-- Whether a file name is that of a sheet. -/
def isSheetName (name : String) : Bool :=
  (extension? name).any fun ext => lowerAscii ext = "csv".toList

/-- A path with names added to it. -/
def joinAll (base : String) (names : List String) : String :=
  names.foldl join base

/-- The sheets below a directory: their paths, and what reading them comes to. -/
def sheetFiles (path : String) (dir : Node) : List (String × Content) :=
  ((dir.files.filter fun f => f.1.getLast?.any isSheetName).map fun f =>
    (joinAll path f.1, f.2)).filter fun f => (Path.ofText f.1).fault?.isNone

def rowsOfFile (path : String) (content : Content) : Except SourceError (List Row) :=
  match content with
  | .error cause => .error (.unreadable path cause)
  | .ok bytes =>
    match text? bytes with
    | none => .error (.unreadable path .notText)
    | some text =>
      match Sheet.ofText text with
      | .ok sheet => .ok sheet.rows
      | .error cause => .error (.rejected path cause)

/-- The rows of the sheets under a path. -/
def rowsUnder (t : Tree) (path : String) : Except SourceError (List Row) :=
  match t.locate path with
  | .error _ => .error (.notFound path)
  | .ok (_, .file content) => rowsOfFile path content
  | .ok (_, node) =>
    match sheetFiles path node with
    | [] => .error (.unavailable ("no csv sheets under " ++ quoted path))
    | files => do return (← files.mapM fun f => rowsOfFile f.1 f.2).flatten

end Dialogue.Source
