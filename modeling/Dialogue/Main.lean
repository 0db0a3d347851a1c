import Dialogue.CommandLine.Program
import Dialogue.Files.Snapshot

/-!
# The command line

The program run on real files and a real terminal. Everything it does is `CommandLine.run`; here
its files are read and written, and its lines are typed and printed.

* Whenever a prompt finds nothing typed, one more line is awaited and the program is run again on
  all that is typed by then. What it prints begins with what it printed before, so only the rest is
  printed.
-/

namespace Dialogue.Main

open Files

/-- Reads a file, unless that is not allowed. -/
def readFile (entry : IO.FS.DirEntry) : IO Content := do
  try return .ok (← IO.FS.readBinFile entry.path).toList
  catch
    | .permissionDenied .. => return .error .permissionDenied
    | fault => throw fault

/-- Reads a file or a directory, with all that is in it. -/
partial def readEntry (entry : IO.FS.DirEntry) : IO Node := do
  if ← entry.path.isDir then
    let entries ← (← entry.path.readDir).toList.mapM fun e => return (e.fileName, ← readEntry e)
    return .dir entries
  else return .file (← readFile entry)

/-- Adds what a path names to a tree, if it names anything. -/
def addPath (tree : Tree) (path : String) : IO Tree := do
  let entry : IO.FS.DirEntry := ⟨".", path⟩
  if path ≠ "" && (← entry.path.pathExists) then return tree.graft path (← readEntry entry)
  else return tree

def writeChanges (before after : Tree) : IO Unit := do
  for (path, content) in before.changes after do
    let entry : IO.FS.DirEntry := ⟨"/", path⟩
    if let some dir := entry.path.parent then IO.FS.createDirAll dir
    IO.FS.writeBinFile entry.path ⟨content.toArray⟩

/-- Prints what is new in a text. -/
def printNew (stream : IO.FS.Stream) (before after : String) : IO Unit := do
  stream.putStr (String.ofList (after.toList.drop before.length))
  stream.flush

/-- Awaits one more line, with its line feed. Nothing is left to type if it is empty. -/
partial def readLine (stream : IO.FS.Stream) (line : Text.Bytes) : IO Text.Bytes := do
  let bytes := (← stream.read 1).toList
  if bytes.isEmpty || bytes = [0x0A] then return line ++ bytes
  else readLine stream (line ++ bytes)

/-- Runs the program on what is typed so far, and again while more is typed. -/
partial def converse (words : List String) (typed : Text.Bytes) (files before : Tree)
    (output complaints : String) : IO UInt32 := do
  let outcome := CommandLine.run words typed files
  writeChanges before outcome.tree
  printNew (← IO.getStdout) output outcome.output
  printNew (← IO.getStderr) complaints outcome.complaints
  if outcome.left = some .endOfInput then
    let line ← readLine (← IO.getStdin) []
    if !line.isEmpty then
      return ← converse words (typed ++ line) files outcome.tree outcome.output outcome.complaints
  return outcome.exitCode

/-- Runs the program in the working directory. -/
def start (words : List String) : IO UInt32 := do
  let here := Tree.startingIn (← IO.currentDir).toString
  let settings ← addPath here CommandLine.settingsPath
  let files ← (CommandLine.pathsRead settings).foldlM addPath settings
  converse words [] files files "" ""

end Dialogue.Main

def main (words : List String) : IO UInt32 :=
  Dialogue.Main.start words
