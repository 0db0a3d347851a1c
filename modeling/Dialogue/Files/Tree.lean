import Dialogue.Files.Error
import Dialogue.Files.Path
import Dialogue.Text.Utf8

/-!
# File trees

A file system as a value: directories with named entries, files with their bytes, and the working
directory in which paths start. A file that is there need not be readable; instead of bytes it then
has the failure of reading it. Directories can always be listed.

* `locate` follows the parts of a path; each of them but the last has to be a directory.
* `read`, `write`, `touch`, `makeDir`, `makeDirs` and `remove` are the operations on paths, each
  failing as the system does.
* `Node.files` lists the files below a directory: entries by name, those of a directory in its
  place.
-/

namespace Dialogue.Files

open Text

/-- What reading a file comes to. -/
abbrev Content := Except FileError Bytes

/-- A file or a directory. -/
inductive Node where
  | file (content : Content)
  | dir (entries : List (String × Node))
deriving Repr, Inhabited

namespace Node

def isDir : Node → Bool
  | dir _ => true
  | file _ => false

/-- The entry of a directory with this name. -/
def entry? (name : String) : Node → Option Node
  | dir entries => entries.lookup name
  | file _ => none

/-- What is found under these names, one below the other. -/
def get? : List String → Node → Option Node
  | [], node => some node
  | name :: names, node => (node.entry? name).bind (get? names)

/-- Puts an entry in the place of the one with its name, or behind all others. -/
def setEntry (name : String) (node : Node) : List (String × Node) → List (String × Node)
  | [] => [(name, node)]
  | (name', node') :: entries =>
    if name' = name then (name, node) :: entries
    else (name', node') :: setEntry name node entries

/-- Puts a node under these names; the directories above have to exist. -/
def set (new : Node) : List String → Node → Node
  | [], _ => new
  | name :: names, dir entries =>
    match names, entries.lookup name with
    | [], _ => dir (setEntry name new entries)
    | names, some node => dir (setEntry name (set new names node) entries)
    | _, none => dir entries
  | _, file content => file content

/-- Takes away what is under these names. -/
def erase : List String → Node → Node
  | [], node => node
  | name :: names, dir entries =>
    match names, entries.lookup name with
    | [], _ => dir (entries.filter fun e => e.1 ≠ name)
    | names, some node => dir (setEntry name (erase names node) entries)
    | _, none => dir entries
  | _, file content => file content

mutual

/-- The files below a node, each with the names that lead to it: the entries of a directory in the
order of their names, the files below an entry in its place. -/
def files : Node → List (List String × Content)
  | file content => [([], content)]
  | dir entries =>
    ((entryFiles entries).mergeSort fun a b => a.1 ≤ b.1).flatMap fun e =>
      e.2.map fun f => (e.1 :: f.1, f.2)

/-- The files below each of these entries. -/
def entryFiles : List (String × Node) → List (String × List (List String × Content))
  | [] => []
  | (name, node) :: entries => (name, files node) :: entryFiles entries

end

end Node

/-- A file system, and the working directory in it. -/
structure Tree where
  root : Node := .dir []
  workingDir : List String := []
deriving Repr, Inhabited

namespace Tree

/-- The longest name that an entry may have, in bytes. -/
def longestName : Nat := 255

/-- Why a name can name no entry, if so. -/
def nameFault? (name : String) : Option FileError :=
  if longestName < name.utf8ByteSize then some .nameTooLong else none

/-- Follows parts from the place `names`. -/
def follow (t : Tree) (names : List String) : List Part → Except FileError (List String)
  | [] => .ok names
  | part :: parts =>
    match t.root.get? names with
    | some (.dir entries) =>
      match part with
      | .here => follow t names parts
      | .up => follow t names.dropLast parts
      | .name name =>
        match nameFault? name with
        | some fault => .error fault
        | none =>
          if (entries.lookup name).isSome then follow t (names ++ [name]) parts
          else .error .notFound
    | _ => .error .notADirectory

/-- Where the parts of a path begin. -/
def origin (t : Tree) (p : Path) : List String :=
  if p.absolute then [] else t.workingDir

/-- The place of what a cut path names, and the node there. -/
def locateAt (t : Tree) (p : Path) : Except FileError (List String × Node) :=
  match p.fault? with
  | some fault => .error fault
  | none => do
    let names ← t.follow (t.origin p) p.parts
    match t.root.get? names with
    | some node =>
      if p.asDirectory && !node.isDir then .error .notADirectory else .ok (names, node)
    | none => .error .notFound

/-- The place of what a path names, and the node there. -/
def locate (t : Tree) (path : String) : Except FileError (List String × Node) :=
  t.locateAt (Path.ofText path)

def exists? (t : Tree) (path : String) : Bool :=
  match t.locate path with
  | .ok _ => true
  | .error _ => false

/-- The bytes of the file that a path names. -/
def read (t : Tree) (path : String) : Content := do
  match ← t.locate path with
  | (_, .file content) => content
  | (_, .dir _) => .error .isADirectory

/-- The text of the file that a path names. -/
def readText (t : Tree) (path : String) : Except FileError String := do
  match text? (← t.read path) with
  | some s => .ok s
  | none => .error .notText

/-- The directory in which the last part of a path stands, and that part. -/
def slot (t : Tree) (p : Path) : Except FileError (List String × Option Part) := do
  let names ← t.follow (t.origin p) p.parts.dropLast
  match t.root.get? names with
  | some (.dir _) => .ok (names, p.parts.getLast?)
  | _ => .error .notADirectory

/-- The place of the file that a path names or is to name. -/
def filePlace (t : Tree) (path : String) : Except FileError (List String) := do
  let p := Path.ofText path
  match p.fault? with
  | some fault => .error fault
  | none =>
    match ← t.slot p with
    | (names, some (.name name)) =>
      match nameFault? name, t.root.get? (names ++ [name]) with
      | some fault, _ => .error fault
      | none, some (.dir _) => .error .isADirectory
      | none, some (.file _) =>
        if p.asDirectory then .error .notADirectory else .ok (names ++ [name])
      | none, none => if p.asDirectory then .error .isADirectory else .ok (names ++ [name])
    | _ => .error .isADirectory

def set (t : Tree) (names : List String) (node : Node) : Tree :=
  { t with root := Node.set node names t.root }

/-- Writes a file, in place of one that is there. -/
def write (t : Tree) (path : String) (content : Bytes) : Except FileError Tree := do
  return t.set (← t.filePlace path) (.file (.ok content))

/-- Makes an empty file, unless there is one. -/
def touch (t : Tree) (path : String) : Except FileError Tree := do
  let names ← t.filePlace path
  return if (t.root.get? names).isSome then t else t.set names (.file (.ok []))

/-- Makes a directory at a cut path. -/
def makeDirAt (t : Tree) (p : Path) : Except FileError Tree := do
  match p.fault? with
  | some fault => .error fault
  | none =>
    match ← t.slot p with
    | (names, some (.name name)) =>
      match nameFault? name, t.root.get? (names ++ [name]) with
      | some fault, _ => .error fault
      | none, some _ => .error .alreadyExists
      | none, none => .ok (t.set (names ++ [name]) (.dir []))
    | _ => .error .alreadyExists

/-- Whether a cut path names a directory. -/
def isDirAt (t : Tree) (p : Path) : Bool :=
  match t.locateAt p with
  | .ok (_, node) => node.isDir
  | .error _ => false

/-- Makes a directory and those above it, where they are missing: the tree with those that were
made, and the failure, if any. A directory that is there is no failure. -/
def makeDirsAt (t : Tree) (p : Path) : Tree × Option FileError :=
  if p.size = 0 then (t, none)
  else
    match t.makeDirAt p with
    | .ok t => (t, none)
    | .error .notFound =>
      match h : p.parent? with
      | none => (t, some .notFound)
      | some q =>
        have := Path.length_parent_lt h
        match t.makeDirsAt q with
        | (t, some fault) => (t, some fault)
        | (t, none) =>
          match t.makeDirAt p with
          | .ok t => (t, none)
          | .error fault => (t, if t.isDirAt p then none else some fault)
    | .error fault => (t, if t.isDirAt p then none else some fault)
termination_by p.parts.length

/-- Makes the directory that a path names and those above it, where they are missing. -/
def makeDirs (t : Tree) (path : String) : Tree × Option FileError :=
  t.makeDirsAt (Path.ofText path)

/-- Makes the directories above what a path names, where they are missing. -/
def makeParents (t : Tree) (path : String) : Tree × Option FileError :=
  match (Path.ofText path).parent? with
  | some p => t.makeDirsAt p
  | none => (t, none)

/-- Writes a file and makes the directories above it. What cannot be made is left out. -/
def put (t : Tree) (path : String) (content : Bytes) : Tree :=
  match t.makeParents path with
  | (t, some _) => t
  | (t, none) => (t.write path content).toOption.getD t

/-- Takes away what a path names, if it names anything. -/
def remove (t : Tree) (path : String) : Option Tree :=
  match t.locate path with
  | .ok (names, _) => some { t with root := Node.erase names t.root }
  | .error _ => none

end Tree

end Dialogue.Files
