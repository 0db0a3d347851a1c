import Dialogue.Files.Tree

/-!
# Snapshots

A tree that holds some files of a file system, and what has to be written back after the tree has
changed.

* `Tree.startingIn` is the tree with nothing but the working directory.
* `graft` puts a file or directory that was read into its place.
* `changes` lists the files of a tree that are new or differ from those of an earlier one.
-/

namespace Dialogue.Files.Tree

open Text

/-- The tree with nothing but this directory, in which paths start. -/
def startingIn (dir : String) : Tree :=
  let t := (({} : Tree).makeDirs dir).1
  match t.locate dir with
  | .ok (names, _) => { t with workingDir := names }
  | .error _ => t

/-- Puts a file or directory in the place that a path names. What cannot be placed is left out. -/
def graft (path : String) (node : Node) (t : Tree) : Tree :=
  let (t, _) := t.makeParents path
  match t.follow (t.origin (Path.ofText path)) (Path.ofText path).parts.dropLast,
    (Path.ofText path).parts.getLast? with
  | .ok names, some (.name name) => t.set (names ++ [name]) node
  | _, _ =>
    match t.locate path with
    | .ok (names, _) => t.set names node
    | .error _ => t

/-- The files that are new, or differ from those of `before`, with the paths to write them to. -/
def changes (before after : Tree) : List (String × Bytes) :=
  after.root.files.filterMap fun f =>
    let path := f.1.foldl (fun path name => path ++ "/" ++ name) ""
    match f.2, before.root.get? f.1 with
    | .error _, _ => none
    | .ok content, some (.file (.ok old)) => if old = content then none else some (path, content)
    | .ok content, _ => some (path, content)

end Dialogue.Files.Tree
