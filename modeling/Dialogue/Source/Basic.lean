import Dialogue.Script.Stored
import Dialogue.Source.Sheets

/-!
# Sources

Where the rows of a script come from: sheets, a list of rows, or a cache in front of another
source.

* A cache answers from its file unless it is asked past it, or the file cannot be read. Otherwise
  it asks the source behind it, past every further cache, and keeps the rows in its file.
* A cache whose file cannot be written gives the rows all the same.
* `Loading.asked` lists the sources that were asked, with the flag they were asked under.
-/

namespace Dialogue

open Files

/-- A source of rows. -/
inductive Source where
  /-- The sheets under a path. -/
  | sheets (path : String)
  /-- Rows at hand. -/
  | rows (rows : List Row)
  /-- A source that is out of reach. -/
  | unavailable (reason : String)
  /-- A cache file in front of another source. -/
  | cached (path : String) (inner : Source)
deriving Repr

/-- The kinds of source. -/
inductive SourceKind where
  | sheets
  | rows
  | unavailable
  | cached
deriving DecidableEq, Repr

/-- What a source answers, and the files after it. -/
structure Loading where
  result : Except SourceError (List Row)
  tree : Tree
  /-- The sources that were asked, in order. -/
  asked : List (SourceKind × Bool)

namespace Cache

/-- The rows of a cache file, if it can be read. -/
def read? (path : String) (t : Tree) : Option (List Row) :=
  match t.read path with
  | .ok content => storedRows? content
  | .error _ => none

/-- Writes rows to a cache file, if that can be done. -/
def write (path : String) (rows : List Row) (t : Tree) : Tree :=
  t.put path (Text.bytesOf (storedText rows))

/-- Asks a cache in front of `inner`. -/
def load (path : String) (inner : Bool → Tree → Loading) (force : Bool) (t : Tree) : Loading :=
  match if force then none else read? path t with
  | some rows => ⟨.ok rows, t, []⟩
  | none =>
    let loading := inner true t
    match loading.result with
    | .ok rows => { loading with tree := write path rows loading.tree }
    | .error _ => loading

end Cache

namespace Source

/-- Asks a source for its rows; with `force`, past every cache. -/
def load : Source → Bool → Tree → Loading
  | sheets path, force, t => ⟨rowsUnder t path, t, [(.sheets, force)]⟩
  | rows rs, force, t => ⟨.ok rs, t, [(.rows, force)]⟩
  | unavailable reason, force, t => ⟨.error (.unavailable reason), t, [(.unavailable, force)]⟩
  | cached path inner, force, t =>
    let loading := Cache.load path inner.load force t
    { loading with asked := (.cached, force) :: loading.asked }

end Source

end Dialogue
