import Dialogue.Toml.Value

/-!
# Tables in the making

The statements of a document give values to keys one after another. A draft is the tables that
they have made so far, with what decides whether a later statement may add to one of them.

* A table is made by its header, or it is implied by the path of a header below it, or by a dotted
  key.
* A dotted key adds to tables that dotted keys made; a header adds to any table on its path, and to
  the last table of a list.
* Values are closed: nothing adds to a list or table that is written as a value.
-/

namespace Dialogue.Toml

/-- A key with the keys of the tables around it. -/
structure Path where
  tables : List String
  key : String
deriving DecidableEq, Repr

/-- How a table came to be. -/
inductive Origin where
  | header
  | implied
  | dotted
deriving DecidableEq, Repr

/-- What a key stands for in a draft. -/
inductive Entry where
  /-- A value, closed. -/
  | value (value : Toml)
  | table (origin : Origin) (members : List (String × Entry))
  /-- A list of tables made by headers: the last one, and those before it, backwards. -/
  | tables (last : List (String × Entry)) (earlier : List (List (String × Entry)))
deriving Repr

/-- The members of a table in the making. -/
abbrev Draft := List (String × Entry)

namespace Draft

/-- Gives an entry to a key: in the place of its old one, or behind all others. -/
def put (key : String) (entry : Entry) : Draft → Draft
  | [] => [(key, entry)]
  | (k, e) :: d => if k = key then (key, entry) :: d else (k, e) :: put key entry d

/-- Changes the table at the end of a path, where `dotted` tells a dotted key from a header. Tables
that are missing on the path are made. -/
def modify (dotted : Bool) (change : Origin → Draft → Option Draft) :
    List String → Origin → Draft → Option Draft
  | [], origin, d => change origin d
  | key :: path, _, d =>
    match d.lookup key with
    | none =>
      let origin := if dotted then .dotted else .implied
      (modify dotted change path origin []).map fun sub => put key (.table origin sub) d
    | some (.table origin sub) =>
      if dotted ∧ origin = .header then none
      else (modify dotted change path origin sub).map fun sub => put key (.table origin sub) d
    | some (.tables last earlier) =>
      (modify dotted change path .header last).map fun last => put key (.tables last earlier) d
    | some (.value _) => none

/-- Gives a value to a new key of a table. A key without dots belongs to a table that dotted keys
did not make, a key with dots to one that they made. -/
def insertNew (key : String) (value : Toml) (isDotted : Bool) (origin : Origin) (d : Draft) :
    Option Draft :=
  if (origin = .dotted) = isDotted ∧ (d.lookup key).isNone then some (put key (.value value) d)
  else none

/-- Gives a value to a path below a table. -/
def assign (path : Path) (value : Toml) (origin : Origin) (d : Draft) : Option Draft :=
  modify true (insertNew path.key value (!path.tables.isEmpty)) path.tables origin d

/-- Opens a table by its header: a new one, or one that is only implied so far. -/
def openTable (path : Path) (d : Draft) : Option Draft :=
  modify false
    (fun _ d =>
      match d.lookup path.key with
      | none => some (put path.key (.table .header []) d)
      | some (.table .implied sub) => some (put path.key (.table .header sub) d)
      | _ => none)
    path.tables .header d

/-- Opens another table of a list by its header. -/
def openItem (path : Path) (d : Draft) : Option Draft :=
  modify false
    (fun _ d =>
      match d.lookup path.key with
      | none => some (put path.key (.tables [] []) d)
      | some (.tables last earlier) => some (put path.key (.tables [] (last :: earlier)) d)
      | _ => none)
    path.tables .header d

end Draft

/-! ## What a draft comes to -/

mutual

def Entry.toToml : Entry → Toml
  | .value v => v
  | .table _ d => .table (Draft.members d)
  | .tables last earlier => .arr (Draft.items earlier ++ [.table (Draft.members last)])

def Draft.members : List (String × Entry) → Members
  | [] => []
  | (key, entry) :: d => (key, entry.toToml) :: Draft.members d

/-- The tables of a list that is kept backwards. -/
def Draft.items : List (List (String × Entry)) → List Toml
  | [] => []
  | d :: earlier => Draft.items earlier ++ [.table (Draft.members d)]

end

/-- The table of a list of assignments, unless one of them adds to what is closed. -/
def tableOf? (assignments : List (Path × Toml)) : Option Toml :=
  (assignments.foldlM (fun d a => Draft.assign a.1 a.2 .header d) []).map fun d =>
    .table (Draft.members d)

end Dialogue.Toml
