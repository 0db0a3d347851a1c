import Dialogue.Script.Address

/-!
# Scripts

A script is an index of rows: one group for each address, in the order of addresses.

* Rows of a scene below zero are dropped and counted.
* A group keeps the order of its rows in the source, unless every one of them has a place in the
  branch; then they stand in the order of their places, equal places in source order.
-/

namespace Dialogue

/-- The rows of one address. -/
structure Group where
  address : Address
  rows : List Row
deriving DecidableEq, Repr

/-- An address without rows. -/
structure NotFound where
  address : Address
deriving DecidableEq, Repr

def NotFound.message (e : NotFound) : String :=
  "scene " ++ Text.Decimal.text e.address.scene ++ " branch " ++
    Text.Decimal.text e.address.branch ++ " not found"

/-- Whether the place of `a` is not after the place of `b`. -/
def Row.notAfter (a b : Row) : Bool :=
  match a.seq, b.seq with
  | some i, some j => i ≤ j
  | none, _ => true
  | some _, none => false

/-- The rows of a group in playing order. -/
def inPlayingOrder (rows : List Row) : List Row :=
  if rows.all fun r => r.seq.isSome then rows.mergeSort Row.notAfter else rows

/-- Rows indexed by address. -/
structure Script where
  /-- The groups, in the order of their addresses, each in playing order. -/
  groups : List Group := []
  /-- The number of rows in the groups. -/
  size : Nat := 0
  /-- The number of rows that were dropped. -/
  dropped : Nat := 0
deriving DecidableEq, Repr

namespace Script

/-- Adds a row behind those of its group, in source order. -/
def insert (r : Row) : List Group → List Group
  | [] => [⟨r.address, [r]⟩]
  | g :: gs =>
    if r.address = g.address then { g with rows := g.rows ++ [r] } :: gs
    else if r.address.le g.address then ⟨r.address, [r]⟩ :: g :: gs
    else g :: insert r gs

/-- Puts a row into the index, or drops it. -/
def add (s : Script) (r : Row) : Script :=
  if r.scene < 0 then { s with dropped := s.dropped + 1 }
  else { s with groups := insert r s.groups, size := s.size + 1 }

/-- Puts the rows of every group into playing order. -/
def arrange (s : Script) : Script :=
  { s with groups := s.groups.map fun g => { g with rows := inPlayingOrder g.rows } }

/-- The index of a list of rows. -/
def ofRows (rows : List Row) : Script :=
  (rows.foldl add {}).arrange

def find? (s : Script) (a : Address) : Option Group :=
  s.groups.find? fun g => g.address = a

/-- The rows at an address, in playing order. -/
def lookup (s : Script) (a : Address) : Except NotFound (List Row) :=
  match s.find? a with
  | some g => .ok g.rows
  | none => .error ⟨a⟩

/-- Whether the script has rows at an address. -/
def contains (s : Script) (a : Address) : Bool :=
  (s.find? a).isSome

def scenes (s : Script) : List Int32 :=
  (s.groups.map (·.address.scene)).eraseDups

def branches (s : Script) (scene : Int32) : List Int32 :=
  (s.groups.filter (·.address.scene = scene)).map (·.address.branch)

def isEmpty (s : Script) : Bool :=
  s.size = 0

end Script

end Dialogue
