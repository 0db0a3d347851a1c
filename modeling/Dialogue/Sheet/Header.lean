import Dialogue.Sheet.Record
import Dialogue.Text.Decimal
import Dialogue.Text.Pattern

/-!
# The header of a sheet

The first record names the columns. Names are read without blanks around them and without regard
to the case of ASCII letters; several names may stand for one column, and other names are ignored.

* `Column.ofName?` reads one name: a numbered option or target column, by the pattern
  `numberedName`, or one of `Role.names`.
* `Header.cell` is the trimmed cell of a column, empty where the sheet has no such column. Of two
  columns with one meaning the last counts.
* `Header.slots` are the numbers of the option columns, ascending and without repetition.
-/

namespace Dialogue.Sheet

open Text

/-- What a column holds, for the columns that occur once. -/
inductive Role where
  | id
  | command
  | branch
  | seq
  | side
  | character
  | loadMode
  | highlight
  | background
  | cg
  | speaker
  | line
  | options
deriving DecidableEq, Repr

/-- The names of the columns, in small letters. -/
def Role.names : List (String × Role) :=
  [("id", .id), ("scene", .id), ("sceneid", .id), ("command", .command),
    ("branch", .branch), ("branchid", .branch), ("seq", .seq), ("lineno", .seq),
    ("characterside", .side), ("side", .side),
    ("characterkey", .character), ("character", .character), ("loadmode", .loadMode),
    ("highlight", .highlight), ("hightlight", .highlight),
    ("bg", .background), ("background", .background), ("cg", .cg),
    ("name", .speaker), ("speaker", .speaker), ("dialogue", .line), ("line", .line),
    ("options", .options)]

/-- A column with a meaning. -/
inductive Column where
  | role (r : Role)
  /-- The text of the option with this number. -/
  | optionText (slot : Nat)
  /-- The target branch of the option with this number. -/
  | optionTarget (slot : Nat)
deriving DecidableEq, Repr

/-- The number of an option column. Digits that spell no 32-bit number stand for `0`. -/
def slotOf (digits : List Char) : Nat :=
  match Decimal.digits? digits with
  | some n => if n < UInt32.size then n else 0
  | none => 0

/-- The name of a numbered column: its word, blanks, and decimal digits of any script. No letter of
the two words has another case beside the ASCII one. -/
def numberedName : Pattern :=
  .seq (.group (.either (.caseless "option".toList) (.caseless "target".toList)))
    (.seq (.many isBlank) (.group (.several isDecimalDigit)))

/-- Reads the name of a numbered column. -/
def numberedColumn? (name : List Char) : Option Column :=
  match numberedName.captures? name with
  | some [word, digits] =>
    if lowerAscii word = "option".toList then some (.optionText (slotOf digits))
    else some (.optionTarget (slotOf digits))
  | _ => none

/-- The meaning of a cell of the header. -/
def Column.ofName? (cell : String) : Option Column :=
  let name := trim cell.toList
  match numberedColumn? name with
  | some c => some c
  | none => (Role.names.lookup (String.ofList (lowerAscii name))).map .role

def Column.slot? : Column → Option Nat
  | .role _ => none
  | .optionText n => some n
  | .optionTarget n => some n

/-- The header of a sheet: the meaning of each of its columns, in order. -/
structure Header where
  columns : List (Option Column)
deriving DecidableEq, Repr

namespace Header

def ofRecord (r : Record) : Header :=
  ⟨r.fields.map Column.ofName?⟩

def width (h : Header) : Nat :=
  h.columns.length

/-- Whether the sheet has a column of this role. -/
def has (h : Header) (r : Role) : Bool :=
  h.columns.contains (some (.role r))

/-- The trimmed cell of a column in a record with these fields. -/
def cell (h : Header) (fields : List String) (c : Column) : String :=
  match (h.columns.zip fields).reverse.lookup (some c) with
  | some field => strip field
  | none => ""

def slots (h : Header) : List Nat :=
  ((h.columns.filterMap id).filterMap Column.slot?).eraseDups.mergeSort (· ≤ ·)

end Header

end Dialogue.Sheet
