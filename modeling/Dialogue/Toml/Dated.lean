import Dialogue.Toml.Value

/-!
# Dates in tables

A date may also be given by a table, with the date as a text. `datedMembers?` takes such tables for
the dates they give.

* The table of a date is one in which `dateKey` comes before all other keys, in the order of code
  points. What stands under the others does not count.
* A table of a date that gives none makes the whole document faulty.
-/

namespace Dialogue.Toml

/-- The key under which a table gives a date. -/
def dateKey : String := "$__toml_private_datetime"

/-- Whether a table is one of a date. -/
def isDateTable (members : Members) : Bool :=
  (members.lookup dateKey).isSome && members.all fun m => dateKey ≤ m.1

def dateOf? (members : Members) : Option DateTime :=
  match members.lookup dateKey with
  | some (.str s) => DateTime.ofChars? s.toList
  | _ => none

mutual

/-- A value with the dates for the tables that give them. -/
def dated? : Toml → Option Toml
  | .arr items => (datedItems? items).map .arr
  | .table members =>
    if isDateTable members then (dateOf? members).map .dateTime
    else (datedMembers? members).map .table
  | value => some value

/-- The items of a list, with the dates for the tables that give them. -/
def datedItems? : List Toml → Option (List Toml)
  | [] => some []
  | item :: items => (dated? item).bind fun i => (datedItems? items).map fun is => i :: is

/-- The members of a table, with the dates for the tables that give them. -/
def datedMembers? : List (String × Toml) → Option Members
  | [] => some []
  | (key, value) :: members =>
    (dated? value).bind fun v => (datedMembers? members).map fun ms => (key, v) :: ms

end

end Dialogue.Toml
