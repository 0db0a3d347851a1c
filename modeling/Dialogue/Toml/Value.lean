import Dialogue.Toml.DateTime

/-!
# TOML values

A TOML document as a tree, with the values that settings are made of, and how a value is taken for
what a program asks for.

* Integers have 64 bits. Other numbers are kept as `float` without their size: no setting is one.
* A table is a list of keys and values; no key occurs twice in what the reader gives.
* A date or a time is taken for a text by its written form.
* `record?` takes a value for a record of named fields: a table whose unknown keys are passed over,
  or the list of the fields in order, where the last ones may be left out.
-/

namespace Dialogue

/-- A TOML value. -/
inductive Toml where
  | str (value : String)
  | int (value : Int)
  /-- A number with a fraction or an exponent, an infinity, or what is no number. -/
  | float
  | bool (value : Bool)
  | dateTime (value : Toml.DateTime)
  | arr (items : List Toml)
  | table (members : List (String × Toml))
deriving Repr, Inhabited

namespace Toml

/-- The keys and values of a table. -/
abbrev Members := List (String × Toml)

def str? : Toml → Option String
  | str s => some s
  | dateTime d => some d.text
  | _ => none

/-- An integer. -/
def int? : Toml → Option Int
  | int i => some i
  | _ => none

def int32? (t : Toml) : Option Int32 :=
  t.int?.bind Text.Decimal.toInt32?

def bool? : Toml → Option Bool
  | bool b => some b
  | _ => none

/-- The fields of a record, by name. -/
def record? (names : List String) : Toml → Option Members
  | table members => some members
  | arr items => if items.length ≤ names.length then some (names.zip items) else none
  | _ => none

/-- The value of a field, or the default if it is not given. -/
def field (read? : Toml → Option α) (default : α) (name : String) (fields : Members) : Option α :=
  match fields.lookup name with
  | some value => read? value
  | none => some default

end Toml

end Dialogue
