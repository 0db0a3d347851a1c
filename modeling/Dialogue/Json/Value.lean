/-!
# JSON values

A JSON text as a tree. What the tree keeps is what rows need: texts, integers, truth values, null,
lists, and objects with their members in order.

* A number that is no integer, and a text whose escapes spell no characters, are values without a
  use: `other`.
* `record?` reads a value as a record of named fields: an object whose unknown members are passed
  over, or the list of the fields in order.
-/

namespace Dialogue

/-- A JSON value. -/
inductive Json where
  | null
  | bool (value : Bool)
  | int (value : Int)
  | str (value : String)
  | arr (items : List Json)
  /-- An object: its members in order. A key that spells no characters is `none`. -/
  | obj (members : List (Option String × Json))
  /-- A value without a use. -/
  | other
deriving Repr, Inhabited

namespace Json

/-- An object of members with these keys. -/
def ofMembers (members : List (String × Json)) : Json :=
  .obj (members.map fun m => (some m.1, m.2))

/-- The fields of a record, by name. In an object each of the `names` may occur once; a list gives
the fields in the order of `names` and may leave out the last ones. -/
def record? (names : List String) : Json → Option (List (String × Json))
  | obj members => do
    let members ← members.mapM fun m => m.1.map fun key => (key, m.2)
    let known := members.filter fun m => names.contains m.1
    if (known.map (·.1)).Nodup then some known else none
  | arr items => if items.length ≤ names.length then some (names.zip items) else none
  | _ => none

/-- The value of a field that has to be given. -/
def required (read? : Json → Option α) (name : String) (fields : List (String × Json)) :
    Option α :=
  (fields.lookup name).bind read?

/-- The value of a field, or the default if it is not given. -/
def optional (read? : Json → Option α) (default : α) (name : String)
    (fields : List (String × Json)) : Option α :=
  match fields.lookup name with
  | some value => read? value
  | none => some default

def str? : Json → Option String
  | str s => some s
  | _ => none

def nullable (read? : Json → Option α) : Json → Option (Option α)
  | null => some none
  | j => (read? j).map some

def list? (read? : Json → Option α) : Json → Option (List α)
  | arr items => items.mapM read?
  | _ => none

/-- One of some words, as a text or as the key of a null. -/
def word? (words : List (String × α)) : Json → Option α
  | str s => words.lookup s
  | obj [(some key, null)] => words.lookup key
  | _ => none

end Json

end Dialogue
