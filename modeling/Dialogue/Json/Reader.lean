import Dialogue.Json.Token

/-!
# Reading JSON

Tokens are read one by one onto a stack of the lists and objects that are still open.

* `read` takes one token; it is refused where no JSON text could go on with it.
* `ofSymbols` reads a whole file: one value, with nothing but blanks around it.
-/

namespace Dialogue.Json

open Text

/-- A list or an object that is still open, with its last item or member first. -/
inductive Open where
  | arr (items : List Json)
  /-- An object with the key of the member that is read. -/
  | obj (members : List (Option String × Json)) (key : Option String)

/-- What may come next. -/
inductive Due where
  /-- A value. -/
  | value (opened : List Open)
  /-- The first item of a list, or its end. -/
  | firstItem (opened : List Open)
  /-- The first key of an object, or its end. -/
  | firstKey (opened : List Open)
  /-- Another key of an object. -/
  | nextKey (members : List (Option String × Json)) (opened : List Open)
  /-- The colon behind a key. -/
  | colon (members : List (Option String × Json)) (key : Option String) (opened : List Open)
  /-- What follows a value. -/
  | after (value : Json) (opened : List Open)

def ofText? : Option String → Json
  | some s => .str s
  | none => .other

namespace Due

/-- Takes a token where a value is due. -/
def readValue (opened : List Open) : Token → Option Due
  | .str s => some (.after (ofText? s) opened)
  | .value v => some (.after v opened)
  | .beginArr => some (.firstItem opened)
  | .beginObj => some (.firstKey opened)
  | _ => none

def readAfter (v : Json) : List Open → Token → Option Due
  | .arr items :: opened, .comma => some (.value (.arr (v :: items) :: opened))
  | .arr items :: opened, .endArr => some (.after (.arr (v :: items).reverse) opened)
  | .obj members key :: opened, .comma => some (.nextKey ((key, v) :: members) opened)
  | .obj members key :: opened, .endObj =>
    some (.after (.obj ((key, v) :: members).reverse) opened)
  | _, _ => none

def read : Due → Token → Option Due
  | value opened, t => readValue opened t
  | firstItem opened, .endArr => some (.after (.arr []) opened)
  | firstItem opened, t => readValue (.arr [] :: opened) t
  | firstKey opened, .endObj => some (.after (.obj []) opened)
  | firstKey opened, .str k => some (.colon [] k opened)
  | nextKey members opened, .str k => some (.colon members k opened)
  | colon members k opened, .colon => some (.value (.obj members k :: opened))
  | after v opened, t => readAfter v opened t
  | _, _ => none

/-- The value that is read when the text ends. -/
def value? : Due → Option Json
  | after v [] => some v
  | _ => none

end Due

def ofTokens (ts : List Token) : Option Json :=
  (ts.foldlM Due.read (.value [])).bind Due.value?

def ofSymbols (ss : List Symbol) : Option Json :=
  (tokens ss).bind ofTokens

def ofText (s : String) : Option Json :=
  ofSymbols (s.toList.map some)

end Dialogue.Json
