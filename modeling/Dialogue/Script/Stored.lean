import Dialogue.Json.Printer
import Dialogue.Json.Reader
import Dialogue.Script.Row

/-!
# Stored rows

Rows are stored as JSON: a row is an object of its fields, in the order of `Row.fieldNames`, and a
store of rows is an object with the rows under `values`.

* `Row.toJson` and `storedText` write; `Row.ofJson?` and `storedRows?` read.
* Reading takes every field but the scene and the command as given or not; a field that is not
  given has its default.
-/

namespace Dialogue

open Text

namespace Json

def int32? : Json → Option Int32
  | int i => Decimal.toInt32? i
  | _ => none

def uint32? : Json → Option UInt32
  | int (.ofNat n) => Decimal.toUInt32? n
  | _ => none

def ofOption (write : α → Json) : Option α → Json
  | some a => write a
  | none => null

end Json

namespace Command

/-- A command as JSON: its word, or the name of a command without a meaning. -/
def toJson : Command → Json
  | say => .str "Say"
  | setCharacter => .str "SetCharacter"
  | cleanCharacter => .str "CleanCharacter"
  | setOption => .str "SetOption"
  | unknown name => .ofMembers [("Unknown", .str name)]

def ofJson? : Json → Option Command
  | .obj [(some "Unknown", .str name)] => some (unknown name)
  | j => j.word? words

end Command

namespace Choice

/-- The names of the fields of a choice. -/
def fieldNames : List String :=
  ["text", "target_branch"]

def toJson (c : Choice) : Json :=
  .ofMembers [("text", .str c.text), ("target_branch", .int c.target.toInt)]

def ofJson? (j : Json) : Option Choice := do
  let fields ← j.record? fieldNames
  return ⟨← Json.required Json.str? "text" fields,
    ← Json.required Json.int32? "target_branch" fields⟩

end Choice

namespace Row

/-- The names of the fields of a row. -/
def fieldNames : List String :=
  ["scene_id", "branch_id", "seq", "command", "side", "character_key", "load_mode", "highlight",
    "background", "cg", "speaker", "line", "options"]

def toJson (r : Row) : Json :=
  .ofMembers [
    ("scene_id", .int r.scene.toInt),
    ("branch_id", .int r.branch.toInt),
    ("seq", .ofOption (fun n : UInt32 => .int n.toNat) r.seq),
    ("command", r.command.toJson),
    ("side", .str r.side.word),
    ("character_key", .str r.character),
    ("load_mode", .str r.loadMode.word),
    ("highlight", .str r.highlight.word),
    ("background", .ofOption .str r.background),
    ("cg", .ofOption .str r.cg),
    ("speaker", .str r.speaker),
    ("line", .str r.line),
    ("options", .arr (r.choices.map Choice.toJson))]

def ofJson? (j : Json) : Option Row := do
  let fields ← j.record? fieldNames
  return {
    scene := ← Json.required Json.int32? "scene_id" fields
    branch := ← Json.optional Json.int32? 0 "branch_id" fields
    seq := ← Json.optional (Json.nullable Json.uint32?) none "seq" fields
    command := ← Json.required Command.ofJson? "command" fields
    side := ← Json.optional (Json.word? Side.words) .none "side" fields
    character := ← Json.optional Json.str? "" "character_key" fields
    loadMode := ← Json.optional (Json.word? LoadMode.words) .wait "load_mode" fields
    highlight := ← Json.optional (Json.word? Highlight.words) .all "highlight" fields
    background := ← Json.optional (Json.nullable Json.str?) none "background" fields
    cg := ← Json.optional (Json.nullable Json.str?) none "cg" fields
    speaker := ← Json.optional Json.str? "" "speaker" fields
    line := ← Json.optional Json.str? "" "line" fields
    choices := ← Json.optional (Json.list? Choice.ofJson?) [] "options" fields }

def ofText? (text : String) : Option Row :=
  (Json.ofText text).bind ofJson?

end Row

/-- The text under which rows are stored. -/
def storedText (rows : List Row) : String :=
  (Json.ofMembers [("values", .arr (rows.map Row.toJson))]).pretty

/-- The rows that a file stores, if it is such a store. -/
def storedRows? (content : Bytes) : Option (List Row) := do
  let fields ← (← Json.ofSymbols (symbols content)).record? ["values"]
  Json.required (Json.list? Row.ofJson?) "values" fields

end Dialogue
