import Dialogue.Proofs.Json.Fields
import Dialogue.Proofs.Text.Utf8
import Dialogue.Script.Stored

/-!
# Stored rows read back

Rows that are stored are read back as the same rows, whatever they hold.

* `Row.plain_toJson` and `Row.ofJson?_toJson` are one row as JSON, and likewise for commands and
  choices.
* `storedRows?_of_storedText` is a whole store, as a file of bytes.
-/

namespace Dialogue

open Text

namespace Json

theorem plain_ofOption {α : Type} {write : α → Json} (h : ∀ a, (write a).Plain) (o : Option α) :
    (ofOption write o).Plain := by
  cases o with
  | none => exact .null
  | some a => exact h a

theorem plain_arr_map {α : Type} {write : α → Json} (h : ∀ a, (write a).Plain) (as : List α) :
    (arr (as.map write)).Plain := by
  refine .arr fun item hitem => ?_
  obtain ⟨a, _, rfl⟩ := List.mem_map.1 hitem
  exact h a

theorem nullable_ofOption {α : Type} {read? : Json → Option α} (write : α → Json)
    (h : ∀ a, read? (write a) = some a) (hnull : ∀ a, write a ≠ null) (o : Option α) :
    nullable read? (ofOption write o) = some o := by
  cases o with
  | none => rfl
  | some a =>
    show nullable read? (write a) = some (some a)
    have hread := h a
    have hwrite := hnull a
    generalize write a = j at hread hwrite
    cases j with
    | null => exact absurd rfl hwrite
    | bool | int | str | arr | obj | other => exact congrArg (Option.map some) hread

theorem str?_str (s : String) : str? (.str s) = some s := rfl

theorem int32?_int (i : Int32) : int32? (int i.toInt) = some i :=
  Decimal.toInt32?_toInt i

theorem uint32?_int (n : UInt32) : uint32? (int n.toNat) = some n :=
  Decimal.toUInt32?_toNat n

end Json

namespace Command

theorem plain_toJson (c : Command) : c.toJson.Plain := by
  cases c with
  | say | setCharacter | cleanCharacter | setOption => exact .str _
  | unknown name => exact Json.plain_ofMembers (by simpa using .str name)

/-- A command without a meaning is never taken for one of the others, whatever its name. -/
theorem ofJson?_toJson (c : Command) : ofJson? c.toJson = some c := by
  cases c with
  | say | setCharacter | cleanCharacter | setOption => decide +kernel
  | unknown name => rfl

end Command

namespace Choice

theorem plain_toJson (c : Choice) : c.toJson.Plain :=
  Json.plain_ofMembers (by simp [Json.Plain.str, Json.Plain.int])

theorem ofJson?_toJson (c : Choice) : ofJson? c.toJson = some c := by
  unfold ofJson? toJson
  rw [Json.record?_ofMembers (by simp [fieldNames]) (by simp)]
  simp [Json.required, List.lookup_cons, Json.str?, Json.int32?_int]

end Choice

/-! ## Words -/

theorem Side.word?_word (s : Side) : Json.word? Side.words (.str s.word) = some s := by
  cases s <;> decide +kernel

theorem LoadMode.word?_word (m : LoadMode) : Json.word? LoadMode.words (.str m.word) = some m := by
  cases m <;> decide +kernel

theorem Highlight.word?_word (which : Highlight) :
    Json.word? Highlight.words (.str which.word) = some which := by
  cases which <;> decide +kernel

namespace Row

/-- The fields of a row as JSON. -/
def fields (r : Row) : List (String × Json) := [
  ("scene_id", .int r.scene.toInt),
  ("branch_id", .int r.branch.toInt),
  ("seq", .ofOption (fun n : UInt32 => .int n.toNat) r.seq),
  ("command", r.command.toJson),
  ("side", .str r.side.word),
  ("character_key", .str r.character),
  ("load_mode", .str r.loadMode.word),
  ("highlight", .str r.highlight.word),
  ("background", .ofOption .str r.background),
  ("cg", .ofOption .str r.cg),
  ("speaker", .str r.speaker),
  ("line", .str r.line),
  ("options", .arr (r.choices.map Choice.toJson))]

theorem fieldNames_eq (r : Row) : r.fields.map Prod.fst = fieldNames := rfl

theorem nodup_fieldNames : fieldNames.Nodup := by
  decide +kernel

theorem plain_fields (r : Row) : ∀ m ∈ r.fields, m.2.Plain := by
  simp only [fields, List.forall_mem_cons, List.not_mem_nil, false_implies, implies_true, and_true]
  exact ⟨.int _, .int _, Json.plain_ofOption (fun _ => .int _) _, r.command.plain_toJson, .str _,
    .str _, .str _, .str _, Json.plain_ofOption (fun _ => .str _) _,
    Json.plain_ofOption (fun _ => .str _) _, .str _, .str _,
    Json.plain_arr_map Choice.plain_toJson _⟩

theorem plain_toJson (r : Row) : r.toJson.Plain :=
  Json.plain_ofMembers r.plain_fields

theorem nullable_seq (seq : Option UInt32) :
    Json.nullable Json.uint32? (.ofOption (fun n : UInt32 => .int n.toNat) seq) = some seq :=
  Json.nullable_ofOption (fun n : UInt32 => .int n.toNat) Json.uint32?_int (fun _ h => nomatch h) seq

theorem nullable_key (key : Option String) :
    Json.nullable Json.str? (.ofOption .str key) = some key :=
  Json.nullable_ofOption .str (fun _ => rfl) (fun _ h => nomatch h) key

/-- A record of which each field is read is a row. -/
theorem ofJson?_of_reads {r : Row} {j : Json} {found : List (String × Json)}
    (hrecord : j.record? fieldNames = some found)
    (hscene : Json.required Json.int32? "scene_id" found = some r.scene)
    (hbranch : Json.optional Json.int32? 0 "branch_id" found = some r.branch)
    (hseq : Json.optional (Json.nullable Json.uint32?) none "seq" found = some r.seq)
    (hcommand : Json.required Command.ofJson? "command" found = some r.command)
    (hside : Json.optional (Json.word? Side.words) .none "side" found = some r.side)
    (hcharacter : Json.optional Json.str? "" "character_key" found = some r.character)
    (hloadMode : Json.optional (Json.word? LoadMode.words) .wait "load_mode" found =
      some r.loadMode)
    (hhighlight : Json.optional (Json.word? Highlight.words) .all "highlight" found =
      some r.highlight)
    (hbackground : Json.optional (Json.nullable Json.str?) none "background" found =
      some r.background)
    (hcg : Json.optional (Json.nullable Json.str?) none "cg" found = some r.cg)
    (hspeaker : Json.optional Json.str? "" "speaker" found = some r.speaker)
    (hline : Json.optional Json.str? "" "line" found = some r.line)
    (hchoices : Json.optional (Json.list? Choice.ofJson?) [] "options" found = some r.choices) :
    ofJson? j = some r := by
  rw [ofJson?, Json.bind_of_eq hrecord, Json.bind_of_eq hscene, Json.bind_of_eq hbranch,
    Json.bind_of_eq hseq, Json.bind_of_eq hcommand, Json.bind_of_eq hside,
    Json.bind_of_eq hcharacter, Json.bind_of_eq hloadMode, Json.bind_of_eq hhighlight,
    Json.bind_of_eq hbackground, Json.bind_of_eq hcg, Json.bind_of_eq hspeaker,
    Json.bind_of_eq hline, Json.bind_of_eq hchoices]
  rfl

/-- A record with the fields of a row, in whatever order, is that row. -/
theorem ofJson?_of_lookup {r : Row} {j : Json} {found : List (String × Json)}
    (hrecord : j.record? fieldNames = some found)
    (hfields : ∀ m ∈ r.fields, found.lookup m.1 = some m.2) : ofJson? j = some r := by
  simp only [fields, List.forall_mem_cons] at hfields
  obtain ⟨hscene, hbranch, hseq, hcommand, hside, hcharacter, hloadMode, hhighlight, hbackground,
    hcg, hspeaker, hline, hchoices, _⟩ := hfields
  exact ofJson?_of_reads hrecord
    (Json.required_of_lookup hscene (Json.int32?_int _))
    (Json.optional_of_lookup 0 hbranch (Json.int32?_int _))
    (Json.optional_of_lookup none hseq (nullable_seq _))
    (Json.required_of_lookup hcommand (Command.ofJson?_toJson _))
    (Json.optional_of_lookup .none hside (Side.word?_word _))
    (Json.optional_of_lookup "" hcharacter (Json.str?_str _))
    (Json.optional_of_lookup .wait hloadMode (LoadMode.word?_word _))
    (Json.optional_of_lookup .all hhighlight (Highlight.word?_word _))
    (Json.optional_of_lookup none hbackground (nullable_key _))
    (Json.optional_of_lookup none hcg (nullable_key _))
    (Json.optional_of_lookup "" hspeaker (Json.str?_str _))
    (Json.optional_of_lookup "" hline (Json.str?_str _))
    (Json.optional_of_lookup [] hchoices (Json.list?_map Choice.ofJson?_toJson _))

/-- A row as JSON is read as the row. -/
theorem ofJson?_toJson (r : Row) : ofJson? r.toJson = some r := by
  have hnodup : (r.fields.map Prod.fst).Nodup := by
    rw [fieldNames_eq]
    exact nodup_fieldNames
  have hknown : ∀ m ∈ r.fields, m.1 ∈ fieldNames := by
    intro m hm
    rw [← fieldNames_eq r]
    exact List.mem_map_of_mem hm
  exact ofJson?_of_lookup (Json.record?_ofMembers hknown hnodup) fun m => Json.lookup_of_mem hnodup

end Row

/-- The bytes of stored rows are read as those rows. -/
theorem storedRows?_bytesOf (rows : List Row) :
    storedRows? (Text.bytesOf (storedText rows)) = some rows := by
  have hplain : (Json.ofMembers [("values", .arr (rows.map Row.toJson))]).Plain := by
    refine Json.plain_ofMembers fun m hm => ?_
    obtain rfl := List.mem_singleton.1 hm
    exact Json.plain_arr_map Row.plain_toJson rows
  have hread : Json.ofSymbols (symbols (Text.bytesOf (storedText rows))) =
      some (Json.ofMembers [("values", .arr (rows.map Row.toJson))]) := by
    rw [symbols_bytesOf]
    exact hplain.ofText_pretty
  have hrecord : (Json.ofMembers [("values", .arr (rows.map Row.toJson))]).record? ["values"] =
      some [("values", .arr (rows.map Row.toJson))] :=
    Json.record?_ofMembers (by simp) (by simp)
  rw [storedRows?, Json.bind_of_eq hread, Json.bind_of_eq hrecord]
  exact Json.list?_map Row.ofJson?_toJson rows

/-- Every list of rows is read from the file in which it is stored, and every row from the JSON text
of it, whatever characters and numbers they hold. -/
theorem storedRows?_of_storedText (rows : List Row) :
    storedRows? (Text.bytesOf (storedText rows)) = some rows ∧
      ∀ row : Row, Row.ofText? row.toJson.pretty = some row := by
  constructor
  · exact storedRows?_bytesOf rows
  · intro row
    rw [Row.ofText?, row.plain_toJson.ofText_pretty, Option.bind_some, Row.ofJson?_toJson]

end Dialogue
