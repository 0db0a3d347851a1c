import Dialogue.Proofs.Json.Layout
import Dialogue.Proofs.Script.Stored
import Mathlib.Data.List.Nodup

/-!
# Rows as others write them

A row need not be written the way it is stored. Its fields may come in any order and any layout,
among members of other names, and a field that holds its default may be left out.

* `Choice.GivenAs` and `Row.GivenBy` are the objects that stand for a choice and for a row;
  `Row.givenBy_new` is the shortest of them.
* `Row.GivenBy.ofJson?_eq` reads the row, `Row.ofJson?_of_refused` refuses an object in which a
  field is missing or comes twice.
* `Row.ofText?_of_given` joins them, for the text of one row and for a store of rows.
-/

namespace Dialogue

open Text

/-! ## Choices -/

namespace Choice

/-- The fields of a choice as JSON. -/
def fields (c : Choice) : List (String × Json) :=
  [("text", .str c.text), ("target_branch", .int c.target.toInt)]

/-- The objects that stand for a choice: none of its fields may be left out. -/
def GivenAs (c : Choice) (j : Json) : Prop :=
  ∃ members, j = .ofMembers members ∧
    Json.Fills fieldNames (fun name v => (name, v) ∈ c.fields) (fun _ => False) members

variable {c : Choice} {j : Json}

theorem GivenAs.plain (h : c.GivenAs j) : j.Plain := by
  obtain ⟨members, rfl, hfills⟩ := h
  refine hfills.plain fun name v hv => ?_
  simp only [fields, List.mem_cons, Prod.mk.injEq, List.not_mem_nil, or_false] at hv
  rcases hv with ⟨_, rfl⟩ | ⟨_, rfl⟩
  · exact .str _
  · exact .int _

theorem GivenAs.ofJson?_eq (h : c.GivenAs j) : ofJson? j = some c := by
  obtain ⟨members, rfl, hfills⟩ := h
  have htext : Json.required Json.str? "text" (Json.known fieldNames members) = some c.text := by
    refine hfills.required_eq (by simp [fieldNames]) (fun v hv => ?_) not_false
    obtain rfl : v = .str c.text := by simpa [fields] using hv
    rfl
  have htarget : Json.required Json.int32? "target_branch" (Json.known fieldNames members) =
      some c.target := by
    refine hfills.required_eq (by simp [fieldNames]) (fun v hv => ?_) not_false
    obtain rfl : v = .int c.target.toInt := by simpa [fields] using hv
    exact Json.int32?_int _
  rw [ofJson?, Json.bind_of_eq hfills.record?_eq, Json.bind_of_eq htext, Json.bind_of_eq htarget]
  rfl

end Choice

/-! ## Rows -/

namespace Row

/-- The fields that have a default, with it. -/
def defaults : List (String × Json) := [
  ("branch_id", .int 0),
  ("seq", .null),
  ("side", .str "None"),
  ("character_key", .str ""),
  ("load_mode", .str "Wait"),
  ("highlight", .str "All"),
  ("background", .null),
  ("cg", .null),
  ("speaker", .str ""),
  ("line", .str ""),
  ("options", .arr [])]

/-- Whether a value is that of a field. Choices may be given as any objects that stand for them. -/
def Holds (r : Row) (name : String) (v : Json) : Prop :=
  (name, v) ∈ r.fields ∨
    name = "options" ∧ ∃ items, v = .arr items ∧ List.Forall₂ Choice.GivenAs r.choices items

/-- Whether a field holds its default. -/
def HoldsDefault (r : Row) (name : String) : Prop :=
  ∃ v, (name, v) ∈ defaults ∧ (name, v) ∈ r.fields

/-- The members of the objects that stand for a row. -/
def GivenBy (r : Row) : List (String × Json) → Prop :=
  Json.Fills fieldNames r.Holds r.HoldsDefault

variable {r : Row} {members : List (String × Json)} {name : String} {v w : Json}

theorem nodup_fields (r : Row) : (r.fields.map Prod.fst).Nodup :=
  nodup_fieldNames

theorem nodup_defaults : (defaults.map Prod.fst).Nodup := by
  decide +kernel

/-- A field has one value. -/
theorem eq_of_mem_fields (hv : (name, v) ∈ r.fields) (hw : (name, w) ∈ r.fields) : v = w :=
  congrArg Prod.snd (List.inj_on_of_nodup_map r.nodup_fields hv hw rfl)

theorem Holds.eq (h : r.Holds name v) (hoptions : name ≠ "options") (hw : (name, w) ∈ r.fields) :
    v = w := by
  obtain hv | ⟨heq, _⟩ := h
  · exact eq_of_mem_fields hv hw
  · exact absurd heq hoptions

theorem Holds.plain (h : r.Holds name v) : v.Plain := by
  obtain hv | ⟨_, items, rfl, hitems⟩ := h
  · exact r.plain_fields _ hv
  · refine .arr fun item hitem => ?_
    obtain ⟨c, _, hc⟩ := exists_of_forall₂ hitems.flip hitem
    exact Choice.GivenAs.plain hc

theorem Holds.list?_eq (h : r.Holds "options" v) :
    Json.list? Choice.ofJson? v = some r.choices := by
  obtain hv | ⟨_, items, rfl, hitems⟩ := h
  · obtain rfl : v = .arr (r.choices.map Choice.toJson) := by simpa [fields] using hv
    exact Json.list?_map Choice.ofJson?_toJson _
  · exact Json.list?_eq_some_iff.2 (hitems.flip.imp fun _ _ hc => Choice.GivenAs.ofJson?_eq hc)

theorem mem_fieldNames (hfield : (name, w) ∈ r.fields) : name ∈ fieldNames := by
  rw [← fieldNames_eq r]
  exact List.mem_map_of_mem hfield

namespace GivenBy

variable {α : Type} {read? : Json → Option α} {a default : α} {u : Json} (h : r.GivenBy members)

include h

theorem required_eq (hfield : (name, w) ∈ r.fields) (hoptions : name ≠ "options")
    (hmust : name ∉ defaults.map Prod.fst) (hread : read? w = some a) :
    Json.required read? name (Json.known fieldNames members) = some a := by
  refine Json.Fills.required_eq h (mem_fieldNames hfield) (fun v hv => ?_) ?_
  · rw [hv.eq hoptions hfield, hread]
  · rintro ⟨v, hv, _⟩
    exact hmust (List.mem_map_of_mem hv)

/-- A field is read as what it holds, given or left out, if the default of the reading is what the
default of the field is read as. -/
theorem optional_eq_of_holds (hname : name ∈ fieldNames)
    (hread : ∀ v, r.Holds name v → read? v = some a) (hdefault : (name, u) ∈ defaults)
    (hreadDefault : read? u = some default) :
    Json.optional read? default name (Json.known fieldNames members) = some a := by
  refine Json.Fills.optional_eq h hname hread ?_
  rintro ⟨v, hv, hheld⟩
  have hsame : v = u := congrArg Prod.snd (List.inj_on_of_nodup_map nodup_defaults hv hdefault rfl)
  have hreads := hread v (.inl hheld)
  rw [hsame, hreadDefault] at hreads
  exact Option.some.inj hreads

theorem optional_eq (hfield : (name, w) ∈ r.fields) (hoptions : name ≠ "options")
    (hdefault : (name, u) ∈ defaults) (hreadDefault : read? u = some default)
    (hread : read? w = some a) :
    Json.optional read? default name (Json.known fieldNames members) = some a :=
  h.optional_eq_of_holds (mem_fieldNames hfield)
    (fun _ hv => by rw [hv.eq hoptions hfield, hread]) hdefault hreadDefault

theorem plain : (Json.ofMembers members).Plain :=
  Json.Fills.plain h fun _ _ hv => hv.plain

/-- Members that give a row are read as that row. -/
theorem ofJson?_eq : ofJson? (.ofMembers members) = some r := by
  have hfields : ∀ m ∈ r.fields, m ∈ r.fields := fun _ hm => hm
  have hdefaults : ∀ m ∈ defaults, m ∈ defaults := fun _ hm => hm
  simp only [fields, defaults, List.forall_mem_cons] at hfields hdefaults
  obtain ⟨hscene, hbranch, hseq, hcommand, hside, hcharacter, hloadMode, hhighlight, hbackground,
    hcg, hspeaker, hline, _⟩ := hfields
  obtain ⟨hbranch₀, hseq₀, hside₀, hcharacter₀, hloadMode₀, hhighlight₀, hbackground₀, hcg₀,
    hspeaker₀, hline₀, hchoices₀, _⟩ := hdefaults
  exact ofJson?_of_reads (Json.Fills.record?_eq h)
    (h.required_eq hscene (by simp) (by simp [defaults]) (Json.int32?_int _))
    (h.optional_eq hbranch (by simp) hbranch₀ rfl (Json.int32?_int _))
    (h.optional_eq hseq (by simp) hseq₀ rfl (nullable_seq _))
    (h.required_eq hcommand (by simp) (by simp [defaults]) (Command.ofJson?_toJson _))
    (h.optional_eq hside (by simp) hside₀ (Side.word?_word .none) (Side.word?_word _))
    (h.optional_eq hcharacter (by simp) hcharacter₀ rfl (Json.str?_str _))
    (h.optional_eq hloadMode (by simp) hloadMode₀ (LoadMode.word?_word .wait)
      (LoadMode.word?_word _))
    (h.optional_eq hhighlight (by simp) hhighlight₀ (Highlight.word?_word .all)
      (Highlight.word?_word _))
    (h.optional_eq hbackground (by simp) hbackground₀ rfl (nullable_key _))
    (h.optional_eq hcg (by simp) hcg₀ rfl (nullable_key _))
    (h.optional_eq hspeaker (by simp) hspeaker₀ rfl (Json.str?_str _))
    (h.optional_eq hline (by simp) hline₀ rfl (Json.str?_str _))
    (h.optional_eq_of_holds (by simp [fieldNames]) (fun _ hv => hv.list?_eq) hchoices₀ rfl)

end GivenBy

/-- The defaults are what a row holds of which no more is said than its scene and its command. -/
theorem defaults_subset_new (scene : Int32) (command : Command) :
    defaults ⊆ ({ scene, command } : Row).fields := by
  simp [defaults, fields, Json.ofOption, Side.word, LoadMode.word, Highlight.word]

/-- Such a row is given by its scene and its command alone. -/
theorem givenBy_new (scene : Int32) (command : Command) :
    ({ scene, command } : Row).GivenBy
      [("scene_id", .int scene.toInt), ("command", command.toJson)] where
  once := by simp [fieldNames]
  right := by simp [fieldNames, Holds, fields]
  left := by
    intro name hname hleft
    have hdefault : name ∈ defaults.map Prod.fst := by
      simp only [fieldNames, List.map_cons, List.map_nil, List.mem_cons, List.not_mem_nil,
        or_false, not_or] at hname hleft
      simp only [defaults, List.map_cons, List.map_nil, List.mem_cons, List.not_mem_nil, or_false]
      tauto
    obtain ⟨m, hm, rfl⟩ := List.mem_map.1 hdefault
    exact ⟨m.2, hm, defaults_subset_new scene command hm⟩
  others := by simp [fieldNames]

/-- Whether the members of an object lack the scene or the command, or give a field twice. -/
def Refused (keyed : List (Option String × Json)) : Prop :=
  some "scene_id" ∉ keyed.map Prod.fst ∨ some "command" ∉ keyed.map Prod.fst ∨
    ∃ name ∈ fieldNames, 2 ≤ (keyed.map Prod.fst).count (some name)

theorem ofJson?_of_refused {keyed : List (Option String × Json)} (h : Refused keyed) :
    ofJson? (.obj keyed) = none := by
  rw [Option.eq_none_iff_forall_ne_some]
  intro r hr
  obtain ⟨found, hrecord, hr⟩ := Option.bind_eq_some_iff.1 hr
  obtain ⟨scene, hscene, hr⟩ := Option.bind_eq_some_iff.1 hr
  obtain ⟨branch, _, hr⟩ := Option.bind_eq_some_iff.1 hr
  obtain ⟨seq, _, hr⟩ := Option.bind_eq_some_iff.1 hr
  obtain ⟨command, hcommand, _⟩ := Option.bind_eq_some_iff.1 hr
  obtain hlacks | hlacks | ⟨name, hname, htwice⟩ := h
  · exact hlacks (Json.mem_of_required hrecord hscene)
  · exact hlacks (Json.mem_of_required hrecord hcommand)
  · have honce := Json.count_le_one_of_record? hrecord hname
    omega

end Row

/-! ## Stores -/

/-- The members of the objects under which rows are stored. -/
def StoredBy (rows : List Row) : List (String × Json) → Prop :=
  Json.Fills ["values"]
    (fun _ v => ∃ items, v = .arr items ∧
      List.Forall₂ (fun item row => ∃ members, item = .ofMembers members ∧ Row.GivenBy row members)
        items rows)
    fun _ => False

variable {rows : List Row} {members : List (String × Json)}

theorem StoredBy.plain (h : StoredBy rows members) : (Json.ofMembers members).Plain := by
  refine Json.Fills.plain h fun name v hv => ?_
  obtain ⟨items, rfl, hitems⟩ := hv
  refine .arr fun item hitem => ?_
  obtain ⟨row, _, rowMembers, rfl, hrow⟩ := exists_of_forall₂ hitems hitem
  exact hrow.plain

theorem StoredBy.required_eq (h : StoredBy rows members) :
    Json.required (Json.list? Row.ofJson?) "values" (Json.known ["values"] members) =
      some rows := by
  refine Json.Fills.required_eq h List.mem_cons_self (fun v hv => ?_) not_false
  obtain ⟨items, rfl, hitems⟩ := hv
  refine Json.list?_eq_some_iff.2 (hitems.imp ?_)
  rintro item row ⟨rowMembers, rfl, hrow⟩
  exact hrow.ofJson?_eq

/-- A store that holds an object which is no row is no store. -/
theorem storedRows?_of_refused {content : Bytes} {store keyed : List (Option String × Json)}
    {items : List Json} (hread : Json.ofSymbols (symbols content) = some (.obj store))
    (hvalues : (some "values", .arr items) ∈ store) (hitem : .obj keyed ∈ items)
    (hrefused : Row.Refused keyed) : storedRows? content = none := by
  rw [Option.eq_none_iff_forall_ne_some, storedRows?, Json.bind_of_eq hread]
  intro rows hrows
  obtain ⟨found, hrecord, hrows⟩ := Option.bind_eq_some_iff.1 hrows
  obtain ⟨members, rfl, rfl, hnodup⟩ := Json.of_record? hrecord
  obtain ⟨m, hm, heq⟩ := List.mem_map.1 hvalues
  obtain ⟨hname, hvalue⟩ := Prod.mk.inj heq
  have hmem : m ∈ Json.known ["values"] members :=
    Json.mem_known.2 ⟨hm, by simp [Option.some.inj hname]⟩
  have hlookup := Json.lookup_of_mem hnodup hmem
  rw [Option.some.inj hname, hvalue] at hlookup
  rw [Json.required, hlookup, Option.bind_some,
    Json.list?_eq_none hitem (Row.ofJson?_of_refused hrefused)] at hrows
  cases hrows

/-- A row is read from the text of any object that gives its fields, in any order and layout and
with members of other names among them; what it holds of the defaults may be left out. The text of
an object without the scene or the command, or with a field that comes twice, is not read. Stores of
such objects are read as the rows, and not read if one of them is refused. -/
theorem Row.ofText?_of_given :
    (∀ (row : Row) (members : List (String × Json)) (text : String), row.GivenBy members →
      Json.Laid (Json.lexemes (.ofMembers members)) text.toList → Row.ofText? text = some row) ∧
    (∀ (text : String) (keyed : List (Option String × Json)),
      Json.ofText text = some (.obj keyed) → Row.Refused keyed → Row.ofText? text = none) ∧
    (∀ (rows : List Row) (members : List (String × Json)) (text : String), StoredBy rows members →
      Json.Laid (Json.lexemes (.ofMembers members)) text.toList →
        storedRows? (bytesOf text) = some rows) ∧
    ∀ (content : Bytes) (store keyed : List (Option String × Json)) (items : List Json),
      Json.ofSymbols (symbols content) = some (.obj store) → (some "values", .arr items) ∈ store →
        .obj keyed ∈ items → Row.Refused keyed → storedRows? content = none := by
  refine ⟨fun row members text hgiven hlaid => ?_, fun text keyed hread hrefused => ?_,
    fun rows members text hstored hlaid => ?_, fun content store keyed items => ?_⟩
  · have hread : Json.ofText text = some (.ofMembers members) :=
      hgiven.plain.ofSymbols_of_laid hlaid
    rw [Row.ofText?, hread, Option.bind_some, hgiven.ofJson?_eq]
  · rw [Row.ofText?, hread, Option.bind_some, Row.ofJson?_of_refused hrefused]
  · have hread : Json.ofSymbols (symbols (bytesOf text)) = some (.ofMembers members) := by
      rw [symbols_bytesOf]
      exact hstored.plain.ofSymbols_of_laid hlaid
    rw [storedRows?, Json.bind_of_eq hread, Json.bind_of_eq (Json.Fills.record?_eq hstored)]
    exact hstored.required_eq
  · exact storedRows?_of_refused

/-- The line comes first and with an escape, a member of another name is passed over, and all that
is left out has its default. -/
theorem Row.ofText?_of_given_short :
    Row.ofText? "\n\x7b\"line\" : \"S\\u0061y\",\"v\":1,\t\"command\":\"Say\",\"scene_id\":-7\x7d " =
        some { scene := -7, command := .say, line := "Say" } ∧
      Row.ofText? (Json.ofMembers [("scene_id", .int 1), ("command", .str "Say"), ("seq", .null),
        ("seq", .null)]).pretty = none ∧
      storedRows? (bytesOf "\x7b\"values\":[\x7b\"scene_id\":7,\"command\":\"Say\"\x7d]\x7d") =
        some [{ scene := 7, command := .say }] ∧
      storedRows? (bytesOf (Json.ofMembers [("values", .arr [.obj []])]).pretty) = none := by
  have hfirst : Row.GivenBy { scene := -7, command := .say, line := "Say" }
      [("line", .str "Say"), ("v", .int 1), ("command", .str "Say"), ("scene_id", .int (-7))] :=
    { once := by decide +kernel
      right := by simp [Row.fieldNames, Row.Holds, Row.fields, Command.toJson]
      left := by
        simp [Row.fieldNames, Row.HoldsDefault, Row.fields, Row.defaults, Json.ofOption, Side.word,
          LoadMode.word, Highlight.word]
      others := by simp [Row.fieldNames, Json.IsScalar] }
  have hstored : StoredBy [{ scene := 7, command := .say }]
      [("values", .arr [.ofMembers [("scene_id", .int 7), ("command", .str "Say")]])] :=
    { once := by decide +kernel
      right := by simpa using ⟨_, rfl, Row.givenBy_new 7 .say⟩
      left := by simp
      others := by simp }
  have htwice : (Json.ofMembers [("scene_id", .int 1), ("command", .str "Say"), ("seq", .null),
      ("seq", .null)]).Plain :=
    Json.plain_ofMembers (by simp [Json.Plain.int, Json.Plain.str, Json.Plain.null])
  have hempty : (Json.ofMembers [("values", .arr [.obj []])]).Plain :=
    Json.plain_ofMembers (by simpa using .arr (by simpa using .obj (by simp) (by simp)))
  have hblank : Json.AllSeparators [' '] := by simp [Json.AllSeparators, Json.isSeparator]
  have hnewLine : Json.AllSeparators ['\n'] := by simp [Json.AllSeparators, Json.isSeparator]
  have htab : Json.AllSeparators ['\t'] := by simp [Json.AllSeparators, Json.isSeparator]
  have hcommand := Json.Form.plain "command" (by simp)
  have hscene := Json.Form.plain "scene_id" (by simp)
  have hsay := Json.Form.plain "Say" (by simp)
  refine ⟨ofText?_of_given.1 _ _ _ hfirst ?_,
    ofText?_of_given.2.1 _ _ htwice.ofText_pretty (.inr (.inr ⟨"seq", by decide +kernel, ?_⟩)),
    ofText?_of_given.2.2.1 _ _ _ hstored ?_,
    ofText?_of_given.2.2.2 _ _ [] [.obj []] (by rw [symbols_bytesOf]; exact hempty.ofText_pretty)
      List.mem_cons_self List.mem_cons_self (.inl List.not_mem_nil)⟩
  · exact .cons hnewLine .beginObj <|
      .tight (.plain "line" (by simp)) <| .cons hblank .colon <|
      .cons hblank (.str (.char (by decide +kernel) (by decide +kernel) (by decide +kernel)
        (.unit rfl (.inl (by decide)) (.plain (show ∀ c ∈ ['y'], _ by simp))))) <|
      .tight .comma <| .tight (.plain "v" (by simp)) <| .tight .colon <|
      .tight (.int 1) <| .tight .comma <|
      .cons htab hcommand <|
      .tight .colon <| .tight hsay <| .tight .comma <| .tight hscene <| .tight .colon <|
      .tight (.int (-7)) <| .tight .endObj <| .nil hblank
  · decide +kernel
  · exact .tight .beginObj <| .tight (.plain "values" (by simp)) <| .tight .colon <|
      .tight .beginArr <| .tight .beginObj <| .tight hscene <| .tight .colon <| .tight (.int 7) <|
      .tight .comma <| .tight hcommand <| .tight .colon <| .tight hsay <| .tight .endObj <|
      .tight .endArr <| .tight .endObj <| .nil Json.allSeparators_nil

end Dialogue
