import Dialogue.Proofs.Text.Decimal
import Dialogue.Settings.Store

/-!
# Sections as they are decoded

A section that is given as a table is decoded whole or not at all: if one of its fields has a value
of the wrong kind, the section is the default.

* `IsText`, `IsInt32` and `IsBool` are the values that a field of each kind takes.
* `Fits` says that a field has no value of the wrong kind, and `Holds` what the field then is;
  `field_eq_some_iff` and `field_eq_none_iff` are the reading of one field.
* `SystemSection.Decodes` and `PlaybackSection.Decodes` are the sections that a table gives, `Fit`
  says that it gives one.
* `Store.system_of_table` and `Store.playback_of_table` are the sections of a store. Each of them
  looks at its own table only.
-/

namespace Dialogue.Settings

variable {α : Type} {read? : Toml → Option α} {Is : Toml → α → Prop} {default a : α}
  {fields table : Toml.Members} {name : String} {v : Toml}

/-! ## Values -/

/-- A text, or a date in its written form. -/
def IsText (v : Toml) (s : String) : Prop :=
  v = .str s ∨ ∃ d : Toml.DateTime, v = .dateTime d ∧ d.text = s

/-- An integer of 32 bits. -/
def IsInt32 (v : Toml) (i : Int32) : Prop :=
  v = .int i.toInt

def IsBool (v : Toml) (b : Bool) : Prop :=
  v = .bool b

theorem str?_eq_some_iff {s : String} : v.str? = some s ↔ IsText v s := by
  cases v <;> simp [Toml.str?, IsText]

theorem int32?_eq_some_iff {i : Int32} : v.int32? = some i ↔ IsInt32 v i := by
  cases v with
  | int n =>
    show Text.Decimal.toInt32? n = some i ↔ Toml.int n = .int i.toInt
    rw [Text.Decimal.toInt32?_eq_some_iff, Toml.int.injEq, eq_comm]
  | str | float | bool | dateTime | arr | table => simp [Toml.int32?, Toml.int?, IsInt32]

theorem bool?_eq_some_iff {b : Bool} : v.bool? = some b ↔ IsBool v b := by
  cases v <;> simp [Toml.bool?, IsBool]

/-! ## Fields -/

/-- What a field is: the value that is given for it, or the default if none is. -/
def Holds (Is : Toml → α → Prop) (default : α) (fields : Toml.Members) (name : String) (a : α) :
    Prop :=
  (∃ v, fields.lookup name = some v ∧ Is v a) ∨ fields.lookup name = none ∧ a = default

/-- Whether a field has no value of the wrong kind. -/
def Fits (Is : Toml → α → Prop) (fields : Toml.Members) (name : String) : Prop :=
  ∀ v, fields.lookup name = some v → ∃ a, Is v a

theorem field_eq_some_iff (hread : ∀ {v a}, read? v = some a ↔ Is v a) :
    Toml.field read? default name fields = some a ↔ Holds Is default fields name a := by
  unfold Toml.field Holds
  cases hlookup : fields.lookup name with
  | none => simp [eq_comm]
  | some v => simp [hread]

theorem Fits.exists_holds (h : Fits Is fields name) (default : α) :
    ∃ a, Holds Is default fields name a := by
  cases hlookup : fields.lookup name with
  | none => exact ⟨default, .inr ⟨hlookup, rfl⟩⟩
  | some v =>
    obtain ⟨a, ha⟩ := h v hlookup
    exact ⟨a, .inl ⟨v, hlookup, ha⟩⟩

theorem Holds.fits (h : Holds Is default fields name a) : Fits Is fields name := by
  intro v hv
  obtain ⟨v', hv', ha⟩ | ⟨hnone, _⟩ := h
  · rw [hv] at hv'
    cases hv'
    exact ⟨a, ha⟩
  · rw [hv] at hnone
    cases hnone

/-! ## Sections -/

/-- The section that a table gives. -/
structure SystemSection.Decodes (fields : Toml.Members) (s : SystemSection) : Prop where
  scriptPath : Holds IsText "game/" fields "script_path" s.scriptPath
  cachePath : Holds IsText "cache/dialogue.json" fields "cache_path" s.cachePath
  logPath : Holds IsText "logs/" fields "log_path" s.logPath
  logLevel : Holds IsText "info" fields "log_level" s.logLevel

/-- Whether no field of the section has a value of the wrong kind. -/
structure SystemSection.Fit (fields : Toml.Members) : Prop where
  scriptPath : Fits IsText fields "script_path"
  cachePath : Fits IsText fields "cache_path"
  logPath : Fits IsText fields "log_path"
  logLevel : Fits IsText fields "log_level"

/-- The section that a table gives. -/
structure PlaybackSection.Decodes (fields : Toml.Members) (p : PlaybackSection) : Prop where
  startScene : Holds IsInt32 1 fields "start_scene" p.startScene
  startBranch : Holds IsInt32 0 fields "start_branch" p.startBranch
  autoAdvance : Holds IsBool false fields "auto_advance" p.autoAdvance

/-- Whether no field of the section has a value of the wrong kind. -/
structure PlaybackSection.Fit (fields : Toml.Members) : Prop where
  startScene : Fits IsInt32 fields "start_scene"
  startBranch : Fits IsInt32 fields "start_branch"
  autoAdvance : Fits IsBool fields "auto_advance"

theorem SystemSection.ofFields?_eq_some_iff {s : SystemSection} :
    SystemSection.ofFields? fields = some s ↔ s.Decodes fields := by
  simp only [SystemSection.ofFields?, Option.bind_eq_bind, Option.bind_eq_some_iff, Option.pure_def,
    Option.some.injEq, field_eq_some_iff str?_eq_some_iff]
  constructor
  · rintro ⟨scriptPath, hscript, cachePath, hcache, logPath, hlog, logLevel, hlevel, rfl⟩
    exact ⟨hscript, hcache, hlog, hlevel⟩
  · rintro ⟨hscript, hcache, hlog, hlevel⟩
    exact ⟨_, hscript, _, hcache, _, hlog, _, hlevel, rfl⟩

theorem PlaybackSection.ofFields?_eq_some_iff {p : PlaybackSection} :
    PlaybackSection.ofFields? fields = some p ↔ p.Decodes fields := by
  simp only [PlaybackSection.ofFields?, Option.bind_eq_bind, Option.bind_eq_some_iff,
    Option.pure_def, Option.some.injEq, field_eq_some_iff int32?_eq_some_iff,
    field_eq_some_iff bool?_eq_some_iff]
  constructor
  · rintro ⟨scene, hscene, branch, hbranch, auto, hauto, rfl⟩
    exact ⟨hscene, hbranch, hauto⟩
  · rintro ⟨hscene, hbranch, hauto⟩
    exact ⟨_, hscene, _, hbranch, _, hauto, rfl⟩

/-- A table gives a section exactly if none of its fields has a value of the wrong kind. -/
theorem SystemSection.exists_decodes_iff :
    (∃ s : SystemSection, s.Decodes fields) ↔ SystemSection.Fit fields := by
  constructor
  · rintro ⟨s, h⟩
    exact ⟨h.scriptPath.fits, h.cachePath.fits, h.logPath.fits, h.logLevel.fits⟩
  · intro h
    obtain ⟨scriptPath, hscript⟩ := h.scriptPath.exists_holds "game/"
    obtain ⟨cachePath, hcache⟩ := h.cachePath.exists_holds "cache/dialogue.json"
    obtain ⟨logPath, hlog⟩ := h.logPath.exists_holds "logs/"
    obtain ⟨logLevel, hlevel⟩ := h.logLevel.exists_holds "info"
    exact ⟨⟨scriptPath, cachePath, logPath, logLevel⟩, hscript, hcache, hlog, hlevel⟩

/-- A table gives a section exactly if none of its fields has a value of the wrong kind. -/
theorem PlaybackSection.exists_decodes_iff :
    (∃ p : PlaybackSection, p.Decodes fields) ↔ PlaybackSection.Fit fields := by
  constructor
  · rintro ⟨p, h⟩
    exact ⟨h.startScene.fits, h.startBranch.fits, h.autoAdvance.fits⟩
  · intro h
    obtain ⟨scene, hscene⟩ := h.startScene.exists_holds 1
    obtain ⟨branch, hbranch⟩ := h.startBranch.exists_holds 0
    obtain ⟨auto, hauto⟩ := h.autoAdvance.exists_holds false
    exact ⟨⟨scene, branch, auto⟩, hscene, hbranch, hauto⟩

/-! ## Sections of a store -/

/-- What is read, or else the default. -/
theorem getD_of_reads {o : Option α} {P : α → Prop} (h : ∀ {a}, o = some a ↔ P a) (default : α) :
    ((∃ a, P a) → P (o.getD default)) ∧ ((¬ ∃ a, P a) → o.getD default = default) := by
  cases o with
  | none =>
    refine ⟨?_, fun _ => rfl⟩
    rintro ⟨a, ha⟩
    cases h.2 ha
  | some a =>
    have ha : P a := h.1 rfl
    exact ⟨fun _ => ha, fun hnot => absurd ⟨a, ha⟩ hnot⟩

namespace Store

theorem get_unfilled : ({} : Store).get read? default name = default := rfl

theorem get_of_lookup (hlookup : table.lookup name = some v) :
    (⟨some table⟩ : Store).get read? default name = (read? v).getD default := by
  rw [get, Option.getD_some, hlookup, Option.bind_some]

theorem get_of_missing (hlookup : table.lookup name = none) :
    (⟨some table⟩ : Store).get read? default name = default := by
  rw [get, Option.getD_some, hlookup]
  rfl

/-- The system section is decoded from its table, or is the default. -/
theorem system_of_table (hlookup : table.lookup "system" = some (.table fields)) :
    (SystemSection.Fit fields → (⟨some table⟩ : Store).system.Decodes fields) ∧
      (¬ SystemSection.Fit fields → (⟨some table⟩ : Store).system = {}) := by
  have hsystem : (⟨some table⟩ : Store).system = (SystemSection.ofFields? fields).getD {} :=
    get_of_lookup hlookup
  rw [hsystem, ← SystemSection.exists_decodes_iff]
  exact getD_of_reads SystemSection.ofFields?_eq_some_iff {}

/-- The playback section is decoded from its table, or is the default. -/
theorem playback_of_table (hlookup : table.lookup "playback" = some (.table fields)) :
    (PlaybackSection.Fit fields → (⟨some table⟩ : Store).playback.Decodes fields) ∧
      (¬ PlaybackSection.Fit fields → (⟨some table⟩ : Store).playback = {}) := by
  have hplayback : (⟨some table⟩ : Store).playback = (PlaybackSection.ofFields? fields).getD {} :=
    get_of_lookup hlookup
  rw [hplayback, ← PlaybackSection.exists_decodes_iff]
  exact getD_of_reads PlaybackSection.ofFields?_eq_some_iff {}

end Store

end Dialogue.Settings
