import Dialogue.Proofs.Settings.Sections
import Mathlib.Data.List.Forall2

/-!
# A store over a whole run

A program asks for its settings and fills its store in any order and as often as it likes. Of all
the calls that would fill the store the first one does, and no later one changes it.

* `StoreCall.run` is one call with its `StoreAnswer`, `runAll` are the calls of a program in their
  order.
* `StoreCall.Early` and `StoreCall.Late` say what a call is answered before and after the store is
  filled, and `StoreCall.Fills` which calls fill it, and with what.
* `StoreCall.run_early` and `StoreCall.run_late` are the step, `course_runAll` is the run: an
  induction on the calls.
* `Store.filled_once` joins this with what the sections of a filled store are.
-/

namespace Dialogue.Settings

open Files

/-! ## Calls -/

/-- What a program asks of its store. -/
inductive StoreCall where
  /-- Fill the store from a file, with the files as they are by then. -/
  | fillFrom (files : Tree) (path : String)
  | fill (text : String)
  | get {α : Type} (read? : Toml → Option α) (default : α) (name : String)
  /-- Ask for both sections. -/
  | load

inductive StoreAnswer where
  | filled
  | failed (e : StoreError)
  | value {α : Type} (a : α)
  | sections (system : SystemSection) (playback : PlaybackSection)

namespace StoreAnswer

def isFilled : StoreAnswer → Bool
  | filled => true
  | _ => false

end StoreAnswer

namespace StoreCall

/-- The store after a filling, and the answer. -/
def settle (s : Store) : Except StoreError Store → Store × StoreAnswer
  | .ok filled => (filled, .filled)
  | .error e => (s, .failed e)

/-- One call. -/
def run : StoreCall → Store → Store × StoreAnswer
  | fillFrom files path, s => settle s (s.fillFrom files path)
  | fill text, s => settle s (s.fill text)
  | get read? default name, s => (s, .value (s.get read? default name))
  | load, s => (s, .sections s.system s.playback)

/-- Calls that leave a store unfilled, and their answers: what is asked for is the default. -/
inductive Early : StoreCall → StoreAnswer → Prop
  | get {α : Type} {read? : Toml → Option α} {default : α} {name : String} :
    Early (.get read? default name) (.value default)
  | load : Early .load (.sections {} {})
  | unreadable {files : Tree} {path : String} {cause : FileError}
    (hexists : files.exists? path = true) (hread : files.readText path = .error cause) :
    Early (.fillFrom files path) (.failed (.unreadable cause))

/-- Texts and the tables that they give, which are empty for a text with a fault in it. -/
inductive Gives : String → Toml.Members → Prop
  | table {text : String} {table : Toml.Members} (h : Toml.ofText? text = some table) :
    Gives text table
  | fault {text : String} (h : Toml.ofText? text = none) : Gives text []

/-- Calls that fill a store, and with which table. -/
inductive Fills : StoreCall → Toml.Members → Prop
  | text {text : String} {table : Toml.Members} (h : Gives text table) : Fills (.fill text) table
  | file {files : Tree} {path text : String} {table : Toml.Members}
    (hexists : files.exists? path = true) (hread : files.readText path = .ok text)
    (h : Gives text table) : Fills (.fillFrom files path) table
  | missing {files : Tree} {path : String} (h : files.exists? path = false) :
    Fills (.fillFrom files path) []

/-- Calls on a store that is filled, and their answers: what is asked for is read off the table, and
nothing fills the store again. -/
inductive Late (table : Toml.Members) : StoreCall → StoreAnswer → Prop
  | found {α : Type} {read? : Toml → Option α} {default a : α} {name : String} {v : Toml}
    (hlookup : table.lookup name = some v) (hread : read? v = some a) :
    Late table (.get read? default name) (.value a)
  | mismatch {α : Type} {read? : Toml → Option α} {default : α} {name : String} {v : Toml}
    (hlookup : table.lookup name = some v) (hread : read? v = none) :
    Late table (.get read? default name) (.value default)
  | absent {α : Type} {read? : Toml → Option α} {default : α} {name : String}
    (hlookup : table.lookup name = none) : Late table (.get read? default name) (.value default)
  | load : Late table .load
      (.sections (⟨some table⟩ : Store).system (⟨some table⟩ : Store).playback)
  | refused {call : StoreCall} {other : Toml.Members} (h : call.Fills other) :
    Late table call (.failed .alreadyFilled)
  | unreadable {files : Tree} {path : String} {cause : FileError}
    (hexists : files.exists? path = true) (hread : files.readText path = .error cause) :
    Late table (.fillFrom files path) (.failed (.unreadable cause))

variable {table : Toml.Members} {text path : String} {files : Tree} {s : Store}

/-! ## One call -/

theorem gives_getD (text : String) : Gives text ((Toml.ofText? text).getD []) := by
  cases h : Toml.ofText? text with
  | none => exact .fault h
  | some table => exact .table h

theorem Gives.getD_eq (h : Gives text table) : (Toml.ofText? text).getD [] = table := by
  cases h with
  | table h => rw [h, Option.getD_some]
  | fault h => rw [h, Option.getD_none]

/-- An empty text gives no section, and so does a missing file, which is read as one. -/
theorem ofText?_empty : Toml.ofText? "" = some [] := by
  have hstatements : Toml.statements [] = some [] := by rw [Toml.statements]
  rw [Toml.ofText?, String.toList_empty, Toml.skipMark, hstatements]
  · rfl
  · simp

theorem fill_unfilled (h : Gives text table) : Store.fill text {} = .ok ⟨some table⟩ := by
  rw [Store.fill, if_neg (by simp [Store.isFilled]), h.getD_eq]

theorem fill_filled (text : String) : Store.fill text ⟨some table⟩ = .error .alreadyFilled := by
  rw [Store.fill, if_pos (by simp [Store.isFilled])]

/-- A call that fills a store fills it if it is unfilled, and is refused otherwise. -/
theorem Fills.run_eq {call : StoreCall} (h : call.Fills table) :
    call.run {} = (⟨some table⟩, .filled) ∧
      ∀ other, call.run ⟨some other⟩ = (⟨some other⟩, .failed .alreadyFilled) := by
  have settled : ∀ {call : StoreCall} {text : String}, Gives text table →
      (∀ s, call.run s = settle s (s.fill text)) →
        call.run {} = (⟨some table⟩, .filled) ∧
          ∀ other, call.run ⟨some other⟩ = (⟨some other⟩, .failed .alreadyFilled) := by
    intro call text hgives hrun
    refine ⟨?_, fun other => ?_⟩
    · rw [hrun, fill_unfilled hgives, settle]
    · rw [hrun, fill_filled, settle]
  cases h with
  | text h => exact settled h fun _ => rfl
  | @file files path text _ hexists hread h =>
    refine settled h fun s => ?_
    rw [run, Store.fillFrom, Store.textAt, if_pos hexists, hread]
  | @missing files path h =>
    refine settled (.table ofText?_empty) fun s => ?_
    rw [run, Store.fillFrom, Store.textAt, if_neg (by simp [h])]

theorem run_unreadable {cause : FileError} (hexists : files.exists? path = true)
    (hread : files.readText path = .error cause) (s : Store) :
    (fillFrom files path).run s = (s, .failed (.unreadable cause)) := by
  rw [run, Store.fillFrom, Store.textAt, if_pos hexists, hread, settle]

/-- A file is missing or read, or else it cannot be read. -/
theorem fills_or_unreadable (files : Tree) (path : String) :
    (∃ table, Fills (.fillFrom files path) table) ∨
      ∃ cause, files.exists? path = true ∧ files.readText path = .error cause := by
  cases hexists : files.exists? path with
  | false => exact .inl ⟨[], .missing hexists⟩
  | true =>
    cases hread : files.readText path with
    | ok text => exact .inl ⟨_, .file hexists hread (gives_getD text)⟩
    | error cause => exact .inr ⟨cause, rfl, rfl⟩

/-- A call on an unfilled store fills it, or leaves it as it is. -/
theorem run_early (call : StoreCall) :
    (∃ a, Early call a ∧ call.run {} = ({}, a)) ∨
      ∃ table, Fills call table ∧ call.run {} = (⟨some table⟩, .filled) := by
  have filling : (∃ table, Fills call table) →
      ∃ table, Fills call table ∧ call.run {} = (⟨some table⟩, .filled) :=
    fun ⟨table, h⟩ => ⟨table, h, h.run_eq.1⟩
  cases call with
  | get read? default name =>
    refine .inl ⟨_, .get, ?_⟩
    rw [run, Store.get_unfilled]
  | load => exact .inl ⟨_, .load, rfl⟩
  | fill text => exact .inr (filling ⟨_, .text (gives_getD text)⟩)
  | fillFrom files path =>
    obtain hfills | ⟨cause, hexists, hread⟩ := fills_or_unreadable files path
    · exact .inr (filling hfills)
    · exact .inl ⟨_, .unreadable hexists hread, run_unreadable hexists hread {}⟩

/-- A call on a filled store leaves it as it is. -/
theorem run_late (table : Toml.Members) (call : StoreCall) :
    ∃ a, Late table call a ∧ call.run ⟨some table⟩ = (⟨some table⟩, a) := by
  have refused : (∃ other, Fills call other) →
      ∃ a, Late table call a ∧ call.run ⟨some table⟩ = (⟨some table⟩, a) :=
    fun ⟨_, h⟩ => ⟨_, .refused h, h.run_eq.2 table⟩
  cases call with
  | get read? default name =>
    cases hlookup : table.lookup name with
    | none =>
      refine ⟨_, .absent hlookup, ?_⟩
      rw [run, Store.get_of_missing hlookup]
    | some v =>
      cases hread : read? v with
      | none =>
        refine ⟨_, .mismatch hlookup hread, ?_⟩
        rw [run, Store.get_of_lookup hlookup, hread, Option.getD_none]
      | some a =>
        refine ⟨_, .found hlookup hread, ?_⟩
        rw [run, Store.get_of_lookup hlookup, hread, Option.getD_some]
  | load => exact ⟨_, .load, rfl⟩
  | fill text => exact refused ⟨_, .text (gives_getD text)⟩
  | fillFrom files path =>
    obtain hfills | ⟨cause, hexists, hread⟩ := fills_or_unreadable files path
    · exact refused hfills
    · exact ⟨_, .unreadable hexists hread, run_unreadable hexists hread _⟩

/-- A call that fails leaves the store as it is. -/
theorem run_failed {call : StoreCall} {e : StoreError} (h : (call.run s).2 = .failed e) :
    (call.run s).1 = s := by
  have settled : ∀ r, (settle s r).2 = .failed e → (settle s r).1 = s := by
    intro r hr
    cases r with
    | ok filled => cases hr
    | error e => rfl
  cases call with
  | get | load => rfl
  | fill text => exact settled _ h
  | fillFrom files path => exact settled _ h

theorem Early.not_filled {call : StoreCall} {a : StoreAnswer} (h : Early call a) :
    a.isFilled = false := by
  cases h <;> rfl

theorem Late.not_filled {call : StoreCall} {a : StoreAnswer} (h : Late table call a) :
    a.isFilled = false := by
  cases h <;> rfl

end StoreCall

/-! ## A run -/

open StoreCall

/-- The calls of a program, one after another. -/
def runAll : List StoreCall → Store → Store × List StoreAnswer
  | [], s => (s, [])
  | call :: calls, s =>
    let (s, a) := call.run s
    let (s, as) := runAll calls s
    (s, a :: as)

/-- What the calls of a program are answered, and the store that they leave. -/
inductive Course : List StoreCall → List StoreAnswer → Store → Prop
  /-- No call fills the store. -/
  | unfilled {calls : List StoreCall} {as : List StoreAnswer} (h : List.Forall₂ Early calls as) :
    Course calls as {}
  /-- One call fills it. -/
  | filled {before later : List StoreCall} {call : StoreCall} {table : Toml.Members}
    {as bs : List StoreAnswer} (hbefore : List.Forall₂ Early before as) (hfills : call.Fills table)
    (hlater : List.Forall₂ (Late table) later bs) :
    Course (before ++ call :: later) (as ++ .filled :: bs) ⟨some table⟩

variable {calls : List StoreCall} {as : List StoreAnswer} {s : Store}

theorem runAll_late (table : Toml.Members) (calls : List StoreCall) :
    ∃ as, List.Forall₂ (Late table) calls as ∧
      runAll calls ⟨some table⟩ = (⟨some table⟩, as) := by
  induction calls with
  | nil => exact ⟨[], .nil, rfl⟩
  | cons call calls ih =>
    obtain ⟨as, has, hruns⟩ := ih
    obtain ⟨a, ha, hrun⟩ := run_late table call
    refine ⟨a :: as, .cons ha has, ?_⟩
    rw [runAll, hrun]
    dsimp only
    rw [hruns]

theorem Course.cons {call : StoreCall} {a : StoreAnswer} (ha : Early call a)
    (h : Course calls as s) : Course (call :: calls) (a :: as) s := by
  cases h with
  | unfilled h => exact .unfilled (.cons ha h)
  | filled hbefore hfills hlater => exact .filled (.cons ha hbefore) hfills hlater

/-- The first call that fills the store fills it, and no call after it. -/
theorem course_runAll (calls : List StoreCall) :
    Course calls (runAll calls {}).2 (runAll calls {}).1 := by
  induction calls with
  | nil => exact .unfilled .nil
  | cons call calls ih =>
    rw [runAll]
    obtain ⟨a, ha, hrun⟩ | ⟨table, hfills, hrun⟩ := call.run_early
    · rw [hrun]
      exact ih.cons ha
    · obtain ⟨as, has, hruns⟩ := runAll_late table calls
      rw [hrun]
      dsimp only
      rw [hruns]
      exact .filled .nil hfills has

theorem countP_isFilled_eq_zero {R : StoreCall → StoreAnswer → Prop}
    (hanswers : ∀ {call a}, R call a → a.isFilled = false) (h : List.Forall₂ R calls as) :
    as.countP StoreAnswer.isFilled = 0 := by
  induction h with
  | nil => rfl
  | cons ha _ ih => rw [List.countP_cons_of_neg (by simp [hanswers ha]), ih]

theorem Course.countP_le_one (h : Course calls as s) : as.countP StoreAnswer.isFilled ≤ 1 := by
  cases h with
  | unfilled h => simp [countP_isFilled_eq_zero Early.not_filled h]
  | filled hbefore hfills hlater =>
    rw [List.countP_append, List.countP_cons_of_pos rfl,
      countP_isFilled_eq_zero Early.not_filled hbefore,
      countP_isFilled_eq_zero Late.not_filled hlater]

/-- Of all the calls of a program at most one fills the store: the first one that does not fail on a
file that cannot be read. Before it everything asked for is the default; after it everything is read
off the table of that call, whatever is called later. A call that fails changes nothing. In a filled
store each section that is a table is decoded from it, or is the default if a field has a value of
the wrong kind. -/
theorem Store.filled_once :
    (∀ calls : List StoreCall, Course calls (runAll calls {}).2 (runAll calls {}).1 ∧
      (runAll calls {}).2.countP StoreAnswer.isFilled ≤ 1) ∧
    (∀ (call : StoreCall) (s : Store) (e : StoreError),
      (call.run s).2 = .failed e → (call.run s).1 = s) ∧
    (∀ table fields : Toml.Members, table.lookup "system" = some (.table fields) →
      (SystemSection.Fit fields → (⟨some table⟩ : Store).system.Decodes fields) ∧
        (¬ SystemSection.Fit fields → (⟨some table⟩ : Store).system = {})) ∧
    ∀ table fields : Toml.Members, table.lookup "playback" = some (.table fields) →
      (PlaybackSection.Fit fields → (⟨some table⟩ : Store).playback.Decodes fields) ∧
        (¬ PlaybackSection.Fit fields → (⟨some table⟩ : Store).playback = {}) :=
  ⟨fun calls => ⟨course_runAll calls, (course_runAll calls).countP_le_one⟩,
    fun _ _ _ => run_failed, fun _ _ => system_of_table, fun _ _ => playback_of_table⟩

/-- A file that is no text fails and changes nothing. A path that is a number leaves the system
section at its default, and the playback section beside it is decoded. -/
theorem Store.filled_once_unreadable :
    let files : Tree := { root := .dir [("config.toml", .file (.ok [0xFF]))] }
    let playback : Toml.Members := [("start_scene", .int 3), ("theme", .float)]
    let table : Toml.Members :=
      [("system", .table [("script_path", .int 42)]), ("playback", .table playback)]
    (∃ e, ((StoreCall.fillFrom files "config.toml").run {}).2 = .failed e) ∧
      ((StoreCall.fillFrom files "config.toml").run {}).1 = {} ∧
      (⟨some table⟩ : Store).system = {} ∧ (⟨some table⟩ : Store).playback.Decodes playback := by
  intro files playback table
  obtain ⟨e, he⟩ : ∃ e, ((StoreCall.fillFrom files "config.toml").run {}).2 = .failed e := ⟨_, rfl⟩
  have hsystem : ¬ SystemSection.Fit [("script_path", .int 42)] := by
    intro hfit
    obtain ⟨text, h | ⟨d, h, _⟩⟩ := hfit.scriptPath (.int 42) rfl
    all_goals cases h
  have hplayback : PlaybackSection.Fit playback :=
    { startScene := fun v hv => ⟨3, by cases hv; rfl⟩
      startBranch := fun v hv => by cases hv
      autoAdvance := fun v hv => by cases hv }
  exact ⟨⟨e, he⟩, Store.filled_once.2.1 _ _ e he, (Store.filled_once.2.2.1 table _ rfl).2 hsystem,
    (Store.filled_once.2.2.2 table _ rfl).1 hplayback⟩

end Dialogue.Settings
