import Dialogue.Playback.Pump

/-!
# Controllers

A controller is a player as a machine of registers. The session, the state, the queue of effects,
the decision and what is waited for are fields of their own, and nothing ties them to each other
but what the operations write. The port to the stage is one of the registers.

* Every operation gives back its answer and the controller, also where it fails.
* `choose` writes the decision into the session and leaves the rest to `step`, the one unit of
  work that calls the stage.
* `pump` repeats `step` while the state says so. `Controller.work` falls with every step, whatever
  the registers hold.
-/

namespace Dialogue

/-- A session in registers. -/
structure Track where
  generation : UInt64
  address : Address
  cursor : Nat := 0
  /-- The rows, once they are looked up. -/
  rows : Option (List Row) := none
  /-- The effects of the row under the cursor that are left to make. -/
  pending : List Effect := []
  /-- The decision of the row under the cursor, until it is acted on. -/
  next : Option Decision := none
  waitingOn : Option Ticket := none
  choices : List Choice := []
deriving DecidableEq, Repr

/-- The port to a stage: how the stage answers, and the calls that came through. -/
structure Port where
  answer : Stage
  calls : List Call := []

namespace Port

def call (port : Port) (call : Call) : Answer × Port :=
  (port.answer call, { port with calls := port.calls ++ [call] })

/-- Makes an effect, and says whether its asset is to be waited for. -/
def make (port : Port) (effect : Effect) (ticket : Ticket) : Bool × Port :=
  let (answer, port) := port.call (effect.call ticket)
  (effect.waits && answer == .pending, port)

end Port

/-- A player in registers. -/
structure Controller where
  port : Port
  script : Option Script := none
  session : Option Track := none
  state : State := .idle
  generation : UInt64 := 0
  nextTicket : UInt64 := 0
  lastPlayed : Option Address := none
  /-- What is to be told, the earliest first. -/
  events : List Event := []

namespace Controller

def pendingChoices (c : Controller) : List Choice :=
  match c.session with
  | some s => s.choices
  | none => []

def announce (c : Controller) (e : Event) : Controller :=
  { c with events := c.events ++ [e] }

/-! ## Sessions begin and end -/

def start (c : Controller) (a : Address) : Controller :=
  let c := { c with generation := c.generation + 1 }
  { c with
    session := some { generation := c.generation, address := a }
    lastPlayed := some a
    state := .playing }

/-- Drops the session, if there is one. The state is left as it is. -/
def supersede (c : Controller) : Bool × Controller :=
  match c.session with
  | none => (false, c)
  | some s =>
    let c := { c with session := none, generation := c.generation + 1 }
    (true, c.announce (.canceled s.address))

def finish (c : Controller) : Controller :=
  let c :=
    match c.session with
    | none => c
    | some s =>
      ({ c with session := none }.announce (.rowChanged none)).announce (.sceneComplete s.address)
  { c with state := .completed }

/-! ## One unit of work -/

/-- The rows at an address of the loaded script. -/
def rowsAt? (c : Controller) (a : Address) : Option (List Row) :=
  match c.script with
  | some script => (script.lookup a).toOption
  | none => none

/-- Makes an effect taken off the queue of the session `s`. Every effect uses up one ticket. -/
def perform (c : Controller) (s : Track) (effect : Effect) : Controller :=
  let ticket : Ticket := ⟨s.generation, c.nextTicket⟩
  let (suspended, port) := c.port.make effect ticket
  let c := { c with port, nextTicket := c.nextTicket + 1, session := some s }
  if suspended then
    { c with session := some { s with waitingOn := some ticket }, state := .awaitingAsset }
  else c

/-- Acts on a decision taken out of the session `s`. -/
def decide (c : Controller) (s : Track) (decision : Decision) : Controller :=
  let c := { c with session := some s }
  match decision with
  | .proceed => { c with session := some { s with cursor := s.cursor + 1 } }
  | .awaitReader => { c with port := (c.port.call .awaitReader).2, state := .awaitingReader }
  | .awaitChoice options =>
    { c with session := some { s with choices := options }, state := .awaitingChoice }
  | .handOver branch =>
    (c.announce (.branched s.address.scene s.address.branch branch)).start
      ⟨s.address.scene, branch⟩
  | .stop => c.finish

/-- Enters the row under the cursor, or ends behind the last row. -/
def enter (c : Controller) (s : Track) (rows : List Row) : Controller :=
  match rows[s.cursor]? with
  | none => c.finish
  | some row =>
    { c.announce (.rowChanged (some row)) with
      session := some { s with pending := row.cue.effects, next := some row.cue.decision } }

/-- One unit of work, whatever the state: look the rows up, make one effect, act on one decision,
or enter a row. Without a session there is nothing to play. -/
def step (c : Controller) : Controller :=
  match c.session with
  | none => { c with state := .idle }
  | some s =>
    match s.rows with
    | none =>
      match c.rowsAt? s.address with
      | some rows => { c with session := some { s with rows := some rows } }
      | none => c.finish
    | some rows =>
      match s.pending with
      | effect :: effects => c.perform { s with pending := effects } effect
      | [] =>
        match s.next with
        | some decision => c.decide { s with next := none } decision
        | none => c.enter s rows

section

variable {c : Controller} {s : Track} {rows : List Row} (hs : c.session = some s)

include hs

theorem step_of_found (hrows : s.rows = none) (hfound : c.rowsAt? s.address = some rows) :
    c.step = { c with session := some { s with rows := some rows } } := by
  simp only [step, hs, hrows, hfound]

theorem step_of_missing (hrows : s.rows = none) (hfound : c.rowsAt? s.address = none) :
    c.step = c.finish := by
  simp only [step, hs, hrows, hfound]

theorem step_of_pending (hrows : s.rows = some rows) {effect : Effect} {effects : List Effect}
    (hpending : s.pending = effect :: effects) :
    c.step = c.perform { s with pending := effects } effect := by
  simp only [step, hs, hrows, hpending]

theorem step_of_next (hrows : s.rows = some rows) (hpending : s.pending = [])
    {decision : Decision} (hnext : s.next = some decision) :
    c.step = c.decide { s with next := none } decision := by
  simp only [step, hs, hrows, hpending, hnext]

theorem step_of_row (hrows : s.rows = some rows) (hpending : s.pending = [])
    (hnext : s.next = none) : c.step = c.enter s rows := by
  simp only [step, hs, hrows, hpending, hnext]

end

/-! ## Every step lowers the work -/

/-- The work of a session that begins at an address. -/
def openingWork (c : Controller) (a : Address) : Nat :=
  1 + rowsWork ((c.rowsAt? a).getD [])

/-- The work of a session in these rows. -/
def trackWork (c : Controller) (s : Track) (rows : List Row) : Nat :=
  2 * s.pending.length +
    match s.next with
    | some decision => decision.work (fun b => c.openingWork ⟨s.address.scene, b⟩)
        (rowsWork (rows.drop (s.cursor + 1)))
    | none => rowsWork (rows.drop s.cursor)

/-- How much a controller that plays can do without being answered. -/
def work (c : Controller) : Nat :=
  if c.state = .playing then
    match c.session with
    | none => 1
    | some s =>
      match s.rows with
      | none => 1 + c.trackWork s ((c.rowsAt? s.address).getD [])
      | some rows => c.trackWork s rows
  else 0

variable {c : Controller} {s : Track} {rows : List Row}

theorem work_of_not_playing (h : c.state ≠ .playing) : c.work = 0 :=
  if_neg h

theorem work_of_rows (hstate : c.state = .playing) (hs : c.session = some s)
    (hrows : s.rows = some rows) : c.work = c.trackWork s rows := by
  simp only [work, if_pos hstate, hs, hrows]

/-- A controller with the session `s` has at most the work of `s`: none, unless it plays. -/
theorem work_le_trackWork {d : Controller} (hscript : d.script = c.script)
    (hs : d.session = some s) (hrows : s.rows = some rows) : d.work ≤ c.trackWork s rows := by
  by_cases hstate : d.state = .playing
  · rw [work_of_rows hstate hs hrows]
    simp [trackWork, openingWork, rowsAt?, hscript]
  · rw [work_of_not_playing hstate]
    exact Nat.zero_le _

theorem work_finish (c : Controller) : c.finish.work = 0 :=
  work_of_not_playing (by simp [finish])

/-- A session that has begun has the work of its address. -/
theorem work_start (c : Controller) (a : Address) : (c.start a).work = c.openingWork a := by
  simp [work, start, trackWork, openingWork, rowsAt?]

theorem work_perform_lt (hrows : s.rows = some rows) {effect : Effect} {effects : List Effect}
    (hpending : s.pending = effect :: effects) :
    (c.perform { s with pending := effects } effect).work < c.trackWork s rows := by
  have hless : c.trackWork { s with pending := effects } rows < c.trackWork s rows := by
    simp only [trackWork, hpending, List.length_cons]
    omega
  refine Nat.lt_of_le_of_lt ?_ hless
  unfold perform
  dsimp only
  split
  · rw [work_of_not_playing (by simp)]
    exact Nat.zero_le _
  · exact work_le_trackWork (s := { s with pending := effects }) rfl rfl hrows

theorem work_decide_lt (hrows : s.rows = some rows) (hpending : s.pending = [])
    {decision : Decision} (hnext : s.next = some decision) :
    (c.decide { s with next := none } decision).work < c.trackWork s rows := by
  have hwork : c.trackWork s rows = decision.work (fun b => c.openingWork ⟨s.address.scene, b⟩)
      (rowsWork (rows.drop (s.cursor + 1))) := by
    simp [trackWork, hpending, hnext]
  rw [hwork]
  cases decision with
  | proceed =>
    have hless : c.trackWork { s with next := none, cursor := s.cursor + 1 } rows <
        1 + rowsWork (rows.drop (s.cursor + 1)) := by
      simp [trackWork, hpending]
    exact Nat.lt_of_le_of_lt (work_le_trackWork rfl rfl hrows) hless
  | handOver branch =>
    simp only [decide]
    rw [work_start]
    exact Nat.lt_one_add_iff.2 (Nat.le_refl _)
  | stop =>
    simp only [decide]
    rw [work_finish]
    exact Nat.one_pos
  | awaitReader | awaitChoice =>
    simp only [decide]
    rw [work_of_not_playing (by simp)]
    exact Decision.work_pos ..

theorem work_enter_lt (hrows : s.rows = some rows) (hpending : s.pending = [])
    (hnext : s.next = none) : (c.enter s rows).work < c.trackWork s rows := by
  have hwork : c.trackWork s rows = rowsWork (rows.drop s.cursor) := by
    simp [trackWork, hpending, hnext]
  rw [hwork]
  unfold enter
  split
  · rw [work_finish]
    exact rowsWork_pos _
  · rename_i row hrow
    rw [drop_of_getElem? hrow]
    exact Nat.lt_of_le_of_lt (work_le_trackWork (c := c) rfl rfl hrows) (row.cue_work_lt _ _)

/-- A step of a controller that plays lowers the work. -/
theorem work_step_lt (hstate : c.state = .playing) : c.step.work < c.work := by
  cases hs : c.session with
  | none =>
    have hstep : c.step = { c with state := .idle } := by simp only [step, hs]
    rw [hstep, work_of_not_playing (by simp)]
    simp [work, hstate, hs]
  | some s =>
    cases hrows : s.rows with
    | none =>
      have hwork : c.work = 1 + c.trackWork s ((c.rowsAt? s.address).getD []) := by
        simp only [work, if_pos hstate, hs, hrows]
      rw [hwork]
      cases hfound : c.rowsAt? s.address with
      | none =>
        rw [step_of_missing hs hrows hfound, work_finish]
        omega
      | some rows =>
        rw [step_of_found hs hrows hfound]
        exact Nat.lt_one_add_iff.2
          (work_le_trackWork (s := { s with rows := some rows }) rfl rfl rfl)
    | some rows =>
      rw [work_of_rows hstate hs hrows]
      cases hpending : s.pending with
      | cons effect effects =>
        rw [step_of_pending hs hrows hpending]
        exact work_perform_lt hrows hpending
      | nil =>
        cases hnext : s.next with
        | some decision =>
          rw [step_of_next hs hrows hpending hnext]
          exact work_decide_lt hrows hpending hnext
        | none =>
          rw [step_of_row hs hrows hpending hnext]
          exact work_enter_lt hrows hpending hnext

/-! ## Operations -/

/-- Loads the script, unless it is loaded. -/
def load (fetch : Fetch) (c : Controller) : Except PlaybackError Script × Controller :=
  match c.script with
  | some script => (.ok script, c)
  | none =>
    match fetch false with
    | .error e => (.error (.sourceUnavailable e), c)
    | .ok rows => (.ok (.ofRows rows), { c with script := some (.ofRows rows) })

/-- Drops the session, if there is one, and says whether there was one. -/
def cancel (c : Controller) : Bool × Controller :=
  let (canceled, c) := c.supersede
  (canceled, if canceled then { c with state := .canceled } else c)

/-- Plays from the first row of an address, in place of what was played. -/
def play (fetch : Fetch) (a : Address) (c : Controller) : Except PlaybackError Unit × Controller :=
  match c.load fetch with
  | (.error e, c) => (.error e, c)
  | (.ok _, c) =>
    let (_, c) := c.supersede
    (.ok (), c.start a)

/-- Loads the script anew, past every cache, and plays the last address from its first row. -/
def refresh (fetch : Fetch) (c : Controller) : Except PlaybackError Unit × Controller :=
  match fetch true with
  | .error e => (.error (.sourceUnavailable e), c)
  | .ok rows =>
    let (_, c) := { c with script := some (.ofRows rows) }.cancel
    match c.lastPlayed with
    | some a => (.ok (), c.start a)
    | none => (.ok (), c)

/-- Goes on with the next row, if the reader is awaited. -/
def advance (c : Controller) : Bool × Controller :=
  if c.state ≠ .awaitingReader then (false, c)
  else
    match c.session with
    | none => (false, c)
    | some s =>
      (true, { c with session := some { s with cursor := s.cursor + 1 }, state := .playing })

/-- Takes the option with this index, if a choice is awaited: the choices are cleared, the decision
is written into the session, and one unit of work acts on it. -/
def choose (index : Nat) (c : Controller) : Except PlaybackError Address × Controller :=
  if c.state ≠ .awaitingChoice then (.error .noPendingChoice, c)
  else
    match c.session with
    | none => (.error .noPendingChoice, c)
    | some s =>
      match s.choices[index]? with
      | none => (.error (.invalidChoice index s.choices.length), c)
      | some option =>
        let s := { s with choices := [], next := some (.handOver option.target) }
        (.ok ⟨s.address.scene, option.target⟩,
          { c with session := some s, state := .playing }.step)

/-- Goes on after the load with this ticket ended, if the session waits for it. A load that failed
ends the waiting as well. -/
def complete (ticket : Ticket) (_loaded : Bool) (c : Controller) : Bool × Controller :=
  if c.state ≠ .awaitingAsset then (false, c)
  else
    match c.session.filter (·.waitingOn = some ticket) with
    | none => (false, c)
    | some s => (true, { c with session := some { s with waitingOn := none }, state := .playing })

section

variable {c : Controller} {s : Track} {index : Nat} {ticket : Ticket} {loaded : Bool}

theorem choose_of_not_awaited (h : c.state ≠ .awaitingChoice) :
    c.choose index = (.error .noPendingChoice, c) :=
  if_pos h

theorem choose_of_no_option (h : c.state = .awaitingChoice) (hs : c.session = some s)
    (hoption : s.choices[index]? = none) :
    c.choose index = (.error (.invalidChoice index s.choices.length), c) := by
  simp only [choose, h, ne_eq, not_true_eq_false, if_false, hs, hoption]

theorem choose_of_option (h : c.state = .awaitingChoice) (hs : c.session = some s)
    {option : Choice} (hoption : s.choices[index]? = some option) :
    c.choose index = (.ok ⟨s.address.scene, option.target⟩,
      { c with
        session := some { s with choices := [], next := some (.handOver option.target) }
        state := .playing }.step) := by
  simp only [choose, h, ne_eq, not_true_eq_false, if_false, hs, hoption]

theorem complete_of_waiting (h : c.state = .awaitingAsset) (hs : c.session = some s)
    (hticket : s.waitingOn = some ticket) :
    c.complete ticket loaded =
      (true, { c with session := some { s with waitingOn := none }, state := .playing }) := by
  simp [complete, h, hs, hticket, Option.filter_some]

theorem complete_of_not_waiting (h : ∀ s, c.session = some s → s.waitingOn ≠ some ticket) :
    c.complete ticket loaded = (false, c) := by
  have hnone : c.session.filter (·.waitingOn = some ticket) = none := by
    simpa [Option.filter_eq_none_iff] using h
  simp only [complete, hnone]
  split <;> rfl

end

/-- Does what the host tells, and passes errors on. -/
def feed (fetch : Fetch) (input : Input) (c : Controller) :
    Except PlaybackError Unit × Controller :=
  match input with
  | .proceed => (.ok (), c.advance.2)
  | .choose index =>
    let (result, c) := c.choose index
    (result.map fun _ => (), c)
  | .jump a => c.play fetch a
  | .loaded ticket => (.ok (), (c.complete ticket true).2)
  | .refresh => c.refresh fetch
  | .exit => (.ok (), c.cancel.2)

/-- Works until the state is another than playing. -/
def pump (c : Controller) : Controller :=
  if h : c.state = .playing then
    have := work_step_lt h
    pump c.step
  else c
termination_by c.work

theorem pump_of_playing {c : Controller} (h : c.state = .playing) : c.pump = c.step.pump := by
  rw [pump, dif_pos h]

theorem pump_of_not_playing {c : Controller} (h : c.state ≠ .playing) : c.pump = c := by
  rw [pump, dif_neg h]

/-- What is to be told, and the controller with it told. -/
def drain (c : Controller) : List Event × Controller :=
  (c.events, { c with events := [] })

end Controller

end Dialogue
