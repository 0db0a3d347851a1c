import Dialogue.Playback.Controller
import Dialogue.Proofs.Playback.Onward

/-!
# Controllers simulate players

A controller does what the player does whose parts stand in its registers. So every register of a
reachable controller is read off a player, and what holds of players holds of controllers.

* `Controller.operate` is one operation on a controller: the answer and the controller after it.
  `Controller.after` is the controller that a run leaves.
* `Player.controller` puts the parts of a player into registers, beside a port.
* `Player.operate_controller`: an operation gives the same answer on both, leaves the registers of
  the player after it, and makes its calls through the port.
* `Controller.exists_after_eq` and `Controller.replies_new` say so of whole runs.
-/

namespace Dialogue

namespace Port

/-- The port after these calls. -/
def after (port : Port) (calls : List Call) : Port :=
  { port with calls := port.calls ++ calls }

/-- The port with another stage behind it. -/
def answeredBy (port : Port) (stage : Stage) : Port :=
  { port with answer := stage }

@[simp] theorem after_nil (port : Port) : port.after [] = port := by
  simp [after]

@[simp] theorem after_after (port : Port) (calls calls' : List Call) :
    (port.after calls).after calls' = port.after (calls ++ calls') := by
  simp [after]

@[simp] theorem answer_after (port : Port) (calls : List Call) :
    (port.after calls).answer = port.answer := rfl

end Port

/-! ## Runs of a controller -/

namespace Controller

def answeredBy (c : Controller) (stage : Stage) : Controller :=
  { c with port := c.port.answeredBy stage }

/-- Does an operation. A pump finds the stage behind the port that answers it. -/
def operate (c : Controller) : Operation → Operation.Reply × Controller
  | .load fetch =>
    let (result, c) := c.load fetch
    (.script result, c)
  | .play fetch a =>
    let (result, c) := c.play fetch a
    (.done result, c)
  | .refresh fetch =>
    let (result, c) := c.refresh fetch
    (.done result, c)
  | .pump stage =>
    let c := (c.answeredBy stage).pump
    (.state c.state, c)
  | .advance =>
    let (moved, c) := c.advance
    (.moved moved, c)
  | .choose index =>
    let (result, c) := c.choose index
    (.chosen result, c)
  | .complete ticket loaded =>
    let (moved, c) := c.complete ticket loaded
    (.moved moved, c)
  | .cancel =>
    let (canceled, c) := c.cancel
    (.moved canceled, c)
  | .feed fetch input =>
    let (result, c) := c.feed fetch input
    (.done result, c)
  | .drain =>
    let (events, c) := c.drain
    (.told events, c)

/-- The controller that operations leave, from this one on. -/
def run (c : Controller) (ops : List Operation) : Controller :=
  ops.foldl (fun c op => (c.operate op).2) c

/-- What operations give back from this controller on, one reply for each. -/
def replies (c : Controller) : List Operation → List Operation.Reply
  | [] => []
  | op :: ops => (c.operate op).1 :: (c.operate op).2.replies ops

/-- A new controller at this stage. -/
def new (stage : Stage) : Controller :=
  { port := { answer := stage } }

/-- The controller that a run leaves. -/
def after (stage : Stage) (ops : List Operation) : Controller :=
  (new stage).run ops

theorem run_append (c : Controller) (before later : List Operation) :
    c.run (before ++ later) = (c.run before).run later :=
  List.foldl_append

theorem after_concat (stage : Stage) (ops : List Operation) (op : Operation) :
    after stage (ops ++ [op]) = ((after stage ops).operate op).2 :=
  run_append _ _ _

end Controller

/-! ## The registers of a player -/

namespace Session

/-- The registers of a session at a row, with nothing to make, to decide or to wait for. -/
def trackAt (s : Session) (rows : List Row) (cursor : Nat) : Track where
  generation := s.generation
  address := s.address
  rows := some rows
  cursor := cursor

/-- A session put into registers. Where it stands says what each of them holds. -/
def track (s : Session) : Track :=
  match s.progress with
  | .opening => { generation := s.generation, address := s.address }
  | .within rows cursor .entering => s.trackAt rows cursor
  | .within rows cursor (.acting effects decision) =>
    { s.trackAt rows cursor with pending := effects, next := some decision }
  | .within rows cursor (.loading ticket effects decision) =>
    { s.trackAt rows cursor with
      pending := effects
      next := some decision
      waitingOn := some ticket }
  | .within rows cursor .reading => s.trackAt rows cursor
  | .within rows cursor (.choosing options) => { s.trackAt rows cursor with choices := options }

@[simp] theorem generation_track (s : Session) : s.track.generation = s.generation := by
  unfold track
  split <;> rfl

@[simp] theorem address_track (s : Session) : s.track.address = s.address := by
  unfold track
  split <;> rfl

end Session

namespace Player

/-- A player put into registers. -/
def controller (p : Player) (port : Port) : Controller where
  port := port
  script := p.script
  session := p.session?.map Session.track
  state := p.state
  generation := p.generation
  nextTicket := p.nextTicket
  lastPlayed := p.lastPlayed
  events := p.events

variable {p : Player} {s : Session} {port : Port} {rows : List Row} {cursor : Nat}

theorem controller_live (hs : p.status = .live s) :
    p.controller port =
      { port, script := p.script, session := some s.track, state := s.state,
        generation := p.generation, nextTicket := p.nextTicket, lastPlayed := p.lastPlayed,
        events := p.events } := by
  simp [controller, session?_live hs, state_live hs]

theorem session_controller_none (hs : p.session? = none) :
    (p.controller port).session = none := by
  simp [controller, hs]

/-! ## One unit of work -/

theorem start_controller (p : Player) (port : Port) (a : Address) :
    (p.controller port).start a = (p.start a).controller port := rfl

theorem finish_controller (hs : p.status = .live s) :
    (p.controller port).finish = (p.finish s).controller port := by
  rw [controller_live hs]
  simp [Controller.finish, Player.finish, announce, Controller.announce, controller, session?,
    Player.state]

theorem enter_controller (hs : p.status = .live s) (hstate : s.state = .playing) :
    (p.controller port).enter (s.trackAt rows cursor) rows =
      (p.enter s rows cursor).controller port := by
  unfold Controller.enter Player.enter
  rw [show (s.trackAt rows cursor).cursor = cursor from rfl]
  cases rows[cursor]? with
  | none => exact finish_controller hs
  | some row =>
    rw [controller_live hs, hstate]
    rfl

theorem decide_controller (hs : p.status = .live s) (hstate : s.state = .playing) (d : Decision) :
    (p.controller port).decide (s.trackAt rows cursor) d =
      (p.decide s rows cursor d).1.controller (port.after (p.decide s rows cursor d).2) := by
  rw [controller_live hs, hstate]
  cases d with
  | awaitReader => rfl
  | proceed | awaitChoice | handOver | stop =>
    rw [show (p.decide s rows cursor _).2 = [] from rfl, Port.after_nil]
    rfl

theorem perform_controller (hs : p.status = .live s) (hstate : s.state = .playing) (e : Effect)
    (es : List Effect) (d : Decision) :
    (p.controller port).perform { s.trackAt rows cursor with pending := es, next := some d } e =
      (p.perform port.answer s rows cursor e es d).1.controller
        (port.after (p.perform port.answer s rows cursor e es d).2) := by
  rw [controller_live hs, hstate]
  unfold Controller.perform Player.perform
  have hmake : port.make e ⟨s.generation, p.nextTicket⟩ =
      (e.waits && port.answer (e.call ⟨s.generation, p.nextTicket⟩) == .pending,
        port.after [e.call ⟨s.generation, p.nextTicket⟩]) := rfl
  by_cases hwaits : e.waits ∧ port.answer (e.call ⟨s.generation, p.nextTicket⟩) = .pending
  · simp [Session.trackAt, hmake, hwaits]
    rfl
  · simp [Session.trackAt, hmake, hwaits]
    rfl

/-- A unit of work of a player that plays is one of the controller. -/
theorem step_controller (h : p.state = .playing) :
    (p.controller port).step =
      (p.step port.answer).1.controller (port.after (p.step port.answer).2) := by
  obtain ⟨s, hs, hstate⟩ := exists_live_of_playing h
  have hsession : (p.controller port).session = some s.track := by rw [controller_live hs]
  cases hp : s.progress with
  | opening =>
    rw [show s.track = { generation := s.generation, address := s.address } by
      simp [Session.track, hp]] at hsession
    cases hfound : p.rowsAt? s.address with
    | none =>
      have hstep : p.step port.answer = (p.finish s, []) := by simp only [step, hs, hp, hfound]
      rw [hstep, Controller.step_of_missing hsession rfl hfound, Port.after_nil]
      exact finish_controller hs
    | some rows =>
      have hstep : p.step port.answer = (p.place s rows 0 .entering, []) := by
        simp only [step, hs, hp, hfound]
      rw [hstep, Controller.step_of_found hsession rfl hfound, Port.after_nil, controller_live hs,
        hstate]
      rfl
  | within rows cursor phase =>
    cases phase with
    | entering =>
      have hstep : p.step port.answer = (p.enter s rows cursor, []) := by simp only [step, hs, hp]
      rw [show s.track = s.trackAt rows cursor by simp [Session.track, hp]] at hsession
      rw [hstep, Controller.step_of_row hsession rfl rfl rfl, Port.after_nil]
      exact enter_controller hs hstate
    | acting es d =>
      rw [show s.track = { s.trackAt rows cursor with pending := es, next := some d } by
        simp [Session.track, hp]] at hsession
      cases es with
      | nil =>
        have hstep : p.step port.answer = p.decide s rows cursor d := by simp only [step, hs, hp]
        rw [hstep, Controller.step_of_next hsession rfl rfl rfl]
        exact decide_controller hs hstate d
      | cons e es =>
        have hstep : p.step port.answer = p.perform port.answer s rows cursor e es d := by
          simp only [step, hs, hp]
        rw [hstep, Controller.step_of_pending hsession rfl rfl]
        exact perform_controller hs hstate e es d
    | loading | reading | choosing => simp [Session.state, hp, Phase.state] at hstate

/-- A whole pump of a player is one of the controller. -/
theorem pump_controller (p : Player) (stage : Stage) (hport : port.answer = stage) :
    (p.controller port).pump =
      (p.pump stage).1.controller (port.after (p.pump stage).2) := by
  induction p using Player.pump.induct stage generalizing port with
  | case1 p h _ ih =>
    have hplays : (p.controller port).state = .playing := h
    rw [Controller.pump_of_playing hplays, step_controller h, pump_of_playing _ h, hport,
      ih (by rw [Port.answer_after, hport]), Port.after_after]
  | case2 p h =>
    have hstops : (p.controller port).state ≠ .playing := h
    rw [Controller.pump_of_not_playing hstops, pump_of_not_playing _ h, Port.after_nil]

/-! ## Operations -/

theorem load_controller (p : Player) (port : Port) (fetch : Fetch) :
    (p.controller port).load fetch =
      match p.load fetch with
      | .ok (script, q) => (.ok script, q.controller port)
      | .error e => (.error (.sourceUnavailable e), p.controller port) := by
  have hscript : (p.controller port).script = p.script := rfl
  unfold Controller.load load
  rw [hscript]
  cases p.script with
  | some script => rfl
  | none => cases fetch false <;> rfl

theorem supersede_start_controller (p : Player) (port : Port) (a : Address) :
    (p.controller port).supersede.2.start a = (p.cancel.start a).controller port := by
  cases hs : p.session? with
  | none =>
    rw [cancel_idle hs]
    simp [Controller.supersede, session_controller_none hs, start_controller]
  | some s =>
    have hlive := session?_eq_some_iff.1 hs
    rw [cancel_live hlive, controller_live hlive]
    simp [Controller.supersede]
    rfl

theorem cancel_controller (p : Player) (port : Port) :
    (p.controller port).cancel = (p.session?.isSome, p.cancel.controller port) := by
  cases hs : p.session? with
  | none =>
    rw [cancel_idle hs]
    simp [Controller.cancel, Controller.supersede, session_controller_none hs]
  | some s =>
    have hlive := session?_eq_some_iff.1 hs
    rw [cancel_live hlive, controller_live hlive]
    simp [Controller.cancel, Controller.supersede]
    rfl

theorem play_controller (p : Player) (port : Port) (fetch : Fetch) (a : Address) :
    (p.controller port).play fetch a =
      match p.play fetch a with
      | .ok q => (.ok (), q.controller port)
      | .error e => (.error e, p.controller port) := by
  unfold Controller.play play
  rw [load_controller]
  cases p.load fetch with
  | error e => rfl
  | ok loaded => simp only [supersede_start_controller]

theorem refresh_controller (p : Player) (port : Port) (fetch : Fetch) :
    (p.controller port).refresh fetch =
      match p.refresh fetch with
      | .ok q => (.ok (), q.controller port)
      | .error e => (.error e, p.controller port) := by
  unfold Controller.refresh refresh
  cases fetch true with
  | error e => rfl
  | ok rows =>
    have hcancel := cancel_controller { p with script := some (.ofRows rows) } port
    have hscript : { p.controller port with script := some (.ofRows rows) } =
        Player.controller { p with script := some (.ofRows rows) } port := rfl
    simp only [hscript, hcancel]
    have hlast := lastPlayed_cancel { p with script := some (.ofRows rows) }
    rw [show (Player.controller (cancel { p with script := some (.ofRows rows) }) port).lastPlayed =
      p.lastPlayed from hlast, hlast]
    cases p.lastPlayed <;> rfl

theorem advance_controller (p : Player) (port : Port) :
    (p.controller port).advance =
      match p.advance with
      | some q => (true, q.controller port)
      | none => (false, p.controller port) := by
  cases hs : p.status with
  | idle | completed | canceled =>
    simp [Controller.advance, advance, controller, state, hs]
  | live s =>
    rw [controller_live hs]
    cases hp : s.progress with
    | opening => simp [Controller.advance, advance, hs, hp, Session.state]
    | within rows cursor phase =>
      cases phase with
      | reading =>
        simp [Controller.advance, advance, hs, hp, Session.state, Phase.state, Session.track]
        rfl
      | entering | acting | loading | choosing =>
        simp [Controller.advance, advance, hs, hp, Session.state, Phase.state]

theorem choose_controller (p : Player) (port : Port) (index : Nat) :
    (p.controller port).choose index =
      match p.choose index with
      | .ok (a, q) => (.ok a, q.controller port)
      | .error e => (.error e, p.controller port) := by
  cases hs : p.status with
  | idle | completed | canceled =>
    simp [Controller.choose, choose, controller, state, hs]
  | live s =>
    rw [controller_live hs]
    cases hp : s.progress with
    | opening => simp [Controller.choose, choose, hs, hp, Session.state]
    | within rows cursor phase =>
      cases phase with
      | entering | acting | loading | reading =>
        simp [Controller.choose, choose, hs, hp, Session.state, Phase.state]
      | choosing options =>
        have htrack : s.track = { s.trackAt rows cursor with choices := options } := by
          simp [Session.track, hp]
        have hstate : s.state = .awaitingChoice := by simp [Session.state, Phase.state, hp]
        rw [htrack, hstate]
        simp only [choose, hs, hp]
        cases hoption : options[index]? with
        | none => rw [Controller.choose_of_no_option rfl rfl hoption]
        | some option =>
          -- the rows are there and the queue is empty, so the step acts on the decision
          rw [Controller.choose_of_option rfl rfl hoption, Controller.step_of_next rfl rfl rfl rfl]
          rfl

theorem complete_controller (p : Player) (port : Port) (t : Ticket) (loaded : Bool) :
    (p.controller port).complete t loaded =
      match p.complete t loaded with
      | some q => (true, q.controller port)
      | none => (false, p.controller port) := by
  cases hs : p.status with
  | idle | completed | canceled =>
    simp [Controller.complete, complete, controller, state, hs]
  | live s =>
    rw [controller_live hs]
    cases hp : s.progress with
    | opening => simp [Controller.complete, complete, hs, hp, Session.state]
    | within rows cursor phase =>
      cases phase with
      | entering | acting | reading | choosing =>
        simp [Controller.complete, complete, hs, hp, Session.state, Phase.state]
      | loading ticket es d =>
        have htrack : s.track =
            { s.trackAt rows cursor with
              pending := es
              next := some d
              waitingOn := some ticket } := by
          simp [Session.track, hp]
        have hstate : s.state = .awaitingAsset := by simp [Session.state, Phase.state, hp]
        rw [htrack, hstate]
        simp only [complete, hs, hp]
        by_cases ht : ticket = t
        · subst ht
          rw [Controller.complete_of_waiting rfl rfl rfl, if_pos rfl]
          rfl
        · rw [if_neg ht]
          refine Controller.complete_of_not_waiting fun s' hs' => ?_
          cases hs'
          simpa using ht

theorem feed_controller (p : Player) (port : Port) (fetch : Fetch) (input : Input) :
    (p.controller port).feed fetch input =
      match p.feed fetch input with
      | .ok q => (.ok (), q.controller port)
      | .error e => (.error e, p.controller port) := by
  cases input with
  | jump a => exact play_controller p port fetch a
  | refresh => exact refresh_controller p port fetch
  | exit => simp [Controller.feed, feed, cancel_controller]
  | proceed =>
    simp only [Controller.feed, feed, advance_controller]
    cases p.advance <;> rfl
  | loaded t =>
    simp only [Controller.feed, feed, complete_controller]
    cases p.complete t true <;> rfl
  | choose index =>
    simp only [Controller.feed, feed, choose_controller]
    cases p.choose index <;> rfl

end Player

/-- The port that an operation finds: a pump brings its own stage. -/
def Operation.port (op : Operation) (port : Port) : Port :=
  match op with
  | .pump stage => port.answeredBy stage
  | _ => port

/-- An operation does the same on the controller as on the player: it gives the same answer, leaves
the registers of the player after it, and makes the same calls, through the port. -/
theorem Player.operate_controller (p : Player) (port : Port) (op : Operation) :
    (p.controller port).operate op = ((p.operate op).reply,
      (p.operate op).player.controller ((op.port port).after (p.operate op).calls)) := by
  cases op with
  | drain =>
    rw [show (p.operate .drain).calls = [] from rfl, Port.after_nil]
    rfl
  | pump stage =>
    have hport : (p.controller port).answeredBy stage = p.controller (port.answeredBy stage) := rfl
    have hpump := @pump_controller (port.answeredBy stage) p stage rfl
    simp only [Controller.operate, hport, hpump]
    rfl
  | load fetch =>
    simp only [Controller.operate, load_controller, operate]
    cases p.load fetch <;> simp [Operation.port]
  | play fetch a =>
    simp only [Controller.operate, play_controller, operate]
    cases p.play fetch a <;> simp [Operation.port, attempt]
  | refresh fetch =>
    simp only [Controller.operate, refresh_controller, operate]
    cases p.refresh fetch <;> simp [Operation.port, attempt]
  | advance =>
    simp only [Controller.operate, advance_controller, operate]
    cases p.advance <;> simp [Operation.port, attempt?]
  | choose index =>
    simp only [Controller.operate, choose_controller, operate]
    cases p.choose index <;> simp [Operation.port]
  | complete t loaded =>
    simp only [Controller.operate, complete_controller, operate]
    cases p.complete t loaded <;> simp [Operation.port, attempt?]
  | cancel => simp [Controller.operate, cancel_controller, operate, Operation.port]
  | feed fetch input =>
    simp only [Controller.operate, feed_controller, operate]
    cases p.feed fetch input <;> simp [Operation.port, attempt]

/-! ## Whole runs -/

namespace Controller

/-- After a run the registers are those of the player, and the port has got the calls. -/
theorem run_controller (p : Player) (port : Port) (ops : List Operation) :
    ∃ answer, (p.controller port).run ops =
      (p.run ops).controller ⟨answer, port.calls ++ p.calls ops⟩ := by
  induction ops generalizing p port with
  | nil => exact ⟨port.answer, by simp [run]⟩
  | cons op ops ih =>
    have hcalls : (op.port port).calls = port.calls := by cases op <;> rfl
    obtain ⟨answer, hrun⟩ := ih (p.operate op).player ((op.port port).after (p.operate op).calls)
    refine ⟨answer, ?_⟩
    rw [run, List.foldl_cons, Player.operate_controller]
    simpa [run, Port.after, hcalls] using hrun

theorem replies_controller (p : Player) (port : Port) (ops : List Operation) :
    (p.controller port).replies ops = p.replies ops := by
  induction ops generalizing p port with
  | nil => rfl
  | cons op ops ih => rw [replies, Player.operate_controller, ih, Player.replies_cons]

theorem exists_after_eq (stage : Stage) (ops : List Operation) :
    ∃ answer, after stage ops = (Player.after ops).controller ⟨answer, Player.callsMade ops⟩ :=
  run_controller {} { answer := stage } ops

theorem replies_new (stage : Stage) (ops : List Operation) :
    (new stage).replies ops = Player.replies {} ops :=
  replies_controller {} { answer := stage } ops

end Controller

end Dialogue
