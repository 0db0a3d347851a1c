import Dialogue.Proofs.Playback.Operation
import Dialogue.Proofs.Playback.Reference

/-!
# Players whose counters are ahead

A player counts generations and tickets from wherever it stands, and puts events behind those that
are still to be told. So a player with both counters ahead and older events in its queue does what
the player without them does, up to just these.

* `Ticket.shift`, `Call.shift`, `Operation.shift` put the counters of a ticket ahead, wherever
  there is one; the lag is itself a pair of counters, and they run over as tickets do.
* `Player.shift` puts the counters of a player ahead, and older events before those to be told.
* `Player.operate_shift`: doing a shifted operation is doing the operation and shifting what comes
  of it. Only the events that are handed over show the older ones.
-/

namespace Dialogue

/-- The ticket with both counters ahead by those of `lag`. -/
def Ticket.shift (t lag : Ticket) : Ticket :=
  ⟨t.generation + lag.generation, t.id + lag.id⟩

def Call.shift (lag : Ticket) : Call → Call
  | .portrait side key t => .portrait side key (t.shift lag)
  | .background key t => .background key (t.shift lag)
  | .cg key t => .cg key (t.shift lag)
  | call => call

def Phase.shift (lag : Ticket) : Phase → Phase
  | .loading t effects decision => .loading (t.shift lag) effects decision
  | phase => phase

def Progress.shift (lag : Ticket) : Progress → Progress
  | .opening => .opening
  | .within rows cursor phase => .within rows cursor (phase.shift lag)

def Session.shift (lag : Ticket) (s : Session) : Session :=
  ⟨s.generation + lag.generation, s.address, s.progress.shift lag⟩

def Status.shift (lag : Ticket) : Status → Status
  | .live s => .live (s.shift lag)
  | status => status

def Input.shift (lag : Ticket) : Input → Input
  | .loaded t => .loaded (t.shift lag)
  | input => input

def Operation.shift (lag : Ticket) : Operation → Operation
  | .complete t loaded => .complete (t.shift lag) loaded
  | .feed fetch input => .feed fetch (input.shift lag)
  | op => op

/-- The player with both counters ahead, and with older events to be told first. -/
def Player.shift (lag : Ticket) (older : List Event) (p : Player) : Player :=
  { p with
    status := p.status.shift lag
    generation := p.generation + lag.generation
    nextTicket := p.nextTicket + lag.id
    events := older ++ p.events }

/-- The reply with older events handed over first, if it hands over any. -/
def Operation.Reply.shift (older : List Event) : Operation.Reply → Operation.Reply
  | .told events => .told (older ++ events)
  | reply => reply

/-- The older events that are still to be told after this reply. -/
def Operation.Reply.leaves (older : List Event) : Operation.Reply → List Event
  | .told _ => []
  | _ => older

/-- What comes of an operation, if the counters are ahead and older events are to be told. -/
def Turn.shift (lag : Ticket) (older : List Event) (t : Turn) : Turn :=
  ⟨t.player.shift lag (t.reply.leaves older), t.reply.shift older, t.calls.map (.shift lag)⟩

/-- A stage that answers by the kind and the key of the asset alone. -/
def Stage.ByKey (stage : Stage) : Prop :=
  ∀ call call', call.bare = call'.bare → stage call = stage call'

/-! ## Shifting tickets -/

theorem add_swap (a b c : UInt64) : a + b + c = a + c + b := by
  rw [UInt64.add_assoc, UInt64.add_comm b, ← UInt64.add_assoc]

theorem Ticket.shift_inj {t t' : Ticket} (lag : Ticket) : t.shift lag = t'.shift lag ↔ t = t' := by
  cases t
  cases t'
  simp [shift]

theorem Call.bare_shift (lag : Ticket) (call : Call) : (call.shift lag).bare = call.bare := by
  cases call <;> rfl

theorem Stage.ByKey.shift {stage : Stage} (h : stage.ByKey) (lag : Ticket) (call : Call) :
    stage (call.shift lag) = stage call :=
  h _ _ (call.bare_shift lag)

theorem Effect.call_shift (e : Effect) (t lag : Ticket) :
    e.call (t.shift lag) = (e.call t).shift lag := by
  cases e <;> rfl

/-! ## Shifting by nothing -/

@[simp] theorem Ticket.shift_zero (t : Ticket) : t.shift ⟨0, 0⟩ = t := by
  simp [shift]

@[simp] theorem Call.shift_zero (call : Call) : call.shift ⟨0, 0⟩ = call := by
  cases call <;> simp [shift]

@[simp] theorem Progress.shift_zero (progress : Progress) : progress.shift ⟨0, 0⟩ = progress := by
  cases progress with
  | opening => rfl
  | within rows cursor phase => cases phase <;> simp [shift, Phase.shift]

@[simp] theorem Session.shift_zero (s : Session) : s.shift ⟨0, 0⟩ = s := by
  simp [shift]

@[simp] theorem Status.shift_zero (status : Status) : status.shift ⟨0, 0⟩ = status := by
  cases status <;> simp [shift]

@[simp] theorem Operation.shift_zero (op : Operation) : op.shift ⟨0, 0⟩ = op := by
  cases op with
  | feed fetch input => cases input <;> simp [shift, Input.shift]
  | _ => simp [shift]

/-- A player is the one with nothing to be told, with its events put before. -/
theorem Player.shift_drain (p : Player) : p.drain.2.shift ⟨0, 0⟩ p.events = p := by
  simp [shift, drain]

/-! ## What is seen of a shifted player -/

namespace Player

variable (lag : Ticket) (older : List Event) (p : Player)

@[simp] theorem script_shift : (p.shift lag older).script = p.script := rfl

@[simp] theorem lastPlayed_shift : (p.shift lag older).lastPlayed = p.lastPlayed := rfl

@[simp] theorem rowsAt?_shift (a : Address) : (p.shift lag older).rowsAt? a = p.rowsAt? a := rfl

theorem status_shift_live {p : Player} {s : Session} (hs : p.status = .live s) :
    (p.shift lag older).status = .live (s.shift lag) := by
  rw [shift, hs]
  rfl

@[simp] theorem session?_shift :
    (p.shift lag older).session? = p.session?.map (Session.shift lag) := by
  cases hs : p.status <;> simp [session?, shift, Status.shift, hs]

end Player

namespace Session

variable (lag : Ticket) (s : Session)

@[simp] theorem address_shift : (s.shift lag).address = s.address := rfl

theorem progress_shift {s : Session} {rows : List Row} {cursor : Nat} {phase : Phase}
    (hp : s.progress = .within rows cursor phase) :
    (s.shift lag).progress = .within rows cursor (phase.shift lag) := by
  simp [shift, Progress.shift, hp]

@[simp] theorem state_shift : (s.shift lag).state = s.state := by
  cases hp : s.progress with
  | opening => simp [state, shift, Progress.shift, hp]
  | within rows cursor phase =>
    cases phase <;> simp [state, shift, Progress.shift, Phase.shift, Phase.state, hp]

@[simp] theorem cursor_shift : (s.shift lag).cursor = s.cursor := by
  cases hp : s.progress <;> simp [cursor, shift, Progress.shift, hp]

@[simp] theorem pendingChoices_shift : (s.shift lag).pendingChoices = s.pendingChoices := by
  cases hp : s.progress with
  | opening => simp [pendingChoices, shift, Progress.shift, hp]
  | within rows cursor phase =>
    cases phase <;> simp [pendingChoices, shift, Progress.shift, Phase.shift, hp]

end Session

namespace Player

variable {lag : Ticket} {older : List Event} {p : Player}

@[simp] theorem state_shift : (p.shift lag older).state = p.state := by
  cases hs : p.status <;> simp [state, shift, Status.shift, hs]

@[simp] theorem pendingChoices_shift : (p.shift lag older).pendingChoices = p.pendingChoices := by
  cases hs : p.status <;> simp [pendingChoices, shift, Status.shift, hs]

/-! ## Sessions begin and end -/

theorem announce_shift (e : Event) :
    (p.shift lag older).announce e = (p.announce e).shift lag older := by
  simp [announce, shift]

theorem start_shift (a : Address) : (p.shift lag older).start a = (p.start a).shift lag older := by
  simp [start, shift, Status.shift, Session.shift, Progress.shift, add_swap]

theorem cancel_shift : (p.shift lag older).cancel = p.cancel.shift lag older := by
  cases hs : p.status <;>
    simp [cancel, shift, Status.shift, Session.shift, announce, hs, add_swap]

theorem finish_shift (s : Session) :
    (p.shift lag older).finish (s.shift lag) = (p.finish s).shift lag older := by
  simp [finish, announce, shift, Status.shift]

theorem handOver_shift (s : Session) (branch : Int32) :
    (p.shift lag older).handOver (s.shift lag) branch = (p.handOver s branch).shift lag older := by
  rw [handOver, announce_shift, start_shift]
  rfl

theorem place_shift (s : Session) (rows : List Row) (cursor : Nat) (phase : Phase) :
    (p.shift lag older).place (s.shift lag) rows cursor (phase.shift lag) =
      (p.place s rows cursor phase).shift lag older := rfl

/-! ## Operations -/

theorem load_shift (fetch : Fetch) : (p.shift lag older).load fetch =
    (p.load fetch).map fun loaded => (loaded.1, loaded.2.shift lag older) := by
  unfold load
  rw [script_shift]
  cases p.script with
  | some script => rfl
  | none => cases fetch false <;> rfl

theorem play_shift (fetch : Fetch) (a : Address) :
    (p.shift lag older).play fetch a = (p.play fetch a).map (shift lag older) := by
  unfold play
  rw [load_shift]
  cases p.load fetch with
  | error e => rfl
  | ok loaded => simp [Except.map, cancel_shift, start_shift]

theorem refresh_shift (fetch : Fetch) :
    (p.shift lag older).refresh fetch = (p.refresh fetch).map (shift lag older) := by
  unfold refresh
  cases fetch true with
  | error e => rfl
  | ok rows =>
    dsimp only
    have hcancel := @cancel_shift lag older (p.withScript (.ofRows rows))
    have hscript : { p.shift lag older with script := some (.ofRows rows) } =
      (p.withScript (.ofRows rows)).shift lag older := rfl
    rw [hscript, hcancel, lastPlayed_shift]
    cases h : p.lastPlayed <;> simp [withScript, lastPlayed_cancel, h, Except.map, start_shift]

theorem advance_shift :
    (p.shift lag older).advance = p.advance.map (shift lag older) := by
  cases hs : p.status with
  | idle | completed | canceled => simp [advance, shift, Status.shift, hs]
  | live s =>
    cases hp : s.progress with
    | opening => simp [advance, shift, Status.shift, Session.shift, Progress.shift, hs, hp]
    | within rows cursor phase =>
      cases phase <;>
        simp [advance, shift, Status.shift, Session.shift, Progress.shift, Phase.shift, hs, hp]

theorem choose_shift (index : Nat) : (p.shift lag older).choose index =
    (p.choose index).map fun chosen => (chosen.1, chosen.2.shift lag older) := by
  cases hs : p.status with
  | idle | completed | canceled => simp [choose, shift, Status.shift, hs, Except.map]
  | live s =>
    simp only [choose, status_shift_live lag older hs, hs]
    cases hp : s.progress with
    | opening => simp [Session.shift, Progress.shift, hp, Except.map]
    | within rows cursor phase =>
      cases phase with
      | choosing options =>
        simp only [Session.progress_shift lag hp, Phase.shift]
        cases options[index]? <;> simp [Except.map, handOver_shift]
      | entering | acting | loading | reading =>
        simp [Session.shift, Progress.shift, Phase.shift, hp, Except.map]

theorem complete_shift (t : Ticket) (loaded : Bool) :
    (p.shift lag older).complete (t.shift lag) loaded =
      (p.complete t loaded).map (shift lag older) := by
  cases hs : p.status with
  | idle | completed | canceled => simp [complete, shift, Status.shift, hs]
  | live s =>
    cases hp : s.progress with
    | opening => simp [complete, shift, Status.shift, Session.shift, Progress.shift, hs, hp]
    | within rows cursor phase =>
      cases phase with
      | loading t' es d =>
        by_cases ht : t' = t <;>
          simp [complete, shift, Status.shift, Session.shift, Progress.shift, Phase.shift,
            Ticket.shift_inj, hs, hp, ht]
      | entering | acting | reading | choosing =>
        simp [complete, shift, Status.shift, Session.shift, Progress.shift, Phase.shift, hs, hp]

theorem feed_shift (fetch : Fetch) (input : Input) :
    (p.shift lag older).feed fetch (input.shift lag) =
      (p.feed fetch input).map (shift lag older) := by
  cases input with
  | jump a => exact play_shift fetch a
  | refresh => exact refresh_shift fetch
  | exit => exact congrArg Except.ok cancel_shift
  | proceed =>
    simp only [feed, Input.shift, advance_shift]
    cases p.advance <;> rfl
  | loaded t =>
    simp only [feed, Input.shift, complete_shift]
    cases p.complete t true <;> rfl
  | choose index =>
    simp only [feed, Input.shift, choose_shift]
    cases p.choose index <;> rfl

/-! ## Units of work -/

variable {stage : Stage}

theorem enter_shift (s : Session) (rows : List Row) (cursor : Nat) :
    (p.shift lag older).enter (s.shift lag) rows cursor =
      (p.enter s rows cursor).shift lag older := by
  unfold enter
  cases rows[cursor]? with
  | none => exact finish_shift s
  | some row =>
    dsimp only
    rw [announce_shift, ← place_shift]
    rfl

theorem perform_shift (hstage : ∀ call, stage (call.shift lag) = stage call) (s : Session)
    (rows : List Row) (cursor : Nat) (e : Effect) (es : List Effect) (d : Decision) :
    (p.shift lag older).perform stage (s.shift lag) rows cursor e es d =
      ((p.perform stage s rows cursor e es d).1.shift lag older,
        (p.perform stage s rows cursor e es d).2.map (.shift lag)) := by
  have hticket : (⟨(s.shift lag).generation, (p.shift lag older).nextTicket⟩ : Ticket) =
      Ticket.shift ⟨s.generation, p.nextTicket⟩ lag := rfl
  simp only [perform, hticket, e.call_shift, hstage]
  by_cases hwaits : e.waits = true ∧ stage (e.call ⟨s.generation, p.nextTicket⟩) = .pending
  · simp [hwaits, place, shift, Status.shift, Session.shift, Progress.shift, Phase.shift,
      add_swap]
  · simp [hwaits, place, shift, Status.shift, Session.shift, Progress.shift, Phase.shift,
      add_swap]

theorem decide_shift (s : Session) (rows : List Row) (cursor : Nat) (d : Decision) :
    (p.shift lag older).decide (s.shift lag) rows cursor d =
      ((p.decide s rows cursor d).1.shift lag older,
        (p.decide s rows cursor d).2.map (.shift lag)) := by
  cases d with
  | stop => simp [decide, finish_shift]
  | handOver branch => simp [decide, handOver_shift]
  | proceed | awaitReader | awaitChoice => rfl

theorem step_shift (hstage : ∀ call, stage (call.shift lag) = stage call) :
    (p.shift lag older).step stage =
      ((p.step stage).1.shift lag older, (p.step stage).2.map (.shift lag)) := by
  cases hs : p.status with
  | idle | completed | canceled => simp [step, shift, Status.shift, hs]
  | live s =>
    simp only [step, status_shift_live lag older hs, hs]
    cases hp : s.progress with
    | opening =>
      simp only [Session.shift, Progress.shift, hp, rowsAt?_shift]
      cases p.rowsAt? s.address with
      | none => exact congrArg (·, []) (finish_shift s)
      | some rows => rfl
    | within rows cursor phase =>
      cases phase with
      | entering =>
        simp only [Session.progress_shift lag hp, Phase.shift, enter_shift, List.map_nil]
      | acting es d =>
        simp only [Session.progress_shift lag hp, Phase.shift]
        cases es with
        | nil => exact decide_shift s rows cursor d
        | cons e es => exact perform_shift hstage s rows cursor e es d
      | loading | reading | choosing => simp [Session.shift, Progress.shift, Phase.shift, hp]

theorem pump_shift (hstage : ∀ call, stage (call.shift lag) = stage call) (p : Player) :
    (p.shift lag older).pump stage =
      ((p.pump stage).1.shift lag older, (p.pump stage).2.map (.shift lag)) := by
  induction p using Player.pump.induct stage with
  | case1 p hplay _ ih =>
    have hplay' : (p.shift lag older).state = .playing := state_shift.trans hplay
    rw [pump_of_playing stage hplay, pump_of_playing stage hplay', step_shift hstage, ih]
    simp
  | case2 p hstop =>
    have hstop' : (p.shift lag older).state ≠ .playing := fun h => hstop (state_shift.symm.trans h)
    rw [pump_of_not_playing stage hstop, pump_of_not_playing stage hstop']
    rfl

/-! ## Any operation -/

theorem attempt_shift (result : Except PlaybackError Player) :
    (p.shift lag older).attempt (result.map (shift lag older)) =
      (p.attempt result).shift lag older := by
  cases result <;> rfl

theorem attempt?_shift (result : Option Player) :
    (p.shift lag older).attempt? (result.map (shift lag older)) =
      (p.attempt? result).shift lag older := by
  cases result <;> rfl

/-- Doing a shifted operation is doing the operation, and shifting what comes of it. -/
theorem operate_shift {op : Operation} (hstage : ∀ call, op.stage (call.shift lag) = op.stage call)
    (p : Player) :
    (p.shift lag older).operate (op.shift lag) = (p.operate op).shift lag older := by
  cases op with
  | play fetch a =>
    simp only [operate, Operation.shift, play_shift]
    exact attempt_shift _
  | refresh fetch =>
    simp only [operate, Operation.shift, refresh_shift]
    exact attempt_shift _
  | feed fetch input =>
    simp only [operate, Operation.shift, feed_shift]
    exact attempt_shift _
  | advance =>
    simp only [operate, Operation.shift, advance_shift]
    exact attempt?_shift _
  | complete t loaded =>
    simp only [operate, Operation.shift, complete_shift]
    exact attempt?_shift _
  | load fetch =>
    simp only [operate, Operation.shift, load_shift]
    cases p.load fetch <;> rfl
  | choose index =>
    simp only [operate, Operation.shift, choose_shift]
    cases p.choose index <;> rfl
  | cancel =>
    simp only [operate, Operation.shift, cancel_shift, session?_shift, Option.isSome_map]
    rfl
  | pump stage =>
    have hpump := @pump_shift lag older stage hstage p
    simp only [operate, Operation.shift, hpump, state_shift]
    rfl
  | drain => rfl

end Player

end Dialogue
