import Dialogue.Proofs.Playback.Runs

/-!
# When assets load

A host that waits for assets by itself is not touched by when they load. Where the stage answers
that an asset is loading, the player waits, the host says at once that it is there, and the player
goes on as it would have done.

* `Player.settle` takes the player past the asset that it waits for.
* `Player.pump_settle`: playing on past all that loads is playing where nothing loads.
* `Host.Blocks` is what is needed of a host; `Host.blocking` is one that answers from a list.
* `Host.runs_blocking`: its runs come to the same whatever the stage answers.
-/

namespace Dialogue

/-- The phase with the asset that is loading there. -/
def Phase.settle : Phase → Phase
  | .loading _ effects decision => .acting effects decision
  | phase => phase

def Status.settle : Status → Status
  | .live ⟨generation, a, .within rows cursor phase⟩ =>
    .live ⟨generation, a, .within rows cursor phase.settle⟩
  | status => status

theorem Status.settle_settle (status : Status) : status.settle.settle = status.settle := by
  rcases status with _ | ⟨_, _, _ | ⟨_, _, phase⟩⟩ | _ | _
  case live.within => cases phase <;> rfl
  all_goals rfl

namespace Player

/-- The player with the asset that it waits for there. -/
def settle (p : Player) : Player :=
  { p with status := p.status.settle }

variable {p q : Player} {op : Operation}

theorem settle_settle (p : Player) : p.settle.settle = p.settle := by
  simp [settle, Status.settle_settle]

/-- A player that waits for no asset is settled. -/
theorem settle_eq_self (h : ∀ t, p.question? ≠ some (.asset t)) : p.settle = p := by
  suffices hstatus : p.status.settle = p.status by rw [settle, hstatus]
  cases hs : p.status with
  | idle | completed | canceled => rfl
  | live s =>
    obtain ⟨generation, a, progress⟩ := s
    cases progress with
    | opening => rfl
    | within rows cursor phase =>
      cases phase with
      | loading t es d => exact absurd (by simp [question?, hs]) (h t)
      | entering | acting | reading | choosing => rfl

theorem settle_of_playing (h : p.state = .playing) : p.settle = p := by
  refine settle_eq_self fun t ht => ?_
  cases hs : p.status with
  | idle | completed | canceled => simp [question?, hs] at ht
  | live s =>
    rw [state_live hs] at h
    cases hp : s.progress with
    | opening => simp [question?, hs, hp] at ht
    | within rows cursor phase =>
      cases phase <;> simp [question?, Session.state, Phase.state, hs, hp] at ht h

/-- What becomes of a player that waits for an asset once that is there. -/
theorem complete_asked {t : Ticket} (h : p.question? = some (.asset t)) (loaded : Bool) :
    p.complete t loaded = some p.settle := by
  cases hs : p.status with
  | idle | completed | canceled => simp [question?, hs] at h
  | live s =>
    obtain ⟨generation, a, progress⟩ := s
    cases progress with
    | opening => simp [question?, hs] at h
    | within rows cursor phase =>
      cases phase with
      | loading t' es d =>
        obtain rfl : t' = t := by simpa [question?, hs] using h
        simp [complete, settle, Status.settle, Phase.settle, hs]
      | entering | acting | reading | choosing => simp [question?, hs] at h

/-! ## Playing on past what loads -/

/-- A step where everything is there is a step, with what then loads there at once. -/
theorem step_settle (stage : Stage) (hplay : p.state = .playing) :
    p.step readyStage = ((p.step stage).1.settle, (p.step stage).2) := by
  cases hs : p.status with
  | idle | completed | canceled => simp [state, hs] at hplay
  | live s =>
    rw [state_live hs] at hplay
    simp only [step, hs]
    cases hp : s.progress with
    | opening =>
      dsimp only
      cases p.rowsAt? s.address <;> rfl
    | within rows cursor phase =>
      cases phase with
      | entering =>
        dsimp only [enter]
        cases rows[cursor]? <;> rfl
      | acting es d =>
        cases es with
        | nil => cases d <;> rfl
        | cons e es =>
          by_cases hwaits : e.waits ∧ stage (e.call ⟨s.generation, p.nextTicket⟩) = .pending
          · simp [perform, hwaits, readyStage, settle, Status.settle, Phase.settle, place]
          · simp [perform, hwaits, readyStage, settle, Status.settle, Phase.settle, place]
      | loading | reading | choosing => simp [Session.state, Phase.state, hp] at hplay

/-- A pump where everything is there does what a pump does, and goes on from where that leaves the
player, with what is loading there. -/
theorem pump_settle (stage : Stage) (p : Player) :
    p.settle.pump readyStage =
      (((p.pump stage).1.settle.pump readyStage).1,
        (p.pump stage).2 ++ ((p.pump stage).1.settle.pump readyStage).2) := by
  induction p using Player.pump.induct stage with
  | case2 p hstop =>
    rw [pump_of_not_playing stage hstop]
    rfl
  | case1 p hplay _ ih =>
    rw [settle_of_playing hplay, pump_of_playing readyStage hplay, step_settle stage hplay, ih,
      pump_of_playing stage hplay, List.append_assoc]

/-- A pump plays on behind the events that are to be told. -/
theorem pump_drain (stage : Stage) (p : Player) :
    p.pump stage =
      ((p.drain.2.pump stage).1.shift ⟨0, 0⟩ p.events, (p.drain.2.pump stage).2) := by
  have hshift := @pump_shift ⟨0, 0⟩ p.events stage (fun call => congrArg _ call.shift_zero) p.drain.2
  rwa [shift_drain, List.map_id'' Call.shift_zero] at hshift

theorem question?_cancel (p : Player) : p.cancel.question? = none := by
  cases hs : p.status <;> simp [cancel, question?, hs]

/-- Only a pump makes a player wait for an asset. -/
theorem Leads.awaits_no_asset (h : p.Leads op q) (hp : ∀ t, p.question? ≠ some (.asset t))
    (t : Ticket) : q.question? ≠ some (.asset t) := by
  have hcancel := question?_cancel p
  cases h with
  | same | loaded => exact hp t
  | restarted | handedOver => simp [start, handOver, question?]
  | refreshed script' => exact fun ht => absurd (hcancel.symm.trans ht) (by simp)
  | canceled => simp [hcancel]
  | @placed s phase hs rows cursor hphase =>
    cases phase <;> simp [place, question?, Phase.state] at hphase ⊢

end Player

namespace Host

variable {World : Type}

/-- The host on a stage where everything is there. -/
def ready (h : Host World) : Host World :=
  { h with stage := fun _ => readyStage }

/-- A host that waits for assets by itself, and for which calls and events are apart. -/
structure Blocks (h : Host World) : Prop where
  ask_asset : ∀ t w, h.ask (.asset t) w = (.loaded t, w)
  perform_append : ∀ calls calls' w,
    h.perform (calls ++ calls') w = h.perform calls' (h.perform calls w)
  perform_notify : ∀ calls event w,
    h.perform calls (h.notify event w) = h.notify event (h.perform calls w)

variable {h : Host World} {p q : Player} {w v : World}

theorem Blocks.perform_foldl (hb : h.Blocks) (calls : List Call) (events : List Event)
    (w : World) :
    h.perform calls (events.foldl (fun w event => h.notify event w) w) =
      events.foldl (fun w event => h.notify event w) (h.perform calls w) := by
  induction events generalizing w with
  | nil => rfl
  | cons event events ih => rw [List.foldl_cons, ih, hb.perform_notify, List.foldl_cons]

/-- Older events are told first. -/
theorem deliver_shift (h : Host World) (p : Player) (older : List Event) (w : World) :
    h.deliver (p.shift ⟨0, 0⟩ older) w =
      h.deliver p (older.foldl (fun w event => h.notify event w) w) := by
  simp [deliver, Player.drain, Player.shift, List.foldl_append]

/-- A turn after which no asset is awaited is the same where everything is there. -/
theorem ready_turn_settled (hturn : h.turn p w = (q, v))
    (hsettled : ∀ t, q.question? ≠ some (.asset t)) : h.ready.turn p.settle w = (q, v) := by
  have hr : (p.pump (h.stage w)).1.settle = (p.pump (h.stage w)).1 := by
    cases hturn
    exact Player.settle_eq_self hsettled
  have hstop := Player.state_pump_ne_playing (h.stage w) p
  have hpump : p.settle.pump readyStage = p.pump (h.stage w) := by
    rw [Player.pump_settle (h.stage w), hr, Player.pump_of_not_playing readyStage hstop,
      List.append_nil]
  show h.deliver (p.settle.pump readyStage).1 (h.perform (p.settle.pump readyStage).2 w) = (q, v)
  rw [hpump]
  exact hturn

/-- The turn where everything is there does what a turn does, and then what the turn does that
finds the asset there. -/
theorem Blocks.ready_turn (hb : h.Blocks) (hturn : h.turn p w = (q, v)) :
    h.ready.turn p.settle w = h.ready.turn q.settle v := by
  show h.deliver (p.settle.pump readyStage).1 (h.perform (p.settle.pump readyStage).2 w) =
    h.deliver (q.settle.pump readyStage).1 (h.perform (q.settle.pump readyStage).2 v)
  cases hturn
  rw [Player.pump_settle (h.stage w) p, Player.pump_drain readyStage (p.pump (h.stage w)).1.settle,
    deliver_shift, hb.perform_append, ← hb.perform_foldl]
  rfl

theorem loop_congr {p' : Player} {w' : World} (hturn : h.turn p w = h.turn p' w') :
    h.loop p w = h.loop p' w' := by
  rw [loop, loop, hturn]

/-- The end of the awaited load settles the player. -/
theorem give_loaded {t : Ticket} (hasks : p.question? = some (.asset t)) (w : World) :
    h.give (.loaded t) p w = (p.settle, w) := by
  rw [give_eq]
  show ((p.attempt (.ok ((p.complete t true).getD p))).player, w) = (p.settle, w)
  rw [Player.complete_asked hasks]
  rfl

theorem settle_give (hasks : ∀ t, p.question? ≠ some (.asset t)) (answer : Input) (w : World) :
    (h.give answer p w).1.settle = (h.give answer p w).1 := by
  rw [give_eq]
  exact Player.settle_eq_self
    ((Player.operate_leads (by simp) (by simp) p).awaits_no_asset hasks)

/-- The loop comes to the same where everything is there. -/
theorem Blocks.loop_ready (hb : h.Blocks) (p : Player) (w : World) :
    h.ready.loop p.settle w = h.loop p w := by
  -- on the rounds of the host as it is; where everything is there, the player is settled already
  induction p, w using Host.loop.induct h with
  | case1 p w next hover =>
    have hsettled : ∀ t, next.1.question? ≠ some (.asset t) := by simp [hover]
    rw [loop_of_ended rfl hover]
    exact loop_of_ended (ready_turn_settled rfl hsettled) hover
  | case2 p w next question hwaits answer hexit =>
    have hask : h.ask question next.2 = (.exit, answer.2) := Prod.ext hexit rfl
    have hsettled : ∀ t, next.1.question? ≠ some (.asset t) := by
      intro t ht
      obtain rfl := Option.some.inj (hwaits.symm.trans ht)
      rw [hb.ask_asset] at hask
      cases hask
    rw [loop_of_left rfl hwaits hask]
    exact loop_of_left (ready_turn_settled rfl hsettled) hwaits hask
  | case3 p w next question hwaits answer hstays ih =>
    have hloop : h.loop p w = h.loop (h.give answer.1 next.1 answer.2).1
        (h.give answer.1 next.1 answer.2).2 := loop_of_next rfl hwaits rfl hstays
    by_cases hsettled : ∀ t, question ≠ .asset t
    · have hnext : ∀ t, next.1.question? ≠ some (.asset t) := by
        intro t ht
        exact hsettled t (Option.some.inj (hwaits.symm.trans ht))
      rw [settle_give hnext] at ih
      calc h.ready.loop p.settle w
          = h.ready.loop (h.give answer.1 next.1 answer.2).1
              (h.give answer.1 next.1 answer.2).2 :=
            loop_of_next (ready_turn_settled rfl hnext) hwaits rfl hstays
        _ = h.loop p w := ih.trans hloop.symm
    · obtain ⟨t, rfl⟩ := not_forall_not.1 hsettled
      have hanswer : answer = (.loaded t, next.2) := hb.ask_asset t next.2
      rw [hanswer, give_loaded hwaits] at ih hloop
      rw [Player.settle_settle] at ih
      -- this turn and the next are one turn where everything is there
      calc h.ready.loop p.settle w
          = h.ready.loop next.1.settle next.2 := loop_congr (hb.ready_turn rfl)
        _ = h.loop p w := ih.trans hloop.symm

/-! ## Runs -/

theorem Blocks.run_ready (hb : h.Blocks) (a : Address) (p : Player) (w : World) :
    h.ready.run a p w = h.run a p w := by
  cases hplay : p.play (h.rows w) a with
  | error e =>
    have hready : p.play (h.ready.rows w) a = .error e := hplay
    rw [run_of_failed hplay, run_of_failed hready]
    rfl
  | ok begun =>
    have hready : p.play (h.ready.rows w) a = .ok begun := hplay
    have hsettled : begun.settle = begun := by
      obtain ⟨_, _, _, rfl⟩ := Player.play_ok hplay
      rfl
    have hloop := hb.loop_ready begun (h.supply (p.asks (.jump a)) w).2
    rw [hsettled] at hloop
    rw [run_of_played hplay, run_of_played hready, ← hloop]
    rfl

theorem Blocks.runs_ready (hb : h.Blocks) (as : List Address) (p : Player) (w : World) :
    h.ready.runs as p w = h.runs as p w := by
  induction as generalizing p w with
  | nil => rfl
  | cons a as ih => rw [runs, runs, hb.run_ready, ih]

/-! ## A host that answers from a list -/

/-- The world of a host that answers from a list. -/
structure Desk (Source : Type) where
  /-- Where the rows come from. -/
  source : Source
  /-- The answers that are left. -/
  inputs : List Input
  log : Log := {}

namespace Desk

variable {Source : Type}

def write (w : Desk Source) (more : Log) : Desk Source :=
  { w with log := w.log.write more }

/-- Puts a question to the reader, who leaves when no answer is left. -/
def ask (question : Question) (w : Desk Source) : Input × Desk Source :=
  match w.inputs with
  | [] => (.exit, w.write { answers := [(question, .exit)] })
  | input :: inputs => (input, { w with inputs }.write { answers := [(question, input)] })

theorem ask_settles (question : Question) (w : Desk Source) :
    (w.ask question).1 = .exit ∨ (w.ask question).2.inputs.length < w.inputs.length := by
  unfold ask
  split
  · exact Or.inl rfl
  · rename_i hinputs
    exact Or.inr (by simp [write, hinputs])

end Desk

variable {Source : Type}

/-- A host that puts its questions to the reader, but waits for assets by itself. The stage may
answer each time as it likes. -/
def blocking (fetch : Bool → Source → Except SourceError (List Row) × Source)
    (stage : Desk Source → Stage) : Host (Desk Source) where
  fetch force w :=
    ((fetch force w.source).1,
      { w with source := (fetch force w.source).2 }.write { loads := [force] })
  stage := stage
  perform calls w := w.write { calls }
  notify event w := w.write { events := [event] }
  ask
    | .asset ticket, w => (.loaded ticket, w)
    | question, w => w.ask question
  answers w := w.inputs.length
  answers_fetch_le _ _ := Nat.le_refl _
  answers_perform_le _ _ := Nat.le_refl _
  answers_notify_le _ _ := Nat.le_refl _
  ask_settles question w := by
    cases question with
    | asset ticket => exact Or.inr (Or.inr ⟨rfl, Nat.le_refl _⟩)
    | proceed | choice => exact (Desk.ask_settles _ w).imp_right Or.inl

theorem blocks_blocking (fetch : Bool → Source → Except SourceError (List Row) × Source)
    (stage : Desk Source → Stage) : (blocking fetch stage).Blocks where
  ask_asset _ _ := rfl
  perform_append calls calls' w := by simp [blocking, Desk.write, Log.write]
  perform_notify calls event w := by simp [blocking, Desk.write, Log.write]

/-- Nobody who plays on a host that waits for assets by itself can tell when they load. Whatever
the stage answers, all runs give the same results, leave the same player, and make the host write
down the same loads, calls, events, and questions with their answers, as where everything is
there. -/
theorem runs_blocking (fetch : Bool → Source → Except SourceError (List Row) × Source)
    (stage : Desk Source → Stage) (as : List Address) (p : Player) (w : Desk Source) :
    (blocking fetch stage).runs as p w = (blocking fetch fun _ => readyStage).runs as p w :=
  ((blocks_blocking fetch stage).runs_ready as p w).symm

end Host

end Dialogue
