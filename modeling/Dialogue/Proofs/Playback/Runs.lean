import Dialogue.Playback.Rehearsal
import Dialogue.Proofs.Playback.Rounds

/-!
# The runs of a host

What a run of a host leaves, and what the host wrote down of it.

* `Host.recorded` is a host that keeps a `Log` beside its world; nothing else changes by that.
* `Host.Rounds.logged`: the log says what the rounds did on the player.
* `Host.run_ends`: every run ends, however many went before it. It leaves no session and nothing
  to be told, and what it told is all that was announced; a run that fails did nothing but ask for
  the script.
-/

namespace Dialogue

namespace Host

variable {World : Type}

/-- Plays addresses one after another: the results, and the player and the world after them. -/
def runs (h : Host World) : List Address → Player → World →
    List (Except PlaybackError State) × Player × World
  | [], p, w => ([], p, w)
  | a :: as, p, w =>
    let first := h.run a p w
    let rest := h.runs as first.2.1 first.2.2
    (first.1 :: rest.1, rest.2)

/-! ## Keeping a log -/

/-- What a host writes down of its dealings with a player. -/
structure Log where
  /-- The flags under which rows were asked for. -/
  loads : List Bool := []
  calls : List Call := []
  events : List Event := []
  answers : List (Question × Input) := []

/-- The log with more written down behind it. -/
def Log.write (log more : Log) : Log :=
  ⟨log.loads ++ more.loads, log.calls ++ more.calls, log.events ++ more.events,
    log.answers ++ more.answers⟩

@[simp] theorem Log.write_new (log : Log) : log.write {} = log := by
  simp [write]

theorem Log.write_write (log more rest : Log) :
    (log.write more).write rest = log.write (more.write rest) := by
  simp [write]

variable {h : Host World} {p p' : Player} {w w' : World} {ops : List Operation}

/-- The host that does the same, and keeps a log beside its world. -/
def recorded (h : Host World) : Host (World × Log) where
  fetch force w :=
    ((h.fetch force w.1).1, (h.fetch force w.1).2, w.2.write { loads := [force] })
  stage w := h.stage w.1
  perform calls w := (h.perform calls w.1, w.2.write { calls })
  notify event w := (h.notify event w.1, w.2.write { events := [event] })
  ask q w := ((h.ask q w.1).1, (h.ask q w.1).2, w.2.write { answers := [(q, (h.ask q w.1).1)] })
  answers w := h.answers w.1
  answers_fetch_le force w := h.answers_fetch_le force w.1
  answers_perform_le calls w := h.answers_perform_le calls w.1
  answers_notify_le event w := h.answers_notify_le event w.1
  ask_settles q w := h.ask_settles q w.1

section

variable {q : Player} {v u : World} {question : Question} {answer : Input} (log : Log)

theorem recorded_deliver (hdeliver : h.deliver p w = (q, v)) :
    h.recorded.deliver p (w, log) = (q, v, log.write { events := p.events }) := by
  have hfold : ∀ (events : List Event) (w : World) (log : Log),
      events.foldl (fun w event => h.recorded.notify event w) (w, log) =
        (events.foldl (fun w event => h.notify event w) w, log.write { events }) := by
    intro events
    induction events with
    | nil => exact fun w log => congrArg (w, ·) log.write_new.symm
    | cons event events ih =>
      intro w log
      rw [List.foldl_cons, List.foldl_cons]
      refine (ih _ _).trans ?_
      rw [Log.write_write]
      rfl
  cases hdeliver
  exact congrArg (p.drain.2, ·) (hfold p.events w log)

theorem recorded_turn (hturn : h.turn p w = (q, v)) :
    h.recorded.turn p (w, log) = (q, v, log.write {
      calls := (p.pump (h.stage w)).2
      events := (p.pump (h.stage w)).1.events }) := by
  refine (recorded_deliver _ hturn).trans ?_
  rw [Log.write_write]
  simp only [Log.write, List.append_nil, List.nil_append]
  rfl

theorem recorded_ask (hask : h.ask question w = (answer, u)) :
    h.recorded.ask question (w, log) = (answer, u, log.write { answers := [(question, answer)] }) := by
  simp [recorded, hask]

theorem recorded_supply (need : Option Bool) : h.recorded.supply need (w, log) =
    ((h.supply need w).1, (h.supply need w).2, log.write { loads := need.toList }) := by
  cases need with
  | none => exact congrArg (_, w, ·) log.write_new.symm
  | some force => rfl

theorem recorded_give (hgive : h.give answer p w = (q, v)) :
    h.recorded.give answer p (w, log) =
      (q, v, log.write { loads := (p.asks answer).toList }) := by
  rw [give_eq] at hgive ⊢
  cases hgive
  rw [recorded_supply]
  rfl

end

/-- A host that keeps a log has the same rounds, and the log says what they did. -/
theorem Rounds.logged (hr : h.Rounds p w ops p' w') (log : Log) :
    ∃ more : Log, h.recorded.Rounds p (w, log) ops p' (w', log.write more) ∧
      more.calls = p.calls ops ∧ more.events = p.told ops ∧
      more.answers.map Prod.snd = ops.filterMap Operation.answer? := by
  induction hr generalizing log with
  | ended hturn hover =>
    refine ⟨_, .ended (recorded_turn log hturn) hover, ?_, ?_, ?_⟩
    · simp [Player.operate]
    · simp [Player.operate, Player.drain, Operation.Reply.events]
    · rfl
  | @left p q p' w v u w' question hturn hwaits hask hdeliver =>
    have hrounds := Rounds.left (recorded_turn log hturn) hwaits (recorded_ask _ hask)
      (recorded_deliver _ hdeliver)
    rw [Log.write_write, Log.write_write] at hrounds
    refine ⟨_, hrounds, ?_, ?_, rfl⟩
    · simp [Log.write, Player.operate]
    · obtain rfl := player_of_turn hturn
      simp [Log.write, Player.operate, Player.drain, Operation.Reply.events]
  | @next p q r p' w v u t w' question answer ops hturn hwaits hask hstays hgive _ ih =>
    obtain ⟨more, hrest, hcalls, hevents, hanswers⟩ := ih _
    have hrounds := Rounds.next (recorded_turn log hturn) hwaits (recorded_ask _ hask) hstays
      (recorded_give _ hgive) hrest
    obtain rfl := player_of_turn hturn
    obtain rfl := player_of_give hgive
    rw [Log.write_write, Log.write_write, Log.write_write] at hrounds
    refine ⟨_, hrounds, ?_, ?_, ?_⟩
    · have hfeed : ∀ q : Player, (q.operate (.feed (h.rows u) answer)).calls = [] :=
        Player.operate_no_calls (by simp)
      rw [Player.calls_cons, Player.calls_cons, Player.calls_cons, hfeed]
      simp [Log.write, hcalls, Player.operate]
    · have hfeed : ∀ q : Player, (q.operate (.feed (h.rows u) answer)).reply.events = [] :=
        Player.operate_events (by simp)
      rw [Player.told_cons, Player.told_cons, Player.told_cons, hfeed]
      simp [Log.write, hevents, Player.operate, Player.drain, Operation.Reply.events]
    · simp [Log.write, hanswers, Operation.answer?, List.filterMap_cons]

end Host

/-! ## A run plays, or fails to load -/

namespace Player

variable {p begun : Player} {fetch : Fetch} {a : Address}

theorem play_error {e : PlaybackError} (h : p.play fetch a = .error e) :
    ∃ cause, p.script = none ∧ fetch false = .error cause ∧ e = .sourceUnavailable cause := by
  cases hscript : p.script with
  | some script => simp [play, load, hscript] at h
  | none =>
    cases hrows : fetch false with
    | ok rows => simp [play, load, hscript, hrows] at h
    | error cause =>
      simp only [play, load, hscript, hrows] at h
      cases h
      exact ⟨cause, rfl, rfl, rfl⟩

/-- A play leaves a player in order, with a session that begins. -/
theorem sound_of_play (h : p.play fetch a = .ok begun) :
    begun.Sound ∧ ∃ s, begun.status = .live s := by
  obtain ⟨script, r, hload, rfl⟩ := play_ok h
  rw [cancel_of_load hload]
  exact ⟨sound_start _ a rfl, _, rfl⟩

/-- Where no session is live, a play has nothing to tell. -/
theorem events_of_play (h : p.play fetch a = .ok begun) (hidle : p.session? = none) :
    begun.events = p.events := by
  obtain ⟨script, r, hload, rfl⟩ := play_ok h
  rw [cancel_of_load hload, cancel_idle hidle]
  rfl

end Player

namespace Host

variable {World : Type} {h : Host World} {a : Address} {p : Player} {w : World}

theorem run_of_played {begun : Player} (hplay : p.play (h.rows w) a = .ok begun) :
    h.run a p w = (.ok (h.loop begun (h.supply (p.asks (.jump a)) w).2).1.state,
      h.loop begun (h.supply (p.asks (.jump a)) w).2) := by
  have hsupply : p.play (h.supply (p.asks (.jump a)) w).1 a = .ok begun := hplay
  simp only [run, hsupply]

theorem run_of_failed {e : PlaybackError} (hplay : p.play (h.rows w) a = .error e) :
    h.run a p w = (.error e, p, (h.supply (p.asks (.jump a)) w).2) := by
  have hsupply : p.play (h.supply (p.asks (.jump a)) w).1 a = .error e := hplay
  simp only [run, hsupply]

/-- A run fails just as its first load does, and does nothing else. -/
theorem run_unloaded {e : PlaybackError} (hplay : p.play (h.rows w) a = .error e) :
    ∃ cause, p.script = none ∧ h.rows w false = .error cause ∧ e = .sourceUnavailable cause ∧
      h.run a p w = (.error e, p, (h.fetch false w).2) ∧
      h.recorded.run a p (w, {}) = (.error e, p, (h.fetch false w).2, { loads := [false] }) := by
  obtain ⟨cause, hscript, hrows, hcause⟩ := Player.play_error hplay
  have hrecorded : p.play (h.recorded.rows (w, {})) a = .error e := hplay
  have hasks : p.asks (.jump a) = some false := by simp [Player.asks, hscript]
  refine ⟨cause, hscript, hrows, hcause, ?_, ?_⟩
  · rw [run_of_failed hplay, hasks]
    rfl
  · rw [run_of_failed hrecorded, hasks]
    rfl

/-- A run that plays comes to an end; a host that keeps a log runs the same way, and its log says
what the rounds did. -/
theorem run_logged {begun : Player} (hplay : p.play (h.rows w) a = .ok begun) :
    ∃ ops q w' log, h.Rounds begun (h.supply (p.asks (.jump a)) w).2 ops q w' ∧
      h.run a p w = (.ok q.state, q, w') ∧ h.recorded.run a p (w, {}) = (.ok q.state, q, w', log) ∧
      log.calls = begun.calls ops ∧ log.events = begun.told ops ∧
      log.answers.map Prod.snd = ops.filterMap Operation.answer? := by
  obtain ⟨ops, hrounds⟩ := h.rounds_loop begun (h.supply (p.asks (.jump a)) w).2
  obtain ⟨more, hlogged, hcalls, hevents, hanswers⟩ :=
    hrounds.logged (Log.write {} { loads := (p.asks (.jump a)).toList })
  have hrecorded : p.play (h.recorded.rows (w, {})) a = .ok begun := hplay
  have hrun := run_of_played hrecorded
  rw [recorded_supply] at hrun
  dsimp only at hrun
  rw [hlogged.loop_eq] at hrun
  exact ⟨ops, _, _, _, hrounds, run_of_played hplay, hrun, hcalls, hevents, hanswers⟩

/-- A run leaves no session, and nothing to be told. -/
theorem run_leaves (hidle : p.session? = none) (htold : p.events = []) :
    (h.run a p w).2.1.session? = none ∧ (h.run a p w).2.1.events = [] := by
  cases hplay : p.play (h.rows w) a with
  | error e => rw [run_of_failed hplay]; exact ⟨hidle, htold⟩
  | ok begun =>
    obtain ⟨ops, q, w', log, hrounds, hrun, _⟩ := run_logged hplay
    obtain ⟨hsound, hlive⟩ := Player.sound_of_play hplay
    rw [hrun]
    exact ⟨hrounds.session? hsound hlive, hrounds.told_all⟩

theorem runs_leave (as : List Address) (hidle : p.session? = none) (htold : p.events = []) :
    (h.runs as p w).2.1.session? = none ∧ (h.runs as p w).2.1.events = [] := by
  induction as generalizing p w with
  | nil => exact ⟨hidle, htold⟩
  | cons a as ih =>
    obtain ⟨hidle, htold⟩ := @run_leaves _ h a p w hidle htold
    exact ih hidle htold

/-- Every run of a host ends, however many went before it, if the first found a player without a
session and with nothing to be told; each leaves such a player again. A run that plays has told all
that was announced, once and in order, and ends canceled just where the last answer was to leave,
else completed. A run that fails asked for the script in vain, and did nothing else. -/
theorem run_ends (h : Host World) (as : List Address) (a : Address) (p : Player) (w : World)
    (hidle : p.session? = none) (htold : p.events = []) :
    let p₁ := (h.runs as p w).2.1
    let w₁ := (h.runs as p w).2.2
    ∃ result q w' log,
      h.run a p₁ w₁ = (result, q, w') ∧ h.recorded.run a p₁ (w₁, {}) = (result, q, w', log) ∧
      q.session? = none ∧ q.events = [] ∧
      match result with
      | .ok state =>
        (state = .completed ∨ state = .canceled) ∧ q.state = state ∧
        (state = .canceled ↔ (log.answers.map Prod.snd).getLast? = some .exit) ∧
        ∃ begun ops, p₁.play (h.rows w₁) a = .ok begun ∧
          h.Rounds begun (h.supply (p₁.asks (.jump a)) w₁).2 ops q w' ∧
          q = p₁.run (.play (h.rows w₁) a :: ops) ∧
          log.calls = p₁.calls (.play (h.rows w₁) a :: ops) ∧
          log.events = p₁.announced (.play (h.rows w₁) a :: ops)
      | .error e =>
        ∃ cause, p₁.script = none ∧ h.rows w₁ false = .error cause ∧
          e = .sourceUnavailable cause ∧ q = p₁ ∧ log = { loads := [false] } := by
  intro p₁ w₁
  obtain ⟨hidle₁, htold₁⟩ := @runs_leave _ h p w as hidle htold
  cases hplay : p₁.play (h.rows w₁) a with
  | error e =>
    obtain ⟨cause, hscript, hrows, hcause, hrun, hrecorded⟩ := run_unloaded hplay
    exact ⟨_, _, _, _, hrun, hrecorded, hidle₁, htold₁, cause, hscript, hrows, hcause, rfl, rfl⟩
  | ok begun =>
    obtain ⟨ops, q, w', log, hrounds, hrun, hrecorded, hcalls, hevents, hanswers⟩ :=
      run_logged hplay
    obtain ⟨hsound, hlive⟩ := Player.sound_of_play hplay
    have hstate := hrounds.state hsound hlive
    rw [← hanswers] at hstate
    have hbegun : (p₁.operate (.play (h.rows w₁) a)).player = begun := by
      simp [Player.operate, hplay, Player.attempt]
    have hquiet : begun.events = [] := (Player.events_of_play hplay hidle₁).trans htold₁
    -- all that is announced is told, as nothing is to be told before the rounds and after them
    have hall := begun.events_run ops
    rw [hquiet, ← hrounds.run_eq, hrounds.told_all, List.nil_append, List.append_nil] at hall
    refine ⟨_, q, w', log, hrun, hrecorded, hrounds.session? hsound hlive, hrounds.told_all, ?_,
      rfl, ?_, begun, ops, rfl, hrounds, ?_, ?_, ?_⟩
    · rw [hstate]
      split
      · exact Or.inr rfl
      · exact Or.inl rfl
    · rw [hstate]
      split <;> simp_all
    · rw [Player.run_cons, hbegun]
      exact hrounds.run_eq
    · have hplayed : (p₁.operate (.play (h.rows w₁) a)).calls = [] :=
        Player.operate_no_calls (by simp) p₁
      rw [Player.calls_cons, hbegun, hplayed, hcalls, List.nil_append]
    · have hplayed : p₁.announces (.play (h.rows w₁) a) = [] := by
        rw [Player.announces, hbegun, hquiet, List.drop_nil]
      rw [Player.announced_cons, hbegun, hplayed, hevents, hall, List.nil_append]

/-- Two answers for a scene of one line: to leave, and to go on. -/
def reopened : Rehearsal :=
  let row : Row := { scene := 1, command := .say, line := "Hello." }
  { source := fun _ => .ok [row], stage := readyStage, plain := false
    prepared := [.input .exit, .input .proceed] }

theorem runs_reopened :
    (Rehearsal.host.runs [⟨1, 0⟩] {} reopened).1 = [.ok .canceled] ∧
      (Rehearsal.host.runs [⟨1, 0⟩] {} reopened).2.1.script.isSome := by
  have hrun := @run_of_played _ Rehearsal.host ⟨1, 0⟩ {} reopened _ rfl
  rw [@loop_of_left _ _ _ _ _ _ _ .proceed rfl (by decide +kernel)
    (Prod.ext (by decide +kernel) rfl)] at hrun
  simp only [runs, hrun]
  decide +kernel

/-- The first run is left, so the second begins with a player whose session was canceled. -/
theorem run_ends_reopened :
    ({} : Player).session? = none ∧ ({} : Player).events = [] ∧
    (Rehearsal.host.runs [⟨1, 0⟩] {} reopened).1 = [.ok .canceled] ∧
    ∃ state q w' log,
      Rehearsal.host.run ⟨1, 0⟩ (Rehearsal.host.runs [⟨1, 0⟩] {} reopened).2.1
        (Rehearsal.host.runs [⟨1, 0⟩] {} reopened).2.2 = (.ok state, q, w') ∧
      Rehearsal.host.recorded.run ⟨1, 0⟩ (Rehearsal.host.runs [⟨1, 0⟩] {} reopened).2.1
        ((Rehearsal.host.runs [⟨1, 0⟩] {} reopened).2.2, {}) = (.ok state, q, w', log) ∧
      q.session? = none ∧ q.events = [] ∧
      (state = .canceled ↔ (log.answers.map Prod.snd).getLast? = some .exit) := by
  obtain ⟨hfirst, hsome⟩ := runs_reopened
  refine ⟨rfl, rfl, hfirst, ?_⟩
  obtain ⟨result, q, w', log, hrun, hrecorded, hidle, htold, hresult⟩ :=
    run_ends Rehearsal.host [⟨1, 0⟩] ⟨1, 0⟩ {} reopened rfl rfl
  cases result with
  | error e =>
    obtain ⟨_, hnone, _⟩ := hresult
    simp [hnone] at hsome
  | ok state => exact ⟨state, q, w', log, hrun, hrecorded, hidle, htold, hresult.2.2.1⟩

end Host

end Dialogue
