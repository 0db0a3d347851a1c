import Dialogue.Proofs.Playback.Onward

/-!
# Playing starts afresh

Of all that a player did before, a play that succeeds leaves nothing but the script, the two
counters and the events that are still to be told. So two players that play the same address of
the same script show the same from there on, whatever was played before.

* `Player.ahead` is how far the counters of one player are ahead of those of another.
* `Player.ShowsSame` says what two players have in common in operations that differ by so much.
* `Player.play_shows_same`: any two players have it, after a play of the same address that leaves
  them with the same script.
-/

namespace Dialogue

namespace Player

/-- How far the counters of `q` are ahead of those of `p`. -/
def ahead (p q : Player) : Ticket :=
  ⟨q.generation - p.generation, q.nextTicket - p.nextTicket⟩

/-- What two players show is the same, in operations that are given to `p` as they are and to `q`
with their tickets ahead by as much as the counters of `q` are. -/
structure ShowsSame (p q : Player) (ops : List Operation) : Prop where
  state : (q.run (ops.map (.shift (p.ahead q)))).state = (p.run ops).state
  session : (q.run (ops.map (.shift (p.ahead q)))).session? =
    (p.run ops).session?.map (Session.shift (p.ahead q))
  cursor : (q.run (ops.map (.shift (p.ahead q)))).session?.map Session.cursor =
    (p.run ops).session?.map Session.cursor
  pendingChoices :
    (q.run (ops.map (.shift (p.ahead q)))).pendingChoices = (p.run ops).pendingChoices
  script : (q.run (ops.map (.shift (p.ahead q)))).script = (p.run ops).script
  announced : q.announced (ops.map (.shift (p.ahead q))) = p.announced ops
  calls : q.calls (ops.map (.shift (p.ahead q))) = (p.calls ops).map (.shift (p.ahead q))
  /-- The replies are the same, but that each player first hands over what it had to tell before. -/
  replies : ∃ replies, p.replies ops = repliesBehind p.events replies ∧
    q.replies (ops.map (.shift (p.ahead q))) = repliesBehind q.events replies

variable {p q p' q' : Player} {fetch fetch' : Fetch} {a : Address}

theorem counter_ahead (g g' : UInt64) : g + (g' - g) = g' := by
  rw [UInt64.add_comm, UInt64.sub_add_cancel]

/-- After a play of the same address and with the same script only the counters and the events to
be told are left to differ. -/
theorem play_eq_shift (hp : p.play fetch a = .ok p') (hq : q.play fetch' a = .ok q')
    (hscript : q'.script = p'.script) : q' = p'.drain.2.shift (p'.ahead q') q'.events := by
  obtain ⟨_, r, _, rfl⟩ := play_ok hp
  obtain ⟨_, r', _, rfl⟩ := play_ok hq
  have hkept : r'.cancel.script = r.cancel.script := hscript
  simp only [start, shift, Status.shift, Session.shift, Progress.shift, drain, ahead, hkept,
    counter_ahead, List.append_nil]

/-- A player shows the same as the one that it is but for the counters and the events to be told. -/
theorem showsSame_of_eq_shift (h : q = p.drain.2.shift (p.ahead q) q.events) {ops : List Operation}
    (hstages : ∀ op ∈ ops, op.stage.ByKey) : p.ShowsSame q ops := by
  have hshift : ∀ op ∈ ops, ∀ call, op.stage (call.shift (p.ahead q)) = op.stage call :=
    fun op hop => (hstages op hop).shift _
  have hzero : ∀ op ∈ ops, ∀ call, op.stage (call.shift ⟨0, 0⟩) = op.stage call :=
    fun op hop => (hstages op hop).shift _
  have hops : ops.map (Operation.shift ⟨0, 0⟩) = ops :=
    (List.map_congr_left fun op _ => op.shift_zero).trans (List.map_id ops)
  -- both players are the one with nothing to tell, shifted by nothing and by what is ahead
  obtain ⟨left, hrun⟩ := run_shift hshift p.drain.2 q.events
  obtain ⟨left', hrun'⟩ := run_shift hzero p.drain.2 p.events
  have hcalls := calls_shift hshift p.drain.2 q.events
  have hcalls' := calls_shift hzero p.drain.2 p.events
  have hannounced := announced_shift hshift p.drain.2 q.events
  have hannounced' := announced_shift hzero p.drain.2 p.events
  have hreplies := replies_shift hshift p.drain.2 q.events
  have hreplies' := replies_shift hzero p.drain.2 p.events
  rw [← h] at hrun hcalls hannounced hreplies
  rw [shift_drain, hops] at hrun' hcalls' hannounced' hreplies'
  have hsession : (q.run (ops.map (.shift (p.ahead q)))).session? =
      (p.run ops).session?.map (Session.shift (p.ahead q)) := by
    rw [hrun, hrun', session?_shift, session?_shift, Option.map_map]
    simp [Function.comp_def]
  constructor
  case state => rw [hrun, hrun', state_shift, state_shift]
  case session => exact hsession
  case cursor => rw [hsession, Option.map_map]; simp [Function.comp_def]
  case pendingChoices => rw [hrun, hrun', pendingChoices_shift, pendingChoices_shift]
  case script => rw [hrun, hrun', script_shift, script_shift]
  case announced => rw [hannounced, hannounced']
  case calls => simp [hcalls, hcalls']
  case replies => exact ⟨p.drain.2.replies ops, hreplies', hreplies⟩

/-- Two players of any past that play the same address, and have the same script then, show the
same in whatever is done afterwards, if the stage answers by kind and key. A player that plays the
same address once more shows what it showed the first time. -/
theorem play_shows_same (hp : p.play fetch a = .ok p') (hq : q.play fetch' a = .ok q')
    (hscript : q'.script = p'.script) :
    (∀ ops, (∀ op ∈ ops, op.stage.ByKey) → p'.ShowsSame q' ops) ∧
    ∀ again, ∃ r, p'.play again a = .ok r ∧
      ∀ ops, (∀ op ∈ ops, op.stage.ByKey) → p'.ShowsSame r ops := by
  refine ⟨fun ops => showsSame_of_eq_shift (play_eq_shift hp hq hscript), fun again => ?_⟩
  -- the script is loaded by then, so it is not asked for again
  have hloaded : ∃ script, p'.script = some script := by
    obtain ⟨script, r, hload, rfl⟩ := play_ok hp
    refine ⟨script, ?_⟩
    show r.cancel.script = some script
    rw [cancel_of_load hload]
    rfl
  obtain ⟨script, hloaded⟩ := hloaded
  have hload : p'.load again = .ok (script, p') := by simp [load, hloaded]
  have hagain : p'.play again a = .ok (p'.cancel.start a) := by simp [play, hload]
  have hkept : (p'.cancel.start a).script = p'.script := script_cancel p'
  exact ⟨_, hagain, fun ops => showsSame_of_eq_shift (play_eq_shift hp hagain hkept)⟩

/-- A scene is left while its background loads, and played again. It shows what a new player shows
that plays it, whose tickets are two generations and one number lower. -/
theorem play_shows_same_of_left :
    let row : Row := { scene := 1, command := .say, background := some "hall", line := "Hello." }
    let source : Fetch := fun _ => .ok [row]
    let left := after [.play source ⟨1, 0⟩, .pump fun _ => .pending]
    let ops : List Operation := [.pump fun _ => .pending, .complete ⟨1, 0⟩ true, .pump readyStage,
      .drain, .advance, .pump readyStage, .drain]
    ∃ p q : Player, ({} : Player).play source ⟨1, 0⟩ = .ok p ∧ left.play source ⟨1, 0⟩ = .ok q ∧
      q.script = p.script ∧ (∀ op ∈ ops, op.stage.ByKey) ∧
      p.ShowsSame q ops ∧ p.ahead q = ⟨2, 1⟩ ∧
      p.calls ops = [.background "hall" ⟨1, 0⟩, .text "" "Hello.", .highlight .all, .awaitReader] ∧
      q.calls (ops.map (.shift ⟨2, 1⟩)) =
        [.background "hall" ⟨3, 1⟩, .text "" "Hello.", .highlight .all, .awaitReader] := by
  intro row source left ops
  have hp : ({} : Player).play source ⟨1, 0⟩ =
      .ok ((withScript {} (.ofRows [row])).start ⟨1, 0⟩) := rfl
  have hq : left.play source ⟨1, 0⟩ = .ok (left.cancel.start ⟨1, 0⟩) := by decide +kernel
  have hscript : (left.cancel.start ⟨1, 0⟩).script = some (.ofRows [row]) := by decide +kernel
  have hstages : ∀ op ∈ ops, op.stage.ByKey := by
    simp [ops, Operation.stage, Stage.ByKey, readyStage]
  exact ⟨_, _, hp, hq, hscript, hstages, (play_shows_same hp hq hscript).1 ops hstages,
    by decide +kernel, by decide +kernel, by decide +kernel⟩

end Player

end Dialogue
