import Dialogue.Proofs.Playback.Chronicle
import Dialogue.Proofs.Playback.Simulation

/-!
# Reachable controllers

What the registers of a controller hold after any run: which of them go together, and how a session
stands in the rows it walks. Nothing but the operations puts them in step.

* `Track.Consistent` says it of the registers of a session, part by part, and
  `Controller.Consistent` of all registers.
* `Controller.consistent_after`: every reachable controller is consistent, since its registers are
  those of a player in order.
* `Controller.after_consistent` adds that it is idle as long as nothing was played.
-/

namespace Dialogue

namespace Track

/-- The session stands on a row with this decision, has made all its effects and acted on the
decision. -/
def WaitsAt (s : Track) (decision : Decision) : Prop :=
  s.pending = [] ∧ s.next = none ∧
    ∃ rows, s.rows = some rows ∧ ∃ _ : s.cursor < rows.length,
      rows[s.cursor].cue.decision = decision

/-- The registers of a session under a controller in this state. -/
structure Consistent (s : Track) (state : State) : Prop where
  waitingOn_iff : s.waitingOn.isSome ↔ state = .awaitingAsset
  choices_iff : s.choices ≠ [] ↔ state = .awaitingChoice
  /-- Until the rows are looked up, the session stands at the very beginning. -/
  unopened : s.rows = none → s.cursor = 0 ∧ s.pending = []
  cursor_le : ∀ rows, s.rows = some rows → s.cursor ≤ rows.length
  /-- What is left to make of a row are the last of its effects. -/
  pending_suffix : ∀ rows, s.rows = some rows → s.pending ≠ [] →
    ∃ row, rows[s.cursor]? = some row ∧ s.pending <:+ row.cue.effects
  reading : state = .awaitingReader → s.WaitsAt .awaitReader
  choosing : state = .awaitingChoice → s.WaitsAt (.awaitChoice s.choices)

end Track

/-- The registers of a reachable controller. -/
structure Controller.Consistent (c : Controller) : Prop where
  /-- There is a session as long as the controller plays or waits. -/
  session_iff : c.session.isSome ↔ c.state = .playing ∨ c.state = .awaitingAsset ∨
    c.state = .awaitingReader ∨ c.state = .awaitingChoice
  generation : ∀ s ∈ c.session, s.generation = c.generation
  lastPlayed : ∀ s ∈ c.session, c.lastPlayed = some s.address
  loaded : ∀ s ∈ c.session, c.script.isSome
  track : ∀ s ∈ c.session, s.Consistent c.state

/-! ## The registers of a player in order are consistent -/

namespace Session

variable {found : Option (List Row)} {s : Session} {rows : List Row} {cursor : Nat}

def rows? (s : Session) : Option (List Row) :=
  match s.progress with
  | .opening => none
  | .within rows _ _ => some rows

theorem exists_within_of_rows? (h : s.rows? = some rows) :
    ∃ cursor phase, s.progress = .within rows cursor phase := by
  unfold rows? at h
  split at h
  · cases h
  · rename_i rows' cursor phase hp
    cases h
    exact ⟨cursor, phase, hp⟩

/-- What a session waits for shows in its state. -/
theorem state_cases (s : Session) :
    s.state = .playing ∧ s.waitingOn? = none ∧ s.pendingChoices = [] ∨
    s.state = .awaitingAsset ∧ s.waitingOn?.isSome ∧ s.pendingChoices = [] ∨
    (∃ rows cursor, s.progress = .within rows cursor .reading) ∧
      s.state = .awaitingReader ∧ s.waitingOn? = none ∧ s.pendingChoices = [] ∨
    (∃ rows cursor, s.progress = .within rows cursor (.choosing s.pendingChoices)) ∧
      s.state = .awaitingChoice ∧ s.waitingOn? = none := by
  cases hp : s.progress with
  | opening => simp [state, waitingOn?, pendingChoices, hp]
  | within rows cursor phase =>
    cases phase <;> simp [state, Phase.state, waitingOn?, pendingChoices, hp]

theorem trackAt_waitsAt {row : Row} (s : Session) (hrow : rows[cursor]? = some row) :
    (s.trackAt rows cursor).WaitsAt row.cue.decision := by
  obtain ⟨hlt, rfl⟩ := List.getElem?_eq_some_iff.1 hrow
  exact ⟨rfl, rfl, rows, rfl, hlt, rfl⟩

/-- A session in order holds consistent registers. -/
theorem Sound.consistent (h : s.Sound found) : s.track.Consistent s.state := by
  cases hp : s.progress with
  | opening =>
    have htrack : s.track = { generation := s.generation, address := s.address } := by
      simp [track, hp]
    have hstate : s.state = .playing := by simp [state, hp]
    rw [htrack, hstate]
    constructor <;> simp
  | within rows cursor phase =>
    obtain ⟨_, hphase⟩ := h _ _ _ hp
    have hstate : s.state = phase.state := by simp [state, hp]
    have hle : cursor ≤ rows.length := by
      by_cases hentering : phase = .entering
      · rw [hentering] at hphase
        exact hphase
      · exact Nat.le_of_lt (hphase.lt_length hentering)
    rw [hstate]
    cases phase with
    | entering =>
      rw [show s.track = s.trackAt rows cursor by simp [track, hp]]
      constructor
      case cursor_le =>
        rintro _ ⟨⟩
        exact hle
      all_goals simp [trackAt, Phase.state]
    | acting es d =>
      obtain ⟨row, hrow, hes, _⟩ := hphase
      rw [show s.track = { s.trackAt rows cursor with pending := es, next := some d } by
        simp [track, hp]]
      constructor
      case cursor_le =>
        rintro _ ⟨⟩
        exact hle
      case pending_suffix =>
        rintro _ ⟨⟩ _
        exact ⟨row, hrow, hes⟩
      all_goals simp [trackAt, Phase.state]
    | loading t es d =>
      obtain ⟨row, hrow, hes, _⟩ := hphase
      rw [show s.track = { s.trackAt rows cursor with
        pending := es, next := some d, waitingOn := some t } by simp [track, hp]]
      constructor
      case cursor_le =>
        rintro _ ⟨⟩
        exact hle
      case pending_suffix =>
        rintro _ ⟨⟩ _
        exact ⟨row, hrow, hes⟩
      all_goals simp [trackAt, Phase.state]
    | reading =>
      obtain ⟨row, hrow, hd⟩ := hphase
      rw [show s.track = s.trackAt rows cursor by simp [track, hp]]
      constructor
      case cursor_le =>
        rintro _ ⟨⟩
        exact hle
      case reading => exact fun _ => hd ▸ s.trackAt_waitsAt hrow
      all_goals simp [trackAt, Phase.state]
    | choosing options =>
      obtain ⟨row, hrow, hd⟩ := hphase
      obtain ⟨_, _, hne⟩ := Row.cue_decision_awaitChoice hd
      rw [show s.track = { s.trackAt rows cursor with choices := options } by simp [track, hp]]
      constructor
      case cursor_le =>
        rintro _ ⟨⟩
        exact hle
      case choosing => exact fun _ => hd ▸ s.trackAt_waitsAt hrow
      case choices_iff => exact iff_of_true hne rfl
      all_goals simp [trackAt, Phase.state]

end Session

namespace Player

variable {p : Player}

/-- A player in order holds consistent registers. -/
theorem Sound.consistent (h : p.Sound) (port : Port) : (p.controller port).Consistent := by
  cases hs : p.session? with
  | none =>
    have hnone : (p.controller port).session = none := session_controller_none hs
    have hstate : p.state = .idle ∨ p.state = .completed ∨ p.state = .canceled := by
      unfold state
      split
      case h_2 s hlive => exact absurd hlive (session?_eq_none_iff.1 hs s)
      all_goals simp
    constructor
    case session_iff =>
      rw [hnone, show (p.controller port).state = p.state from rfl]
      rcases hstate with hstate | hstate | hstate <;> simp [hstate]
    all_goals
      rw [hnone]
      exact fun s hs => nomatch hs
  | some s =>
    have hlive := session?_eq_some_iff.1 hs
    rw [controller_live hlive]
    constructor
    case session_iff => rcases s.state_cases with h | h | ⟨_, h⟩ | ⟨_, h⟩ <;> simp [h.1]
    all_goals rintro _ ⟨⟩
    case generation => exact (s.generation_track).trans (h.generation s hlive)
    case lastPlayed => exact (h.lastPlayed s hlive).trans (congrArg some s.address_track.symm)
    case loaded => exact h.script s hlive
    case track => exact (h.session s hlive).consistent

/-! ## Idle until played -/

/-- Without a play that succeeds a player that is idle stays so. -/
theorem status_idle_operate (h : p.Sound) (hidle : p.status = .idle) {op : Operation}
    (hop : ¬ op.plays p) : (p.operate op).player.status = .idle := by
  have hnone : p.session? = none := by simp [session?, hidle]
  have hadvance : p.advance = none := by simp [advance, hidle]
  have hcomplete : ∀ t loaded, p.complete t loaded = none := by simp [complete, hidle]
  have hrefresh : ∀ fetch, (p.attempt (p.refresh fetch)).player.status = .idle := by
    intro fetch
    cases hq : p.refresh fetch with
    | error e => exact hidle
    | ok q =>
      obtain ⟨rows, _, ⟨_, rfl⟩ | ⟨a, ha, rfl⟩⟩ := refresh_ok hq
      · rw [cancel_idle hnone]
        exact hidle
      · rw [h.idle_iff.1 hidle] at ha
        cases ha
  have hplay : ∀ fetch a, (¬ ∃ q, p.play fetch a = .ok q) →
      (p.attempt (p.play fetch a)).player.status = .idle := by
    intro fetch a hfails
    cases hq : p.play fetch a with
    | error e => exact hidle
    | ok q => exact absurd ⟨q, hq⟩ hfails
  cases op with
  | load fetch =>
    cases hload : p.load fetch with
    | error e => simpa [operate, hload] using hidle
    | ok loaded =>
      rcases load_ok hload with ⟨_, hq⟩ | ⟨_, hq⟩ <;>
        simpa [operate, hload, hq, Player.withScript] using hidle
  | play fetch a => exact hplay fetch a hop
  | refresh fetch => exact hrefresh fetch
  | pump stage =>
    have hstop : p.state ≠ .playing := by simp [state, hidle]
    simpa [operate, pump_of_not_playing stage hstop] using hidle
  | advance => simpa [operate, attempt?, hadvance] using hidle
  | choose index => simp [operate, choose, hidle]
  | complete t loaded => simpa [operate, attempt?, hcomplete] using hidle
  | cancel => simpa [operate, cancel_idle hnone] using hidle
  | drain => exact hidle
  | feed fetch input =>
    cases input with
    | proceed => simpa [operate, attempt, feed, hadvance] using hidle
    | choose index => simp [operate, attempt, feed, choose, hidle, Except.map]
    | jump a => exact hplay fetch a hop
    | loaded t => simpa [operate, attempt, feed, hcomplete] using hidle
    | refresh => exact hrefresh fetch
    | exit => simpa [operate, attempt, feed, cancel_idle hnone] using hidle

theorem lastPlayed_of_plays {op : Operation} (hop : op.plays p) :
    (p.operate op).player.lastPlayed.isSome := by
  have hplay : ∀ fetch a, (∃ q, p.play fetch a = .ok q) →
      (p.attempt (p.play fetch a)).player.lastPlayed.isSome := by
    rintro fetch a ⟨q, hq⟩
    obtain ⟨script, r, _, rfl⟩ := play_ok hq
    rw [hq]
    rfl
  cases op with
  | play fetch a => exact hplay fetch a hop
  | feed fetch input =>
    cases input with
    | jump a => exact hplay fetch a hop
    | proceed | choose | loaded | refresh | exit => exact hop.elim
  | load | refresh | pump | advance | choose | complete | cancel | drain => exact hop.elim

end Player

/-- Once something was played, that stays so. -/
theorem Chronicle.Move.lastPlayed_isSome {c c' : Chronicle} (h : Move c c')
    (hlast : c.player.lastPlayed.isSome) : c'.player.lastPlayed.isSome := by
  cases h with
  | scripted | told => exact hlast
  | begun | handedOver => simp [Player.start, Player.handOver]
  | finished | walked => simpa [Player.finish, Player.announce, Player.walk] using hlast
  | dropped => simpa [Player.lastPlayed_cancel] using hlast
  | read | resumed => simpa [Player.place] using hlast

theorem played_concat (ops : List Operation) (op : Operation) :
    Played (ops ++ [op]) ↔ Played ops ∨ op.plays (Player.after ops) := by
  constructor
  · rintro ⟨before, op', later, hops, hplays⟩
    rcases List.eq_nil_or_concat later with rfl | ⟨later, last, rfl⟩
    · -- the operation that plays is the last one
      obtain ⟨rfl, hop⟩ := List.append_inj' hops rfl
      cases hop
      exact Or.inr hplays
    · rw [List.concat_eq_append, ← List.cons_append, ← List.append_assoc] at hops
      exact Or.inl ⟨before, op', later, (List.append_inj' hops rfl).1, hplays⟩
  · rintro (⟨before, op', later, rfl, hplays⟩ | hplays)
    · exact ⟨before, op', later ++ [op], by simp, hplays⟩
    · exact ⟨ops, op, [], rfl, hplays⟩

namespace Player

/-- An operation leaves a player idle just if the player is idle and the operation is no play that
succeeds. -/
theorem Sound.status_idle_operate_iff {p : Player} (h : p.Sound) (op : Operation) :
    (p.operate op).player.status = .idle ↔ p.status = .idle ∧ ¬ op.plays p := by
  have hnoted := @Chronicle.note_keeps { player := p }
    (fun c => p.lastPlayed.isSome → c.player.lastPlayed.isSome)
    (fun _ hmove ih hlast => hmove.lastPlayed_isSome (ih hlast)) h id op
  rw [Chronicle.note_player] at hnoted
  obtain ⟨hsound, hkeeps⟩ := hnoted
  -- being idle is the same as never having played, and what was played last is never forgotten
  constructor
  · intro hidle
    rw [hsound.idle_iff] at hidle
    rw [h.idle_iff]
    constructor
    · cases hlast : p.lastPlayed with
      | none => rfl
      | some a => simp [hlast, hidle] at hkeeps
    · intro hop
      simpa [hidle] using lastPlayed_of_plays hop
  · rintro ⟨hidle, hop⟩
    exact status_idle_operate h hidle hop

/-- A player is idle as long as no play succeeded. -/
theorem status_idle_iff_not_played (ops : List Operation) :
    (after ops).status = .idle ↔ ¬ Played ops := by
  induction ops using List.reverseRec with
  | nil => simp [after, Played]
  | append_singleton ops op ih =>
    rw [after_concat, (sound_after ops).status_idle_operate_iff, ih, played_concat, not_or]

theorem state_idle_iff {p : Player} : p.state = .idle ↔ p.status = .idle := by
  cases hs : p.status with
  | live s =>
    rw [state_live hs]
    rcases s.state_cases with h | h | ⟨_, h⟩ | ⟨_, h⟩ <;> simp [h.1]
  | idle | completed | canceled => simp [state, hs]

end Player

/-! ## Every run -/

/-- Whether an operation is a call of `play`, or feeds the input for one. -/
def Operation.isPlay : Operation → Bool
  | .play _ _ | .feed _ (.jump _) => true
  | _ => false

namespace Controller

/-- Some operation of a run played an address. -/
def Played (stage : Stage) (ops : List Operation) : Prop :=
  ∃ before op later, ops = before ++ op :: later ∧ op.isPlay ∧
    ((after stage before).operate op).1 = .done (.ok ())

/-- An operation plays just where its answer says so. -/
theorem plays_iff (stage : Stage) (before : List Operation) (op : Operation) :
    op.plays (Player.after before) ↔
      op.isPlay ∧ ((after stage before).operate op).1 = .done (.ok ()) := by
  have hplay : ∀ (p : Player) fetch a, (∃ q, p.play fetch a = .ok q) ↔
      (p.attempt (p.play fetch a)).reply = .done (.ok ()) := by
    intro p fetch a
    cases p.play fetch a <;> simp [Player.attempt]
  obtain ⟨answer, hafter⟩ := exists_after_eq stage before
  rw [hafter, Player.operate_controller]
  cases op with
  | play fetch a => exact (hplay _ fetch a).trans (and_iff_right rfl).symm
  | feed fetch input =>
    cases input with
    | jump a => exact (hplay _ fetch a).trans (and_iff_right rfl).symm
    | proceed | choose | loaded | refresh | exit => simp [Operation.plays, Operation.isPlay]
  | load | refresh | pump | advance | choose | complete | cancel | drain =>
    simp [Operation.plays, Operation.isPlay]

theorem played_iff (stage : Stage) (ops : List Operation) :
    Played stage ops ↔ Dialogue.Played ops := by
  simp only [Played, Dialogue.Played, plays_iff stage]

theorem consistent_after (stage : Stage) (ops : List Operation) :
    (after stage ops).Consistent := by
  obtain ⟨answer, hafter⟩ := exists_after_eq stage ops
  rw [hafter]
  exact (Player.sound_after ops).consistent _

/-- The registers of every reachable controller are consistent: a session is there just in the
states that need one, belongs to the generation and the last played address, and what it waits for,
what is pending and what is decided fit the state and the row under the cursor. The controller is
idle just if no play succeeded yet, so no step is ever made without a session. -/
theorem after_consistent (stage : Stage) (ops : List Operation) :
    (after stage ops).Consistent ∧ ((after stage ops).state = .idle ↔ ¬ Played stage ops) := by
  refine ⟨consistent_after stage ops, ?_⟩
  obtain ⟨answer, hafter⟩ := exists_after_eq stage ops
  rw [hafter, played_iff, ← Player.status_idle_iff_not_played]
  exact Player.state_idle_iff

end Controller

end Dialogue
