import Dialogue.Playback.Player

/-!
# Playing until something is awaited

`pump` repeats `step` while the player plays. It ends because every step lowers `Player.work`, a
count of what the live session can still do without being answered.

* `work_step_lt`: a step of a playing player lowers the work.
* `work_pump_le`: what a pump leaves is no more than what it found.
* `work_advance_lt`, `work_complete_lt`: the answer that a waiting player waits for lowers it too.
-/

namespace Dialogue

/-- The work of rows: entering each, its effects, its decision, and one answer of the reader. -/
def rowsWork : List Row → Nat
  | [] => 1
  | row :: rows => 2 * row.cue.effects.length + 4 + rowsWork rows

/-- The work of a decision, where a session of another branch comes to `opening` and the next row
with all that follows it to `next`. -/
def Decision.work (opening : Int32 → Nat) (next : Nat) : Decision → Nat
  | proceed => 1 + next
  | awaitReader => 2 + next
  | awaitChoice _ => 2
  | handOver branch => 1 + opening branch
  | stop => 1

/-- The work of a phase of the row under the cursor and of the rows after it. -/
def Phase.work (opening : Int32 → Nat) (rows : List Row) (cursor : Nat) : Phase → Nat
  | entering => rowsWork (rows.drop cursor)
  | acting effects decision =>
    2 * effects.length + decision.work opening (rowsWork (rows.drop (cursor + 1)))
  | loading _ effects decision =>
    1 + (2 * effects.length + decision.work opening (rowsWork (rows.drop (cursor + 1))))
  | reading => 1 + rowsWork (rows.drop (cursor + 1))
  | choosing _ => 1

/-- The work of a session, where a session that begins at an address comes to `opening`. -/
def Session.work (opening : Address → Nat) (s : Session) : Nat :=
  match s.progress with
  | .opening => opening s.address
  | .within rows cursor phase => phase.work (fun b => opening ⟨s.address.scene, b⟩) rows cursor

/-! ## Rows and their work -/

theorem rowsWork_pos (rows : List Row) : 0 < rowsWork rows := by
  cases rows <;> simp only [rowsWork] <;> omega

/-- A row behind the cursor comes first of what is left. -/
theorem drop_of_getElem? {rows : List Row} {cursor : Nat} {row : Row}
    (h : rows[cursor]? = some row) : rows.drop cursor = row :: rows.drop (cursor + 1) := by
  obtain ⟨hlt, hget⟩ := List.getElem?_eq_some_iff.1 h
  rw [← hget, List.drop_eq_getElem_cons hlt]

theorem Decision.work_pos (opening : Int32 → Nat) (next : Nat) (d : Decision) :
    0 < d.work opening next := by
  cases d <;> simp only [work] <;> omega

/-- Once a row is entered, less is left than before. -/
theorem Row.cue_work_lt (row : Row) (rows : List Row) (opening : Int32 → Nat) :
    2 * row.cue.effects.length + row.cue.decision.work opening (rowsWork rows) <
      rowsWork (row :: rows) := by
  have hd := row.cue_decision_ne_handOver
  generalize row.cue.decision = d at hd
  rw [rowsWork]
  cases d with
  | handOver b => exact absurd rfl (hd b)
  | proceed | awaitReader | awaitChoice | stop => simp only [Decision.work]; omega

namespace Player

/-- The work of a session that begins at an address. -/
def openingWork (p : Player) (a : Address) : Nat :=
  1 + rowsWork ((p.rowsAt? a).getD [])

/-- How much a player can do without being answered, or with the one answer it waits for. -/
def work (p : Player) : Nat :=
  match p.status with
  | .live s => s.work p.openingWork
  | _ => 0

/-! ## Every step lowers the work -/

theorem work_finish (p : Player) (s : Session) : (p.finish s).work = 0 := rfl

theorem work_handOver (p : Player) (s : Session) (b : Int32) :
    (p.handOver s b).work = p.openingWork ⟨s.address.scene, b⟩ := rfl

theorem work_place (p : Player) (s : Session) (rows : List Row) (cursor : Nat) (phase : Phase) :
    (p.place s rows cursor phase).work =
      phase.work (fun b => p.openingWork ⟨s.address.scene, b⟩) rows cursor := rfl

theorem work_decide_lt (p : Player) (s : Session) (rows : List Row) (cursor : Nat)
    (d : Decision) :
    (p.decide s rows cursor d).1.work <
      d.work (fun b => p.openingWork ⟨s.address.scene, b⟩) (rowsWork (rows.drop (cursor + 1))) := by
  cases d with
  | proceed => simp only [decide, work_place, Phase.work, Decision.work]; omega
  | awaitReader => simp only [decide, work_place, Phase.work, Decision.work]; omega
  | awaitChoice options => simp only [decide, work_place, Phase.work, Decision.work]; omega
  | handOver branch => simp only [decide, work_handOver, Decision.work]; omega
  | stop => simp only [decide, work_finish, Decision.work]; omega

theorem work_perform_lt (stage : Stage) (p : Player) (s : Session) (rows : List Row)
    (cursor : Nat) (e : Effect) (es : List Effect) (d : Decision) :
    (p.perform stage s rows cursor e es d).1.work <
      Phase.work (fun b => p.openingWork ⟨s.address.scene, b⟩) rows cursor
        (.acting (e :: es) d) := by
  have h : (p.perform stage s rows cursor e es d).1.work =
      (if e.waits ∧ stage (e.call ⟨s.generation, p.nextTicket⟩) = .pending
        then Phase.loading ⟨s.generation, p.nextTicket⟩ es d else .acting es d).work
          (fun b => p.openingWork ⟨s.address.scene, b⟩) rows cursor := rfl
  rw [h]
  split <;> simp only [Phase.work, List.length_cons] <;> omega

theorem work_enter_lt (p : Player) (s : Session) (rows : List Row) (cursor : Nat) :
    (p.enter s rows cursor).work <
      Phase.work (fun b => p.openingWork ⟨s.address.scene, b⟩) rows cursor .entering := by
  unfold enter
  split
  · rename_i row hrow
    rw [work_place, Phase.work, Phase.work, drop_of_getElem? hrow]
    exact row.cue_work_lt _ _
  · simpa [work_finish, Phase.work] using rowsWork_pos _

/-- A step of a playing player lowers the work. -/
theorem work_step_lt (stage : Stage) {p : Player} (h : p.state = .playing) :
    (p.step stage).1.work < p.work := by
  cases hs : p.status with
  | live s =>
    have hstate : s.state = .playing := by simpa [state, hs] using h
    have hwork : p.work = s.work p.openingWork := by simp [work, hs]
    rw [hwork]
    simp only [step, hs]
    cases hp : s.progress with
    | opening =>
      have hopen : s.work p.openingWork = p.openingWork s.address := by simp [Session.work, hp]
      rw [hopen]
      dsimp only
      split
      · rename_i rows hrows
        simp only [work_place, Phase.work, List.drop_zero, openingWork, hrows, Option.getD_some]
        omega
      · simp only [work_finish, openingWork]
        omega
    | within rows cursor phase =>
      have hphase : s.work p.openingWork =
          phase.work (fun b => p.openingWork ⟨s.address.scene, b⟩) rows cursor := by
        simp [Session.work, hp]
      rw [hphase]
      cases phase with
      | entering => exact work_enter_lt ..
      | acting es d =>
        cases es with
        | nil => simpa [Phase.work] using work_decide_lt ..
        | cons e es => exact work_perform_lt ..
      | loading | reading | choosing => simp [Session.state, hp, Phase.state] at hstate
  | idle | completed | canceled => simp [state, hs] at h

/-! ## Pumping -/

/-- Plays until the player waits or the session ends, and lists the calls made, in order. -/
def pump (stage : Stage) (p : Player) : Player × List Call :=
  if h : p.state = .playing then
    have := work_step_lt stage h
    let rest := pump stage (p.step stage).1
    (rest.1, (p.step stage).2 ++ rest.2)
  else (p, [])
termination_by p.work

theorem pump_of_playing (stage : Stage) {p : Player} (h : p.state = .playing) :
    p.pump stage =
      (((p.step stage).1.pump stage).1, (p.step stage).2 ++ ((p.step stage).1.pump stage).2) := by
  rw [pump, dif_pos h]

theorem pump_of_not_playing (stage : Stage) {p : Player} (h : p.state ≠ .playing) :
    p.pump stage = (p, []) := by
  rw [pump, dif_neg h]

/-- What a pump leaves plays no more. -/
theorem state_pump_ne_playing (stage : Stage) (p : Player) :
    (p.pump stage).1.state ≠ .playing := by
  fun_induction pump stage p with
  | case1 p h _ _ ih => exact ih
  | case2 p h => exact h

/-- A pump does not add to the work. -/
theorem work_pump_le (stage : Stage) (p : Player) : (p.pump stage).1.work ≤ p.work := by
  fun_induction pump stage p with
  | case1 p h hlt _ ih => exact Nat.le_trans ih (Nat.le_of_lt hlt)
  | case2 p h => exact Nat.le_refl _

/-! ## The awaited answer lowers the work -/

/-- The reader's word to go on lowers the work. -/
theorem work_advance_lt {p q : Player} (h : p.advance = some q) : q.work < p.work := by
  unfold advance at h
  split at h
  · rename_i s hs
    split at h
    · rename_i rows cursor hp
      obtain rfl := Option.some.inj h
      have hq : Player.work { p with
          status := .live { s with progress := .within rows (cursor + 1) .entering } } =
          rowsWork (rows.drop (cursor + 1)) := rfl
      have hp : p.work = 1 + rowsWork (rows.drop (cursor + 1)) := by
        simp [work, hs, Session.work, hp, Phase.work]
      omega
    · simp at h
  · simp at h

/-- The end of the awaited load lowers the work. -/
theorem work_complete_lt {p q : Player} {t : Ticket} {loaded : Bool}
    (h : p.complete t loaded = some q) : q.work < p.work := by
  unfold complete at h
  split at h
  · rename_i s hs
    split at h
    · rename_i rows cursor t' es d hp
      split at h
      · obtain rfl := Option.some.inj h
        have hq : Player.work { p with
            status := .live { s with progress := .within rows cursor (.acting es d) } } =
            2 * es.length + d.work (fun b => p.openingWork ⟨s.address.scene, b⟩)
              (rowsWork (rows.drop (cursor + 1))) := rfl
        have hp : p.work = 1 + (2 * es.length + d.work (fun b => p.openingWork ⟨s.address.scene, b⟩)
            (rowsWork (rows.drop (cursor + 1)))) := by
          simp [work, hs, Session.work, hp, Phase.work]
        omega
      · simp at h
    · simp at h
  · simp at h

end Player

end Dialogue
