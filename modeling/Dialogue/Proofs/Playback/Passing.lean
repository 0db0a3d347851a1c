import Dialogue.Proofs.Playback.Sessions

/-!
# Rows that a session gets past

A session leaves a row for the next one only if the row asks to go on, at once or after the reader.
So a session that comes to its end has entered no row that offers a choice.

* `Session.Passed` is the invariant of a live session; every unit of its walk keeps it.
* `Chronicle.Passing` adds what stays of it in the chapters of completed sessions, and every move
  keeps that (`Chronicle.Move.passing`).
-/

namespace Dialogue

/-- The next row is played after this decision, without a choice. -/
def Decision.GoesOn (d : Decision) : Prop :=
  d = .proceed ∨ d = .awaitReader

/-- All rows in front of the cursor ask to go on. -/
def Session.Passed (s : Session) : Prop :=
  ∀ rows cursor phase, s.progress = .within rows cursor phase →
    ∀ row ∈ rows.take cursor, row.cue.decision.GoesOn

namespace Session

variable {stage : Stage} {id : UInt64} {group rows : List Row} {cursor : Nat} {s : Session}
  {next : Progress} {made : List Beat} {calls : List Call} {told : List Event}

theorem passed_of_opening (h : s.progress = .opening) : s.Passed := by
  intro rows cursor phase hp
  rw [h] at hp
  cases hp

theorem goesOn_take_succ (hpassed : ∀ row ∈ rows.take cursor, row.cue.decision.GoesOn) {last : Row}
    (hlast : rows[cursor]? = some last) (hgoes : last.cue.decision.GoesOn) :
    ∀ row ∈ rows.take (cursor + 1), row.cue.decision.GoesOn := by
  intro row hrow
  rw [take_succ_of_getElem? hlast] at hrow
  rcases List.mem_append.1 hrow with hrow | hrow
  · exact hpassed row hrow
  · obtain rfl := List.mem_singleton.1 hrow
    exact hgoes

/-- A session that is placed on the next row, since the one under the cursor asks to go on. -/
theorem Passed.succ (h : s.Passed) {phase next : Phase} (hp : s.progress = .within rows cursor phase)
    {last : Row} (hlast : rows[cursor]? = some last) (hgoes : last.cue.decision.GoesOn) :
    Session.Passed { s with progress := .within rows (cursor + 1) next } := by
  intro rows' cursor' phase' hp'
  cases hp'
  exact goesOn_take_succ (h _ _ _ hp) hlast hgoes

/-- A session that stays on its row. -/
theorem Passed.stay (h : s.Passed) {phase next : Phase} (hp : s.progress = .within rows cursor phase) :
    Session.Passed { s with progress := .within rows cursor next } := by
  intro rows' cursor' phase' hp'
  cases hp'
  exact h _ _ _ hp

/-- A unit of the walk gets past no row that does not ask for it. -/
theorem Walks.passed (hw : s.Walks stage id group next made calls told)
    (hsound : s.Sound (some group)) (h : s.Passed) :
    Session.Passed { s with progress := next } := by
  cases hw with
  | opened =>
    intro rows cursor phase hp row hrow
    cases hp
    cases hrow
  | entered hp | performed hp | awaited hp | offered hp => exact h.stay hp
  | proceeded hp =>
    obtain ⟨_, last, hlast, _, hd⟩ := hsound _ _ _ hp
    exact h.succ hp hlast (Or.inl hd)

/-- Of the rows that a session entered before its end none offers a choice. -/
theorem Finishes.goesOn_or_stop {found : Option (List Row)} (hend : s.Finishes group)
    (hsound : s.Sound found) (h : s.Passed) :
    ∀ row ∈ group.take s.entered, row.cue.decision.GoesOn ∨ row.cue.decision = .stop := by
  intro row hrow
  cases hend with
  | missing hp =>
    rw [entered, hp] at hrow
    cases hrow
  | ranOut hp =>
    rw [entered, hp] at hrow
    exact Or.inl (h _ _ _ hp row hrow)
  | @stopped cursor hp =>
    obtain ⟨_, last, hlast, _, hd⟩ := hsound _ _ _ hp
    have hentered : s.entered = cursor + 1 := by simp [entered, hp]
    rw [hentered, take_succ_of_getElem? hlast] at hrow
    rcases List.mem_append.1 hrow with hrow | hrow
    · exact Or.inl (h _ _ _ hp row hrow)
    · obtain rfl := List.mem_singleton.1 hrow
      exact Or.inr hd

end Session

/-! ## Chapters -/

namespace Chapter

/-- If the session completed, none of the rows told of offers a choice. -/
def Passing (ch : Chapter) : Prop :=
  ch.Completed → ∀ row : Row, row.shown ∈ ch.events →
    row.cue.decision.GoesOn ∨ row.cue.decision = .stop

theorem Open.passing_write {p : Player} {s : Session} {ch : Chapter} (h : ch.Open p s)
    {told : List Event} (hquiet : ∀ a, .sceneComplete a ∉ told) (calls : List (Call × Answer)) :
    (ch.write calls told).Passing := by
  intro hcompleted
  rcases List.mem_append.1 hcompleted with hbefore | hnow
  · exact absurd (Or.inl hbefore) h.not_over
  · exact absurd hnow (hquiet _)

end Chapter

namespace Chronicle

/-- The live session got past no row that does not ask for it, and neither did those completed. -/
structure Passing (c : Chronicle) : Prop where
  live : ∀ s, c.player.status = .live s → s.Passed
  chapters : ∀ ch ∈ c.chapters, ch.Passing

variable {c c' : Chronicle} {q : Player} {s : Session} {calls : List (Call × Answer)}
  {told : List Event}

theorem passing_new : Passing {} :=
  ⟨fun _ h => (nomatch h), fun _ h => (nomatch h)⟩

theorem Passing.moveTo (h : c.Passing) (hlive : ∀ s, q.status = .live s → s.Passed)
    (hcurrent : ∀ ch, c.current = some ch → (ch.write calls told).Passing) :
    (c.moveTo q calls told).Passing := by
  constructor
  · rw [moveTo_player]
    exact hlive
  · intro ch hch
    rcases mem_chapters_moveTo hch with ⟨s, _, _, rfl⟩ | hold | ⟨old, hold, rfl⟩
    · -- nothing is written yet of a session that begins
      intro hcompleted
      cases hcompleted
    · exact h.chapters ch hold
    · exact hcurrent old hold

theorem Passing.quiet (h : c.Passing) (hfaithful : c.Faithful)
    (hlive : ∀ s, q.status = .live s → s.Passed) (hquiet : ∀ a, .sceneComplete a ∉ told) :
    (c.moveTo q calls told).Passing := by
  refine h.moveTo hlive fun ch hcurrent => ?_
  obtain ⟨s, _, hopen⟩ := hfaithful.open_of_current hcurrent
  exact hopen.passing_write hquiet calls

theorem passed_of_none (hq : q.session? = none) : ∀ s, q.status = .live s → s.Passed :=
  fun s hs => absurd hs (Player.session?_eq_none_iff.1 hq s)

theorem Move.passing (hsound : c.player.Sound) (hfaithful : c.Faithful) (hmove : Move c c')
    (h : c.Passing) : c'.Passing := by
  cases hmove with
  | scripted hnone script => exact ⟨passed_of_none hnone, h.chapters⟩
  | told => exact ⟨h.live, h.chapters⟩
  | begun hnone hscript a =>
    refine h.quiet hfaithful ?_ fun _ ha => nomatch ha
    intro s hs
    cases hs
    exact Session.passed_of_opening rfl
  | dropped hs =>
    refine h.quiet hfaithful (passed_of_none (Player.session?_cancel _)) ?_
    intro a ha
    simp at ha
  | @finished s hs hend =>
    refine h.moveTo (passed_of_none rfl) ?_
    intro ch hcurrent _ row hrow
    obtain ⟨s', hs', hopen⟩ := hfaithful.open_of_current hcurrent
    obtain rfl : s' = s := Option.some.inj (hs'.symm.trans (Player.session?_live hs))
    have hshown : row.shown ∈ (ch.group.take s'.entered).map Row.shown := by
      rw [← hopen.events]
      rcases List.mem_append.1 hrow with hrow | hrow
      · exact hrow
      · simp [Row.shown] at hrow
    obtain ⟨row', hrow', heq⟩ := List.mem_map.1 hshown
    cases heq
    rw [hopen.group] at hrow'
    exact hend.goesOn_or_stop (hsound.session s' hs) (h.live s' hs) _ hrow'
  | handedOver hs hp hoption =>
    refine h.quiet hfaithful ?_ ?_
    · intro s hs
      cases hs
      exact Session.passed_of_opening rfl
    · intro a ha
      simp at ha
  | @walked stage s group next made calls told hs hgroup hw =>
    have hsession := hsound.session s hs
    rw [hgroup] at hsession
    refine h.quiet hfaithful ?_ ?_
    · intro s' hs'
      cases hs'
      exact hw.passed hsession (h.live s hs)
    · intro a ha
      cases hw with
      | entered => simp [Row.shown] at ha
      | opened | performed | proceeded | awaited | offered => cases ha
  | @read s rows cursor hs hp =>
    obtain ⟨_, last, hlast, hd⟩ := hsound.session s hs _ _ _ hp
    refine h.quiet hfaithful ?_ fun _ ha => nomatch ha
    intro s' hs'
    cases hs'
    exact (h.live s hs).succ hp hlast (Or.inr hd)
  | @resumed s rows cursor t es d hs hp =>
    have hplaced : (c.moveTo (c.player.place s rows cursor (.acting es d)) [] []).Passing := by
      refine h.quiet hfaithful ?_ fun _ ha => nomatch ha
      intro s' hs'
      cases hs'
      exact (h.live s hs).stay hp
    exact ⟨hplaced.live, hplaced.chapters⟩

theorem passing_of (ops : List Operation) : (of ops).Passing := by
  have h := @of_induction (fun c => c.Faithful ∧ c.Passing) ⟨faithful_new, passing_new⟩
    (fun hsound hmove h => ⟨hmove.faithful hsound h.1, hmove.passing hsound h.1 h.2⟩) ops
  exact h.2.2

end Chronicle

end Dialogue
