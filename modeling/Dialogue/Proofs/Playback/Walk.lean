import Dialogue.Proofs.Playback.Reference

/-!
# The walk of a session

One unit of work of a playing session, as a relation: which rows it walks, how its progress
changes, the beats and calls it makes and the events it announces. Everything that later proofs
need to know of `Player.step` is said here once.

* `Player.step_live`: a step of a playing player is a unit of the walk of its session, or the end
  of that session.
* `Session.Sound`: the rows of a session are those of its address, and its phase fits the row
  under the cursor. Every unit of the walk keeps it.
* A unit of the walk takes its beats off the front of what remains (`Walks.remaining`) and
  announces the row it enters (`Walks.entered`).
-/

namespace Dialogue

/-- Whether a call makes an effect. Every effect uses up one ticket. -/
def Call.isEffect : Call → Bool
  | .awaitReader => false
  | _ => true

/-- The phase of a row after one of its effects, of which the stage has answered the call. -/
def Effect.leaves (e : Effect) (answer : Answer) (ticket : Ticket) (effects : List Effect)
    (decision : Decision) : Phase :=
  if e.waits ∧ answer = .pending then .loading ticket effects decision
  else .acting effects decision

theorem Effect.leaves_eq (e : Effect) (answer : Answer) (ticket : Ticket) (effects : List Effect)
    (decision : Decision) :
    e.leaves answer ticket effects decision = .loading ticket effects decision ∨
      e.leaves answer ticket effects decision = .acting effects decision := by
  unfold leaves
  split
  · exact Or.inl rfl
  · exact Or.inr rfl

/-- One unit of work of a playing session that walks the rows `group`: the progress after it, and
the beats, calls and events it makes. The number of the next ticket is `id`. -/
inductive Session.Walks (stage : Stage) (id : UInt64) (group : List Row) (s : Session) :
    Progress → List Beat → List Call → List Event → Prop
  | opened (h : s.progress = .opening) : Walks stage id group s (.within group 0 .entering) [] [] []
  | entered {cursor : Nat} {row : Row} (h : s.progress = .within group cursor .entering)
      (hrow : group[cursor]? = some row) :
      Walks stage id group s (.within group cursor (.acting row.cue.effects row.cue.decision))
        [] [] [row.shown]
  | performed {cursor : Nat} {e : Effect} {es : List Effect} {d : Decision}
      (h : s.progress = .within group cursor (.acting (e :: es) d)) :
      Walks stage id group s
        (.within group cursor
          (e.leaves (stage (e.call ⟨s.generation, id⟩)) ⟨s.generation, id⟩ es d))
        [.effect e] [e.call ⟨s.generation, id⟩] []
  | proceeded {cursor : Nat} (h : s.progress = .within group cursor (.acting [] .proceed)) :
      Walks stage id group s (.within group (cursor + 1) .entering) [] [] []
  | awaited {cursor : Nat} (h : s.progress = .within group cursor (.acting [] .awaitReader)) :
      Walks stage id group s (.within group cursor .reading) [.awaitReader] [.awaitReader] []
  | offered {cursor : Nat} {options : List Choice}
      (h : s.progress = .within group cursor (.acting [] (.awaitChoice options))) :
      Walks stage id group s (.within group cursor (.choosing options)) [] [] []

/-- A playing session that walks the rows `group` is at its end. -/
inductive Session.Finishes (group : List Row) (s : Session) : Prop
  | missing (h : s.progress = .opening) (hgroup : group = [])
  | ranOut {cursor : Nat} (h : s.progress = .within group cursor .entering)
      (hrow : group[cursor]? = none)
  | stopped {cursor : Nat} (h : s.progress = .within group cursor (.acting [] .stop))

/-! ## Sessions in order -/

/-- A phase fits the row under the cursor: its effects are the last of those of the row, and its
decision is that of the row. -/
def Phase.Sound (group : List Row) (cursor : Nat) : Phase → Prop
  | .entering => cursor ≤ group.length
  | .acting effects decision | .loading _ effects decision =>
    ∃ row, group[cursor]? = some row ∧ effects <:+ row.cue.effects ∧ row.cue.decision = decision
  | .reading => ∃ row, group[cursor]? = some row ∧ row.cue.decision = .awaitReader
  | .choosing options =>
    ∃ row, group[cursor]? = some row ∧ row.cue.decision = .awaitChoice options

theorem Phase.Sound.lt_length {group : List Row} {cursor : Nat} {phase : Phase}
    (h : phase.Sound group cursor) (hphase : phase ≠ .entering) : cursor < group.length := by
  cases phase with
  | entering => exact absurd rfl hphase
  | acting | loading | reading | choosing =>
    obtain ⟨row, hrow, _⟩ := h
    exact (List.getElem?_eq_some_iff.1 hrow).1

/-- A session that has looked its rows up has the rows found for its address, and a phase that
fits them. -/
def Session.Sound (found : Option (List Row)) (s : Session) : Prop :=
  ∀ rows cursor phase, s.progress = .within rows cursor phase →
    found = some rows ∧ phase.Sound rows cursor

namespace Session

variable {stage : Stage} {id : UInt64} {group : List Row} {s : Session} {next : Progress}
  {made : List Beat} {calls : List Call} {told : List Event}

theorem sound_of_opening {found : Option (List Row)} (h : s.progress = .opening) :
    s.Sound found := by
  intro rows cursor phase hp
  rw [h] at hp
  cases hp

/-- Every unit of the walk keeps a session in order. -/
theorem Walks.sound (h : s.Walks stage id group next made calls told)
    (hsound : s.Sound (some group)) : Session.Sound (some group) { s with progress := next } := by
  intro rows cursor phase hp
  cases h with
  | opened => cases hp; exact ⟨rfl, Nat.zero_le _⟩
  | entered h hrow => cases hp; exact ⟨rfl, _, hrow, List.suffix_refl _, rfl⟩
  | performed h =>
    obtain ⟨_, row, hrow, hes, hd⟩ := hsound _ _ _ h
    -- the effects left are still the last of those of the row
    have hes' := (List.suffix_cons _ _).trans hes
    cases hp
    refine ⟨rfl, ?_⟩
    rcases Effect.leaves_eq _ _ _ _ _ with hleaves | hleaves <;> rw [hleaves]
    · exact ⟨row, hrow, hes', hd⟩
    · exact ⟨row, hrow, hes', hd⟩
  | proceeded h =>
    obtain ⟨_, row, hrow, _⟩ := hsound _ _ _ h
    cases hp
    exact ⟨rfl, (List.getElem?_eq_some_iff.1 hrow).1⟩
  | awaited h =>
    obtain ⟨_, row, hrow, _, hd⟩ := hsound _ _ _ h
    cases hp
    exact ⟨rfl, row, hrow, hd⟩
  | offered h =>
    obtain ⟨_, row, hrow, _, hd⟩ := hsound _ _ _ h
    cases hp
    exact ⟨rfl, row, hrow, hd⟩

/-! ## What remains, and what is told -/

/-- A unit of the walk takes its beats off the front of what remains. -/
theorem Walks.remaining (h : s.Walks stage id group next made calls told) :
    s.remaining group = made ++ Session.remaining group { s with progress := next } := by
  cases h with
  | opened h => simp [Session.remaining, h, Phase.remaining]
  | entered h hrow =>
    simp [Session.remaining, h, Phase.remaining, drop_of_getElem? hrow, beats]
  | performed h =>
    rcases Effect.leaves_eq _ _ _ _ _ with hleaves | hleaves <;> rw [hleaves]
    · simp [Session.remaining, h, Phase.remaining]
    · simp [Session.remaining, h, Phase.remaining]
  | proceeded h => simp [Session.remaining, h, Phase.remaining, Decision.beats]
  | awaited h => simp [Session.remaining, h, Phase.remaining, Decision.beats]
  | offered h => simp [Session.remaining, h, Phase.remaining, Decision.beats]

theorem Walks.calls_bare (h : s.Walks stage id group next made calls told) :
    calls.map Call.bare = made.map Beat.call := by
  cases h with
  | performed h => simp [Effect.bare_call]
  | awaited h => rfl
  | opened | entered | proceeded | offered => rfl

/-- A unit of the walk announces the row that it enters, and nothing else. -/
theorem Walks.entered_eq (h : s.Walks stage id group next made calls told) :
    (group.take (Session.entered { s with progress := next })).map Row.shown =
      (group.take s.entered).map Row.shown ++ told := by
  cases h with
  | opened h => simp [Session.entered, h]
  | entered h hrow => simp [Session.entered, h, take_succ_of_getElem? hrow]
  | performed h =>
    rcases Effect.leaves_eq _ _ _ _ _ with hleaves | hleaves <;> rw [hleaves]
    · simp [Session.entered, h]
    · simp [Session.entered, h]
  | proceeded h => simp [Session.entered, h]
  | awaited h => simp [Session.entered, h]
  | offered h => simp [Session.entered, h]

theorem Finishes.remaining (h : s.Finishes group) : s.remaining group = [] := by
  cases h with
  | missing h hgroup => simp [Session.remaining, h, hgroup, beats]
  | ranOut h hrow =>
    have hdrop := List.drop_eq_nil_iff.2 (List.getElem?_eq_none_iff.1 hrow)
    simp [Session.remaining, h, Phase.remaining, hdrop, beats]
  | stopped h => simp [Session.remaining, h, Phase.remaining, Decision.beats]

theorem Sound.entered_le (hsound : s.Sound (some group)) : s.entered ≤ group.length := by
  unfold entered
  split
  · exact Nat.zero_le _
  · rename_i rows cursor hp
    obtain ⟨hrows, hle⟩ := hsound _ _ _ hp
    cases hrows
    exact hle
  · rename_i rows cursor phase hne hp
    obtain ⟨hrows, hphase⟩ := hsound _ _ _ hp
    cases hrows
    exact hphase.lt_length hne

end Session

/-! ## Steps are units of the walk -/

namespace Player

/-- The rows that a session of an address walks: those found there, or none. -/
def rowsFor (p : Player) (a : Address) : List Row :=
  (p.rowsAt? a).getD []

def walk (p : Player) (s : Session) (next : Progress) (calls : List Call) (told : List Event) :
    Player :=
  { p with
    status := .live { s with progress := next }
    nextTicket := p.nextTicket + .ofNat (calls.countP Call.isEffect)
    events := p.events ++ told }

variable {stage : Stage} {p : Player} {s : Session}

theorem walk_quiet (next : Progress) (calls : List Call) (h : calls.countP Call.isEffect = 0) :
    p.walk s next calls [] = { p with status := .live { s with progress := next } } := by
  simp [walk, h]

/-- A step of a playing player is a unit of the walk of its session, or the end of it. -/
theorem step_live (stage : Stage) (hs : p.status = .live s)
    (hsound : s.Sound (p.rowsAt? s.address)) (hplay : s.state = .playing) :
    (∃ group next made calls told, p.rowsAt? s.address = some group ∧
      s.Walks stage p.nextTicket group next made calls told ∧
      p.step stage = (p.walk s next calls told, calls)) ∨
    (s.Finishes (p.rowsFor s.address) ∧ p.step stage = (p.finish s, [])) := by
  cases hp : s.progress with
  | opening =>
    cases hrows : p.rowsAt? s.address with
    | none =>
      right
      exact ⟨.missing hp (by simp [rowsFor, hrows]), by simp [step, hs, hp, hrows]⟩
    | some group =>
      left
      refine ⟨group, _, _, _, _, rfl, .opened hp, ?_⟩
      rw [walk_quiet _ _ rfl]
      simp [step, hs, hp, hrows, place]
  | within group cursor phase =>
    obtain ⟨hrows, hphase⟩ := hsound _ _ _ hp
    have hfor : p.rowsFor s.address = group := by simp [rowsFor, hrows]
    cases phase with
    | entering =>
      cases hrow : group[cursor]? with
      | none =>
        right
        rw [hfor]
        exact ⟨.ranOut hp hrow, by simp [step, hs, hp, enter, hrow]⟩
      | some row =>
        left
        refine ⟨group, _, _, _, _, hrows, .entered hp hrow, ?_⟩
        simp [step, hs, hp, enter, hrow, walk, place, announce, Row.shown]
    | acting es d =>
      cases es with
      | cons e es =>
        left
        refine ⟨group, _, _, _, _, hrows, .performed hp, ?_⟩
        have heffect : (e.call ⟨s.generation, p.nextTicket⟩).isEffect = true := by
          cases e <;> rfl
        simp [step, hs, hp, perform, walk, place, Effect.leaves, heffect]
      | nil =>
        obtain ⟨row, _, _, hd⟩ := hphase
        cases d with
        | proceed =>
          left
          refine ⟨group, _, _, _, _, hrows, .proceeded hp, ?_⟩
          rw [walk_quiet _ _ rfl]
          simp [step, hs, hp, decide, place]
        | awaitReader =>
          left
          refine ⟨group, _, _, _, _, hrows, .awaited hp, ?_⟩
          rw [walk_quiet _ _ rfl]
          simp [step, hs, hp, decide, place]
        | awaitChoice options =>
          left
          refine ⟨group, _, _, _, _, hrows, .offered hp, ?_⟩
          rw [walk_quiet _ _ rfl]
          simp [step, hs, hp, decide, place]
        -- only a choice of the reader hands over, and that is no step
        | handOver branch => exact absurd hd (row.cue_decision_ne_handOver branch)
        | stop =>
          right
          rw [hfor]
          exact ⟨.stopped hp, by simp [step, hs, hp, decide]⟩
    | loading | reading | choosing => simp [Session.state, hp, Phase.state] at hplay

end Player

end Dialogue
