import Dialogue.Proofs.Playback.Reachable

/-!
# A choice hands over

What a choice of the reader does to a reachable controller. It is taken exactly where a choice is
awaited and one of its options has the index. Then the session is given up for one that begins at
the branch of that option; otherwise nothing changes.

`choose` itself says little: it writes a decision into the session and does one unit of work. That
this unit acts on the decision, and does not look rows up, make an effect or enter a row, is what
the registers of a reachable controller say where a choice is awaited.

* `Controller.HandsOver` lists what a choice that is taken leaves, register by register.
* `Controller.Consistent.step_decided`: the unit of work with the decision written in.
* `Controller.choose_hands_over` is the whole of it.
-/

namespace Dialogue

namespace Controller

variable {c d : Controller} {s : Track} {index : Nat}

/-- What a controller `c` leaves that gives its session `s` up for one at `a`. -/
structure HandsOver (c : Controller) (s : Track) (a : Address) (d : Controller) : Prop where
  /-- The session is a new one for just this address, one generation later, that has looked nothing
  up and has nothing to make, to decide or to wait for. -/
  session : ∃ s', d.session = some s' ∧ s'.address = a ∧ s'.generation = s.generation + 1 ∧
    s'.cursor = 0 ∧ s'.rows = none ∧ s'.pending = [] ∧ s'.next = none ∧ s'.waitingOn = none ∧
    s'.choices = []
  generation : d.generation = c.generation + 1
  state : d.state = .playing
  lastPlayed : d.lastPlayed = some a
  /-- Nothing else is told, not even that the session is canceled or complete. -/
  events : d.events = c.events ++ [.branched s.address.scene s.address.branch a.branch]
  script : d.script = c.script
  nextTicket : d.nextTicket = c.nextTicket
  /-- Nothing came through the port. -/
  port : d.port = c.port

/-- The controller with a decision in place of the choices that its session `s` waits for. -/
def decided (c : Controller) (s : Track) (decision : Decision) : Controller :=
  { c with session := some { s with choices := [], next := some decision }, state := .playing }

/-- Where a choice is awaited the rows are there, no effect is pending and no decision is left, so
the next unit of work acts on the decision that is written in. -/
theorem Consistent.step_decided (h : c.Consistent) (hstate : c.state = .awaitingChoice)
    (hs : c.session = some s) (decision : Decision) :
    (c.decided s decision).step =
      (c.decided s decision).decide { s with choices := [], next := none } decision := by
  obtain ⟨hpending, _, rows, hrows, _⟩ := (h.track s hs).choosing hstate
  have hsession : (c.decided s decision).session =
      some { s with choices := [], next := some decision } := rfl
  exact step_of_next hsession hrows hpending rfl

theorem Consistent.handsOver (h : c.Consistent) (hstate : c.state = .awaitingChoice)
    (hs : c.session = some s) (branch : Int32) :
    c.HandsOver s ⟨s.address.scene, branch⟩ (c.decided s (.handOver branch)).step := by
  rw [h.step_decided hstate hs]
  constructor
  case session =>
    refine ⟨_, rfl, rfl, ?_, rfl, rfl, rfl, rfl, rfl, rfl⟩
    show c.generation + 1 = s.generation + 1
    rw [h.generation s hs]
  all_goals rfl

theorem Consistent.exists_session (h : c.Consistent) (hstate : c.state = .awaitingChoice) :
    ∃ s, c.session = some s ∧ c.pendingChoices = s.choices := by
  obtain ⟨s, hs⟩ := Option.isSome_iff_exists.1 (h.session_iff.2 (by simp [hstate]))
  exact ⟨s, hs, by rw [pendingChoices, hs]⟩

/-- In every reachable controller, a choice is taken exactly where one is awaited that has an option
with this index. It is answered by the branch of that option in the scene of the session, and the
controller hands over to it, whether or not it is another branch and whether or not the script has
it. Any other choice is refused, for the reason that applies, and no register changes. -/
theorem choose_hands_over (stage : Stage) (ops : List Operation) (index : Nat) :
    let c := after stage ops
    let result := c.choose index
    ((∃ a, result.1 = .ok a) ↔ c.state = .awaitingChoice ∧ index < c.pendingChoices.length) ∧
    (∀ a, result.1 = .ok a → ∃ s option, c.session = some s ∧
      c.pendingChoices[index]? = some option ∧ a = ⟨s.address.scene, option.target⟩ ∧
      c.HandsOver s a result.2) ∧
    (c.state ≠ .awaitingChoice → result = (.error .noPendingChoice, c)) ∧
    (c.state = .awaitingChoice → c.pendingChoices.length ≤ index →
      result = (.error (.invalidChoice index c.pendingChoices.length), c)) := by
  intro c result
  have hc : c.Consistent := consistent_after stage ops
  by_cases hstate : c.state = .awaitingChoice
  · obtain ⟨s, hs, hchoices⟩ := hc.exists_session hstate
    rw [hchoices]
    cases hoption : s.choices[index]? with
    | some option =>
      have hlt : index < s.choices.length := (List.getElem?_eq_some_iff.1 hoption).1
      have hresult : result = (.ok ⟨s.address.scene, option.target⟩,
          (c.decided s (.handOver option.target)).step) := choose_of_option hstate hs hoption
      rw [hresult]
      refine ⟨iff_of_true ⟨_, rfl⟩ ⟨hstate, hlt⟩, ?_, fun h => absurd hstate h, ?_⟩
      · rintro a ⟨⟩
        exact ⟨s, option, hs, rfl, rfl, hc.handsOver hstate hs option.target⟩
      · intro _ hle
        exact absurd hlt (Nat.not_lt.2 hle)
    | none =>
      have hle : s.choices.length ≤ index := List.getElem?_eq_none_iff.1 hoption
      have hresult : result = (.error (.invalidChoice index s.choices.length), c) :=
        choose_of_no_option hstate hs hoption
      rw [hresult]
      refine ⟨iff_of_false ?_ fun h => Nat.not_lt.2 hle h.2, ?_, fun h => absurd hstate h,
        fun _ _ => rfl⟩
      · rintro ⟨a, ⟨⟩⟩
      · rintro a ⟨⟩
  · have hresult : result = (.error .noPendingChoice, c) := choose_of_not_awaited hstate
    rw [hresult]
    refine ⟨iff_of_false ?_ fun h => hstate h.1, ?_, fun _ => rfl, fun h => absurd h hstate⟩
    · rintro ⟨a, ⟨⟩⟩
    · rintro a ⟨⟩

end Controller

end Dialogue
