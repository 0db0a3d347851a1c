import Dialogue.Playback.Pump

/-!
# Hosts

A host keeps the world in which a player plays: it gives rows, answers calls for assets, is told
what happens, and is asked when the player waits. `Host.run` plays an address to its end.

* `Host` carries the law that makes every run end: a question is answered by leaving, or by one of
  finitely many answers, or by just what is awaited.
* A run ends when the session does, or when the host leaves; then the session is canceled.
* An input that the player refuses is passed over.
-/

namespace Dialogue

/-- What a player waits for. -/
inductive Question where
  | proceed
  | choice (options : List Choice)
  | asset (ticket : Ticket)
deriving DecidableEq, Repr

/-- The input that takes the player on without deciding anything, where there is one. -/
def Question.awaited? : Question → Option Input
  | proceed => some .proceed
  | choice _ => none
  | asset ticket => some (.loaded ticket)

/-- What the player waits for, if it waits. -/
def Player.question? (p : Player) : Option Question :=
  match p.status with
  | .live s =>
    match s.progress with
    | .within _ _ .reading => some .proceed
    | .within _ _ (.choosing options) => some (.choice options)
    | .within _ _ (.loading ticket _ _) => some (.asset ticket)
    | _ => none
  | _ => none

/-- How a world answers a player. -/
structure Host (World : Type) where
  /-- Gives the rows of the script. -/
  fetch : Bool → World → Except SourceError (List Row) × World
  /-- Answers the calls that are made next. -/
  stage : World → Stage
  /-- Makes calls. -/
  perform : List Call → World → World
  /-- Is told of an event. -/
  notify : Event → World → World
  /-- Answers a question. -/
  ask : Question → World → Input × World
  /-- The number of answers left that are no leaving. -/
  answers : World → Nat
  answers_fetch_le : ∀ force w, answers (fetch force w).2 ≤ answers w
  answers_perform_le : ∀ calls w, answers (perform calls w) ≤ answers w
  answers_notify_le : ∀ event w, answers (notify event w) ≤ answers w
  /-- A question is answered by leaving, by an answer that is used up, or by what is awaited. -/
  ask_settles : ∀ q w, (ask q w).1 = .exit ∨ answers (ask q w).2 < answers w ∨
    (q.awaited? = some (ask q w).1 ∧ answers (ask q w).2 ≤ answers w)

namespace Host

variable {World : Type}

/-- The rows for an operation that asks for them as `need` says, and the world after it. -/
def supply (h : Host World) (need : Option Bool) (w : World) : Fetch × World :=
  (fun force => (h.fetch force w).1,
    match need with
    | some force => (h.fetch force w).2
    | none => w)

def deliver (h : Host World) (p : Player) (w : World) : Player × World :=
  (p.drain.2, p.drain.1.foldl (fun w event => h.notify event w) w)

/-- Gives an input to the player; one that it refuses is passed over. -/
def give (h : Host World) (input : Input) (p : Player) (w : World) : Player × World :=
  let (fetch, w) := h.supply (p.asks input) w
  match p.feed fetch input with
  | .ok p => (p, w)
  | .error _ => (p, w)

/-- Plays until something is awaited, makes the calls, and tells what happened. -/
def turn (h : Host World) (p : Player) (w : World) : Player × World :=
  let (q, calls) := p.pump (h.stage w)
  h.deliver q (h.perform calls w)

/-! ## Every round uses up an answer or does some work -/

theorem answers_foldl_notify_le (h : Host World) (events : List Event) (w : World) :
    h.answers (events.foldl (fun w event => h.notify event w) w) ≤ h.answers w := by
  induction events generalizing w with
  | nil => exact Nat.le_refl _
  | cons e es ih => exact Nat.le_trans (ih _) (h.answers_notify_le e w)

theorem answers_turn_le (h : Host World) (p : Player) (w : World) :
    h.answers (h.turn p w).2 ≤ h.answers w :=
  Nat.le_trans (h.answers_foldl_notify_le ..) (h.answers_perform_le ..)

theorem work_turn_le (h : Host World) (p : Player) (w : World) :
    (h.turn p w).1.work ≤ p.work :=
  p.work_pump_le (h.stage w)

theorem answers_give_le (h : Host World) (input : Input) (p : Player) (w : World) :
    h.answers (h.give input p w).2 ≤ h.answers w := by
  have hsupply : h.answers (h.supply (p.asks input) w).2 ≤ h.answers w := by
    unfold supply
    split
    · exact h.answers_fetch_le ..
    · exact Nat.le_refl _
  unfold give
  dsimp only
  split <;> exact hsupply

/-- What is awaited takes the player on. -/
theorem work_give_lt (h : Host World) {q : Question} {input : Input} {p : Player} (w : World)
    (hq : p.question? = some q) (hi : q.awaited? = some input) :
    (h.give input p w).1.work < p.work := by
  unfold Player.question? at hq
  split at hq
  · rename_i s hs
    split at hq
    · rename_i rows cursor hp
      obtain rfl := Option.some.inj hq
      obtain rfl := Option.some.inj hi
      have hadv : p.advance = some { p with
          status := .live { s with progress := .within rows (cursor + 1) .entering } } := by
        simp [Player.advance, hs, hp]
      have := Player.work_advance_lt hadv
      simpa [give, Player.feed, hadv] using this
    · obtain rfl := Option.some.inj hq
      simp [Question.awaited?] at hi
    · rename_i rows cursor t es d hp
      obtain rfl := Option.some.inj hq
      obtain rfl := Option.some.inj hi
      have hcomplete : p.complete t true = some { p with
          status := .live { s with progress := .within rows cursor (.acting es d) } } := by
        simp [Player.complete, hs, hp]
      have := Player.work_complete_lt hcomplete
      simpa [give, Player.feed, hcomplete] using this
    · simp at hq
  · simp at hq

/-- Plays on to the end of the session, or until the host leaves. -/
def loop (h : Host World) (p : Player) (w : World) : Player × World :=
  let next := h.turn p w
  match _waits : next.1.question? with
  | none => next
  | some q =>
    let answer := h.ask q next.2
    if _stays : answer.1 = .exit then h.deliver next.1.cancel answer.2
    else loop h (h.give answer.1 next.1 answer.2).1 (h.give answer.1 next.1 answer.2).2
termination_by (h.answers w, p.work)
decreasing_by
  have hturn := h.answers_turn_le p w
  have hgive := h.answers_give_le answer.1 next.1 answer.2
  rcases h.ask_settles q next.2 with hexit | hless | ⟨hawaited, hle⟩
  · exact absurd hexit _stays
  · exact Prod.Lex.left _ _ (Nat.lt_of_le_of_lt hgive (Nat.lt_of_lt_of_le hless hturn))
  · have hwork := h.work_give_lt answer.2 _waits hawaited
    have hless := h.work_turn_le p w
    rcases Nat.lt_or_eq_of_le (Nat.le_trans hgive (Nat.le_trans hle hturn)) with hlt | heq
    · exact Prod.Lex.left _ _ hlt
    · rw [heq]
      exact Prod.Lex.right _ (Nat.lt_of_lt_of_le hwork hless)

/-- Plays an address to its end: the state at the end, or why nothing was played. -/
def run (h : Host World) (a : Address) (p : Player) (w : World) :
    Except PlaybackError State × Player × World :=
  let (fetch, w) := h.supply (p.asks (.jump a)) w
  match p.play fetch a with
  | .ok p =>
    let (p, w) := h.loop p w
    (.ok p.state, p, w)
  | .error e => (.error e, p, w)

end Host

end Dialogue
