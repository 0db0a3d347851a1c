import Dialogue.Playback.Host
import Dialogue.Proofs.Playback.Leads

/-!
# The rounds of a host

A host plays in rounds: it pumps the player, tells what is announced, asks what the player waits
for and gives it the answer. `Host.Rounds` lists the operations of these rounds up to the end.

* `Host.rounds_loop`: from every player and every world on the rounds come to an end, and leave
  what `Host.loop` gives; `Host.Rounds.loop_eq`: they can leave nothing else.
* `Host.Rounds.run_eq`: what they leave of the player is what their operations make of it.
* `Host.Rounds.status`: from a live session on, they end with the session, unless the host leaves.
-/

namespace Dialogue

namespace Host

variable {World : Type}

/-- The rows that a host gives in a world. -/
def rows (h : Host World) (w : World) : Fetch := fun force => (h.fetch force w).1

/-- The rounds from a player and a world on, up to the end: the operations that they do on the
player, and what they leave. -/
inductive Rounds (h : Host World) : Player → World → List Operation → Player → World → Prop
  /-- Nothing is awaited. -/
  | ended {p q : Player} {w v : World} (hturn : h.turn p w = (q, v)) (hover : q.question? = none) :
      Rounds h p w [.pump (h.stage w), .drain] q v
  /-- The host leaves. -/
  | left {p q p' : Player} {w v u w' : World} {question : Question} (hturn : h.turn p w = (q, v))
      (hwaits : q.question? = some question) (hask : h.ask question v = (.exit, u))
      (hdeliver : h.deliver q.cancel u = (p', w')) :
      Rounds h p w [.pump (h.stage w), .drain, .cancel, .drain] p' w'
  /-- The player is given the answer, and more rounds follow. -/
  | next {p q r p' : Player} {w v u t w' : World} {question : Question} {answer : Input}
      {ops : List Operation} (hturn : h.turn p w = (q, v)) (hwaits : q.question? = some question)
      (hask : h.ask question v = (answer, u)) (hstays : answer ≠ .exit)
      (hgive : h.give answer q u = (r, t)) (hrest : Rounds h r t ops p' w') :
      Rounds h p w (.pump (h.stage w) :: .drain :: .feed (h.rows u) answer :: ops) p' w'

/-! ## The rounds end, where the loop does -/

section

variable {h : Host World} {p q : Player} {w v u : World} {question : Question} {answer : Input}

theorem loop_of_ended (hturn : h.turn p w = (q, v)) (hover : q.question? = none) :
    h.loop p w = (q, v) := by
  rw [loop, hturn]
  split
  · rfl
  · rename_i hwaits
    simp [hover] at hwaits

theorem loop_of_left (hturn : h.turn p w = (q, v)) (hwaits : q.question? = some question)
    (hask : h.ask question v = (.exit, u)) : h.loop p w = h.deliver q.cancel u := by
  rw [loop, hturn]
  split
  · rename_i hover
    simp [hwaits] at hover
  · rename_i hwaits'
    obtain rfl := Option.some.inj (hwaits.symm.trans hwaits')
    rw [hask]
    exact dif_pos rfl

theorem loop_of_next (hturn : h.turn p w = (q, v)) (hwaits : q.question? = some question)
    (hask : h.ask question v = (answer, u)) (hstays : answer ≠ .exit) :
    h.loop p w = h.loop (h.give answer q u).1 (h.give answer q u).2 := by
  rw [loop, hturn]
  split
  · rename_i hover
    simp [hwaits] at hover
  · rename_i hwaits'
    obtain rfl := Option.some.inj (hwaits.symm.trans hwaits')
    rw [hask]
    exact dif_neg hstays

end

/-- From everywhere on there are rounds up to an end, and the loop gives what they leave. -/
theorem rounds_loop (h : Host World) (p : Player) (w : World) :
    ∃ ops, h.Rounds p w ops (h.loop p w).1 (h.loop p w).2 := by
  -- on the recursion of the loop, which the answers left and the work of the player bound
  induction p, w using Host.loop.induct h with
  | case1 p w next hover =>
    rw [loop_of_ended rfl hover]
    exact ⟨_, .ended rfl hover⟩
  | case2 p w next question hwaits answer hexit =>
    have hask : h.ask question (h.turn p w).2 = (.exit, answer.2) := Prod.ext hexit rfl
    rw [loop_of_left rfl hwaits hask]
    exact ⟨_, .left rfl hwaits hask rfl⟩
  | case3 p w next question hwaits answer hstays ih =>
    obtain ⟨ops, hrest⟩ := ih
    rw [loop_of_next rfl hwaits rfl hstays]
    exact ⟨_, .next rfl hwaits rfl hstays rfl hrest⟩

variable {h : Host World} {p p' : Player} {w w' : World} {ops : List Operation}

/-- The rounds leave nothing but what the loop gives. -/
theorem Rounds.loop_eq (hr : h.Rounds p w ops p' w') : h.loop p w = (p', w') := by
  induction hr with
  | ended hturn hover => exact loop_of_ended hturn hover
  | left hturn hwaits hask hdeliver => exact (loop_of_left hturn hwaits hask).trans hdeliver
  | next hturn hwaits hask hstays hgive _ ih =>
    rw [loop_of_next hturn hwaits hask hstays, hgive, ih]

/-! ## What the rounds do on the player -/

section

variable {q r : Player} {v u t : World} {answer : Input}

theorem player_of_turn (hturn : h.turn p w = (q, v)) : q = p.run [.pump (h.stage w), .drain] :=
  (congrArg Prod.fst hturn).symm

theorem player_of_deliver (hdeliver : h.deliver p w = (q, v)) : q = p.run [.drain] :=
  (congrArg Prod.fst hdeliver).symm

theorem give_eq (h : Host World) (answer : Input) (p : Player) (w : World) :
    h.give answer p w =
      (p.run [.feed (h.rows w) answer], (h.supply (p.asks answer) w).2) := by
  have hfeed : (p.run [.feed (h.rows w) answer]) =
      (p.attempt (p.feed (h.rows w) answer)).player := rfl
  have hrows : (h.supply (p.asks answer) w).1 = h.rows w := rfl
  rw [hfeed, give]
  dsimp only
  rw [hrows]
  cases p.feed (h.rows w) answer <;> rfl

theorem player_of_give (hgive : h.give answer p w = (q, v)) :
    q = p.run [.feed (h.rows w) answer] := by
  rw [give_eq] at hgive
  exact (congrArg Prod.fst hgive).symm

end

theorem Rounds.run_eq (hr : h.Rounds p w ops p' w') : p' = p.run ops := by
  induction hr with
  | ended hturn => exact player_of_turn hturn
  | left hturn _ _ hdeliver => rw [player_of_deliver hdeliver, player_of_turn hturn]; rfl
  | next hturn _ _ _ hgive _ ih => rw [ih, player_of_give hgive, player_of_turn hturn]; rfl

/-- Nothing is left to be told where the rounds end. -/
theorem Rounds.told_all (hr : h.Rounds p w ops p' w') : p'.events = [] := by
  induction hr with
  | ended hturn => rw [player_of_turn hturn]; rfl
  | left _ _ _ hdeliver => rw [player_of_deliver hdeliver]; rfl
  | next _ _ _ _ _ _ ih => exact ih

/-! ## Where the rounds end -/

end Host

/-- The answer of a host that an operation acts on. -/
def Operation.answer? : Operation → Option Input
  | .feed _ input => some input
  | .cancel => some .exit
  | _ => none

namespace Player

variable {p : Player} {s : Session}

/-- A session that does not play on waits for an answer. -/
theorem exists_question (hs : p.status = .live s) (hstop : p.state ≠ .playing) :
    ∃ q, p.question? = some q := by
  rw [state_live hs] at hstop
  cases hp : s.progress with
  | opening => simp [Session.state, hp] at hstop
  | within rows cursor phase =>
    cases phase with
    | entering | acting => simp [Session.state, Phase.state, hp] at hstop
    | loading | reading | choosing => simp [question?, hs, hp]

/-- A player that waits has a live session. -/
theorem live_of_question {question : Question} (h : p.question? = some question) :
    ∃ s, p.status = .live s := by
  cases hs : p.status with
  | live s => exact ⟨s, rfl⟩
  | idle | completed | canceled => simp [question?, hs] at h

/-- A pump leaves a session live, or comes to its end. -/
theorem Sound.pump_live (h : p.Sound) (hlive : ∃ s, p.status = .live s) (stage : Stage) :
    (∃ s, (p.pump stage).1.status = .live s) ∨ (p.pump stage).1.status = .completed := by
  revert hlive
  refine Sound.pump_induction
    (motive := fun p q _ => (∃ s, p.status = .live s) →
      (∃ s, q.status = .live s) ∨ q.status = .completed)
    ?stop ?walk ?finish h
  case stop => exact fun p _ hlive => Or.inl hlive
  case walk =>
    intro p q s group next made calls later told _ _ _ _ ih _
    exact ih ⟨_, rfl⟩
  case finish => exact fun _ _ _ => Or.inr rfl

end Player

namespace Host

variable {World : Type} {h : Host World} {p p' : Player} {w w' : World} {ops : List Operation}

/-- From a live session on, the rounds end with the session, unless the host leaves. -/
theorem Rounds.status (hr : h.Rounds p w ops p' w') (hsound : p.Sound)
    (hlive : ∃ s, p.status = .live s) :
    p'.status = if (ops.filterMap Operation.answer?).getLast? = some .exit then .canceled
      else .completed := by
  -- each round finds a live session, and the answer in it keeps one
  induction hr with
  | @ended p q w v hturn hover =>
    obtain rfl := player_of_turn hturn
    rcases hsound.pump_live hlive (h.stage w) with ⟨s, hs⟩ | hend
    · obtain ⟨question, hwaits⟩ := Player.exists_question hs (Player.state_pump_ne_playing _ _)
      exact absurd (hwaits.symm.trans hover) (by simp)
    · exact hend
  | @left p q p' w v u w' question hturn hwaits _ hdeliver =>
    obtain rfl := player_of_deliver hdeliver
    obtain ⟨s, hs⟩ := Player.live_of_question hwaits
    exact congrArg Player.status (Player.cancel_live hs)
  | @next p q r p' w v u t w' question answer ops hturn hwaits _ hstays hgive _ ih =>
    obtain rfl := player_of_give hgive
    have hturned : q.Sound := by
      rw [player_of_turn hturn]
      exact (hsound.operate (.pump (h.stage w))).operate .drain
    have hfed : ∃ s, (q.operate (.feed (h.rows u) answer)).player.status = .live s := by
      refine (Player.operate_leads (by simp) (by simp) q).live hturned
        (Player.live_of_question hwaits) ?_
      cases answer with
      | exit => exact absurd rfl hstays
      | proceed | choose | jump | loaded | refresh => exact id
    rw [ih (hturned.operate _) hfed]
    simp only [List.filterMap_cons, Operation.answer?, List.getLast?_cons]
    cases (ops.filterMap Operation.answer?).getLast? with
    | none => simp [hstays]
    | some last => simp

theorem Rounds.session? (hr : h.Rounds p w ops p' w') (hsound : p.Sound)
    (hlive : ∃ s, p.status = .live s) : p'.session? = none := by
  have hstatus := hr.status hsound hlive
  refine Player.session?_eq_none_iff.2 fun s hs => ?_
  rw [hs] at hstatus
  split at hstatus <;> cases hstatus

theorem Rounds.state (hr : h.Rounds p w ops p' w') (hsound : p.Sound)
    (hlive : ∃ s, p.status = .live s) :
    p'.state = if (ops.filterMap Operation.answer?).getLast? = some .exit then .canceled
      else .completed := by
  rw [Player.state, hr.status hsound hlive]
  split_ifs <;> rfl

end Host

end Dialogue
