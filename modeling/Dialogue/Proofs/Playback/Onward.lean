import Dialogue.Proofs.Playback.Chronicle
import Dialogue.Proofs.Playback.Shift

/-!
# From any player on

What operations do from any player on, not only from a new one: the player that they leave, what
they give back, the calls they make, and the events they announce.

* `Player.announced` are the events that operations add to those to be told.
  `Player.events_run`: what is announced is told in this order, once, or is still to be told.
* `Player.run_shift` and its companions: from a shifted player on, shifted operations do the same
  up to the shift.
-/

namespace Dialogue

namespace Player

/-- The player that operations leave, from this one on. -/
def run (p : Player) (ops : List Operation) : Player :=
  ops.foldl (fun p op => (p.operate op).player) p

/-- The calls that operations make from this player on. -/
def calls (p : Player) (ops : List Operation) : List Call :=
  p.along (fun p op => (p.operate op).calls) ops

/-- What operations give back from this player on, one reply for each. -/
def replies (p : Player) (ops : List Operation) : List Operation.Reply :=
  p.along (fun p op => [(p.operate op).reply]) ops

/-- The events that operations hand over from this player on. -/
def told (p : Player) (ops : List Operation) : List Event :=
  p.along (fun p op => (p.operate op).reply.events) ops

/-- The events that an operation adds to those to be told. -/
def announces (p : Player) (op : Operation) : List Event :=
  (p.operate op).player.events.drop p.events.length

/-- The events that operations announce from this player on. -/
def announced (p : Player) (ops : List Operation) : List Event :=
  p.along announces ops

variable {p : Player} {op : Operation} {ops : List Operation}

@[simp] theorem run_nil : p.run [] = p := rfl

@[simp] theorem calls_nil : p.calls [] = [] := rfl

@[simp] theorem told_nil : p.told [] = [] := rfl

@[simp] theorem run_cons : p.run (op :: ops) = (p.operate op).player.run ops := rfl

@[simp] theorem calls_cons :
    p.calls (op :: ops) = (p.operate op).calls ++ (p.operate op).player.calls ops := rfl

@[simp] theorem replies_cons :
    p.replies (op :: ops) = (p.operate op).reply :: (p.operate op).player.replies ops := rfl

@[simp] theorem told_cons :
    p.told (op :: ops) = (p.operate op).reply.events ++ (p.operate op).player.told ops := rfl

@[simp] theorem announced_cons :
    p.announced (op :: ops) = p.announces op ++ (p.operate op).player.announced ops := rfl

/-- Every operation keeps a player in order. -/
theorem Sound.operate (h : p.Sound) (op : Operation) : (p.operate op).player.Sound := by
  have hnoted := (@Chronicle.note_keeps { player := p } (fun _ => True) (fun _ _ _ => trivial) h
    trivial op).1
  rwa [Chronicle.note_player] at hnoted

/-! ## What is announced is told -/

/-- Only a drain hands events over. -/
theorem operate_told {events : List Event} (h : (p.operate op).reply = .told events) :
    op = .drain := by
  cases op with
  | drain => rfl
  | load fetch => simp only [operate] at h; split at h <;> cases h
  | choose index => simp only [operate] at h; split at h <;> cases h
  | play fetch a => simp only [operate, attempt] at h; split at h <;> cases h
  | refresh fetch => simp only [operate, attempt] at h; split at h <;> cases h
  | feed fetch input => simp only [operate, attempt] at h; split at h <;> cases h
  | pump | advance | complete | cancel => cases h

theorem operate_events (hop : op ≠ .drain) (p : Player) : (p.operate op).reply.events = [] := by
  cases hreply : (p.operate op).reply with
  | told events => exact absurd (operate_told hreply) hop
  | script | done | chosen | state | moved => rfl

theorem operate_no_calls (hop : ∀ stage, op ≠ .pump stage) (p : Player) :
    (p.operate op).calls = [] := by
  by_contra hne
  obtain ⟨stage, hstage⟩ := operate_calls p op hne
  exact hop stage hstage

/-- An operation but a drain leaves older events where they are, and does as without them. -/
theorem operate_behind (hop : op ≠ .drain) (p : Player) :
    (p.operate op).player =
      (p.drain.2.operate op).player.shift ⟨0, 0⟩ p.events := by
  have hshift := @operate_shift ⟨0, 0⟩ p.events op (fun call => congrArg _ call.shift_zero) p.drain.2
  rw [shift_drain, Operation.shift_zero] at hshift
  rw [hshift, Turn.shift]
  cases hreply : (p.drain.2.operate op).reply with
  | told events => exact absurd (operate_told hreply) hop
  | script | done | chosen | state | moved => rfl

/-- An operation but a drain adds to the events that are to be told, behind those there. -/
theorem events_operate (hop : op ≠ .drain) :
    (p.operate op).player.events = p.events ++ p.announces op := by
  have hevents := congrArg Player.events (operate_behind hop p)
  rw [announces, hevents]
  simp [shift]

/-- What was to be told and what operations announce is what they tell and what is to be told
after them. -/
theorem events_run (p : Player) (ops : List Operation) :
    p.events ++ p.announced ops = p.told ops ++ (p.run ops).events := by
  induction ops generalizing p with
  | nil => exact List.append_nil _
  | cons op ops ih =>
    have hrest := ih (p.operate op).player
    by_cases hop : op = .drain
    · subst hop
      have hnone : p.announces .drain = [] := List.drop_nil
      rw [announced_cons, told_cons, run_cons, hnone, List.append_assoc, ← hrest]
      rfl
    · rw [events_operate hop] at hrest
      rw [announced_cons, told_cons, run_cons, operate_events hop, List.nil_append, ← hrest,
        List.append_assoc]

/-! ## Shifted runs -/

/-- The replies of a run, with older events handed over by the first that hands any over. -/
def repliesBehind (older : List Event) : List Operation.Reply → List Operation.Reply
  | [] => []
  | reply :: replies => reply.shift older :: repliesBehind (reply.leaves older) replies

variable {lag : Ticket}

section

variable (hstage : ∀ op ∈ ops, ∀ call, op.stage (call.shift lag) = op.stage call)

include hstage

theorem run_shift (p : Player) (older : List Event) : ∃ left,
    (p.shift lag older).run (ops.map (.shift lag)) = (p.run ops).shift lag left := by
  induction ops generalizing p older with
  | nil => exact ⟨older, rfl⟩
  | cons op ops ih =>
    obtain ⟨hop, hops⟩ := List.forall_mem_cons.1 hstage
    rw [List.map_cons, run_cons, operate_shift hop]
    exact ih hops _ _

theorem calls_shift (p : Player) (older : List Event) :
    (p.shift lag older).calls (ops.map (.shift lag)) = (p.calls ops).map (.shift lag) := by
  induction ops generalizing p older with
  | nil => rfl
  | cons op ops ih =>
    obtain ⟨hop, hops⟩ := List.forall_mem_cons.1 hstage
    rw [List.map_cons, calls_cons, calls_cons, operate_shift hop, List.map_append]
    exact congrArg _ (ih hops _ _)

theorem replies_shift (p : Player) (older : List Event) :
    (p.shift lag older).replies (ops.map (.shift lag)) = repliesBehind older (p.replies ops) := by
  induction ops generalizing p older with
  | nil => rfl
  | cons op ops ih =>
    obtain ⟨hop, hops⟩ := List.forall_mem_cons.1 hstage
    rw [List.map_cons, replies_cons, replies_cons, operate_shift hop]
    exact congrArg _ (ih hops _ _)

theorem announced_shift (p : Player) (older : List Event) :
    (p.shift lag older).announced (ops.map (.shift lag)) = p.announced ops := by
  induction ops generalizing p older with
  | nil => rfl
  | cons op ops ih =>
    obtain ⟨hop, hops⟩ := List.forall_mem_cons.1 hstage
    have hone : (p.shift lag older).announces (op.shift lag) = p.announces op := by
      rw [announces, announces, operate_shift hop]
      by_cases hdrain : op = .drain
      · subst hdrain
        simp [Turn.shift, operate, drain, shift, Operation.Reply.leaves]
      · have hleaves : (p.operate op).reply.leaves older = older := by
          cases hreply : (p.operate op).reply with
          | told events => exact absurd (operate_told hreply) hdrain
          | script | done | chosen | state | moved => rfl
        simp [Turn.shift, shift, hleaves, List.drop_append]
    rw [List.map_cons, announced_cons, announced_cons, hone, operate_shift hop]
    exact congrArg _ (ih hops _ _)

end

end Player

end Dialogue
