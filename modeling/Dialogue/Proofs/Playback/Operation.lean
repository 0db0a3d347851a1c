import Dialogue.Playback.Pump

/-!
# Operations and runs

The interface of a player as data. An `Operation` is one call of it together with what the
surroundings answer to that call: the rows of the source, the answers of the stage. A run is a
list of operations on a new player, in any order.

* `Player.operate` is one operation: the player after it, what it gives back, and the calls made.
* `Player.after` is the player that a run leaves; a player is reachable when some run leaves it.
* `Operation.begins?` is the address at which an operation begins a session, `Operation.plays` says
  that it chooses the address itself, and `Operation.resumes?` is the ticket of a load after which
  it takes the player on.
* `Player.along` collects what the operations of a run do.
-/

namespace Dialogue

/-- One call of the interface of a player, with what its surroundings answer. A stage answers by
the call, and a call for an asset carries its ticket, so each call has an answer of its own. -/
inductive Operation where
  | load (fetch : Fetch)
  | play (fetch : Fetch) (address : Address)
  | refresh (fetch : Fetch)
  | pump (stage : Stage)
  | advance
  | choose (index : Nat)
  | complete (ticket : Ticket) (loaded : Bool)
  | cancel
  | feed (fetch : Fetch) (input : Input)
  | drain

/-- What an operation gives back. -/
inductive Operation.Reply where
  | script (result : Except PlaybackError Script)
  | done (result : Except PlaybackError Unit)
  | chosen (result : Except PlaybackError Address)
  | state (state : State)
  | moved (moved : Bool)
  | told (events : List Event)

/-- One operation done: the player after it, its reply, and the calls it made. -/
structure Turn where
  player : Player
  reply : Operation.Reply
  calls : List Call := []

/-- The stage that answers the calls of an operation. -/
def Operation.stage : Operation → Stage
  | .pump stage => stage
  | _ => readyStage

def Operation.Reply.events : Operation.Reply → List Event
  | .told events => events
  | _ => []

namespace Player

def attempt (p : Player) : Except PlaybackError Player → Turn
  | .ok q => { player := q, reply := .done (.ok ()) }
  | .error e => { player := p, reply := .done (.error e) }

def attempt? (p : Player) (result : Option Player) : Turn :=
  { player := result.getD p, reply := .moved result.isSome }

/-- Does an operation. One that fails or is ignored leaves the player as it is. -/
def operate (p : Player) : Operation → Turn
  | .load fetch =>
    match p.load fetch with
    | .ok (script, q) => { player := q, reply := .script (.ok script) }
    | .error e => { player := p, reply := .script (.error (.sourceUnavailable e)) }
  | .play fetch a => p.attempt (p.play fetch a)
  | .refresh fetch => p.attempt (p.refresh fetch)
  | .pump stage =>
    { player := (p.pump stage).1
      reply := .state (p.pump stage).1.state
      calls := (p.pump stage).2 }
  | .advance => p.attempt? p.advance
  | .choose index =>
    match p.choose index with
    | .ok (a, q) => { player := q, reply := .chosen (.ok a) }
    | .error e => { player := p, reply := .chosen (.error e) }
  | .complete ticket loaded => p.attempt? (p.complete ticket loaded)
  | .cancel => { player := p.cancel, reply := .moved p.session?.isSome }
  | .feed fetch input => p.attempt (p.feed fetch input)
  | .drain => { player := p.drain.2, reply := .told p.drain.1 }

/-- The player that a run leaves. -/
def after (ops : List Operation) : Player :=
  ops.foldl (fun p op => (p.operate op).player) {}

/-- Only a pump calls the stage. -/
theorem operate_calls (p : Player) (op : Operation) (h : (p.operate op).calls ≠ []) :
    ∃ stage, op = .pump stage := by
  cases op with
  | pump stage => exact ⟨stage, rfl⟩
  | load fetch => simp only [operate] at h; split at h <;> exact absurd rfl h
  | choose index => simp only [operate] at h; split at h <;> exact absurd rfl h
  | play fetch a => simp only [operate, attempt] at h; split at h <;> exact absurd rfl h
  | refresh fetch => simp only [operate, attempt] at h; split at h <;> exact absurd rfl h
  | feed fetch input => simp only [operate, attempt] at h; split at h <;> exact absurd rfl h
  | advance | complete ticket loaded | cancel | drain => exact absurd rfl h

/-! ## What an operation that succeeds does -/

def withScript (p : Player) (script : Script) : Player :=
  { p with script := some script }

theorem withScript_eq_self {p : Player} {script : Script} (h : p.script = some script) :
    p.withScript script = p := by
  rw [withScript, ← h]

theorem load_ok {p q : Player} {fetch : Fetch} {script : Script}
    (h : p.load fetch = .ok (script, q)) :
    p.script = some script ∧ q = p ∨ p.script = none ∧ q = p.withScript script := by
  unfold load at h
  split at h
  · rename_i script' hscript
    cases h
    exact Or.inl ⟨hscript, rfl⟩
  · rename_i hscript
    split at h
    · cases h
      exact Or.inr ⟨hscript, rfl⟩
    · cases h

theorem play_ok {p q : Player} {fetch : Fetch} {a : Address} (h : p.play fetch a = .ok q) :
    ∃ script r, p.load fetch = .ok (script, r) ∧ q = r.cancel.start a := by
  unfold play at h
  split at h
  · rename_i script r hload
    cases h
    exact ⟨script, r, hload, rfl⟩
  · cases h

theorem lastPlayed_cancel (p : Player) : p.cancel.lastPlayed = p.lastPlayed := by
  unfold cancel
  split <;> rfl

theorem script_cancel (p : Player) : p.cancel.script = p.script := by
  unfold cancel
  split <;> rfl

theorem cancel_withScript (p : Player) (script : Script) :
    (p.withScript script).cancel = p.cancel.withScript script := by
  cases hs : p.status <;> simp [cancel, withScript, hs, announce]

/-- Before a play the script is loaded, and that is all that changes. -/
theorem cancel_of_load {p q : Player} {fetch : Fetch} {script : Script}
    (h : p.load fetch = .ok (script, q)) : q.cancel = p.cancel.withScript script := by
  rcases load_ok h with ⟨hscript, rfl⟩ | ⟨_, rfl⟩
  · rw [withScript_eq_self]
    rw [script_cancel, hscript]
  · rw [cancel_withScript]

theorem refresh_ok {p q : Player} {fetch : Fetch} (h : p.refresh fetch = .ok q) :
    ∃ rows, fetch true = .ok rows ∧
      (p.lastPlayed = none ∧ q = p.cancel.withScript (.ofRows rows) ∨
        ∃ a, p.lastPlayed = some a ∧ q = (p.cancel.withScript (.ofRows rows)).start a) := by
  unfold refresh at h
  split at h
  · rename_i rows hrows
    refine ⟨rows, hrows, ?_⟩
    -- the script comes before the end of the session here, and after it in the statement
    have hcancel := cancel_withScript p (.ofRows rows)
    simp only [withScript] at hcancel
    dsimp only at h
    rw [hcancel] at h
    split at h
    · rename_i a ha
      cases h
      exact Or.inr ⟨a, (lastPlayed_cancel p).symm.trans ha, rfl⟩
    · rename_i ha
      cases h
      exact Or.inl ⟨(lastPlayed_cancel p).symm.trans ha, rfl⟩
  · cases h

theorem advance_some {p q : Player} (h : p.advance = some q) :
    ∃ s rows cursor, p.status = .live s ∧ s.progress = .within rows cursor .reading ∧
      q = p.place s rows (cursor + 1) .entering := by
  unfold advance at h
  split at h
  · rename_i s hs
    split at h
    · rename_i rows cursor hp
      cases h
      exact ⟨s, rows, cursor, hs, hp, rfl⟩
    · cases h
  · cases h

theorem choose_ok {p q : Player} {index : Nat} {a : Address} (h : p.choose index = .ok (a, q)) :
    ∃ s rows cursor options option, p.status = .live s ∧
      s.progress = .within rows cursor (.choosing options) ∧ options[index]? = some option ∧
      a = ⟨s.address.scene, option.target⟩ ∧ q = p.handOver s option.target := by
  unfold choose at h
  split at h
  · rename_i s hs
    split at h
    · rename_i rows cursor options hp
      split at h
      · rename_i option hoption
        cases h
        exact ⟨s, rows, cursor, options, option, hs, hp, hoption, rfl, rfl⟩
      · cases h
    · cases h
  · cases h

theorem complete_some {p q : Player} {t : Ticket} {loaded : Bool}
    (h : p.complete t loaded = some q) :
    ∃ s rows cursor es d, p.status = .live s ∧ s.progress = .within rows cursor (.loading t es d) ∧
      q = p.place s rows cursor (.acting es d) := by
  unfold complete at h
  split at h
  · rename_i s hs
    split at h
    · rename_i rows cursor t' es d hp
      split at h
      · rename_i ht
        cases h
        exact ⟨s, rows, cursor, es, d, hs, ht ▸ hp, rfl⟩
      · cases h
    · cases h
  · cases h

end Player

namespace Operation

/-- Whether an operation is a call of `play`, or feeds the input for one, and succeeds. -/
def plays (p : Player) : Operation → Prop
  | .play fetch a | .feed fetch (.jump a) => ∃ q, p.play fetch a = .ok q
  | _ => False

/-- The address at which an operation begins a session, if it does: one that is played, the one
last played after a refresh, or that of the branch chosen. -/
def begins? (p : Player) : Operation → Option Address
  | .play fetch a | .feed fetch (.jump a) => (p.play fetch a).toOption.map fun _ => a
  | .refresh fetch | .feed fetch .refresh => (p.refresh fetch).toOption.bind fun _ => p.lastPlayed
  | .choose index | .feed _ (.choose index) => (p.choose index).toOption.map Prod.fst
  | _ => none

/-- The ticket whose completion takes the player on in an operation. -/
def resumes? (p : Player) : Operation → Option Ticket
  | .complete ticket loaded => if (p.complete ticket loaded).isSome then some ticket else none
  | .feed _ (.loaded ticket) => if (p.complete ticket true).isSome then some ticket else none
  | _ => none

end Operation

/-- Some operation of a run played an address. -/
def Played (ops : List Operation) : Prop :=
  ∃ before op later, ops = before ++ op :: later ∧ op.plays (Player.after before)

namespace Player

/-! ## What a run does -/

/-- What the operations of a run do, each seen with the player that it finds. -/
def along {α : Type} (does : Player → Operation → List α) (p : Player) : List Operation → List α
  | [] => []
  | op :: ops => does p op ++ (p.operate op).player.along does ops

/-- All calls that a run makes, in order. -/
def callsMade (ops : List Operation) : List Call :=
  along (fun p op => (p.operate op).calls) {} ops

/-- All events that a run hands over, in order. -/
def eventsTold (ops : List Operation) : List Event :=
  along (fun p op => (p.operate op).reply.events) {} ops

/-- The addresses at which a run begins sessions, in order. -/
def sessionsBegun (ops : List Operation) : List Address :=
  along (fun p op => (op.begins? p).toList) {} ops

theorem after_concat (ops : List Operation) (op : Operation) :
    after (ops ++ [op]) = ((after ops).operate op).player := by
  simp [after, List.foldl_append]

/-- The last operation of a run finds the player that the others leave. -/
theorem along_concat {α : Type} (does : Player → Operation → List α) (ops : List Operation)
    (op : Operation) : along does {} (ops ++ [op]) = along does {} ops ++ does (after ops) op := by
  -- for any first player, as the induction is on the operations that come first
  have h : ∀ p : Player, p.along does (ops ++ [op]) = p.along does ops ++
      does (ops.foldl (fun p op => (p.operate op).player) p) op := by
    induction ops with
    | nil => exact fun p => List.append_nil _
    | cons first ops ih => exact fun p => (congrArg _ (ih _)).trans (List.append_assoc _ _ _).symm
  exact h {}

end Player

end Dialogue
