import Dialogue.Playback.Pump
import Dialogue.Proofs.Script.Staging
import Mathlib.Data.List.Basic

/-!
# What rows ask of the stage

The calls that playing a list of rows makes when nothing comes between. `reference` gives them
without tickets; a session makes a part of them, from the front.

* A `Beat` is an effect or the wait for the reader; `beats` are those of a list of rows, up to and
  with the first row that waits for a choice or stops.
* `Session.remaining` are the beats that a session has still to make. Together with those it has
  made they are the beats of its rows, wherever it stands.
-/

namespace Dialogue

def Call.bare : Call → Call
  | .portrait side key _ => .portrait side key ⟨0, 0⟩
  | .background key _ => .background key ⟨0, 0⟩
  | .cg key _ => .cg key ⟨0, 0⟩
  | call => call

/-- One thing that a row asks of the stage. -/
inductive Beat where
  | effect (effect : Effect)
  | awaitReader
deriving DecidableEq, Repr

/-- The call that a beat asks for, without a ticket. This says what the stage is to be asked, effect
by effect, and is not the function that asks it. -/
def Beat.call : Beat → Call
  | .effect (.background key) => .background key ⟨0, 0⟩
  | .effect (.cg key) => .cg key ⟨0, 0⟩
  | .effect (.portrait side key _) => .portrait side key ⟨0, 0⟩
  | .effect .clearPortraits => .clearPortraits
  | .effect (.text speaker line) => .text speaker line
  | .effect (.highlight which) => .highlight which
  | .effect (.dehighlight which) => .dehighlight which
  | .effect (.choices options) => .choices options
  | .awaitReader => .awaitReader

def Beat.waits : Beat → Bool
  | .effect e => e.waits
  | .awaitReader => false

/-- What is asked of the stage from a decision on, if `next` is asked from the next row on. -/
def Decision.beats (next : List Beat) : Decision → List Beat
  | .proceed => next
  | .awaitReader => .awaitReader :: next
  | .awaitChoice _ => []
  | .handOver _ => []
  | .stop => []

/-- What rows ask of the stage: the effects of each row in order and then the wait for the reader,
if the row waits for one, up to the first row that waits for a choice or stops. -/
def beats : List Row → List Beat
  | [] => []
  | row :: rows => row.cue.effects.map .effect ++ row.cue.decision.beats (beats rows)

/-- The calls that playing the rows makes, without tickets. -/
def reference (rows : List Row) : List Call :=
  (beats rows).map Beat.call

/-- The beats that are left in a phase of the row under the cursor and in the rows after it. -/
def Phase.remaining (rows : List Row) (cursor : Nat) : Phase → List Beat
  | .entering => beats (rows.drop cursor)
  | .acting effects decision | .loading _ effects decision =>
    effects.map .effect ++ decision.beats (beats (rows.drop (cursor + 1)))
  | .reading => beats (rows.drop (cursor + 1))
  | .choosing _ => []

/-- The beats that a session has still to make, if it finds the rows `group`. -/
def Session.remaining (group : List Row) (s : Session) : List Beat :=
  match s.progress with
  | .opening => beats group
  | .within rows cursor phase => phase.remaining rows cursor

/-- The number of rows that a session has entered. -/
def Session.entered (s : Session) : Nat :=
  match s.progress with
  | .opening => 0
  | .within _ cursor .entering => cursor
  | .within _ cursor _ => cursor + 1

def Row.shown (r : Row) : Event :=
  .rowChanged (some r)

/-! ## Tickets aside, an effect makes the call of its beat -/

theorem Effect.bare_call (e : Effect) (t : Ticket) :
    (e.call t).bare = (Beat.effect e).call := by
  cases e <;> rfl

/-- Only assets carry tickets, and only an effect with an asset can wait. -/
theorem Effect.request?_call (e : Effect) (t : Ticket) (h : e.waits) :
    ∃ key, (e.call t).request? = some (key, t) := by
  cases e with
  | background key => exact ⟨key, rfl⟩
  | cg key => exact ⟨key, rfl⟩
  | portrait side key wait => exact ⟨key, rfl⟩
  | clearPortraits | text | highlight | dehighlight | choices => simp [waits] at h

theorem take_succ_of_getElem? {rows : List Row} {cursor : Nat} {row : Row}
    (h : rows[cursor]? = some row) : rows.take (cursor + 1) = rows.take cursor ++ [row] := by
  rw [List.take_add_one, h]
  rfl

end Dialogue
