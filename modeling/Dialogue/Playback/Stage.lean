import Dialogue.Script.Cue

/-!
# The stage

What a player asks of the stage on which a script is shown, and what the stage answers.

* Each effect is one `Call`; calls for an asset carry a ticket.
* An asset is there at once, still loading, or missing. Only one that is still loading can make
  the player wait, and only for effects that wait.
-/

namespace Dialogue

/-- Names one request for an asset: the session that made it, and its number. -/
structure Ticket where
  generation : UInt64
  id : UInt64
deriving DecidableEq, Repr, Inhabited

/-- What a player asks of the stage. -/
inductive Call where
  | text (speaker line : String)
  | portrait (side : Side) (key : String) (ticket : Ticket)
  | clearPortraits
  | background (key : String) (ticket : Ticket)
  | cg (key : String) (ticket : Ticket)
  | highlight (which : Highlight)
  | dehighlight (which : Highlight)
  | awaitReader
  | choices (options : List Choice)
deriving DecidableEq, Repr

/-- What the stage answers to a call for an asset. -/
inductive Answer where
  | ready
  | pending
  | missing
deriving DecidableEq, Repr

/-- How a stage answers calls. Only the answers to calls for assets are looked at. -/
abbrev Stage := Call → Answer

/-- The asset and the ticket of a call that asks for one. -/
def Call.request? : Call → Option (String × Ticket)
  | .portrait _ key ticket => some (key, ticket)
  | .background key ticket => some (key, ticket)
  | .cg key ticket => some (key, ticket)
  | _ => none

/-- The stage on which every asset is there. -/
def readyStage : Stage := fun _ => .ready

namespace Effect

/-- The call that makes an effect, under a ticket. -/
def call (ticket : Ticket) : Effect → Call
  | .background key => .background key ticket
  | .cg key => .cg key ticket
  | .portrait side key _ => .portrait side key ticket
  | .clearPortraits => .clearPortraits
  | .text speaker line => .text speaker line
  | .highlight which => .highlight which
  | .dehighlight which => .dehighlight which
  | .choices options => .choices options

/-- Whether playing waits while the asset of an effect loads. -/
def waits : Effect → Bool
  | .background _ => true
  | .cg _ => true
  | .portrait _ _ wait => wait
  | _ => false

end Effect

end Dialogue
