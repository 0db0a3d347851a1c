import Dialogue.Script.Row

/-!
# Cues

What one row asks for when it is played: effects, in order, and then one decision about how to go
on. `Row.cue` is that reading of a row.

* The background comes first and the picture second, whatever the command.
* A line is shown with the highlights that belong to it, and then the reader is awaited.
* A choice without options stops the script.
-/

namespace Dialogue

/-- A change of what is shown. -/
inductive Effect where
  | background (key : String)
  | cg (key : String)
  /-- Put a portrait on a side; `wait` says whether playing waits until it is loaded. -/
  | portrait (side : Side) (key : String) (wait : Bool)
  | clearPortraits
  | text (speaker line : String)
  | highlight (which : Highlight)
  | dehighlight (which : Highlight)
  | choices (options : List Choice)
deriving DecidableEq, Repr

/-- How to go on after the effects of a row. -/
inductive Decision where
  /-- Go on with the next row. -/
  | proceed
  /-- Wait for the reader, then go on with the next row. -/
  | awaitReader
  /-- Wait for one of these choices. -/
  | awaitChoice (options : List Choice)
  /-- Hand over to another branch of the scene. -/
  | handOver (branch : Int32)
  /-- End here. -/
  | stop
deriving DecidableEq, Repr

/-- What a row asks for. -/
structure Cue where
  effects : List Effect
  decision : Decision
deriving DecidableEq, Repr

/-- The key of an asset, unless it is missing or empty. -/
def assetKey (key : Option String) : Option String :=
  key.filter fun k => k ≠ ""

/-- The highlights that go with a line. -/
def Highlight.effects : Highlight → List Effect
  | .left => [.highlight .left, .dehighlight .right]
  | .right => [.highlight .right, .dehighlight .left]
  | .none => [.dehighlight .all]
  | .all => [.highlight .all]

namespace Row

/-- The effects that come first on every row. -/
def scenery (r : Row) : List Effect :=
  ((assetKey r.background).map Effect.background).toList ++
    ((assetKey r.cg).map Effect.cg).toList

def speech (r : Row) : List Effect :=
  .text r.speaker r.line :: r.highlight.effects

/-- The portrait of a row, unless the row names no side for it. -/
def portrait (r : Row) : List Effect :=
  if r.side = .none then [] else [.portrait r.side r.character (r.loadMode = .wait)]

/-- What the command of a row asks for. -/
def action (r : Row) : Cue :=
  match r.command with
  | .say => ⟨r.speech, .awaitReader⟩
  | .setCharacter =>
    if r.loadMode = .wait ∧ r.hasDialogue then ⟨r.portrait ++ r.speech, .awaitReader⟩
    else ⟨r.portrait, .proceed⟩
  | .cleanCharacter => ⟨[.clearPortraits], .proceed⟩
  | .setOption =>
    if r.choices.isEmpty then ⟨[], .stop⟩ else ⟨[.choices r.choices], .awaitChoice r.choices⟩
  | .unknown _ => ⟨[], .proceed⟩

def cue (r : Row) : Cue :=
  ⟨r.scenery ++ r.action.effects, r.action.decision⟩

/-- No row hands over to another branch; only a choice of the reader does. -/
theorem cue_decision_ne_handOver (r : Row) (b : Int32) : r.cue.decision ≠ .handOver b := by
  unfold cue action
  cases r.command <;> dsimp only <;> (try split) <;> simp

end Row

end Dialogue
