import Dialogue.Playback.Player

/-!
# What a terminal shows

The lines that a terminal prints for the calls of a player and for what happens.

* Pictures and portraits are shown by their keys; highlights, and the wait for the reader, are not
  shown.
* Choices are numbered from one.
* Of events only the end of a scene is shown.
-/

namespace Dialogue

open Text

def optionLines (options : List Choice) : List String :=
  options.mapIdx fun i o => "  [" ++ Decimal.natText (i + 1) ++ "] " ++ o.text

def Call.lines : Call → List String
  | text "" line => ["[Narration] " ++ line]
  | text speaker line => ["[Dialogue] " ++ speaker ++ ": " ++ line]
  | portrait side key _ => ["[Portrait] " ++ side.word ++ " <- " ++ key]
  | clearPortraits => ["[Portrait] cleared"]
  | background key _ => ["[Background] " ++ key]
  | cg key _ => ["[CG] " ++ key]
  | highlight _ => []
  | dehighlight _ => []
  | awaitReader => []
  | choices options => optionLines options

def Event.lines : Event → List String
  | sceneComplete a => ["--- scene " ++ a.text ++ " complete ---"]
  | _ => []

end Dialogue
