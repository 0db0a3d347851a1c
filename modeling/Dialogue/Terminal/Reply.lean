import Dialogue.Playback.Player
import Dialogue.Text.Blank
import Dialogue.Text.Utf8

/-!
# What a reader types

A reader answers a prompt with a line. Blanks around it do not count.

* An empty line goes on, where the player waits for the reader; a number takes an option, where it
  waits for a choice.
* `exit`, `:refresh` and `:jump` with an address are understood at every prompt.
* Any other line is refused.
-/

namespace Dialogue.Terminal

open Text

/-- What a line comes to. -/
inductive Reply where
  | input (input : Input)
  /-- The reader leaves. -/
  | leave
  /-- The line is refused, with this said about it. -/
  | refused (notes : List String)
deriving DecidableEq, Repr

/-- What is said of every line that is refused. -/
def refusal : String := "invalid"

/-- A line that is a command or is refused. -/
def commandReply (line : String) : Reply :=
  if lowerAscii line.toList = "exit".toList then .leave
  else if line = ":refresh" then .input .refresh
  else
    match ":jump".toList.isPrefixOf? line.toList with
    | some rest =>
      match Address.ofText (String.ofList rest) with
      | .ok a => .input (.jump a)
      | .error e => .refused [e.message, refusal]
    | none => .refused [refusal]

/-- A line where the player waits for the reader. -/
def proceedReply (line : String) : Reply :=
  if line = "" then .input .proceed else commandReply line

/-- A line where the player waits for one of `count` options. -/
def choiceReply (count : Nat) (line : String) : Reply :=
  match Decimal.uint64? line.toList with
  | some n => if 1 ≤ n ∧ n ≤ count then .input (.choose (n - 1)) else commandReply line
  | none => commandReply line

/-- The parts of some bytes between line feeds; a line feed at the end begins no further part. -/
def lineBytes (bs : Bytes) : List Bytes :=
  let parts := bs.splitOn 0x0A
  if parts.getLast? = some [] then parts.dropLast else parts

/-- The lines that a reader typed. One that is no text is `none`. -/
def typedLines (bs : Bytes) : List (Option String) :=
  (lineBytes bs).map text?

end Dialogue.Terminal
