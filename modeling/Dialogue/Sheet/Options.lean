import Dialogue.Script.Row
import Dialogue.Sheet.Fault
import Dialogue.Sheet.Header
import Dialogue.Text.Pattern

/-!
# Option cells

The choices of a row stand in numbered columns, a text and a target for each number, or packed
into one cell as `text:target|text:target`. Numbered choices come first, by number.

* `packed` cuts the cell at bars, drops blank parts and reads each other part.
* `packedOption` is the pattern of a packed part: a text without line feeds, a colon, blanks and the
  target. A part that does not match is no option.
-/

namespace Dialogue.Sheet

open Text

/-- A text without line feeds, a colon, blanks, and a target. -/
def packedOption : Pattern :=
  .seq (.group (.several Pattern.dot))
    (.seq (.char ':') (.seq (.many isBlank) (.group .signed)))

/-- Reads one part of the packed cell. -/
def packedChoice (part : List Char) : Except RowFault Choice :=
  match packedOption.captures? part with
  | some [text, target] =>
    match Decimal.signed32? target with
    | some branch => .ok ⟨String.ofList (trim text), branch⟩
    | none => .error (.badPackedTarget (String.ofList part))
  | _ => .error (.notAnOption (String.ofList part))

def packedParts (cell : String) : List (List Char) :=
  ((cell.toList.splitOn '|').map trim).filter fun part => !part.isEmpty

def packedChoices (cell : String) : Except RowFault (List Choice) :=
  (packedParts cell).mapM packedChoice

/-- The choice with number `slot`, if its cells are not both empty. -/
def numberedChoice (h : Header) (fields : List String) (slot : Nat) :
    Except RowFault (Option Choice) :=
  let text := h.cell fields (.optionText slot)
  let target := h.cell fields (.optionTarget slot)
  if text = "" ∧ target = "" then .ok none
  else
    match Decimal.int32? target.toList with
    | some branch => .ok (some ⟨text, branch⟩)
    | none => .error (.badTarget slot target)

def numberedChoices (h : Header) (fields : List String) : Except RowFault (List Choice) := do
  return (← h.slots.mapM (numberedChoice h fields)).filterMap id

def choices (h : Header) (fields : List String) : Except RowFault (List Choice) := do
  return (← numberedChoices h fields) ++ (← packedChoices (h.cell fields (.role .options)))

end Dialogue.Sheet
