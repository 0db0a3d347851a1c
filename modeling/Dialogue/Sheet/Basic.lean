import Dialogue.Sheet.Options

/-!
# Sheets

A sheet is a header and one record a row. Blank records are passed over; a record that is no row
is skipped and kept with its fault; the others are the rows, in order.

* The checks of a record come in this order: enough fields, the scene, the branch, the place, the
  options, and at least two of them for a choice.
* Options are checked on every row and kept only on a choice.
-/

namespace Dialogue

/-- What a sheet holds: its rows, and the records that are none. -/
structure Sheet where
  rows : List Row
  skipped : List Sheet.Skipped
deriving DecidableEq, Repr

namespace Sheet

open Text

/-- A cell read as a number, or the fault. -/
def required (read? : List Char → Option α) (fault : String → RowFault) (cell : String) :
    Except RowFault α :=
  match read? cell.toList with
  | some a => .ok a
  | none => .error (fault cell)

/-- A cell read as a number unless it is empty. -/
def optional (read? : List Char → Option α) (fault : String → RowFault) (cell : String) :
    Except RowFault (Option α) :=
  if cell = "" then .ok none else (required read? fault cell).map some

/-- A key, where the cell names one. -/
def key? (cell : String) : Option String :=
  if cell = "" then none else some cell

def keptChoices (command : Command) (found : List Choice) : Except RowFault (List Choice) :=
  if command = .setOption then
    if found.length < 2 then .error (.tooFewOptions found.length) else .ok found
  else .ok []

def rowOf (h : Header) (fields : List String) : Except RowFault Row := do
  if fields.length < h.width then
    throw (.tooFewFields fields.length h.width)
  let cell (r : Role) := h.cell fields (.role r)
  let scene ← required Decimal.int32? .badId (cell .id)
  let branch ← optional Decimal.int32? .badBranch (cell .branch)
  let seq ← optional Decimal.uint32? .badSeq (cell .seq)
  let command := Command.ofWord (cell .command)
  let kept ← keptChoices command (← choices h fields)
  return {
    scene, branch := branch.getD 0, seq, command
    side := Side.ofWord (cell .side)
    character := cell .character
    loadMode := LoadMode.ofWord (cell .loadMode)
    highlight := Highlight.ofWord (cell .highlight)
    background := key? (cell .background)
    cg := key? (cell .cg)
    speaker := cell .speaker
    line := cell .line
    choices := kept }

/-- Puts a record into a sheet, in front of what follows it. -/
def add (h : Header) (r : Record) (rest : Sheet) : Sheet :=
  match rowOf h r.fields with
  | .ok row => { rest with rows := row :: rest.rows }
  | .error fault => { rest with skipped := ⟨r.line, fault⟩ :: rest.skipped }

/-- The sheet that the records after the header make. -/
def ofRecords (h : Header) (rs : List Record) : Sheet :=
  (rs.filter fun r => !r.isBlank).foldr (add h) ⟨[], []⟩

/-- The header of a sheet, if it has the required columns. -/
def headerOf (r : Record) : Except SheetError Header :=
  let h := Header.ofRecord r
  if !h.has .id then .error (.missingColumn .id)
  else if !h.has .command then .error (.missingColumn .command)
  else .ok h

def ofText (text : String) : Except SheetError Sheet :=
  match records text with
  | [] => .error .empty
  | r :: rs => (headerOf r).map fun h => ofRecords h rs

end Sheet

end Dialogue
