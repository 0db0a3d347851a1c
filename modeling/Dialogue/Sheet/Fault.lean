import Dialogue.Text.Decimal

/-!
# Faults of a sheet

A sheet fails as a whole only for its header. A record that is no row is left out of the rows and
kept with the line it starts on and the reason.
-/

namespace Dialogue.Sheet

open Text

/-- The columns that a sheet cannot do without. -/
inductive RequiredColumn where
  | id
  | command
deriving DecidableEq, Repr

def RequiredColumn.title : RequiredColumn → String
  | .id => "ID"
  | .command => "Command"

/-- Why a sheet is rejected. -/
inductive SheetError where
  /-- The sheet has no header. -/
  | empty
  /-- The header lacks a required column. -/
  | missingColumn (column : RequiredColumn)
deriving DecidableEq, Repr

def SheetError.message : SheetError → String
  | .empty => "sheet has no header row"
  | .missingColumn c => "sheet header is missing column '" ++ c.title ++ "'"

/-- Why a record is no row. -/
inductive RowFault where
  /-- The record has fewer fields than the header. -/
  | tooFewFields (found width : Nat)
  | badId (cell : String)
  | badBranch (cell : String)
  | badSeq (cell : String)
  /-- The target cell of a numbered option is no branch. -/
  | badTarget (slot : Nat) (cell : String)
  /-- A part of the packed cell has not the form of an option. -/
  | notAnOption (part : String)
  /-- The target of a packed option is no branch. -/
  | badPackedTarget (part : String)
  /-- A choice needs two options. -/
  | tooFewOptions (found : Nat)
deriving DecidableEq, Repr

def RowFault.message : RowFault → String
  | .tooFewFields found width =>
    "insufficient fields (" ++ Decimal.natText found ++ " of " ++ Decimal.natText width ++ ")"
  | .badId cell => "failed to parse ID [" ++ cell ++ "]"
  | .badBranch cell => "failed to parse branch [" ++ cell ++ "]"
  | .badSeq cell => "failed to parse seq [" ++ cell ++ "]"
  | .badTarget slot cell =>
    "option " ++ Decimal.natText slot ++ " has invalid target [" ++ cell ++ "]"
  | .notAnOption part => "option [" ++ part ++ "] is not 'text:target'"
  | .badPackedTarget part => "option [" ++ part ++ "] has invalid target"
  | .tooFewOptions found =>
    "SetOption needs at least two options, found " ++ Decimal.natText found

/-- A record that is no row: the line it starts on, and why. -/
structure Skipped where
  line : Nat
  fault : RowFault
deriving DecidableEq, Repr

def Skipped.message (s : Skipped) : String :=
  "line " ++ Decimal.natText s.line ++ ": " ++ s.fault.message

end Dialogue.Sheet
