import Dialogue.Text.Blank

/-!
# Records of a spreadsheet export

A text of comma separated values is cut into records, each with the line it starts on.

* Fields end at commas, records at line feeds and at carriage returns; a carriage return in front
  of a line feed belongs to the line end.
* A quote opens a quoted part while the field holds nothing but blanks, which it drops. Inside,
  commas and line ends are text and a doubled quote is one quote; after the closing quote the
  field goes on unquoted.
* Lines are counted by line feeds alone, those inside quotes included.
* A byte order mark at the start of the text is skipped.
-/

namespace Dialogue.Sheet

open Text

/-- One record: the line it starts on, counted from one, and its fields, untrimmed. -/
structure Record where
  line : Nat
  fields : List String
deriving DecidableEq, Repr

def Record.isBlank (r : Record) : Bool :=
  r.fields.all fun f => allBlank f.toList

/-- A record while it is read. -/
structure Draft where
  /-- The line the record started on. -/
  line : Nat
  /-- The finished fields, the last one first. -/
  fields : List String
  /-- The characters of the open field, the last one first. -/
  field : List Char
  /-- Whether the text goes on inside quotes. -/
  quoted : Bool

namespace Draft

/-- A record of which nothing is read yet. -/
def start (line : Nat) : Draft :=
  ⟨line, [], [], false⟩

/-- Adds a character to the open field. -/
def push (d : Draft) (c : Char) : Draft :=
  { d with field := c :: d.field }

/-- Opens a quoted part and drops the blanks in front of it. -/
def openQuote (d : Draft) : Draft :=
  { d with field := [], quoted := true }

def closeQuote (d : Draft) : Draft :=
  { d with quoted := false }

def endField (d : Draft) : Draft :=
  { d with fields := String.ofList d.field.reverse :: d.fields, field := [] }

/-- The record, with its last field ended. -/
def close (d : Draft) : Record :=
  ⟨d.line, d.endField.fields.reverse⟩

end Draft

/-- The line after reading `c` on line `n`. -/
def nextLine (n : Nat) (c : Char) : Nat :=
  if c = '\n' then n + 1 else n

/-- Reads the rest of the record `d`, and the records after it, from line `n` on. -/
def scan (d : Draft) (n : Nat) : List Char → List Record
  | [] => [d.close]
  | c :: rest =>
    if d.quoted then
      if c = '"' then
        match rest with
        | [] => [d.closeQuote.close]
        | c' :: rest' =>
          if c' = '"' then scan (d.push '"') n rest' else scan d.closeQuote n (c' :: rest')
      else scan (d.push c) (nextLine n c) rest
    else if c = '"' ∧ allBlank d.field then scan d.openQuote n rest
    else if c = ',' then scan d.endField n rest
    else if c = '\r' ∧ rest.head? = some '\n' then scan d n rest
    else if c = '\n' ∨ c = '\r' then
      d.close :: if rest.isEmpty then [] else scan (.start (nextLine n c)) (nextLine n c) rest
    else scan (d.push c) n rest

/-- The records of a text from line `n` on. An empty text has none. -/
def recordsFrom (n : Nat) (cs : List Char) : List Record :=
  if cs.isEmpty then [] else scan (.start n) n cs

/-- The text without a byte order mark at its start. -/
def skipMark : List Char → List Char
  | '\uFEFF' :: cs => cs
  | cs => cs

def records (text : String) : List Record :=
  recordsFrom 1 (skipMark text.toList)

/-! ## Reading one character -/

variable {d : Draft} {n : Nat} {c : Char} {rest : List Char}

theorem scan_quoted (hquoted : d.quoted = true) (hc : c ≠ '"') :
    scan d n (c :: rest) = scan (d.push c) (nextLine n c) rest := by
  rw [scan.eq_def]
  simp [hquoted, hc]

theorem scan_quote_quote (hquoted : d.quoted = true) :
    scan d n ('"' :: '"' :: rest) = scan (d.push '"') n rest := by
  rw [scan.eq_def]
  simp [hquoted]

/-- A quote ends the quoted part if no other one follows. -/
theorem scan_closeQuote (hquoted : d.quoted = true) (hrest : rest.head? ≠ some '"') :
    scan d n ('"' :: rest) = scan d.closeQuote n rest := by
  rw [scan.eq_def]
  cases rest with
  | nil => simp [hquoted, scan]
  | cons c rest =>
    have hc : c ≠ '"' := by simpa using hrest
    simp [hquoted, hc]

theorem scan_openQuote (hquoted : d.quoted = false) (hblank : allBlank d.field = true) :
    scan d n ('"' :: rest) = scan d.openQuote n rest := by
  rw [scan.eq_def]
  simp [hquoted, hblank]

/-- A quote is text where text stands in front of it. -/
theorem scan_innerQuote (hquoted : d.quoted = false) (htext : allBlank d.field = false) :
    scan d n ('"' :: rest) = scan (d.push '"') n rest := by
  rw [scan.eq_def]
  simp [hquoted, htext]

theorem scan_comma (hquoted : d.quoted = false) :
    scan d n (',' :: rest) = scan d.endField n rest := by
  rw [scan.eq_def]
  simp [hquoted]

theorem scan_lf (hquoted : d.quoted = false) :
    scan d n ('\n' :: rest) = d.close :: recordsFrom (n + 1) rest := by
  rw [scan.eq_def]
  simp [hquoted, recordsFrom, nextLine]

theorem scan_crlf (hquoted : d.quoted = false) :
    scan d n ('\r' :: '\n' :: rest) = d.close :: recordsFrom (n + 1) rest := by
  rw [scan.eq_def]
  simp [hquoted, scan_lf]

/-- A carriage return that is not part of a longer line end is one by itself. -/
theorem scan_cr (hquoted : d.quoted = false) (hrest : rest.head? ≠ some '\n') :
    scan d n ('\r' :: rest) = d.close :: recordsFrom n rest := by
  rw [scan.eq_def]
  simp [hquoted, hrest, recordsFrom, nextLine]

theorem scan_char (hquoted : d.quoted = false) (hc : c ∉ [',', '"', '\r', '\n']) :
    scan d n (c :: rest) = scan (d.push c) n rest := by
  rw [scan.eq_def]
  simp at hc
  simp [hquoted, hc]

end Dialogue.Sheet
