import Dialogue.Sheet.Record
import Mathlib.Data.List.Basic

/-!
# Written records

Records can be written as comma separated values in many ways, and each of them is read back as the
records that were written.

* A `Cell` is a field with the way it is written: bare, or in quotes, where a quote inside is
  written twice. Spaces may stand around the quotes; those in front are lost, those behind are read.
* A `Line` is a record with its end. `Complete` says which lines make a text: all but the last have
  an end, and of the last something is written even without one.
* `scan_cell` reads one field and leaves what follows it, `recordsFrom_line` one record, and
  `recordsFrom_lines` is the induction over all of them.
-/

namespace Dialogue.Sheet

open Text

/-! ## Writing -/

/-- A field, and how it is written. -/
inductive Cell where
  /-- The text as it is, without characters that mean something between fields. -/
  | bare (text : String) (plain : ∀ c ∈ text.toList, c ∉ [',', '"', '\r', '\n'])
  /-- The text in quotes, with so many spaces in front of them and behind. -/
  | quoted (before : Nat) (text : String) (after : Nat)

/-- A text inside quotes: each quote is written twice. -/
def doubled (cs : List Char) : List Char :=
  cs.flatMap fun c => if c = '"' then ['"', '"'] else [c]

theorem doubled_quote (cs : List Char) : doubled ('"' :: cs) = '"' :: '"' :: doubled cs := rfl

theorem doubled_cons {c : Char} (hc : c ≠ '"') (cs : List Char) :
    doubled (c :: cs) = c :: doubled cs := by
  simp [doubled, hc]

namespace Cell

def chars : Cell → List Char
  | bare text _ => text.toList
  | quoted before text after =>
    List.replicate before ' ' ++ '"' :: (doubled text.toList ++ '"' :: List.replicate after ' ')

/-- What is read of a field. -/
def value : Cell → String
  | bare text _ => text
  | quoted _ text after => text ++ String.ofList (List.replicate after ' ')

end Cell

/-- How the line of a record ends; `missing` is the end of the text. -/
inductive LineEnd where
  | lf
  | crlf
  | missing
deriving DecidableEq, Repr

def LineEnd.chars : LineEnd → List Char
  | lf => ['\n']
  | crlf => ['\r', '\n']
  | missing => []

/-- A record, and how it is written. -/
structure Line where
  first : Cell
  others : List Cell
  ending : LineEnd

namespace Line

/-- The fields of a line, with commas between them. -/
def body (l : Line) : List Char :=
  l.first.chars ++ l.others.flatMap fun c => ',' :: c.chars

def chars (l : Line) : List Char :=
  l.body ++ l.ending.chars

def fields (l : Line) : List String :=
  (l.first :: l.others).map Cell.value

end Line

def charsOf (lines : List Line) : List Char :=
  lines.flatMap Line.chars

/-- Lines with their ends. The last one can do without, unless nothing is written of it then: it is
a single bare field without text. -/
def Complete : List Line → Prop
  | [] => True
  | [l] => l.ending = .missing → l.body ≠ []
  | l :: ls => l.ending ≠ .missing ∧ Complete ls

/-! ## Reading a field -/

/-- A record with more characters in its open field. -/
def Draft.fill (d : Draft) (cs : List Char) : Draft :=
  { d with field := cs.reverse ++ d.field }

/-- A record with this text in its open field. -/
def Draft.read (d : Draft) (c : Cell) : Draft :=
  { d with field := c.value.toList.reverse }

variable {d : Draft} {n : Nat} {rest : List Char}

theorem Draft.fill_push (d : Draft) (c : Char) (cs : List Char) :
    (d.push c).fill cs = d.fill (c :: cs) := by
  simp [fill, push]

theorem scan_plain (hquoted : d.quoted = false) {cs : List Char}
    (h : ∀ c ∈ cs, c ∉ [',', '"', '\r', '\n']) :
    scan d n (cs ++ rest) = scan (d.fill cs) n rest := by
  induction cs generalizing d with
  | nil => rfl
  | cons c cs ih =>
    obtain ⟨hc, hcs⟩ := List.forall_mem_cons.1 h
    have hpush : (d.push c).quoted = false := hquoted
    rw [List.cons_append, scan_char hquoted hc, ih hpush hcs, Draft.fill_push]

/-- Inside quotes a text is read as it was before its quotes were doubled. -/
theorem scan_doubled (hquoted : d.quoted = true) (cs : List Char) :
    scan d n (doubled cs ++ rest) = scan (d.fill cs) (n + cs.count '\n') rest := by
  induction cs generalizing d n with
  | nil => rfl
  | cons c cs ih =>
    have hpush : (d.push c).quoted = true := hquoted
    by_cases hc : c = '"'
    · subst hc
      rw [doubled_quote]
      show scan d n ('"' :: '"' :: (doubled cs ++ rest)) = _
      rw [scan_quote_quote hquoted, ih hpush, Draft.fill_push]
      rfl
    · have hcount : nextLine n c + cs.count '\n' = n + (c :: cs).count '\n' := by
        by_cases hline : c = '\n'
        · subst hline
          rw [nextLine, if_pos rfl, List.count_cons_self]
          omega
        · rw [nextLine, if_neg hline, List.count_cons_of_ne hline]
      rw [doubled_cons hc]
      show scan d n (c :: (doubled cs ++ rest)) = _
      rw [scan_quoted hquoted hc, ih hpush, Draft.fill_push, hcount]

theorem spaces_plain (k : Nat) : ∀ c ∈ List.replicate k ' ', c ∉ [',', '"', '\r', '\n'] := by
  intro c hc
  obtain rfl := List.eq_of_mem_replicate hc
  decide

theorem count_doubled (cs : List Char) : (doubled cs).count '\n' = cs.count '\n' := by
  induction cs with
  | nil => rfl
  | cons c cs ih =>
    by_cases hc : c = '"'
    · subst hc
      rw [doubled_quote, List.count_cons_of_ne (by decide), List.count_cons_of_ne (by decide), ih,
        List.count_cons_of_ne (by decide)]
    · rw [doubled_cons hc, List.count_cons, ih, List.count_cons]

/-- A field is read as its value, and the line ends in it are counted. -/
theorem scan_cell (hquoted : d.quoted = false) (hfield : d.field = []) (c : Cell)
    (hrest : rest.head? ≠ some '"') :
    scan d n (c.chars ++ rest) = scan (d.read c) (n + c.chars.count '\n') rest := by
  cases c with
  | bare text plain =>
    have hcount : text.toList.count '\n' = 0 := by
      rw [List.count_eq_zero]
      exact fun hmem => plain _ hmem (by decide)
    have hread : d.fill text.toList = d.read (.bare text plain) := by
      simp [Draft.fill, Draft.read, Cell.value, hfield]
    show scan d n (text.toList ++ rest) = scan _ (n + text.toList.count '\n') rest
    rw [scan_plain hquoted plain, hread, hcount, Nat.add_zero]
  | quoted before text after =>
    have hcount : (Cell.quoted before text after).chars.count '\n' = text.toList.count '\n' := by
      simp [Cell.chars, count_doubled, List.count_replicate]
    -- the field is blank in front of the quote, so the quote opens a quoted part
    have hbefore : (d.fill (List.replicate before ' ')).quoted = false := hquoted
    have hblank : allBlank (d.fill (List.replicate before ' ')).field = true := by
      have hspace : isBlank ' ' = true := by decide
      simp [Draft.fill, hfield, allBlank, hspace]
    have hafter : (List.replicate after ' ' ++ rest).head? ≠ some '"' := by
      cases after with
      | zero => simpa using hrest
      | succ k => simp [List.replicate_succ]
    have hread : ((d.fill (List.replicate before ' ')).openQuote.fill text.toList).closeQuote.fill
        (List.replicate after ' ') = d.read (.quoted before text after) := by
      simp [Draft.fill, Draft.read, Draft.openQuote, Draft.closeQuote, Cell.value, hquoted]
    rw [hcount]
    simp only [Cell.chars, List.append_assoc, List.cons_append]
    rw [scan_plain hquoted (spaces_plain before), scan_openQuote hbefore hblank, scan_doubled rfl,
      scan_closeQuote rfl hafter, scan_plain rfl (spaces_plain after), hread]

/-! ## Reading a record -/

/-- A record after the comma in front of a field, and the field. -/
def Draft.next (d : Draft) (c : Cell) : Draft :=
  d.endField.read c

theorem scan_others (hquoted : d.quoted = false) (others : List Cell)
    (hrest : rest.head? ≠ some '"') :
    scan d n ((others.flatMap fun c => ',' :: c.chars) ++ rest) =
      scan (others.foldl Draft.next d)
        (n + (others.flatMap fun c => ',' :: c.chars).count '\n') rest := by
  induction others generalizing d n with
  | nil => rfl
  | cons c others ih =>
    have hcomma : ((others.flatMap fun c => ',' :: c.chars) ++ rest).head? ≠ some '"' := by
      cases others with
      | nil => exact hrest
      | cons c' others => simp
    have hfield : d.endField.quoted = false := hquoted
    have hnext : (d.next c).quoted = false := hquoted
    have hcount : n + c.chars.count '\n' + (others.flatMap fun c => ',' :: c.chars).count '\n' =
        n + ((c :: others).flatMap fun c => ',' :: c.chars).count '\n' := by
      simp [Nat.add_assoc]
    rw [List.flatMap_cons, List.append_assoc, List.cons_append, scan_comma hquoted,
      scan_cell hfield rfl c hcomma]
    show scan (d.next c) _ _ = _
    rw [ih hnext, List.foldl_cons, hcount, List.flatMap_cons, List.cons_append]

/-- The fields read one after another are those of the record. -/
theorem close_foldl_next (d : Draft) (others : List Cell) :
    (others.foldl Draft.next d).close = ⟨d.line, d.close.fields ++ others.map Cell.value⟩ := by
  induction others generalizing d with
  | nil => simp [Draft.close]
  | cons c others ih =>
    rw [List.foldl_cons, ih]
    simp [Draft.close, Draft.next, Draft.read, Draft.endField]

theorem scan_body (l : Line) (n : Nat) (rest : List Char) (hrest : rest.head? ≠ some '"') :
    scan (.start n) n (l.body ++ rest) =
      scan (l.others.foldl Draft.next ((Draft.start n).read l.first)) (n + l.body.count '\n') rest := by
  have hothers : ((l.others.flatMap fun c => ',' :: c.chars) ++ rest).head? ≠ some '"' := by
    cases l.others with
    | nil => exact hrest
    | cons c others => simp
  rw [Line.body, List.append_assoc, scan_cell rfl rfl l.first hothers, scan_others rfl _ hrest,
    List.count_append, Nat.add_assoc]

theorem close_body (l : Line) (n : Nat) :
    (l.others.foldl Draft.next ((Draft.start n).read l.first)).close = ⟨n, l.fields⟩ := by
  rw [close_foldl_next]
  simp [Draft.close, Draft.read, Draft.start, Draft.endField, Line.fields]

theorem quoted_foldl_next (hquoted : d.quoted = false) (others : List Cell) :
    (others.foldl Draft.next d).quoted = false := by
  induction others generalizing d with
  | nil => exact hquoted
  | cons c others ih =>
    have hnext : (d.next c).quoted = false := hquoted
    exact ih hnext

theorem recordsFrom_of_ne_nil {cs : List Char} (h : cs ≠ []) :
    recordsFrom n cs = scan (.start n) n cs := by
  cases cs with
  | nil => exact absurd rfl h
  | cons c cs => rfl

/-- A line with an end is read as its record, and what follows is read from the next line on. -/
theorem recordsFrom_line (l : Line) (hend : l.ending ≠ .missing) (rest : List Char) :
    recordsFrom n (l.chars ++ rest) =
      ⟨n, l.fields⟩ :: recordsFrom (n + l.chars.count '\n') rest := by
  have hquoted : (l.others.foldl Draft.next ((Draft.start n).read l.first)).quoted = false :=
    quoted_foldl_next rfl l.others
  cases he : l.ending with
  | lf =>
    have hbody := scan_body l n ('\n' :: rest) (by simp)
    rw [scan_lf hquoted, close_body] at hbody
    rw [recordsFrom_of_ne_nil (by simp [Line.chars, he, LineEnd.chars])]
    simpa [Line.chars, he, LineEnd.chars, Nat.add_assoc] using hbody
  | crlf =>
    have hbody := scan_body l n ('\r' :: '\n' :: rest) (by simp)
    rw [scan_crlf hquoted, close_body] at hbody
    rw [recordsFrom_of_ne_nil (by simp [Line.chars, he, LineEnd.chars])]
    simpa [Line.chars, he, LineEnd.chars, Nat.add_assoc] using hbody
  | missing => exact absurd he hend

/-- At the end of the text a line needs no end. -/
theorem recordsFrom_last (l : Line) (hend : l.ending = .missing) (hbody : l.body ≠ []) :
    recordsFrom n l.chars = [⟨n, l.fields⟩] := by
  have hchars : l.chars = l.body := by simp [Line.chars, hend, LineEnd.chars]
  have hscan := scan_body l n [] (by simp)
  rw [List.append_nil, scan, close_body] at hscan
  rw [hchars, recordsFrom_of_ne_nil hbody, hscan]

/-! ## Reading a text -/

/-- Lines are read one by one, and each record starts where the lines before it end. -/
theorem recordsFrom_lines (n : Nat) {lines : List Line} (h : Complete lines) :
    recordsFrom n (charsOf lines) =
      lines.mapIdx fun i l => ⟨n + (charsOf (lines.take i)).count '\n', l.fields⟩ := by
  induction lines generalizing n with
  | nil => rfl
  | cons l ls ih =>
    have hcons : charsOf (l :: ls) = l.chars ++ charsOf ls := rfl
    -- after the first line all records start by its line ends later
    have hlater : Complete ls → recordsFrom (n + l.chars.count '\n') (charsOf ls) =
        ls.mapIdx fun i l' => ⟨n + (charsOf ((l :: ls).take (i + 1))).count '\n', l'.fields⟩ := by
      intro hls
      rw [ih _ hls]
      simp [charsOf, Nat.add_assoc]
    rw [hcons, List.mapIdx_cons]
    show recordsFrom n (l.chars ++ charsOf ls) = ⟨n, l.fields⟩ :: ls.mapIdx _
    by_cases hend : l.ending = .missing
    · cases ls with
      | nil => simpa [charsOf] using recordsFrom_last l hend (h hend)
      | cons l' ls => exact absurd hend h.1
    · have hls : Complete ls := by
        cases ls with
        | nil => trivial
        | cons l' ls => exact h.2
      rw [recordsFrom_line l hend, hlater hls]

theorem skipMark_eq_self {cs : List Char} (h : cs.head? ≠ some '\uFEFF') : skipMark cs = cs := by
  unfold skipMark
  split
  · simp at h
  · rfl

theorem records_lines {lines : List Line} (h : Complete lines)
    (hmark : (charsOf lines).head? ≠ some '\uFEFF') :
    records (String.ofList (charsOf lines)) =
      lines.mapIdx fun i l => ⟨1 + (charsOf (lines.take i)).count '\n', l.fields⟩ := by
  rw [records, String.toList_ofList, skipMark_eq_self hmark, recordsFrom_lines 1 h]

/-- Whichever way records are written, each of them is read with its fields and with the line of
the text on which it starts, and a byte order mark in front of the text changes nothing. -/
theorem records_of_written {lines : List Line} (h : Complete lines)
    (hmark : (charsOf lines).head? ≠ some '\uFEFF') :
    records (String.ofList (charsOf lines)) =
        lines.mapIdx (fun i l => ⟨1 + (charsOf (lines.take i)).count '\n', l.fields⟩) ∧
      records (String.ofList ('\uFEFF' :: charsOf lines)) =
        records (String.ofList (charsOf lines)) := by
  constructor
  · exact records_lines h hmark
  · simp only [records, String.toList_ofList, skipMark_eq_self hmark]
    rfl

/-- A quoted field with quotes and a line feed in it, blank and empty fields, a line of nothing, and
a last line without an end. -/
theorem records_of_written_mixed :
    let lines : List Line := [
      ⟨.quoted 0 "\"a\n" 0, [.bare " " (by simp), .quoted 0 "" 0], .crlf⟩,
      ⟨.bare "" (by simp), [], .lf⟩,
      ⟨.bare "b" (by simp), [.bare "" (by simp)], .missing⟩]
    Complete lines ∧ (charsOf lines).head? ≠ some '\uFEFF' ∧
      charsOf lines = "\"\"\"a\n\", ,\"\"\r\n\nb,".toList ∧
      records (String.ofList (charsOf lines)) =
        [⟨1, ["\"a\n", " ", ""]⟩, ⟨3, [""]⟩, ⟨4, ["b", ""]⟩] := by
  intro lines
  have h : Complete lines := ⟨by decide, by decide, fun _ => by decide⟩
  have hmark : (charsOf lines).head? ≠ some '\uFEFF' := by decide
  refine ⟨h, hmark, by decide, ?_⟩
  rw [(records_of_written h hmark).1]
  decide

end Dialogue.Sheet
