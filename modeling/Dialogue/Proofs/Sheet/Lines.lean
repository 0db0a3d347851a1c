import Dialogue.Proofs.Sheet.Writing

/-!
# Texts without quotes

Where no quote stands in a text, reading is cutting: the text into lines at the line ends, and each
line at its commas.

* `LineEnds` are the three ends of a line; `scan_lineEnd` reads each of them.
* `Draft.readLine` is what a record holds after more of its line; `scan_readLine` reads that far.
* `linesOf` cuts a text, `plainRecords` makes records of the lines.
* `recordsFrom_of_unquoted` goes from line to line, and `records_of_unquoted` is about the text.
-/

namespace Dialogue.Sheet

open Text

variable {d : Draft} {n : Nat} {rest : List Char}

/-! ## The end of a line -/

/-- A line end in front of a text: a line feed, a carriage return with a line feed, or a carriage
return that no line feed follows. -/
inductive LineEnds (rest : List Char) : List Char → Prop
  | lf : LineEnds rest ['\n']
  | crlf : LineEnds rest ['\r', '\n']
  | cr (hrest : rest.head? ≠ some '\n') : LineEnds rest ['\r']

/-- What stands behind a line end is shorter than the text. -/
theorem LineEnds.length_lt {ending : List Char} (hend : LineEnds rest ending) (line : List Char) :
    rest.length < (line ++ (ending ++ rest)).length := by
  have hpos : 0 < ending.length := by cases hend <;> exact Nat.succ_pos _
  rw [List.length_append, List.length_append]
  omega

/-- A line end ends the record, and its line feeds are counted. -/
theorem scan_lineEnd (hquoted : d.quoted = false) {ending : List Char}
    (hend : LineEnds rest ending) :
    scan d n (ending ++ rest) = d.close :: recordsFrom (n + ending.count '\n') rest := by
  cases hend with
  | lf => exact scan_lf hquoted
  | crlf => exact scan_crlf hquoted
  | cr hrest => exact scan_cr hquoted hrest

/-! ## The characters of a line -/

namespace Draft

/-- A record after these characters of its line, commas among them. -/
def readLine (d : Draft) (cs : List Char) : Draft :=
  cs.foldl (fun d c => if c = ',' then d.endField else d.push c) d

theorem readLine_cons_comma (d : Draft) (cs : List Char) :
    d.readLine (',' :: cs) = d.endField.readLine cs := rfl

theorem readLine_cons (d : Draft) {c : Char} (hc : c ≠ ',') (cs : List Char) :
    d.readLine (c :: cs) = (d.push c).readLine cs := by
  rw [readLine, List.foldl_cons, if_neg hc]
  rfl

theorem quoted_readLine (d : Draft) (cs : List Char) : (d.readLine cs).quoted = d.quoted := by
  induction cs generalizing d with
  | nil => rfl
  | cons c cs ih =>
    by_cases hc : c = ','
    · subst hc
      rw [readLine_cons_comma, ih]
      rfl
    · rw [readLine_cons d hc, ih]
      rfl

theorem line_readLine (d : Draft) (cs : List Char) : (d.readLine cs).line = d.line := by
  induction cs generalizing d with
  | nil => rfl
  | cons c cs ih =>
    by_cases hc : c = ','
    · subst hc
      rw [readLine_cons_comma, ih]
      rfl
    · rw [readLine_cons d hc, ih]
      rfl

/-- Commas end the fields, and all else is text. -/
theorem fields_close_readLine (d : Draft) (cs : List Char) : (d.readLine cs).close.fields =
    d.fields.reverse ++
      ((cs.splitOn ',').modifyHead (d.field.reverse ++ ·)).map String.ofList := by
  induction cs generalizing d with
  | nil => simp [readLine, close, endField, List.splitOn]
  | cons c cs ih =>
    by_cases hc : c = ','
    · subst hc
      have hsplit : (',' :: cs).splitOn ',' = [] :: cs.splitOn ',' := by
        simp [List.splitOn, List.splitOnP_cons_eq_if_modifyHead]
      have hsame : (cs.splitOn ',').modifyHead (d.endField.field.reverse ++ ·) =
          cs.splitOn ',' := by
        cases cs.splitOn ',' <;> rfl
      rw [readLine_cons_comma, ih, hsplit, hsame]
      simp [endField]
    · have hsplit : (c :: cs).splitOn ',' = (cs.splitOn ',').modifyHead (c :: ·) := by
        simp [List.splitOn, List.splitOnP_cons_eq_if_modifyHead, hc]
      have hpush : ((d.push c).field.reverse ++ ·) = (d.field.reverse ++ ·) ∘ (c :: ·) := by
        funext field
        simp [push]
      rw [readLine_cons d hc, ih, hsplit, List.modifyHead_modifyHead, hpush]
      rfl

theorem close_start_readLine (n : Nat) (cs : List Char) : ((start n).readLine cs).close =
    ⟨n, (cs.splitOn ',').map String.ofList⟩ := by
  have hline : ((start n).readLine cs).close.line = n := line_readLine (start n) cs
  have hfields := fields_close_readLine (start n) cs
  have hsame : (cs.splitOn ',').modifyHead ((start n).field.reverse ++ ·) = cs.splitOn ',' := by
    cases cs.splitOn ',' <;> rfl
  rw [hsame] at hfields
  generalize ((start n).readLine cs).close = r at hline hfields
  cases r
  simp_all [start]

end Draft

/-- The characters of a line are read one by one. -/
theorem scan_readLine (hquoted : d.quoted = false) {line : List Char} (hquote : '"' ∉ line)
    (hline : ∀ c ∈ line, c ∉ ['\r', '\n']) :
    scan d n (line ++ rest) = scan (d.readLine line) n rest := by
  induction line generalizing d with
  | nil => rfl
  | cons c line ih =>
    obtain ⟨hhead, hend⟩ := List.forall_mem_cons.1 hline
    rw [List.mem_cons, not_or] at hquote
    rw [List.cons_append]
    by_cases hc : c = ','
    · subst hc
      have hnext : d.endField.quoted = false := hquoted
      rw [scan_comma hquoted, ih hnext hquote.2 hend, Draft.readLine_cons_comma]
    · have hnext : (d.push c).quoted = false := hquoted
      have hplain : c ∉ [',', '"', '\r', '\n'] := by
        rw [List.mem_cons, List.mem_cons, not_or, not_or]
        exact ⟨hc, Ne.symm hquote.1, hhead⟩
      rw [scan_char hquoted hplain, ih hnext hquote.2 hend, Draft.readLine_cons d hc]

/-! ## Cutting a text -/

/-- The lines of a text, each with its end. The last line has none. -/
def linesOf : List Char → List (List Char × List Char)
  | [] => [([], [])]
  | '\r' :: '\n' :: cs => ([], ['\r', '\n']) :: linesOf cs
  | c :: cs =>
    if c = '\n' ∨ c = '\r' then ([], [c]) :: linesOf cs
    else (linesOf cs).modifyHead fun l => (c :: l.1, l.2)

/-- The lines of a text but for a last one in which nothing stands. -/
def filledLines (cs : List Char) : List (List Char × List Char) :=
  if (linesOf cs).getLast? = some ([], []) then (linesOf cs).dropLast else linesOf cs

/-- Each line cut at its commas, with the number of the line: one more than the line feeds in front
of it, from `n` on. -/
def plainRecords (n : Nat) (cs : List Char) : List Record :=
  (filledLines cs).mapIdx fun i l =>
    ⟨n + (((linesOf cs).take i).flatMap fun l => l.1 ++ l.2).count '\n',
      (l.1.splitOn ',').map String.ofList⟩

theorem linesOf_ne_nil (cs : List Char) : linesOf cs ≠ [] := by
  fun_induction linesOf cs <;> simp_all

/-- A text is one line without an end, or a line with its end and a text behind it. -/
theorem linesOf_cases (cs : List Char) :
    (linesOf cs = [(cs, [])] ∧ ∀ c ∈ cs, c ∉ ['\r', '\n']) ∨
    ∃ line ending rest, cs = line ++ (ending ++ rest) ∧ (∀ c ∈ line, c ∉ ['\r', '\n']) ∧
      LineEnds rest ending ∧ linesOf cs = (line, ending) :: linesOf rest := by
  fun_induction linesOf cs with
  | case1 => exact Or.inl ⟨rfl, by simp⟩
  | case2 cs => exact Or.inr ⟨[], ['\r', '\n'], cs, rfl, by simp, .crlf, rfl⟩
  | case3 c cs hcrlf hc =>
    refine Or.inr ⟨[], [c], cs, rfl, by simp, ?_, rfl⟩
    rcases hc with rfl | rfl
    · exact .lf
    · refine .cr fun hhead => ?_
      obtain ⟨tail, rfl⟩ : ∃ tail, cs = '\n' :: tail := by
        cases cs with
        | nil => cases hhead
        | cons c cs =>
          cases hhead
          exact ⟨cs, rfl⟩
      exact hcrlf tail rfl rfl
  | case4 c cs hcrlf hc ih =>
    have hplain : c ∉ ['\r', '\n'] := by
      simp only [List.mem_cons, List.not_mem_nil, or_false, not_or] at hc ⊢
      exact hc.symm
    rcases ih with ⟨hlines, hcs⟩ | ⟨line, ending, rest, rfl, hline, hend, hlines⟩
    · left
      rw [hlines]
      exact ⟨rfl, List.forall_mem_cons.2 ⟨hplain, hcs⟩⟩
    · right
      refine ⟨c :: line, ending, rest, rfl, List.forall_mem_cons.2 ⟨hplain, hline⟩, hend, ?_⟩
      rw [hlines]
      rfl

/-- The lines with their ends make up the text. -/
theorem flatMap_linesOf (cs : List Char) : ((linesOf cs).flatMap fun l => l.1 ++ l.2) = cs := by
  rcases linesOf_cases cs with ⟨hlines, -⟩ | ⟨line, ending, rest, htext, -, hend, hlines⟩
  · rw [hlines, List.flatMap_singleton, List.append_nil]
  · have hshorter : rest.length < cs.length := htext ▸ hend.length_lt line
    rw [hlines, List.flatMap_cons, flatMap_linesOf rest, List.append_assoc, ← htext]
termination_by cs.length

/-! ## Reading is cutting -/

theorem plainRecords_of_line {cs : List Char} (hlines : linesOf cs = [(cs, [])]) (hcs : cs ≠ []) :
    plainRecords n cs = [⟨n, (cs.splitOn ',').map String.ofList⟩] := by
  have hfilled : filledLines cs = [(cs, [])] := by
    rw [filledLines, hlines, if_neg]
    simpa using hcs
  rw [plainRecords, hfilled, hlines]
  rfl

theorem plainRecords_of_cons {cs line ending : List Char} (hline : '\n' ∉ line)
    (hlines : linesOf cs = (line, ending) :: linesOf rest) :
    plainRecords n cs = ⟨n, (line.splitOn ',').map String.ofList⟩ ::
      plainRecords (n + ending.count '\n') rest := by
  have hfilled : filledLines cs = (line, ending) :: filledLines rest := by
    have hne := linesOf_ne_nil rest
    rw [filledLines, filledLines, hlines, List.getLast?_cons_of_ne_nil hne,
      List.dropLast_cons_of_ne_nil hne]
    split <;> rfl
  rw [plainRecords, hfilled, hlines, List.mapIdx_cons, plainRecords]
  simp only [List.take_zero, List.flatMap_nil, List.count_nil, List.take_succ_cons,
    List.flatMap_cons, List.count_append, List.count_eq_zero.2 hline, Nat.zero_add, Nat.add_zero,
    ← Nat.add_assoc]

/-- A text without quotes is read line by line. -/
theorem recordsFrom_of_unquoted (n : Nat) (cs : List Char) (hcs : '"' ∉ cs) :
    recordsFrom n cs = plainRecords n cs := by
  have hstart : (Draft.start n).quoted = false := rfl
  rcases linesOf_cases cs with ⟨hlines, hplain⟩ | ⟨line, ending, rest, htext, hline, hend, hlines⟩
  · by_cases hnil : cs = []
    · subst hnil
      rfl
    · have hread : scan (.start n) n (cs ++ []) = scan ((Draft.start n).readLine cs) n [] :=
        scan_readLine hstart hcs hplain
      rw [List.append_nil, scan, Draft.close_start_readLine] at hread
      rw [plainRecords_of_line hlines hnil, recordsFrom_of_ne_nil hnil, hread]
  · have hclosed : ((Draft.start n).readLine line).quoted = false := Draft.quoted_readLine _ _
    have hshorter : rest.length < cs.length := htext ▸ hend.length_lt line
    have hne : cs ≠ [] := List.ne_nil_of_length_pos (Nat.zero_lt_of_lt hshorter)
    have hlf : '\n' ∉ line := fun h => hline _ h (by decide)
    rw [htext, List.mem_append, List.mem_append, not_or, not_or] at hcs
    obtain ⟨hquote, -, hrest⟩ := hcs
    calc recordsFrom n cs
        = scan (.start n) n (line ++ (ending ++ rest)) := by rw [recordsFrom_of_ne_nil hne, htext]
      _ = ((Draft.start n).readLine line).close ::
            recordsFrom (n + ending.count '\n') rest := by
          rw [scan_readLine hstart hquote hline, scan_lineEnd hclosed hend]
      _ = ⟨n, (line.splitOn ',').map String.ofList⟩ ::
            plainRecords (n + ending.count '\n') rest := by
          rw [Draft.close_start_readLine, recordsFrom_of_unquoted _ rest hrest]
      _ = plainRecords n cs := (plainRecords_of_cons hlf hlines).symm
termination_by cs.length

theorem skipMark_eq (cs : List Char) :
    skipMark cs = if cs.head? = some '\uFEFF' then cs.tail else cs := by
  by_cases hmark : cs.head? = some '\uFEFF'
  · rw [if_pos hmark]
    cases cs with
    | nil => cases hmark
    | cons c tail =>
      cases hmark
      rfl
  · rw [if_neg hmark, skipMark_eq_self hmark]

/-- A text without quotes holds its lines, each cut at its commas and none of its fields trimmed. A
byte order mark in front is no part of it, and nothing behind the last line end is no line. -/
theorem records_of_unquoted {text : String} (htext : '"' ∉ text.toList) :
    let cs := text.toList
    records text = plainRecords 1 (if cs.head? = some '\uFEFF' then cs.tail else cs) := by
  intro cs
  rw [records, skipMark_eq]
  apply recordsFrom_of_unquoted
  split
  · exact fun h => htext (List.mem_of_mem_tail h)
  · exact htext

/-- A line end of three characters is two, and blanks stay in their fields. -/
theorem records_of_unquoted_mixed :
    let text := "\uFEFFa, b\r\r\n\n,c\r"
    '"' ∉ text.toList ∧ records text = plainRecords 1 "a, b\r\r\n\n,c\r".toList ∧
      records text = [⟨1, ["a", " b"]⟩, ⟨1, [""]⟩, ⟨2, [""]⟩, ⟨3, ["", "c"]⟩] := by
  intro text
  have hquote : '"' ∉ text.toList := by decide
  have hread := records_of_unquoted hquote
  refine ⟨hquote, ?cut, ?read⟩
  case cut => exact hread.trans (by decide +kernel)
  case read => exact hread.trans (by decide +kernel)

end Dialogue.Sheet
