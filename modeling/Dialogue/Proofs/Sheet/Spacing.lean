import Dialogue.Proofs.Sheet.Entries
import Dialogue.Proofs.Sheet.Lines
import Mathlib.Algebra.GroupWithZero.Nat

/-!
# Blank lines between the records

Blank lines are put into a text in front of its records. Behind the header they change nothing but
the lines on which the records start; in front of it they take its place.

* `cut` finds the ends of the records, which line ends in quotes are not; `pieces` is the text cut
  there, and `flatten_pieces` and `length_recordsFrom` say that it is cut into the records.
* `firstPiece_cut` goes through the text up to the first of these ends. `pieces_cases` follows: the
  piece is read as the same record whatever is put behind it.
* `BlankLine` is a line of spaces and commas; `recordsFrom_blankLine` reads one.
* `spread` puts blank lines into a text, and `filledRecords_spread` goes from piece to piece.
* `SameButLines` compares two sheets, and `ofText_spreadText` is the comparison with the sheet
  before.
-/

namespace Dialogue.Sheet

open Text

variable {d : Draft} {n : Nat} {rest : List Char} {quoted blank : Bool}

/-! ## Reading on any line -/

/-- The record, `k` lines further down. -/
def Record.down (k : Nat) (r : Record) : Record :=
  { r with line := r.line + k }

theorem Record.down_down (k k' : Nat) (r : Record) : (r.down k).down k' = r.down (k + k') := by
  simp [down, Nat.add_assoc]

def Draft.down (k : Nat) (d : Draft) : Draft :=
  { d with line := d.line + k }

/-- In front of `next`, these characters take a record that is being read from `d` to `d'`, on
whichever line it started and goes on. -/
def Reads (d d' : Draft) (cs next : List Char) : Prop :=
  ∀ k n, scan (d.down k) n (cs ++ next) = scan (d'.down k) (n + cs.count '\n') next

theorem Reads.append {d₁ d₂ d₃ : Draft} {cs cs' next : List Char}
    (hfirst : Reads d₁ d₂ cs (cs' ++ next)) (hthen : Reads d₂ d₃ cs' next) :
    Reads d₁ d₃ (cs ++ cs') next := by
  intro k n
  rw [List.append_assoc, hfirst, hthen, List.count_append, Nat.add_assoc]

/-! ## The pieces of a text -/

/-- Cuts a text behind each line end that ends a record, and tells those from the line ends inside
quotes: `quoted` is whether the text goes on inside quotes, `blank` whether the open field holds
nothing but blanks. The last piece has no line end. -/
def cut (quoted blank : Bool) : List Char → List (List Char)
  | [] => [[]]
  | c :: rest =>
    if quoted then
      if c = '"' then
        match rest with
        | [] => [['"']]
        | c' :: rest' =>
          if c' = '"' then (cut true false rest').modifyHead (['"', '"'] ++ ·)
          else (cut false blank (c' :: rest')).modifyHead (['"'] ++ ·)
      else (cut true (blank && isBlank c) rest).modifyHead ([c] ++ ·)
    else if c = '"' ∧ blank then (cut true true rest).modifyHead ([c] ++ ·)
    else if c = '\r' ∧ rest.head? = some '\n' then (cut false blank rest).modifyHead ([c] ++ ·)
    else if c = '\n' ∨ c = '\r' then [c] :: cut false true rest
    else (cut false (c = ',' || blank && isBlank c) rest).modifyHead ([c] ++ ·)

/-- The pieces of a text, one for each record. Where the text ends with a record's line end, the
last piece is empty. -/
def pieces (cs : List Char) : List (List Char) :=
  cut false true cs

theorem cut_lf (blank : Bool) (rest : List Char) :
    cut false blank ('\n' :: rest) = ['\n'] :: pieces rest := by
  rw [cut.eq_def]
  simp [pieces]

/-- Whether a record that is being read is in the state that `cut` keeps. -/
structure Draft.In (d : Draft) (quoted blank : Bool) : Prop where
  quoted_eq : d.quoted = quoted
  blank_eq : allBlank d.field = blank

theorem Draft.In.unquoted (hd : d.In quoted blank) (hquoted : ¬ quoted = true) :
    d.quoted = false := by
  rw [hd.quoted_eq]
  exact Bool.eq_false_iff.2 hquoted

/-- How the record is read that a text begins with: up to the end of the text, or up to a line end
behind which the text goes on. What stands there does not matter to it. -/
inductive FirstPiece (quoted blank : Bool) (cs : List Char) : List (List Char) → Prop
  | last (hread : ∀ d : Draft, d.In quoted blank → ∃ d' : Draft, ∀ k n,
        scan (d.down k) n cs = [(d'.down k).close]) :
      FirstPiece quoted blank cs [cs]
  | more (body : List Char) {ending rest : List Char} (htext : cs = body ++ (ending ++ rest))
      (hend : LineEnds rest ending)
      (hread : ∀ d : Draft, d.In quoted blank → ∃ d' : Draft, d'.quoted = false ∧ ∀ next,
        next.head? ≠ some '"' → Reads d d' body next) :
      FirstPiece quoted blank cs ((body ++ ending) :: pieces rest)

/-- Characters in front of a text belong to its first piece. A quote may end behind them only if
the text does not go on with another one. -/
theorem FirstPiece.extend {quoted' blank' : Bool} (pre : List Char) {cs : List Char}
    {ps : List (List Char)} (hfirst : FirstPiece quoted' blank' cs ps)
    (hstep : ∀ d : Draft, d.In quoted blank → ∃ d' : Draft, d'.In quoted' blank' ∧ ∀ next,
      (next.head? = some '"' → cs.head? = some '"') → Reads d d' pre next) :
    FirstPiece quoted blank (pre ++ cs) (ps.modifyHead (pre ++ ·)) := by
  cases hfirst with
  | last hread =>
    refine .last fun d hd => ?_
    obtain ⟨d', hd', hpre⟩ := hstep d hd
    obtain ⟨d₁, hd₁⟩ := hread d' hd'
    exact ⟨d₁, fun k n => (hpre cs id k n).trans (hd₁ k _)⟩
  | more body htext hend hread =>
    rw [List.modifyHead_cons, ← List.append_assoc]
    refine .more (pre ++ body) (by rw [htext, List.append_assoc]) hend fun d hd => ?_
    obtain ⟨d', hd', hpre⟩ := hstep d hd
    obtain ⟨d₁, hd₁, hbody⟩ := hread d' hd'
    refine ⟨d₁, hd₁, fun next hnext => (hpre _ ?_).append (hbody next hnext)⟩
    cases body with
    | nil => exact fun h => absurd h hnext
    | cons c body =>
      rw [htext]
      exact id

theorem nextLine_eq (n : Nat) (c : Char) : nextLine n c = n + [c].count '\n' := by
  by_cases hc : c = '\n'
  · subst hc
    rfl
  · rw [nextLine, if_neg hc, List.count_singleton, if_neg (by simpa using hc), Nat.add_zero]

theorem Draft.allBlank_push (d : Draft) (c : Char) :
    allBlank (d.push c).field = (allBlank d.field && isBlank c) := by
  rw [Bool.and_comm]
  rfl

/-- The first piece that `cut` gives is read as one record. -/
theorem firstPiece_cut (cs : List Char) : FirstPiece quoted blank cs (cut quoted blank cs) := by
  fun_induction cut quoted blank cs with
  | case1 quoted blank => exact .last fun d _ => ⟨d, fun k n => rfl⟩
  | case2 blank =>
    -- the quote that the text ends with closes the quoted part
    refine .last fun d hd => ⟨d.closeQuote, fun k n => ?_⟩
    exact scan_closeQuote hd.quoted_eq (by simp)
  | case3 blank rest ih =>
    refine ih.extend ['"', '"'] fun d hd => ⟨d.push '"', ⟨hd.quoted_eq, rfl⟩, fun next _ k n => ?_⟩
    exact scan_quote_quote hd.quoted_eq
  | case4 blank c rest hc ih =>
    -- a quote closes only if the text behind it, old or new, begins with no other one
    refine ih.extend ['"'] fun d hd => ⟨d.closeQuote, ⟨rfl, hd.blank_eq⟩, fun next hnext k n => ?_⟩
    have hclosed : next.head? ≠ some '"' := fun h => hc (by simpa using hnext h)
    exact scan_closeQuote hd.quoted_eq hclosed
  | case5 blank c rest hc ih =>
    refine ih.extend [c] fun d hd => ⟨d.push c, ⟨hd.quoted_eq, ?_⟩, fun next _ k n => ?_⟩
    · rw [Draft.allBlank_push, hd.blank_eq]
    · rw [← nextLine_eq]
      exact scan_quoted hd.quoted_eq hc
  | case6 quoted blank c rest hquoted hopen ih =>
    obtain ⟨rfl, rfl⟩ := hopen
    refine ih.extend ['"'] fun d hd => ⟨d.openQuote, ⟨rfl, rfl⟩, fun next _ k n => ?_⟩
    exact scan_openQuote (hd.unquoted hquoted) hd.blank_eq
  | case7 quoted blank c rest hquoted _ hcrlf _ =>
    -- a carriage return in front of a line feed is one line end with it
    obtain ⟨tail, rfl⟩ := List.head?_eq_some_iff.1 hcrlf.2
    rw [hcrlf.1, cut_lf]
    exact .more [] rfl .crlf fun d hd => ⟨d, hd.unquoted hquoted, fun next _ k n => rfl⟩
  | case8 quoted blank c rest hquoted _ hcrlf hc _ =>
    have hend : LineEnds rest [c] := by
      rcases hc with rfl | rfl
      · exact .lf
      · exact .cr fun hrest => hcrlf ⟨rfl, hrest⟩
    exact .more [] rfl hend fun d hd => ⟨d, hd.unquoted hquoted, fun next _ k n => rfl⟩
  | case9 quoted blank c rest hquoted hopen _ hc ih =>
    -- a comma starts a new field, which is blank; all else is text, even a quote behind other text
    refine ih.extend [c] fun d hd => ?_
    have hunquoted : d.quoted = false := hd.unquoted hquoted
    by_cases hcomma : c = ','
    · subst hcomma
      exact ⟨d.endField, ⟨hunquoted, rfl⟩, fun next _ k n => scan_comma hunquoted⟩
    · refine ⟨d.push c, ⟨hunquoted, ?_⟩, fun next _ k n => ?_⟩
      · rw [Draft.allBlank_push, hd.blank_eq, decide_eq_false hcomma, Bool.false_or]
      · have hcount : [c].count '\n' = 0 := by simp_all
        rw [hcount]
        by_cases hquote : c = '"'
        · subst hquote
          have htext : allBlank d.field = false := by simp_all [hd.blank_eq]
          exact scan_innerQuote hunquoted htext
        · have hplain : c ∉ [',', '"', '\r', '\n'] := by simp_all
          exact scan_char hunquoted hplain

/-! ## Blank lines -/

/-- A line of spaces and commas. -/
structure BlankLine where
  body : List Char
  body_blank : ∀ c ∈ body, c = ' ' ∨ c = ','
  crlf : Bool

namespace BlankLine

def ending (b : BlankLine) : List Char :=
  if b.crlf then ['\r', '\n'] else ['\n']

def chars (b : BlankLine) : List Char :=
  b.body ++ b.ending

theorem head?_chars_append (b : BlankLine) (rest : List Char) :
    (b.chars ++ rest).head? ≠ some '\uFEFF' := by
  have hbody := b.body_blank
  rw [chars, ending]
  cases hb : b.body with
  | nil => cases b.crlf <;> simp
  | cons c body =>
    rw [hb] at hbody
    rcases hbody c List.mem_cons_self with rfl | rfl <;> simp

end BlankLine

theorem Draft.isBlank_close (d : Draft) : d.close.isBlank =
    (d.fields.all (fun f => allBlank f.toList) && allBlank d.field) := by
  simp [Record.isBlank, close, endField, allBlank]

/-- Spaces and commas leave the fields blank. -/
theorem Draft.isBlank_readLine {line : List Char} (hline : ∀ c ∈ line, c = ' ' ∨ c = ',')
    (hd : d.close.isBlank = true) : (d.readLine line).close.isBlank = true := by
  induction line generalizing d with
  | nil => exact hd
  | cons c line ih =>
    obtain ⟨hhead, htail⟩ := List.forall_mem_cons.1 hline
    rw [isBlank_close, Bool.and_eq_true] at hd
    rcases hhead with rfl | rfl
    · rw [readLine_cons d (by decide)]
      refine ih htail ?_
      rw [isBlank_close, allBlank_push, Bool.and_eq_true, Bool.and_eq_true]
      exact ⟨hd.1, hd.2, rfl⟩
    · rw [readLine_cons_comma]
      refine ih htail ?_
      rw [isBlank_close]
      simpa [endField, allBlank] using hd.symm

theorem recordsFrom_blankLine (n : Nat) (b : BlankLine) (rest : List Char) :
    ∃ r, r.isBlank = true ∧ recordsFrom n (b.chars ++ rest) = r :: recordsFrom (n + 1) rest := by
  have hplain : ∀ c ∈ b.body, c ∉ ['\r', '\n'] := by
    intro c hc
    rcases b.body_blank c hc with rfl | rfl <;> decide
  have hquote : '"' ∉ b.body := by
    intro hc
    rcases b.body_blank _ hc with h | h <;> cases h
  have hquoted : ((Draft.start n).readLine b.body).quoted = false := Draft.quoted_readLine _ _
  have hend : LineEnds rest b.ending ∧ b.ending.count '\n' = 1 := by
    rw [BlankLine.ending]
    cases b.crlf
    · exact ⟨.lf, rfl⟩
    · exact ⟨.crlf, rfl⟩
  have hne : b.body ++ (b.ending ++ rest) ≠ [] :=
    List.ne_nil_of_length_pos (Nat.zero_lt_of_lt (hend.1.length_lt b.body))
  have hblank : (Draft.start n).close.isBlank = true := rfl
  refine ⟨_, Draft.isBlank_readLine b.body_blank hblank, ?_⟩
  rw [BlankLine.chars, List.append_assoc, recordsFrom_of_ne_nil hne,
    scan_readLine rfl hquote hplain, scan_lineEnd hquoted hend.1, hend.2]

/-! ## Reading around blank lines -/

/-- The records in which something stands. -/
def filledRecords (rs : List Record) : List Record :=
  rs.filter fun r => !r.isBlank

theorem filledRecords_cons_of_isBlank {r : Record} (hr : r.isBlank = true) (rs : List Record) :
    filledRecords (r :: rs) = filledRecords rs := by
  rw [filledRecords, List.filter_cons, hr]
  rfl

theorem filledRecords_cons_congr {rs rs' : List Record} (r : Record)
    (hrs : filledRecords rs = filledRecords rs') :
    filledRecords (r :: rs) = filledRecords (r :: rs') := by
  rw [filledRecords, filledRecords, List.filter_cons, List.filter_cons]
  split
  · exact congrArg (r :: ·) hrs
  · exact hrs

/-- Blank lines in front of a text only make its lines later. -/
theorem filledRecords_blankLines (n : Nat) (bs : List BlankLine) (rest : List Char) :
    filledRecords (recordsFrom n (bs.flatMap BlankLine.chars ++ rest)) =
      filledRecords (recordsFrom (n + bs.length) rest) := by
  induction bs generalizing n with
  | nil => rfl
  | cons b bs ih =>
    obtain ⟨r, hblank, hread⟩ := recordsFrom_blankLine n b (bs.flatMap BlankLine.chars ++ rest)
    rw [List.flatMap_cons, List.append_assoc, hread, filledRecords_cons_of_isBlank hblank, ih,
      List.length_cons, Nat.add_assoc, Nat.add_comm 1]

/-- What is put behind a line end may begin with a line feed, which a carriage return takes to
itself. Then a blank record less is read. -/
theorem scan_lineEnd_append (hquoted : d.quoted = false) {ending : List Char}
    (hend : LineEnds rest ending) (n : Nat) (next : List Char) :
    ∃ rs, scan d n (ending ++ next) = d.close :: rs ∧
      filledRecords rs = filledRecords (recordsFrom (n + ending.count '\n') next) := by
  cases hend with
  | lf => exact ⟨_, scan_lf hquoted, rfl⟩
  | crlf => exact ⟨_, scan_crlf hquoted, rfl⟩
  | cr _ =>
    by_cases hnext : next.head? = some '\n'
    · obtain ⟨next, rfl⟩ := List.head?_eq_some_iff.1 hnext
      refine ⟨_, scan_crlf hquoted, ?_⟩
      have hline : recordsFrom n ('\n' :: next) = ⟨n, [""]⟩ :: recordsFrom (n + 1) next :=
        scan_lf rfl
      exact (congrArg filledRecords hline).symm
    · exact ⟨_, scan_cr hquoted hnext, rfl⟩

theorem start_eq (n : Nat) : Draft.start n = (Draft.start 0).down n := by
  simp [Draft.start, Draft.down]

/-- A text is at most one record without a line end, or the characters of a record, its line end,
and a text behind them. The record is the same on whichever line it starts, and whatever stands
behind the line end, as long as a carriage return does not take a line feed to itself there. -/
theorem recordsFrom_cases (cs : List Char) :
    (pieces cs = [cs] ∧ (cs ≠ [] → ∃ r, ∀ n, recordsFrom n cs = [Record.down n r])) ∨
    ∃ body ending rest r, cs = body ++ (ending ++ rest) ∧ LineEnds rest ending ∧
      pieces cs = (body ++ ending) :: pieces rest ∧
      (∀ n next, LineEnds next ending → recordsFrom n (body ++ (ending ++ next)) =
        Record.down n r :: recordsFrom (n + (body ++ ending).count '\n') next) ∧
      ∀ n next, ∃ rs, recordsFrom n (body ++ (ending ++ next)) = r.down n :: rs ∧
        filledRecords rs =
          filledRecords (recordsFrom (n + (body ++ ending).count '\n') next) := by
  have hfirst : FirstPiece false true cs (pieces cs) := firstPiece_cut cs
  have hstart : (Draft.start 0).In false true := ⟨rfl, rfl⟩
  generalize hps : pieces cs = ps at hfirst
  cases hfirst with
  | last hread =>
    refine Or.inl ⟨rfl, fun hcs => ?_⟩
    obtain ⟨d, hd⟩ := hread _ hstart
    refine ⟨d.close, fun n => ?_⟩
    rw [recordsFrom_of_ne_nil hcs, start_eq, hd]
    rfl
  | more body htext hend hread =>
    rename_i ending rest
    obtain ⟨d, hd, hbody⟩ := hread _ hstart
    have hunquoted : ∀ n, (d.down n).quoted = false := fun _ => hd
    have hquote : ∀ next, (ending ++ next).head? ≠ some '"' := by cases hend <;> simp
    have hnil : ∀ next, body ++ (ending ++ next) ≠ [] := by cases hend <;> simp
    have hpiece : ∀ n next, recordsFrom n (body ++ (ending ++ next)) =
        scan (d.down n) (n + body.count '\n') (ending ++ next) := by
      intro n next
      rw [recordsFrom_of_ne_nil (hnil next), start_eq]
      exact hbody _ (hquote next) n n
    refine Or.inr ⟨body, ending, rest, d.close, htext, hend, rfl, fun n next hnext => ?_,
      fun n next => ?_⟩
    · rw [hpiece, scan_lineEnd (hunquoted n) hnext, List.count_append, Nat.add_assoc]
      rfl
    · rw [hpiece, List.count_append, ← Nat.add_assoc]
      exact scan_lineEnd_append (hunquoted n) hend _ next

/-- A text is at most one record without a line end, or a piece and a text behind it. Whatever is
put behind the piece, it is one and the same record. -/
theorem pieces_cases (cs : List Char) :
    (pieces cs = [cs] ∧ (cs ≠ [] → ∃ r, ∀ n, recordsFrom n cs = [Record.down n r])) ∨
    ∃ piece rest r, cs = piece ++ rest ∧ piece ≠ [] ∧
      pieces cs = piece :: pieces rest ∧
      (∀ n, recordsFrom n cs = Record.down n r :: recordsFrom (n + piece.count '\n') rest) ∧
      ∀ n next, ∃ rs, recordsFrom n (piece ++ next) = r.down n :: rs ∧
        filledRecords rs = filledRecords (recordsFrom (n + piece.count '\n') next) := by
  rcases recordsFrom_cases cs with
    hlast | ⟨body, ending, rest, r, htext, hend, hcs, hread, hfilled⟩
  · exact Or.inl hlast
  · refine Or.inr ⟨body ++ ending, rest, r, ?_, ?_, hcs, fun n => ?_, fun n next => ?_⟩
    · rw [htext, List.append_assoc]
    · cases hend <;> simp
    · rw [htext, hread n rest hend]
    · rw [List.append_assoc]
      exact hfilled n next

theorem length_rest_lt {cs piece : List Char} (htext : cs = piece ++ rest) (hne : piece ≠ []) :
    rest.length < cs.length := by
  rw [htext, List.length_append]
  exact Nat.lt_add_of_pos_left (List.length_pos_iff.2 hne)

/-- The pieces make up the text. -/
theorem flatten_pieces (cs : List Char) : (pieces cs).flatten = cs := by
  rcases pieces_cases cs with ⟨hlast, -⟩ | ⟨piece, rest, r, htext, hne, hcs, -⟩
  · rw [hlast, List.flatten_singleton]
  · have hshorter : rest.length < cs.length := length_rest_lt htext hne
    rw [hcs, List.flatten_cons, flatten_pieces rest, ← htext]
termination_by cs.length

/-- Each piece in which something stands is one record, be it a line end alone. -/
theorem length_recordsFrom (n : Nat) (cs : List Char) :
    (recordsFrom n cs).length = ((pieces cs).filter (· ≠ [])).length := by
  rcases pieces_cases cs with ⟨hlast, hread⟩ | ⟨piece, rest, r, htext, hne, hcs, hread, -⟩
  · rw [hlast]
    by_cases hnil : cs = []
    · rw [hnil]
      rfl
    · obtain ⟨r, hr⟩ := hread hnil
      simp [hr, hnil]
  · have hshorter : rest.length < cs.length := length_rest_lt htext hne
    rw [hcs, hread, List.length_cons, length_recordsFrom _ rest]
    simp [hne]
termination_by cs.length

/-! ## Blank lines between the records -/

/-- Puts blank lines in front of the pieces of a text, `gaps i` in front of piece `i`. -/
def spread (gaps : Nat → List BlankLine) (cs : List Char) : List Char :=
  ((pieces cs).mapIdx fun i piece => (gaps i).flatMap BlankLine.chars ++ piece).flatten

/-- The number of the blank lines in front of piece `i` and of the pieces before it. -/
def linesBefore (gaps : Nat → List BlankLine) (i : Nat) : Nat :=
  ((List.range (i + 1)).map fun j => (gaps j).length).sum

variable {gaps : Nat → List BlankLine}

theorem linesBefore_zero (gaps : Nat → List BlankLine) : linesBefore gaps 0 = (gaps 0).length := rfl

theorem linesBefore_succ (gaps : Nat → List BlankLine) (i : Nat) :
    linesBefore gaps (i + 1) = (gaps 0).length + linesBefore (fun j => gaps (j + 1)) i := by
  rw [linesBefore, List.range_succ_eq_map, List.map_cons, List.map_map, List.sum_cons]
  rfl

theorem spread_of_last {cs : List Char} (hcs : pieces cs = [cs]) :
    spread gaps cs = (gaps 0).flatMap BlankLine.chars ++ cs := by
  simp [spread, hcs]

theorem spread_of_cons {cs piece : List Char} (hcs : pieces cs = piece :: pieces rest) :
    spread gaps cs = (gaps 0).flatMap BlankLine.chars ++
      (piece ++ spread (fun i => gaps (i + 1)) rest) := by
  simp [spread, hcs, List.mapIdx_cons]

theorem exists_spread_eq (gaps : Nat → List BlankLine) (cs : List Char) :
    ∃ rest, spread gaps cs = (gaps 0).flatMap BlankLine.chars ++ rest := by
  rcases pieces_cases cs with ⟨hlast, -⟩ | ⟨piece, rest, r, -, -, hcs, -⟩
  · exact ⟨_, spread_of_last hlast⟩
  · exact ⟨_, spread_of_cons hcs⟩

/-- Each record that is not blank is found again, further down by the lines in front of it. -/
theorem filledRecords_spread (gaps : Nat → List BlankLine) (k n : Nat) (cs : List Char) :
    filledRecords (recordsFrom (n + k) (spread gaps cs)) =
      filledRecords ((recordsFrom n cs).mapIdx fun i r => r.down (k + linesBefore gaps i)) := by
  -- From piece to piece: `k` gathers the blank lines in front of the pieces that are done.
  rcases pieces_cases cs with ⟨hlast, hread⟩ | ⟨piece, rest, r, htext, hne, hcs, hread, hpiece⟩
  · rw [spread_of_last hlast, filledRecords_blankLines]
    by_cases hnil : cs = []
    · subst hnil
      rfl
    · obtain ⟨r, hr⟩ := hread hnil
      rw [hr, hr, Nat.add_assoc, ← linesBefore_zero, ← Record.down_down]
      rfl
  · obtain ⟨rs, hrs, hfilled⟩ :=
      hpiece (n + k + (gaps 0).length) (spread (fun i => gaps (i + 1)) rest)
    have hshorter : rest.length < cs.length := length_rest_lt htext hne
    have hlines : n + k + (gaps 0).length = n + (k + linesBefore gaps 0) := Nat.add_assoc _ _ _
    have hthen : n + k + (gaps 0).length + piece.count '\n' =
        n + piece.count '\n' + (k + (gaps 0).length) := by omega
    rw [spread_of_cons hcs, filledRecords_blankLines, hrs, hread, List.mapIdx_cons, hlines,
      ← Record.down_down]
    apply filledRecords_cons_congr
    rw [hfilled, hthen, filledRecords_spread]
    simp only [linesBefore_succ, Nat.add_assoc]
termination_by cs.length

/-! ## Sheets -/

theorem headerOf_of_isBlank {header : Record} (hheader : header.isBlank = true) :
    headerOf header = .error (.missingColumn .id) := by
  rw [headerOf_eq_missing_id_iff]
  intro cell hcell hname
  have hblank : allBlank cell.toList = true := List.all_eq_true.1 hheader cell hcell
  rw [Role.Names, (trim_eq_nil_iff _).2 hblank] at hname
  exact absurd hname (by decide)

/-- What is skipped, `k` lines further down. -/
def Skipped.down (k : Nat) (s : Skipped) : Skipped :=
  { s with line := s.line + k }

theorem toOption_entry_down (h : Header) (k : Nat) (r : Record) :
    (entry h (r.down k)).toOption = (entry h r).toOption := by
  unfold entry Record.down
  cases rowOf h r.fields <;> rfl

theorem skipped?_entry_down (h : Header) (k : Nat) (r : Record) :
    skipped? (entry h (r.down k)) = (skipped? (entry h r)).map (Skipped.down k) := by
  unfold entry Record.down
  cases rowOf h r.fields <;> rfl

/-- The records behind a header that are not blank, each with its place in the text. -/
def filledAt (rs : List Record) : List (Record × Nat) :=
  (rs.zipIdx 1).filter fun r => !r.1.isBlank

/-- What is skipped of the records behind a header, each with the place of its record. -/
def skippedAt (h : Header) (rs : List Record) : List (Skipped × Nat) :=
  (filledAt rs).filterMap fun r => (skipped? (entry h r.1)).map (·, r.2)

theorem mapIdx_eq_map_zipIdx (lines : Nat → Nat) (rs : List Record) (j : Nat) :
    (rs.mapIdx fun i r => r.down (lines (i + j))) =
      (rs.zipIdx j).map fun r => r.1.down (lines r.2) := by
  induction rs generalizing j with
  | nil => rfl
  | cons r rs ih =>
    rw [List.mapIdx_cons, List.zipIdx_cons, List.map_cons, ← ih (j + 1), Nat.zero_add]
    simp only [Nat.add_assoc, Nat.add_comm 1 j]

/-- Records further down, by lines that depend on their places, make the same rows, and the same
faults further down. -/
theorem ofRecords_down (h : Header) (lines : Nat → Nat) {rs rs' : List Record}
    (hrs : filledRecords rs' =
      filledRecords (rs.mapIdx fun i r => r.down (lines (i + 1)))) :
    ofRecords h rs' = ⟨(filledAt rs).filterMap fun r => (entry h r.1).toOption,
      (skippedAt h rs).map fun s => s.1.down (lines s.2)⟩ := by
  have hfilled : filledRecords rs' = (filledAt rs).map fun r => r.1.down (lines r.2) := by
    rw [hrs, mapIdx_eq_map_zipIdx, filledRecords, List.filter_map]
    rfl
  rw [ofRecords_eq, ← filledRecords, hfilled]
  refine congrArg₂ Sheet.mk ?rows ?skipped
  case rows =>
    simp only [List.filterMap_map, Function.comp_def, toOption_entry_down]
  case skipped =>
    simp only [skippedAt, List.filterMap_map, List.map_filterMap, Function.comp_def,
      skipped?_entry_down, Option.map_map]

theorem ofRecords_eq_at (h : Header) (rs : List Record) :
    ofRecords h rs = ⟨(filledAt rs).filterMap fun r => (entry h r.1).toOption,
      (skippedAt h rs).map Prod.fst⟩ := by
  have hsame : (rs.mapIdx fun _ r => r.down 0) = rs := List.mapIdx_eq_iff.2 (by simp [Record.down])
  exact ofRecords_down h (fun _ => 0) (congrArg filledRecords hsame.symm)

/-- Whether two texts have the same outcome, where blank lines are put in front of the pieces of
the first one: both sheets are rejected for the same reason, or they have the same rows and skip the
same records for the same faults, each reported as many lines later as there are blank lines put in
front of its record. -/
inductive SameButLines (gaps : Nat → List BlankLine) (text text' : String) : Prop
  | rejected {reason : SheetError} (htext : ofText text = .error reason)
      (htext' : ofText text' = .error reason) : SameButLines gaps text text'
  | accepted {header : Record} {rs : List Record} {h : Header} {rows : List Row}
      (hrecords : records text = header :: rs) (hheader : headerOf header = .ok h)
      (htext : ofText text = .ok ⟨rows, (skippedAt h rs).map Prod.fst⟩)
      (htext' : ofText text' =
        .ok ⟨rows, (skippedAt h rs).map fun s => s.1.down (linesBefore gaps s.2)⟩) :
      SameButLines gaps text text'

/-- The text with the blank lines. -/
def spreadText (gaps : Nat → List BlankLine) (text : String) : String :=
  String.ofList (spread gaps text.toList)

theorem records_of_unmarked {text : String} (hmark : text.toList.head? ≠ some '\uFEFF') :
    records text = recordsFrom 1 text.toList := by
  rw [records, skipMark_eq_self hmark]

/-- Without blank lines in front of it, the header stays what it is. -/
theorem records_spreadText {text : String} (hmark : text.toList.head? ≠ some '\uFEFF')
    (hgaps : gaps 0 = []) :
    (records text = [] ∧ records (spreadText gaps text) = []) ∨
    ∃ header rs rs', records text = header :: rs ∧
      records (spreadText gaps text) = header :: rs' ∧
      filledRecords rs' = filledRecords (rs.mapIdx fun i r => r.down (linesBefore gaps (i + 1))) := by
  rcases pieces_cases text.toList with
    ⟨hlast, hread⟩ | ⟨piece, rest, r, htext, hne, hpieces, hread, hpiece⟩
  · have hsame : spreadText gaps text = text := by
      rw [spreadText, spread_of_last hlast, hgaps, List.flatMap_nil, List.nil_append,
        String.ofList_toList]
    rw [hsame, records_of_unmarked hmark]
    by_cases hnil : text.toList = []
    · rw [hnil]
      exact Or.inl ⟨rfl, rfl⟩
    · obtain ⟨r, hr⟩ := hread hnil
      exact Or.inr ⟨r.down 1, [], [], hr 1, hr 1, rfl⟩
  · right
    have hspread : (spreadText gaps text).toList =
        piece ++ spread (fun i => gaps (i + 1)) rest := by
      rw [spreadText, String.toList_ofList, spread_of_cons hpieces, hgaps]
      rfl
    have hmark' : (spreadText gaps text).toList.head? ≠ some '\uFEFF' := by
      rwa [hspread, List.head?_append_of_ne_nil _ hne, ← List.head?_append_of_ne_nil _ hne,
        ← htext]
    obtain ⟨rs', hrs', hfilled⟩ := hpiece 1 (spread (fun i => gaps (i + 1)) rest)
    refine ⟨r.down 1, recordsFrom (1 + piece.count '\n') rest, rs', ?_, ?_, ?_⟩
    · rw [records_of_unmarked hmark, hread]
    · rw [records_of_unmarked hmark', hspread, hrs']
    · rw [hfilled, ← Nat.add_zero (1 + _), filledRecords_spread]
      simp only [linesBefore_succ, hgaps, List.length_nil, Nat.add_zero]

theorem sameButLines_spreadText {text : String} (hmark : text.toList.head? ≠ some '\uFEFF')
    (hgaps : gaps 0 = []) : SameButLines gaps text (spreadText gaps text) := by
  rcases records_spreadText hmark hgaps with
    ⟨hnil, hnil'⟩ | ⟨header, rs, rs', hrecords, hrecords', hfilled⟩
  · have htext : ofText text = .error .empty := by
      rw [ofText_eq, hnil]
      rfl
    have htext' : ofText (spreadText gaps text) = .error .empty := by
      rw [ofText_eq, hnil']
      rfl
    exact .rejected htext htext'
  · have htext : ofText text = (headerOf header).map fun h => ofRecords h rs := by
      rw [ofText_eq, hrecords, ofList]
    have htext' : ofText (spreadText gaps text) =
        (headerOf header).map fun h => ofRecords h rs' := by
      rw [ofText_eq, hrecords', ofList]
    cases hheader : headerOf header with
    | error reason =>
      rw [hheader] at htext htext'
      exact .rejected htext htext'
    | ok h =>
      rw [hheader, Except.map, ofRecords_eq_at] at htext
      rw [hheader, Except.map, ofRecords_down h (linesBefore gaps) hfilled] at htext'
      exact .accepted hrecords hheader htext htext'

/-- The first of the blank lines in front of a text is taken for the header. -/
theorem ofText_spreadText_of_ne_nil (text : String) (hgaps : gaps 0 ≠ []) :
    ofText (spreadText gaps text) = .error (.missingColumn .id) := by
  obtain ⟨b, bs, hgap⟩ := List.exists_cons_of_ne_nil hgaps
  obtain ⟨rest, hrest⟩ := exists_spread_eq gaps text.toList
  have hspread : (spreadText gaps text).toList =
      b.chars ++ (bs.flatMap BlankLine.chars ++ rest) := by
    rw [spreadText, String.toList_ofList, hrest, hgap, List.flatMap_cons, List.append_assoc]
  have hmark : (spreadText gaps text).toList.head? ≠ some '\uFEFF' := by
    rw [hspread]
    exact b.head?_chars_append _
  obtain ⟨header, hblank, hread⟩ := recordsFrom_blankLine 1 b (bs.flatMap BlankLine.chars ++ rest)
  rw [ofText_eq, records_of_unmarked hmark, hspread, hread, ofList, headerOf_of_isBlank hblank]
  rfl

/-- Blank lines between the records change nothing but the lines that are reported. In front of the
header they change the outcome, since the first of them is taken for the header, unless the sheet
lacks the column of the scenes anyway. -/
theorem ofText_spreadText {text : String} (hmark : text.toList.head? ≠ some '\uFEFF')
    (gaps : Nat → List BlankLine) :
    (SameButLines gaps text (spreadText gaps text) ↔
      gaps 0 = [] ∨ ofText text = .error (.missingColumn .id)) ∧
    (gaps 0 ≠ [] → ofText (spreadText gaps text) = .error (.missingColumn .id)) := by
  refine ⟨?same, ofText_spreadText_of_ne_nil text⟩
  case same =>
    by_cases hgaps : gaps 0 = []
    · exact iff_of_true (sameButLines_spreadText hmark hgaps) (Or.inl hgaps)
    · have htext' := ofText_spreadText_of_ne_nil text hgaps
      constructor
      · intro hsame
        cases hsame with
        | rejected htext h =>
          rw [htext'] at h
          cases h
          exact Or.inr htext
        | accepted _ _ _ h =>
          rw [htext'] at h
          cases h
      · rintro (h | h)
        · exact absurd h hgaps
        · exact .rejected h htext'

/-- A line of blanks behind the header, and lines behind a record with a line feed in quotes. What
is skipped is found three lines further down. -/
theorem ofText_spreadText_quoted :
    let text := "ID,Command\n\"x\n\",Say\r\n2,Say\ny"
    let gaps : Nat → List BlankLine := fun i =>
      if i = 1 then [⟨[' ', ','], by simp, true⟩]
      else if i = 2 then [⟨[], by simp, false⟩, ⟨[','], by simp, false⟩] else []
    text.toList.head? ≠ some '\uFEFF' ∧ gaps 0 = [] ∧
      spreadText gaps text = "ID,Command\n ,\r\n\"x\n\",Say\r\n\n,\n2,Say\ny" ∧
      SameButLines gaps text (spreadText gaps text) ∧
      (ofText text).map Sheet.skipped = .ok [⟨2, .badId "x"⟩, ⟨5, .tooFewFields 1 2⟩] ∧
      (ofText (spreadText gaps text)).map Sheet.skipped =
        .ok [⟨3, .badId "x"⟩, ⟨8, .tooFewFields 1 2⟩] := by
  intro text gaps
  have hmark : text.toList.head? ≠ some '\uFEFF' := by decide
  have hspread : spreadText gaps text =
      "ID,Command\n ,\r\n\"x\n\",Say\r\n\n,\n2,Say\ny" := by decide +kernel
  have hsame := ((ofText_spreadText hmark gaps).1).2 (Or.inl rfl)
  refine ⟨hmark, rfl, hspread, hsame, ?_, ?_⟩
  · decide +kernel
  · rw [hspread]
    decide +kernel

/-- A blank line in front of a sheet, which is rejected then. -/
theorem ofText_blank_header :
    let text := "ID,Command\n1,Say\n"
    let gaps : Nat → List BlankLine := fun i => if i = 0 then [⟨[], by simp, false⟩] else []
    text.toList.head? ≠ some '\uFEFF' ∧ spreadText gaps text = "\nID,Command\n1,Say\n" ∧
      ofText text = .ok ⟨[{ scene := 1, command := .say }], []⟩ ∧
      ofText "\nID,Command\n1,Say\n" = .error (.missingColumn .id) ∧
      ¬ SameButLines gaps text (spreadText gaps text) := by
  intro text gaps
  have hspread : spreadText gaps text = "\nID,Command\n1,Say\n" := by decide +kernel
  have haccepted : ofText text = .ok ⟨[{ scene := 1, command := .say }], []⟩ := by
    decide +kernel
  have hrejected : ofText "\nID,Command\n1,Say\n" = .error (.missingColumn .id) := by
    decide +kernel
  refine ⟨by decide, hspread, haccepted, hrejected, ?_⟩
  intro hsame
  rw [hspread] at hsame
  cases hsame with
  | rejected h _ => cases haccepted.symm.trans h
  | accepted _ _ _ h => cases hrejected.symm.trans h

end Dialogue.Sheet
