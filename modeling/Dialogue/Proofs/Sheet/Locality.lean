import Dialogue.Proofs.Sheet.Spacing

/-!
# Records are read one by one

How a text is cut into records is decided record by record. Behind a line feed that ends a record
reading starts afresh: all that counts of what stands in front is how many lines it has, and what
stands behind changes nothing in front.

* `recordsFrom_add`: on a later line the same records are read, further down.
* `readEach` reads pieces of a text one by one. `recordsFrom_eq_readEach` and
  `length_recordsFrom_piece` say that this is how a text is read, and that each piece in which
  something stands is one record; so reading comes to an end.
* `Ended` is a text whose last record is ended by a line feed; `recordsFrom_append` reads on behind
  it, and `records_local` is about whole texts.
-/

namespace Dialogue.Sheet

variable {cs rest : List Char} {n : Nat}

/-- On a later line the same records are read, further down. -/
theorem recordsFrom_add (n k : Nat) (cs : List Char) :
    recordsFrom (n + k) cs = (recordsFrom n cs).map (.down k) := by
  -- by induction on the length: behind the first record the lines are as many further down
  rcases pieces_cases cs with ⟨-, hread⟩ | ⟨piece, rest, r, htext, hne, -, hread, -⟩
  · by_cases hnil : cs = []
    · rw [hnil]
      rfl
    · obtain ⟨r, hr⟩ := hread hnil
      rw [hr, hr, List.map_singleton, Record.down_down]
  · have hshorter : rest.length < cs.length := length_rest_lt htext hne
    rw [hread, hread, List.map_cons, Record.down_down, ← recordsFrom_add _ k rest,
      Nat.add_right_comm]
termination_by cs.length

/-! ## From piece to piece -/

/-- The records of pieces of a text, each read by itself on the line it starts on. -/
def readEach (n : Nat) : List (List Char) → List Record
  | [] => []
  | piece :: ps => recordsFrom n piece ++ readEach (n + piece.count '\n') ps

/-- A line end is one at the end of a text, too. -/
theorem LineEnds.last {ending : List Char} (hend : LineEnds rest ending) : LineEnds [] ending := by
  cases hend with
  | lf => exact .lf
  | crlf => exact .crlf
  | cr _ => exact .cr (by simp)

/-- What a record takes of a text is read as that record by itself. -/
theorem recordsFrom_of_piece {body ending : List Char} {r : Record} (hend : LineEnds rest ending)
    (hread : ∀ n next, LineEnds next ending → recordsFrom n (body ++ (ending ++ next)) =
      Record.down n r :: recordsFrom (n + (body ++ ending).count '\n') next) (n : Nat) :
    recordsFrom n (body ++ ending) = [r.down n] := by
  have halone := hread n [] hend.last
  rwa [List.append_nil] at halone

/-- Each piece of a text is read by itself. -/
theorem recordsFrom_eq_readEach (n : Nat) (cs : List Char) :
    recordsFrom n cs = readEach n (pieces cs) := by
  rcases recordsFrom_cases cs with ⟨hlast, -⟩ | ⟨body, ending, rest, r, htext, hend, hcs, hread, -⟩
  · rw [hlast, readEach, readEach, List.append_nil]
  · have hshorter : rest.length < cs.length := htext ▸ hend.length_lt body
    rw [hcs, readEach, recordsFrom_of_piece hend hread, ← recordsFrom_eq_readEach _ rest, htext,
      hread n rest hend, List.singleton_append]
termination_by cs.length

/-- A piece in which something stands is one record. -/
theorem length_recordsFrom_piece {cs piece : List Char} (hpiece : piece ∈ pieces cs) (n : Nat) :
    (recordsFrom n piece).length = if piece = [] then 0 else 1 := by
  rcases recordsFrom_cases cs with
    ⟨hlast, hone⟩ | ⟨body, ending, rest, r, htext, hend, hcs, hread, -⟩
  · rw [hlast, List.mem_singleton] at hpiece
    subst hpiece
    split
    · rename_i hnil
      rw [hnil]
      rfl
    · rename_i hne
      obtain ⟨r, hr⟩ := hone hne
      rw [hr, List.length_singleton]
  · have hshorter : rest.length < cs.length := htext ▸ hend.length_lt body
    rw [hcs, List.mem_cons] at hpiece
    rcases hpiece with rfl | hpiece
    · have hne : body ++ ending ≠ [] := by cases hend <;> simp
      rw [recordsFrom_of_piece hend hread, if_neg hne, List.length_singleton]
    · exact length_recordsFrom_piece hpiece n
termination_by cs.length

/-! ## Behind a line feed that ends a record -/

/-- A text whose last record is ended by a line feed, one that does not stand in quotes. -/
def Ended (cs : List Char) : Prop :=
  ∃ before body, pieces cs = before ++ [body ++ ['\n'], []]

theorem Ended.ne_nil (h : Ended cs) : cs ≠ [] := by
  obtain ⟨before, body, hcs⟩ := h
  intro hnil
  rw [hnil] at hcs
  have hlength := congrArg List.length hcs
  simp [pieces, cut] at hlength

/-- A text behind the first piece of one that is ended is ended as well, or there is none and the
piece itself ends with the line feed. -/
theorem Ended.of_cons {piece : List Char} (h : Ended cs) (hcs : pieces cs = piece :: pieces rest) :
    Ended rest ∨ rest = [] ∧ ∃ body, piece = body ++ ['\n'] := by
  obtain ⟨before, body, hended⟩ := h
  rw [hcs] at hended
  cases before with
  | nil =>
    -- the piece is the last record, so nothing is left to read
    obtain ⟨hpiece, hrest⟩ := List.cons.inj hended
    have hflat := flatten_pieces rest
    rw [hrest] at hflat
    exact Or.inr ⟨hflat.symm, body, hpiece⟩
  | cons first before => exact Or.inl ⟨before, body, (List.cons.inj hended).2⟩

/-- A line end with a line feed ends the line whatever comes behind it. -/
theorem LineEnds.of_lf {ending body body' : List Char} (hend : LineEnds rest ending)
    (hlf : body ++ ending = body' ++ ['\n']) (next : List Char) : LineEnds next ending := by
  cases hend with
  | lf => exact .lf
  | crlf => exact .crlf
  | cr _ => cases (List.append_inj' hlf rfl).2

/-- Whether a line is ended is decided by what stands behind it first. -/
theorem LineEnds.append {ending : List Char} (hend : LineEnds rest ending) (hne : rest ≠ [])
    (next : List Char) : LineEnds (rest ++ next) ending := by
  cases hend with
  | lf => exact .lf
  | crlf => exact .crlf
  | cr hrest => exact .cr (by rwa [List.head?_append_of_ne_nil _ hne])

/-- Behind a line feed that ends a record reading starts afresh, on the line that is reached. -/
theorem recordsFrom_append {cs : List Char} (h : Ended cs) (n : Nat) (next : List Char) :
    recordsFrom n (cs ++ next) =
      recordsFrom n cs ++ recordsFrom (n + cs.count '\n') next := by
  rcases recordsFrom_cases cs with ⟨hlast, -⟩ | ⟨body, ending, rest, r, htext, hend, hcs, hread, -⟩
  · obtain ⟨before, body, hended⟩ := h
    have hlength := congrArg List.length (hlast.symm.trans hended)
    simp at hlength
  · have hshorter : rest.length < cs.length := htext ▸ hend.length_lt body
    rcases h.of_cons hcs with hrest | ⟨rfl, body', hlf⟩
    · -- the end of the first record sees the same character behind it as before
      have hnext : LineEnds (rest ++ next) ending := hend.append hrest.ne_nil next
      have hlines : n + cs.count '\n' = n + (body ++ ending).count '\n' + rest.count '\n' := by
        rw [htext, ← List.append_assoc, List.count_append, Nat.add_assoc]
      calc recordsFrom n (cs ++ next)
          = recordsFrom n (body ++ (ending ++ (rest ++ next))) := by
            rw [htext, List.append_assoc, List.append_assoc]
        _ = r.down n :: (recordsFrom (n + (body ++ ending).count '\n') rest ++
              recordsFrom (n + cs.count '\n') next) := by
            rw [hread n (rest ++ next) hnext, recordsFrom_append hrest, hlines]
        _ = recordsFrom n cs ++ recordsFrom (n + cs.count '\n') next := by
            rw [← List.cons_append, ← hread n rest hend, ← htext]
    · have hnext : LineEnds next ending := hend.of_lf hlf next
      rw [List.append_nil] at htext
      rw [htext, recordsFrom_of_piece hend hread, List.append_assoc, hread n next hnext,
        List.singleton_append]
termination_by cs.length

theorem skipMark_append (hne : cs ≠ []) (next : List Char) :
    skipMark (cs ++ next) = skipMark cs ++ next := by
  rw [skipMark_eq, skipMark_eq, List.head?_append_of_ne_nil _ hne, List.tail_append_of_ne_nil hne]
  split <;> rfl

theorem count_skipMark (cs : List Char) : (skipMark cs).count '\n' = cs.count '\n' := by
  rw [skipMark_eq]
  split
  · rename_i hmark
    obtain ⟨tail, rfl⟩ := List.head?_eq_some_iff.1 hmark
    simp
  · rfl

/-- Behind a text whose last record is ended by a line feed, any text is read as by itself, as many
lines further down as there are line feeds. -/
theorem records_append {first : String} (hfirst : Ended (skipMark first.toList))
    (next : String) : records (first ++ next) =
      records first ++ (recordsFrom 1 next.toList).map (.down (first.toList.count '\n')) := by
  have hne : first.toList ≠ [] := by
    intro hnil
    rw [hnil] at hfirst
    exact hfirst.ne_nil rfl
  rw [records, String.toList_append, skipMark_append hne, recordsFrom_append hfirst,
    count_skipMark, recordsFrom_add]
  rfl

/-- Reading is local. Every record takes some characters of the text, and is read from these alone.
Behind a line feed that ends a record the rest of the text is read as a text of its own, only
further down. So whatever is put between two texts, well formed or not, leaves the records in front
as they are, and once its own last record is ended by a line feed, those behind as well. -/
theorem records_local {first : String} (hfirst : Ended (skipMark first.toList)) :
    let lines := first.toList.count '\n'
    (∀ text : String, let ps := pieces (skipMark text.toList)
      ps.flatten = skipMark text.toList ∧ records text = readEach 1 ps ∧
      ∀ piece ∈ ps, ∀ n, (recordsFrom n piece).length = if piece = [] then 0 else 1) ∧
    (∀ rest : String, rest.toList.head? ≠ some '\uFEFF' →
      records (first ++ rest) = records first ++ (records rest).map (.down lines)) ∧
    ∀ middle : String,
      records (first ++ middle) =
        records first ++ (recordsFrom 1 middle.toList).map (.down lines) ∧
      (Ended middle.toList → ∀ rest : String, rest.toList.head? ≠ some '\uFEFF' →
        records (first ++ middle ++ rest) = records (first ++ middle) ++
          (records rest).map (.down (lines + middle.toList.count '\n'))) := by
  intro lines
  refine ⟨?pieces, ?next, fun middle => ⟨records_append hfirst middle, ?behind⟩⟩
  case pieces =>
    intro text ps
    exact ⟨flatten_pieces _, recordsFrom_eq_readEach 1 _, fun _ => length_recordsFrom_piece⟩
  case next =>
    intro rest hrest
    rw [records_append hfirst, records_of_unmarked hrest]
  case behind =>
    intro hmiddle rest hrest
    have hdown : Record.down lines ∘ Record.down (middle.toList.count '\n') =
        Record.down (lines + middle.toList.count '\n') := by
      funext r
      rw [Function.comp_apply, Record.down_down, Nat.add_comm]
    rw [String.append_assoc, records_append hfirst, records_append hfirst, String.toList_append,
      recordsFrom_append hmiddle, recordsFrom_add, records_of_unmarked hrest, List.map_append,
      List.map_map, hdown, List.append_assoc]

/-- A line end in quotes in front, and quotes that stand where they should not in the middle. -/
theorem records_local_malformed :
    let first := "\uFEFF\"a\n\"x,b\r\n"
    let middle := "c\"d,\"e\"f\n"
    Ended (skipMark first.toList) ∧ Ended middle.toList ∧
      records (first ++ middle ++ "g\n\"h") =
        [⟨1, ["a\nx", "b"]⟩, ⟨3, ["c\"d", "ef"]⟩, ⟨4, ["g"]⟩, ⟨5, ["h"]⟩] := by
  intro first middle
  have hfirst : Ended (skipMark first.toList) :=
    ⟨[], "\"a\n\"x,b\r".toList, by decide +kernel⟩
  have hmiddle : Ended middle.toList := ⟨[], "c\"d,\"e\"f".toList, by decide +kernel⟩
  refine ⟨hfirst, hmiddle, ?_⟩
  obtain ⟨-, -, hlocal⟩ := records_local hfirst
  rw [(hlocal middle).2 hmiddle "g\n\"h" (by decide), (hlocal middle).1]
  decide +kernel

end Dialogue.Sheet
