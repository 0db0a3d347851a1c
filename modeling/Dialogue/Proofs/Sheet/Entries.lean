import Dialogue.Proofs.Sheet.Naming
import Dialogue.Proofs.Sheet.WellFormed

/-!
# Every record is accounted for

A sheet is rejected for its header only. Otherwise every record behind the header that is not blank
is either a row or skipped with its line, and both lists keep the order of the records.

* `scan_ne_nil`: a text that is not empty has a header.
* `headerOf_eq` says which headers are accepted, by the names of the columns.
* `ofRecords_eq`: rows and skipped records are the entries of the records, told apart.
* `ofText_accounts` puts this together for every text.
-/

namespace Dialogue.Sheet

open Text

variable {h : Header} {rs : List Record}

/-- The sheet that records make, the first of them its header. -/
def ofList : List Record → Except SheetError Sheet
  | [] => .error .empty
  | header :: rs => (headerOf header).map fun h => ofRecords h rs

theorem ofText_eq (text : String) : ofText text = ofList (records text) := by
  unfold ofText
  cases records text <;> rfl

/-! ## The header -/

/-- Reading gives at least the record that is being read. -/
theorem scan_ne_nil (d : Draft) (n : Nat) (cs : List Char) : scan d n cs ≠ [] := by
  fun_induction scan d n cs <;> simp_all

theorem skipMark_eq_nil_iff (cs : List Char) : skipMark cs = [] ↔ cs = [] ∨ cs = ['\uFEFF'] := by
  unfold skipMark
  split
  · simp
  · rename_i hmark
    constructor
    · exact Or.inl
    · rintro (h | h)
      · exact h
      · exact absurd h (hmark [])

/-- There is nothing to read in an empty text and in a byte order mark alone. -/
theorem records_eq_nil_iff (text : String) : records text = [] ↔ text = "" ∨ text = "\uFEFF" := by
  have hrecords : records text = [] ↔ skipMark text.toList = [] := by
    unfold records recordsFrom
    by_cases hnil : skipMark text.toList = []
    · rw [hnil]
      exact iff_of_true rfl rfl
    · rw [if_neg (by simpa using hnil)]
      exact iff_of_false (scan_ne_nil _ _ _) hnil
  rw [hrecords, skipMark_eq_nil_iff, ← String.toList_inj, ← String.toList_inj]
  rfl

/-- A header is accepted if it names the two required columns; if not, the first that is missing is
reported. -/
theorem headerOf_eq (header : Record) : headerOf header =
    if ∃ cell ∈ header.fields, Role.id.Names cell then
      if ∃ cell ∈ header.fields, Role.command.Names cell then .ok (.ofRecord header)
      else .error (.missingColumn .command)
    else .error (.missingColumn .id) := by
  simp only [← Header.has_ofRecord]
  unfold headerOf
  dsimp only
  by_cases hid : (Header.ofRecord header).has .id = true
  · by_cases hcommand : (Header.ofRecord header).has .command = true
    · rw [if_pos hid, if_pos hcommand]
      simp [hid, hcommand]
    · rw [if_pos hid, if_neg hcommand]
      simp [hid, hcommand]
  · rw [if_neg hid]
    simp [hid]

theorem headerOf_eq_missing_id_iff {header : Record} :
    headerOf header = .error (.missingColumn .id) ↔
      ∀ cell ∈ header.fields, ¬ Role.id.Names cell := by
  rw [headerOf_eq]
  by_cases hid : ∃ cell ∈ header.fields, Role.id.Names cell
  · rw [if_pos hid]
    refine iff_of_false ?_ ?_
    · split <;> simp
    · simpa using hid
  · rw [if_neg hid]
    exact iff_of_true rfl (by simpa using hid)

theorem headerOf_eq_missing_command_iff {header : Record} :
    headerOf header = .error (.missingColumn .command) ↔
      (∃ cell ∈ header.fields, Role.id.Names cell) ∧
        ∀ cell ∈ header.fields, ¬ Role.command.Names cell := by
  rw [headerOf_eq]
  by_cases hid : ∃ cell ∈ header.fields, Role.id.Names cell
  · rw [if_pos hid]
    by_cases hcommand : ∃ cell ∈ header.fields, Role.command.Names cell
    · rw [if_pos hcommand]
      refine iff_of_false (by simp) ?_
      rintro ⟨_, hnone⟩
      obtain ⟨cell, hcell, hname⟩ := hcommand
      exact hnone cell hcell hname
    · rw [if_neg hcommand]
      exact iff_of_true rfl ⟨hid, by simpa using hcommand⟩
  · rw [if_neg hid]
    exact iff_of_false (by simp) fun h => hid h.1

theorem headerOf_ne_empty (header : Record) : headerOf header ≠ .error .empty := by
  rw [headerOf_eq]
  split
  · split <;> simp
  · simp

/-! ## The records -/

/-- What a record is: a row, or skipped with the line it starts on. -/
def entry (h : Header) (r : Record) : Except Skipped Row :=
  (rowOf h r.fields).mapError (Skipped.mk r.line)

theorem entry_eq_ok_iff {r : Record} {row : Row} :
    entry h r = .ok row ↔ rowOf h r.fields = .ok row := by
  rw [entry]
  cases rowOf h r.fields <;> simp [Except.mapError]

theorem entry_eq_error_iff {r : Record} {fault : RowFault} :
    entry h r = .error ⟨r.line, fault⟩ ↔ rowOf h r.fields = .error fault := by
  rw [entry]
  cases rowOf h r.fields <;> simp [Except.mapError]

/-- What is skipped, if this is no row. -/
def skipped? : Except Skipped Row → Option Skipped
  | .ok _ => none
  | .error s => some s

/-- A sheet holds the entries of the records that are not blank, rows and others each in order. -/
theorem ofRecords_eq (h : Header) (rs : List Record) :
    let entries := (rs.filter fun r => !r.isBlank).map (entry h)
    ofRecords h rs = ⟨entries.filterMap Except.toOption, entries.filterMap skipped?⟩ := by
  unfold ofRecords
  generalize (rs.filter fun r => !r.isBlank) = own
  dsimp only
  induction own with
  | nil => rfl
  | cons r own ih =>
    rw [List.foldr_cons, ih, List.map_cons, add, entry]
    cases rowOf h r.fields <;> rfl

theorem length_rows_add_length_skipped (entries : List (Except Skipped Row)) :
    (entries.filterMap Except.toOption).length + (entries.filterMap skipped?).length =
      entries.length := by
  induction entries with
  | nil => rfl
  | cons e entries ih =>
    cases e with
    | ok row =>
      show (entries.filterMap Except.toOption).length + 1 + (entries.filterMap skipped?).length =
        entries.length + 1
      omega
    | error s =>
      show (entries.filterMap Except.toOption).length + ((entries.filterMap skipped?).length + 1) =
        entries.length + 1
      omega

/-- A text without characters, or with a byte order mark alone, has no header. Any other has one,
and is rejected exactly if it names no column for the scene or, next, none for the command.
Otherwise each record behind it that is not blank is one entry, a row or its fault with its line;
rows and faults keep the order of the records, none is lost, and every row is well formed. -/
theorem ofText_accounts (text : String) :
    (ofText text = .error .empty ↔ text = "" ∨ text = "\uFEFF") ∧
      (¬ (text = "" ∨ text = "\uFEFF") → ∃ header rs, records text = header :: rs ∧
        (ofText text = .error (.missingColumn .id) ↔
          ∀ cell ∈ header.fields, ¬ Role.id.Names cell) ∧
        (ofText text = .error (.missingColumn .command) ↔
          (∃ cell ∈ header.fields, Role.id.Names cell) ∧
            ∀ cell ∈ header.fields, ¬ Role.command.Names cell) ∧
        ((∃ cell ∈ header.fields, Role.id.Names cell) →
          (∃ cell ∈ header.fields, Role.command.Names cell) →
          ∃ sheet, ofText text = .ok sheet ∧
            let own := rs.filter fun r => !r.isBlank
            let entries := own.map (entry (.ofRecord header))
            sheet.rows = entries.filterMap Except.toOption ∧
            sheet.skipped = entries.filterMap skipped? ∧
            sheet.rows.length + sheet.skipped.length = own.length ∧
            ∀ row ∈ sheet.rows, row.WellFormed)) := by
  rw [← records_eq_nil_iff, ofText_eq]
  constructor
  · cases records text with
    | nil => exact iff_of_true rfl rfl
    | cons header rs =>
      refine iff_of_false ?_ (List.cons_ne_nil _ _)
      exact fun h => headerOf_ne_empty header (map_eq_error_iff.1 h)
  · intro hsome
    obtain ⟨header, rs, hrecords⟩ := List.exists_cons_of_ne_nil hsome
    have htext : ofList (records text) = (headerOf header).map fun h => ofRecords h rs := by
      rw [hrecords, ofList]
    refine ⟨header, rs, hrecords, ?noId, ?noCommand, ?accepted⟩
    case noId => rw [htext, map_eq_error_iff, headerOf_eq_missing_id_iff]
    case noCommand => rw [htext, map_eq_error_iff, headerOf_eq_missing_command_iff]
    case accepted =>
      intro hid hcommand
      rw [headerOf_eq, if_pos hid, if_pos hcommand] at htext
      have hwell : ∀ row ∈ (ofRecords (.ofRecord header) rs).rows, row.WellFormed :=
        fun row hrow => wellFormed_of_ofRecords hrow
      have hlength : (ofRecords (.ofRecord header) rs).rows.length +
          (ofRecords (.ofRecord header) rs).skipped.length =
            (rs.filter fun r => !r.isBlank).length := by
        rw [ofRecords_eq, length_rows_add_length_skipped, List.length_map]
      refine ⟨_, htext, ?_, ?_, hlength, hwell⟩
      · show (ofRecords _ rs).rows = _
        rw [ofRecords_eq]
      · show (ofRecords _ rs).skipped = _
        rw [ofRecords_eq]

/-- A blank line, two rows, a record whose scene is no number, and one that is too short and starts
inside an open quote of the last line. -/
theorem ofText_accounts_mixed :
    let text := "\uFEFFCommand,Scene,Options\n , ,\nSay,1,\nSay,x,\nSetOption,2,a:1|b:2\r\n\"Say\n"
    ¬ (text = "" ∨ text = "\uFEFF") ∧ ∃ sheet, ofText text = .ok sheet ∧
      sheet.rows.map Row.scene = [1, 2] ∧
      sheet.skipped = [⟨4, .badId "x"⟩, ⟨6, .tooFewFields 1 3⟩] ∧
      ∀ row ∈ sheet.rows, row.WellFormed := by
  intro text
  have hsome : ¬ (text = "" ∨ text = "\uFEFF") := by decide
  have hread : records text = [⟨1, ["Command", "Scene", "Options"]⟩, ⟨2, [" ", " ", ""]⟩,
      ⟨3, ["Say", "1", ""]⟩, ⟨4, ["Say", "x", ""]⟩, ⟨5, ["SetOption", "2", "a:1|b:2"]⟩,
      ⟨6, ["Say\n"]⟩] := by decide +kernel
  obtain ⟨header, rs, hrecords, _, _, haccepted⟩ := (ofText_accounts text).2 hsome
  rw [hread] at hrecords
  cases hrecords
  obtain ⟨sheet, hsheet, hrows, hskipped, _, hwell⟩ :=
    haccepted (by decide +kernel) (by decide +kernel)
  refine ⟨hsome, sheet, hsheet, ?_, ?_, hwell⟩
  · rw [hrows]
    decide +kernel
  · rw [hskipped]
    decide +kernel

end Dialogue.Sheet
