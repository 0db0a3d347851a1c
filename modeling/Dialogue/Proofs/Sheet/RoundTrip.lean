import Dialogue.Proofs.Sheet.Columns
import Dialogue.Proofs.Sheet.WellFormed
import Dialogue.Proofs.Sheet.Writing

/-!
# Rows written and read back

Well-formed rows that are written as a sheet, under a header with every column, are the rows of
the sheet.

* `Row.cell`, `Row.optionText` and `Row.optionTarget` are the cells of a row, `Row.cells` all of
  them in the order of `titles`.
* `Sheet.cell_role` and `Sheet.cell_option` find each of them under its column again, and
  `Sheet.rowOf_cells` reads them as the row.
* `Sheet.ofText_of_rows` is the sheet, in any layout of its lines.
-/

namespace Dialogue

open Text Sheet

/-- A command as a cell holds it. -/
def Command.word : Command → String
  | say => "Say"
  | setCharacter => "SetCharacter"
  | cleanCharacter => "CleanCharacter"
  | setOption => "SetOption"
  | unknown name => name

/-! ## The cells of a row -/

namespace Row

/-- What stands in the column of this role. Options stand in numbered columns. -/
def cell (r : Row) : Role → String
  | .id => Decimal.text r.scene
  | .branch => Decimal.text r.branch
  | .seq => (r.seq.map fun n => Decimal.natText n.toNat).getD ""
  | .command => r.command.word
  | .side => r.side.word
  | .character => r.character
  | .loadMode => r.loadMode.word
  | .highlight => r.highlight.word
  | .background => r.background.getD ""
  | .cg => r.cg.getD ""
  | .speaker => r.speaker
  | .line => r.line
  | .options => ""

/-- The choice with this number, counted from one. -/
def choice? (r : Row) : Nat → Option Choice
  | 0 => none
  | k + 1 => r.choices[k]?

def optionText (r : Row) (k : Nat) : String :=
  ((r.choice? k).map Choice.text).getD ""

def optionTarget (r : Row) (k : Nat) : String :=
  ((r.choice? k).map fun c => Decimal.text c.target).getD ""

/-- The cells of a row in a sheet with `n` options. -/
def cells (n : Nat) (r : Row) : List String :=
  roleTitles.map (fun t => r.cell t.2) ++
    (List.range' 1 n).flatMap fun k => [r.optionText k, r.optionTarget k]

variable {r : Row}

theorem isSome_choice? {k : Nat} : (r.choice? k).isSome ↔ 1 ≤ k ∧ k < 1 + r.choices.length := by
  cases k with
  | zero => simp [choice?]
  | succ k =>
    rw [choice?, isSome_getElem?]
    omega

/-- A choice is found under the number that its column is read with. -/
theorem choice?_slot (hsize : r.choices.length < UInt32.size) (k : Nat) :
    r.choice? (slot k) = r.choice? k := by
  unfold slot
  split
  · rfl
  · rename_i hlarge
    have hnone : ¬ (r.choice? k).isSome := by
      rw [isSome_choice?]
      omega
    simpa [choice?] using (Option.not_isSome_iff_eq_none.1 hnone).symm

theorem filterMap_getElem?_range {α : Type} (xs : List α) :
    ((List.range xs.length).filterMap fun i => xs[i]?) = xs := by
  induction xs with
  | nil => rfl
  | cons x xs ih =>
    rw [List.length_cons, List.range_succ_eq_map, List.filterMap_cons]
    simpa [List.filterMap_map, Function.comp_def] using ih

/-- The choices of a row are those found under ascending numbers, if all their numbers are there. -/
theorem filterMap_choice? {ks : List Nat} (hsorted : ks.Pairwise (· < ·))
    (hall : ∀ k, (r.choice? k).isSome → k ∈ ks) : ks.filterMap r.choice? = r.choices := by
  have hnumbers : ks.filter (fun k => (r.choice? k).isSome) = List.range' 1 r.choices.length := by
    have hfilter : (ks.filter fun k => (r.choice? k).isSome).Pairwise (· < ·) :=
      hsorted.sublist List.filter_sublist
    refine hfilter.sortedLT.eq_of_mem_iff (List.pairwise_lt_range' 1).sortedLT fun k => ?_
    rw [List.mem_filter, List.mem_range'_1, isSome_choice?]
    constructor
    · exact fun h => h.2
    · exact fun h => ⟨hall k (isSome_choice?.2 h), h⟩
  calc ks.filterMap r.choice?
      = (ks.filter fun k => (r.choice? k).isSome).filterMap r.choice? := by
        rw [List.filterMap_filter]
        refine List.filterMap_congr fun k _ => ?_
        cases h : r.choice? k <;> simp
    _ = (List.range' 1 r.choices.length).filterMap r.choice? := by rw [hnumbers]
    _ = (List.range r.choices.length).filterMap fun i => r.choices[i]? := by
        rw [List.range'_eq_map_range, List.filterMap_map]
        refine List.filterMap_congr fun i _ => ?_
        rw [Function.comp_apply, Nat.add_comm]
        rfl
    _ = r.choices := filterMap_getElem?_range r.choices

/-! ## Cells are trimmed -/

theorem trimmed_text (i : Int32) : Trimmed (Decimal.text i) := by
  simp [Trimmed, strip, Decimal.text, Decimal.trim_ofInt]

theorem trimmed_natText (n : Nat) : Trimmed (Decimal.natText n) := by
  simp [Trimmed, strip, Decimal.natText, Decimal.trim_ofNat]

theorem trimmed_empty : Trimmed "" := rfl

theorem trimmed_getD {s : Option String} (h : ∀ t ∈ s, Trimmed t) : Trimmed (s.getD "") := by
  cases s with
  | none => exact trimmed_empty
  | some t => exact h t rfl

theorem WellFormed.trimmed_word (h : r.WellFormed) : Trimmed r.command.word := by
  cases hcommand : r.command with
  | say | setCharacter | cleanCharacter | setOption => decide +kernel
  | unknown name => exact (h.command name hcommand).1

theorem WellFormed.trimmed_cell (h : r.WellFormed) (role : Role) : Trimmed (r.cell role) := by
  have htext : ∀ s ∈ r.texts, Trimmed s := h.trimmed
  simp only [texts, List.mem_append] at htext
  cases role with
  | id => exact trimmed_text _
  | branch => exact trimmed_text _
  | seq =>
    refine trimmed_getD fun t ht => ?_
    obtain ⟨n, _, rfl⟩ := Option.map_eq_some_iff.1 ht
    exact trimmed_natText _
  | command => exact h.trimmed_word
  | side => show Trimmed r.side.word; cases r.side <;> decide +kernel
  | loadMode => show Trimmed r.loadMode.word; cases r.loadMode <;> decide +kernel
  | highlight => show Trimmed r.highlight.word; cases r.highlight <;> decide +kernel
  | character => exact htext r.character (by simp)
  | speaker => exact htext r.speaker (by simp)
  | line => exact htext r.line (by simp)
  | background => exact trimmed_getD fun t ht => htext t (by simp [Option.mem_def.1 ht])
  | cg => exact trimmed_getD fun t ht => htext t (by simp [Option.mem_def.1 ht])
  | options => exact trimmed_empty

theorem WellFormed.trimmed_optionText (h : r.WellFormed) (k : Nat) : Trimmed (r.optionText k) := by
  refine trimmed_getD fun t ht => ?_
  obtain ⟨c, hc, rfl⟩ := Option.map_eq_some_iff.1 ht
  have hmem : c ∈ r.choices := by
    cases k with
    | zero => cases hc
    | succ k => exact List.mem_of_getElem? hc
  exact h.trimmed _ (List.mem_append_right _ (List.mem_map_of_mem hmem))

theorem trimmed_optionTarget (r : Row) (k : Nat) : Trimmed (r.optionTarget k) := by
  refine trimmed_getD fun t ht => ?_
  obtain ⟨c, _, rfl⟩ := Option.map_eq_some_iff.1 ht
  exact trimmed_text _

theorem WellFormed.trimmed_cells (h : r.WellFormed) (n : Nat) : ∀ s ∈ r.cells n, Trimmed s := by
  intro s hs
  rcases List.mem_append.1 hs with hs | hs
  · obtain ⟨t, _, rfl⟩ := List.mem_map.1 hs
    exact h.trimmed_cell t.2
  · obtain ⟨k, _, hs⟩ := List.mem_flatMap.1 hs
    simp only [List.mem_cons, List.not_mem_nil, or_false] at hs
    rcases hs with rfl | rfl
    · exact h.trimmed_optionText k
    · exact trimmed_optionTarget r k

end Row

/-! ## Words -/

theorem Command.ofWord_word {c : Command} (h : ∀ name, c = .unknown name →
    Trimmed name ∧ name ≠ "" ∧ name ∉ Command.words.map Prod.fst) : Command.ofWord c.word = c := by
  cases c with
  | say | setCharacter | cleanCharacter | setOption => decide +kernel
  | unknown name =>
    obtain ⟨htrimmed, hempty, hwords⟩ := h name rfl
    have hstrip : strip name = name := htrimmed
    simp only [words, List.map_cons, List.map_nil, List.mem_cons, List.not_mem_nil, or_false,
      not_or] at hwords
    unfold ofWord
    rw [word, hstrip]
    split <;> simp_all

theorem Side.ofWord_word (s : Side) : Side.ofWord s.word = s := by
  cases s <;> decide +kernel

theorem LoadMode.ofWord_word (m : LoadMode) : LoadMode.ofWord m.word = m := by
  cases m <;> decide +kernel

theorem Highlight.ofWord_word (which : Highlight) : Highlight.ofWord which.word = which := by
  cases which <;> decide +kernel

/-! ## Reading a row -/

namespace Sheet

variable {n : Nat} {row : Row} {fields : List String}

theorem zip_flatMap {α β γ : Type} (f : α → List β) (g : α → List γ)
    (h : ∀ a, (f a).length = (g a).length) (as : List α) :
    (as.flatMap f).zip (as.flatMap g) = as.flatMap fun a => (f a).zip (g a) := by
  induction as with
  | nil => rfl
  | cons a as ih => simp only [List.flatMap_cons, List.zip_append (h a), ih]

/-- Each cell stands under the title of its column. -/
theorem zip_cells (n : Nat) (row : Row) : (columns n).zip (row.cells n) =
    roleTitles.map (fun t => (.role t.2, row.cell t.2)) ++
      (List.range' 1 n).flatMap fun k =>
        [(.optionText (slot k), row.optionText k), (.optionTarget (slot k), row.optionTarget k)] := by
  rw [columns, Row.cells, List.zip_append (by simp), List.zip_map', zip_flatMap]
  · rfl
  · exact fun _ => rfl

theorem length_cells (n : Nat) (row : Row) : (row.cells n).length = (columns n).length := by
  simp [columns, Row.cells, optionColumns]

theorem mem_zip_cells {c : Column} {text : String} (h : (c, text) ∈ (columns n).zip (row.cells n)) :
    (∃ role, c = .role role ∧ text = row.cell role) ∨
      ∃ k, c = .optionText (slot k) ∧ text = row.optionText k ∨
        c = .optionTarget (slot k) ∧ text = row.optionTarget k := by
  rw [zip_cells] at h
  rcases List.mem_append.1 h with h | h
  · obtain ⟨t, _, heq⟩ := List.mem_map.1 h
    cases heq
    exact Or.inl ⟨_, rfl, rfl⟩
  · obtain ⟨k, _, h⟩ := List.mem_flatMap.1 h
    simp only [List.mem_cons, List.not_mem_nil, or_false, Prod.mk.injEq] at h
    exact Or.inr ⟨k, h⟩

/-- The cell of a column of a row, if all cells under its titles say the same. -/
theorem cell_of_zip (hfields : fields.map strip = row.cells n) {c : Column} {text : String}
    (hall : ∀ t, (c, t) ∈ (columns n).zip (row.cells n) → t = text)
    (hsome : text = "" ∨ (c, text) ∈ (columns n).zip (row.cells n)) :
    (fullHeader n).cell fields c = text := by
  have hmem : ∀ t, (some c, t) ∈ (fullHeader n).columns.zip (fields.map strip) ↔
      (c, t) ∈ (columns n).zip (row.cells n) := by
    intro t
    rw [hfields, fullHeader, List.zip_map_left, List.mem_map]
    constructor
    · rintro ⟨⟨c', t'⟩, h, heq⟩
      cases heq
      exact h
    · exact fun h => ⟨_, h, rfl⟩
  refine cell_eq (fun t ht => hall t ((hmem t).1 ht)) ?_
  exact hsome.imp_right (hmem text).2

/-- The cell of a row under the title of a role. -/
theorem cell_role (hfields : fields.map strip = row.cells n) (role : Role) :
    (fullHeader n).cell fields (.role role) = row.cell role := by
  refine cell_of_zip hfields (fun text htext => ?_) ?_
  · rcases mem_zip_cells htext with ⟨role', heq, rfl⟩ | ⟨k, ⟨heq, _⟩ | ⟨heq, _⟩⟩
    · cases heq
      rfl
    · cases heq
    · cases heq
  · by_cases hrole : role = .options
    · -- there is no column for packed options
      subst hrole
      exact Or.inl rfl
    · have htitle : role ∈ roleTitles.map Prod.snd := by
        cases role <;> first | exact absurd rfl hrole | decide
      obtain ⟨t, ht, rfl⟩ := List.mem_map.1 htitle
      rw [zip_cells]
      exact Or.inr (List.mem_append_left _ (List.mem_map_of_mem ht))

/-- The cells of a row under the titles of an option. -/
theorem cell_option (hfields : fields.map strip = row.cells n)
    (hsize : row.choices.length < UInt32.size) {k : Nat} (hk : k ∈ (fullHeader n).slots) :
    (fullHeader n).cell fields (.optionText k) = row.optionText k ∧
      (fullHeader n).cell fields (.optionTarget k) = row.optionTarget k := by
  -- a number that no word holds is that of no choice, and neither is the number it is read as
  have htext : ∀ j, row.optionText (slot j) = row.optionText j := by
    intro j
    rw [Row.optionText, row.choice?_slot hsize, Row.optionText]
  have htarget : ∀ j, row.optionTarget (slot j) = row.optionTarget j := by
    intro j
    rw [Row.optionTarget, row.choice?_slot hsize, Row.optionTarget]
  obtain ⟨j, hlow, hhigh, rfl⟩ := mem_slots.1 hk
  have hj : j ∈ List.range' 1 n := List.mem_range'_1.2 ⟨hlow, by omega⟩
  constructor
  · refine cell_of_zip hfields (fun text hmem => ?_) (Or.inr ?_)
    · rcases mem_zip_cells hmem with ⟨_, heq, _⟩ | ⟨i, ⟨heq, rfl⟩ | ⟨heq, _⟩⟩
      · cases heq
      · rw [Column.optionText.inj heq, htext i]
      · cases heq
    · rw [zip_cells, htext]
      exact List.mem_append_right _ (List.mem_flatMap.2 ⟨j, hj, List.mem_cons_self⟩)
  · refine cell_of_zip hfields (fun text hmem => ?_) (Or.inr ?_)
    · rcases mem_zip_cells hmem with ⟨_, heq, _⟩ | ⟨i, ⟨heq, _⟩ | ⟨heq, rfl⟩⟩
      · cases heq
      · cases heq
      · rw [Column.optionTarget.inj heq, htarget i]
    · rw [zip_cells, htarget]
      exact List.mem_append_right _ (List.mem_flatMap.2 ⟨j, hj, by simp⟩)

theorem numberedChoice_eq (hfields : fields.map strip = row.cells n)
    (hsize : row.choices.length < UInt32.size) {k : Nat} (hk : k ∈ (fullHeader n).slots) :
    numberedChoice (fullHeader n) fields k = .ok (row.choice? k) := by
  obtain ⟨htext, htarget⟩ := cell_option hfields hsize hk
  unfold numberedChoice
  dsimp only
  rw [htext, htarget, Row.optionText, Row.optionTarget]
  cases row.choice? k with
  | none => rfl
  | some c =>
    -- the target is written even where the text is empty
    have hempty : ¬ (c.text = "" ∧ Decimal.text c.target = "") :=
      fun h => Decimal.text_ne_empty _ h.2
    simp only [Option.map_some, Option.getD_some]
    rw [if_neg hempty, Decimal.int32?_text]

/-- The options of a row are its choices. -/
theorem choices_eq (hfields : fields.map strip = row.cells n)
    (hcount : row.choices.length ≤ n) (hsize : row.choices.length < UInt32.size) :
    choices (fullHeader n) fields = .ok row.choices := by
  have hfound : ∀ k, (row.choice? k).isSome → k ∈ (fullHeader n).slots := by
    intro k hk
    obtain ⟨hlow, hhigh⟩ := Row.isSome_choice?.1 hk
    exact mem_slots.2 ⟨k, hlow, by omega, if_pos (by omega)⟩
  have hnumbered : numberedChoices (fullHeader n) fields = .ok row.choices := by
    have hread := mapM_eq_ok fun k hk => numberedChoice_eq hfields hsize hk
    rw [numberedChoices, hread]
    show Except.ok (((fullHeader n).slots.map row.choice?).filterMap id) = _
    rw [List.filterMap_map, Function.id_comp, Row.filterMap_choice? (slots_sorted _) hfound]
  have hpacked : packedChoices ((fullHeader n).cell fields (.role .options)) = .ok [] := by
    rw [cell_role hfields]
    rfl
  rw [choices, hnumbered, hpacked]
  show Except.ok (row.choices ++ []) = _
  rw [List.append_nil]

theorem required_text (fault : String → RowFault) (i : Int32) :
    required Decimal.int32? fault (Decimal.text i) = .ok i := by
  rw [required, Decimal.int32?_text]

theorem optional_text (fault : String → RowFault) (i : Int32) :
    optional Decimal.int32? fault (Decimal.text i) = .ok (some i) := by
  rw [optional, if_neg (Decimal.text_ne_empty i), required_text]
  rfl

theorem optional_seq (fault : String → RowFault) (seq : Option UInt32) :
    optional Decimal.uint32? fault ((seq.map fun n => Decimal.natText n.toNat).getD "") =
      .ok seq := by
  cases seq with
  | none => rfl
  | some n =>
    show optional Decimal.uint32? fault (Decimal.natText n.toNat) = .ok (some n)
    rw [optional, if_neg (Decimal.natText_ne_empty _), required, Decimal.uint32?_natText]
    rfl

theorem key?_getD {key : Option String} (h : key ≠ some "") : key? (key.getD "") = key := by
  cases key with
  | none => rfl
  | some k =>
    have hk : k ≠ "" := fun hk => h (congrArg some hk)
    exact if_neg hk

theorem keptChoices_eq (hwell : row.WellFormed) :
    keptChoices row.command row.choices = .ok row.choices := by
  unfold keptChoices
  split
  · rename_i hcommand
    have htwo := hwell.choices hcommand
    rw [if_neg (by omega)]
  · rename_i hcommand
    rw [hwell.noChoices hcommand]

/-- A record with the cells of a row is that row. -/
theorem rowOf_cells (hwell : row.WellFormed) (hfields : fields.map strip = row.cells n)
    (hcount : row.choices.length ≤ n) (hsize : row.choices.length < UInt32.size) :
    rowOf (fullHeader n) fields = .ok row := by
  have hwidth : ¬ fields.length < (fullHeader n).width := by
    have hlength := congrArg List.length hfields
    rw [List.length_map, length_cells] at hlength
    simp [Header.width, fullHeader, hlength]
  unfold rowOf
  rw [if_neg hwidth]
  simp only [cell_role hfields, Row.cell, choices_eq hfields hcount hsize, required_text,
    optional_text, optional_seq, Command.ofWord_word hwell.command, Side.ofWord_word,
    LoadMode.ofWord_word, Highlight.ofWord_word, key?_getD hwell.background,
    key?_getD hwell.cg]
  -- all cells but the options are read
  show (keptChoices row.command row.choices >>= fun kept =>
    Except.ok { row with choices := kept }) = .ok row
  rw [keptChoices_eq hwell]
  rfl

/-! ## Reading a sheet -/

namespace Cell

/-- What is written in a cell, without the spaces around its quotes. -/
def text : Cell → String
  | bare text _ => text
  | quoted _ text _ => text

theorem strip_value (c : Cell) : strip c.value = strip c.text := by
  cases c with
  | bare text plain => rfl
  | quoted before text after =>
    have hblank : allBlank (List.replicate after ' ') = true := by
      rw [allBlank, List.all_eq_true]
      intro c hc
      obtain rfl := List.eq_of_mem_replicate hc
      decide
    simp only [value, Cell.text, strip, String.toList_append, String.toList_ofList,
      trim_append_blank _ hblank]

end Cell

/-- What is written in the cells of a line. -/
def Line.texts (l : Line) : List String :=
  (l.first :: l.others).map Cell.text

theorem map_strip_fields (l : Line) : l.fields.map strip = l.texts.map strip := by
  simp only [Line.fields, Line.texts, List.map_map]
  exact List.map_congr_left fun c _ => c.strip_value

theorem map_strip_of_trimmed {texts : List String} (h : ∀ s ∈ texts, Trimmed s) :
    texts.map strip = texts := by
  conv_rhs => rw [← List.map_id texts]
  exact List.map_congr_left fun s hs => h s hs

/-- The blanks around a title do not count. -/
theorem ofName?_strip (title : String) : Column.ofName? (strip title) = Column.ofName? title := by
  rw [Column.ofName?, Column.ofName?, strip, String.toList_ofList, trim_trim]

theorem headerOf_titles {r : Record} (h : r.fields.map strip = (titles n).map strip) :
    headerOf r = .ok (fullHeader n) := by
  have hheader : Header.ofRecord r = fullHeader n := by
    have hnames : r.fields.map Column.ofName? = (titles n).map Column.ofName? := by
      have hstrip := congrArg (List.map Column.ofName?) h
      simpa only [List.map_map, Function.comp_def, ofName?_strip] using hstrip
    rw [Header.ofRecord, hnames, ofName?_titles, fullHeader]
  have hrole : ∀ role, role ∈ roleTitles.map Prod.snd → (fullHeader n).has role = true := by
    intro role hrole
    obtain ⟨t, ht, rfl⟩ := List.mem_map.1 hrole
    have hcolumn : Column.role t.2 ∈ columns n :=
      List.mem_append_left _ (List.mem_map_of_mem ht)
    exact List.contains_iff_mem.2 (List.mem_map_of_mem hcolumn)
  rw [headerOf, hheader, hrole .id (by decide), hrole .command (by decide)]
  rfl

/-- A record with the cells of a row is not blank, as the row has a scene. -/
theorem isBlank_cells {r : Record} (hfields : r.fields.map strip = row.cells n) :
    r.isBlank = false := by
  cases hblank : r.isBlank with
  | false => rfl
  | true =>
    have hscene : row.cell .id ∈ r.fields.map strip := by
      rw [hfields]
      exact List.mem_append_left _ List.mem_cons_self
    obtain ⟨field, hfield, hstrip⟩ := List.mem_map.1 hscene
    have hempty : strip field = "" := by
      rw [strip, (trim_eq_nil_iff _).2 (List.all_eq_true.1 hblank field hfield)]
    exact absurd (hstrip.symm.trans hempty) (Decimal.text_ne_empty _)

theorem ofRecords_cons {h : Header} {r : Record} (hblank : r.isBlank = false) (rs : List Record) :
    ofRecords h (r :: rs) = add h r (ofRecords h rs) := by
  simp [ofRecords, hblank]

/-- Lines that hold the cells of rows are these rows, whatever the numbers of the lines. -/
theorem ofRecords_lines {rows : List Row} (hwell : ∀ row ∈ rows, row.WellFormed)
    (hcount : ∀ row ∈ rows, row.choices.length ≤ n)
    (hsize : ∀ row ∈ rows, row.choices.length < UInt32.size) {lines : List Line}
    (hlines : lines.map Line.texts = rows.map (Row.cells n)) (number : Nat → Nat) :
    ofRecords (fullHeader n) (lines.mapIdx fun i l => ⟨number i, l.fields⟩) = ⟨rows, []⟩ := by
  induction lines generalizing rows number with
  | nil =>
    cases rows with
    | nil => rfl
    | cons row rows => cases hlines
  | cons l lines ih =>
    cases rows with
    | nil => cases hlines
    | cons row rows =>
      obtain ⟨hline, hlines⟩ := List.cons.inj hlines
      obtain ⟨hrow, hwell⟩ := List.forall_mem_cons.1 hwell
      obtain ⟨hrowCount, hcount⟩ := List.forall_mem_cons.1 hcount
      obtain ⟨hrowSize, hsize⟩ := List.forall_mem_cons.1 hsize
      have hfields : l.fields.map strip = row.cells n := by
        rw [map_strip_fields, hline, map_strip_of_trimmed (hrow.trimmed_cells n)]
      have hread := rowOf_cells hrow hfields hrowCount hrowSize
      rw [List.mapIdx_cons, ofRecords_cons (isBlank_cells hfields),
        ih hwell hcount hsize hlines fun i => number (i + 1), add, hread]

/-- No line begins with a byte order mark whose first cell is a title. -/
theorem head?_charsOf {header : Line} (hheader : header.texts = titles n) (lines : List Line) :
    (charsOf (header :: lines)).head? ≠ some '\uFEFF' := by
  have hfirst : header.first.text = "ID" := (List.cons.inj hheader).1
  have hchars : charsOf (header :: lines) = header.first.chars ++
      ((header.others.flatMap fun c => ',' :: c.chars) ++ header.ending.chars ++ charsOf lines) := by
    simp [charsOf, Line.chars, Line.body]
  rw [hchars]
  cases hcell : header.first with
  | bare text plain =>
    rw [hcell] at hfirst
    subst hfirst
    simp [Cell.chars]
  | quoted before text after =>
    cases before with
    | zero => simp [Cell.chars]
    | succ k => simp [Cell.chars, List.replicate_succ]

/-- Well-formed rows are written under a header of all columns, with at least as many options as
any of the rows has, each cell bare or in quotes with spaces around them. The sheet that is read is
these rows, and nothing is skipped. A row may have as many options as a 32-bit word can count. -/
theorem ofText_of_rows {n : Nat} {rows : List Row} (hwell : ∀ row ∈ rows, row.WellFormed)
    (hcount : ∀ row ∈ rows, row.choices.length ≤ n)
    (hsize : ∀ row ∈ rows, row.choices.length < UInt32.size) {header : Line} {lines : List Line}
    (hheader : header.texts = titles n) (hlines : lines.map Line.texts = rows.map (Row.cells n))
    (hcomplete : Complete (header :: lines)) :
    ofText (String.ofList (charsOf (header :: lines))) = .ok ⟨rows, []⟩ := by
  have hrecords := records_lines hcomplete (head?_charsOf hheader lines)
  rw [List.mapIdx_cons] at hrecords
  have hnames : header.fields.map strip = (titles n).map strip := by
    rw [map_strip_fields, hheader]
  unfold ofText
  rw [hrecords]
  dsimp only
  rw [headerOf_titles hnames]
  show Except.ok (ofRecords (fullHeader n) _) = _
  rw [ofRecords_lines hwell hcount hsize hlines fun i =>
    1 + (charsOf ((header :: lines).take (i + 1))).count '\n']

/-- A choice of ten options and a command without a meaning, at the ends of what words hold. -/
theorem ofText_of_rows_ten :
    let choice : Row :=
      { scene := 2147483647, branch := -2147483648, seq := some 4294967295, command := .setOption
        background := some "a,b", speaker := "\"", line := "one\r\ntwo"
        choices := (List.range 10).map fun i => ⟨Decimal.natText i, .ofNat i⟩ }
    let other : Row :=
      { scene := -1, command := .unknown "say", side := .left, loadMode := .noWait
        highlight := .none }
    let header : Line := ⟨.quoted 0 "ID" 0, (titles 10).tail.map (.quoted 0 · 0), .lf⟩
    let lines : List Line := [
      ⟨.quoted 1 "2147483647" 2, (choice.cells 10).tail.map (.quoted 1 · 2), .crlf⟩,
      ⟨.bare "-1" (by simp), (other.cells 10).tail.map (.quoted 0 · 0), .missing⟩]
    header.texts = titles 10 ∧ lines.map Line.texts = [choice, other].map (Row.cells 10) ∧
      ofText (String.ofList (charsOf (header :: lines))) = .ok ⟨[choice, other], []⟩ := by
  intro choice other header lines
  have hheader : header.texts = titles 10 := by decide +kernel
  have hlines : lines.map Line.texts = [choice, other].map (Row.cells 10) := by decide +kernel
  have hchoice : choice.WellFormed :=
    ⟨by decide +kernel, by decide, by decide, fun _ h => (nomatch h), by decide, by decide⟩
  have hother : other.WellFormed := by
    refine ⟨by decide +kernel, by decide, by decide, fun name h => ?_, by decide, by decide⟩
    cases h
    decide +kernel
  refine ⟨hheader, hlines, ofText_of_rows ?_ ?_ ?_ hheader hlines ?_⟩
  · simp [hchoice, hother]
  · decide
  · decide
  · exact ⟨by decide, by decide, fun _ => by decide +kernel⟩

end Sheet

end Dialogue
