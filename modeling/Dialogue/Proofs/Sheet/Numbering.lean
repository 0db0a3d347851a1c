import Dialogue.Proofs.Sheet.Packing
import Mathlib.Data.List.Perm.Subperm
import Mathlib.Tactic.IntervalCases

/-!
# Numbers of option columns

Options in numbered columns are kept, one for each number and in the order of the numbers, as long
as the numbers fit into 32 bits. Larger numbers are all read as zero, so that their options come
first and hide each other.

* `Titles` says which cells of a header are titles of a numbered column, and `ofName?_of_titles` how
  they are read. `Paired` is a header whose numbered columns come in pairs.
* `Paired.exists_text` and `Paired.exists_target`: the columns of a pair are no other column.
* `Paired.choices_eq`: with small numbers a record has the options of its pairs for choices.
* `trial` is a record in which every pair can be told from the others. `Paired.lt_of_trial`: if its
  options are kept, then the numbers are small.
* `numbered_kept_iff` puts both together.
-/

namespace Dialogue.Sheet

open Text

/-! ## Titles -/

/-- A cell of the header that consists of this word in letters of either case, blanks, and ASCII
digits of the number `n`, with blanks around it. -/
def Titles (word : String) (n : Nat) (cell : String) : Prop :=
  ∃ letters blanks digits, trim cell.toList = letters ++ (blanks ++ digits) ∧
    lowerAscii letters = word.toList ∧ allBlank blanks = true ∧
    digits ≠ [] ∧ digits.all isAsciiDigit = true ∧ Nat.ofDigitChars 10 digits 0 = n

variable {cell : String} {n : Nat}

theorem Titles.exists_numbered {word : String} (h : Titles word n cell)
    (hword : word = "option" ∨ word = "target") : ∃ letters blanks digits,
      Numbered (trim cell.toList) letters blanks digits ∧ lowerAscii letters = word.toList ∧
        slotOf digits = slot n := by
  obtain ⟨letters, blanks, digits, hcell, hletters, hblanks, hne, hall, hvalue⟩ := h
  have hdecimal : digits.all isDecimalDigit = true := List.all_eq_true.2 fun c hc =>
    Decimal.isDecimalDigit_of_isAsciiDigit (List.all_eq_true.1 hall c hc)
  have hslot : slotOf digits = slot n := by
    rw [slotOf, Decimal.digits?_eq_some_iff.2 ⟨hne, hall, hvalue⟩]
    rfl
  refine ⟨letters, blanks, digits, ⟨hcell, ?_, hblanks, hne, hdecimal⟩, hletters, hslot⟩
  rw [hletters]
  exact hword.imp (congrArg String.toList) (congrArg String.toList)

theorem ofName?_of_option (h : Titles "option" n cell) :
    Column.ofName? cell = some (.optionText (slot n)) := by
  obtain ⟨letters, blanks, digits, hnumbered, hletters, hslot⟩ := h.exists_numbered (Or.inl rfl)
  rw [Column.ofName?, hnumbered.numberedColumn?_eq, if_pos hletters, hslot]

theorem ofName?_of_target (h : Titles "target" n cell) :
    Column.ofName? cell = some (.optionTarget (slot n)) := by
  obtain ⟨letters, blanks, digits, hnumbered, hletters, hslot⟩ := h.exists_numbered (Or.inr rfl)
  have hword : lowerAscii letters ≠ "option".toList := by
    rw [hletters]
    decide
  rw [Column.ofName?, hnumbered.numberedColumn?_eq, if_neg hword, hslot]

/-! ## Pairs of columns -/

/-- The number of an option, and the places of its two columns. -/
structure Pair where
  number : Nat
  text : Nat
  target : Nat

/-- The option that a record with these fields gives in a pair of columns. -/
def Pair.choice? (fields : List String) (p : Pair) : Option Choice := do
  let text ← fields[p.text]?
  let target ← fields[p.target]?
  let branch ← Decimal.int32? (strip target).toList
  return ⟨strip text, branch⟩

/-- The numbered columns of a header are these pairs, the numbers all different and listed
ascending. The columns themselves stand in any order. -/
structure Paired (header : Record) (pairs : List Pair) : Prop where
  ascending : pairs.Pairwise fun p q => p.number < q.number
  text : ∀ p ∈ pairs, ∃ cell, header.fields[p.text]? = some cell ∧ Titles "option" p.number cell
  target : ∀ p ∈ pairs, ∃ cell, header.fields[p.target]? = some cell ∧ Titles "target" p.number cell
  only : ∀ i cell, header.fields[i]? = some cell →
    (Column.ofName? cell).bind Column.slot? ≠ none → ∃ p ∈ pairs, i = p.text ∨ i = p.target

section

variable {header : Record} {pairs : List Pair} {p : Pair}

theorem getElem?_columns (header : Record) (i : Nat) :
    (Header.ofRecord header).columns[i]? = header.fields[i]?.map Column.ofName? :=
  List.getElem?_map

theorem Paired.column_text (hpaired : Paired header pairs) (hp : p ∈ pairs) :
    (Header.ofRecord header).columns[p.text]? = some (some (.optionText (slot p.number))) := by
  obtain ⟨cell, hcell, htitle⟩ := hpaired.text p hp
  rw [getElem?_columns, hcell, Option.map_some, ofName?_of_option htitle]

theorem Paired.column_target (hpaired : Paired header pairs) (hp : p ∈ pairs) :
    (Header.ofRecord header).columns[p.target]? = some (some (.optionTarget (slot p.number))) := by
  obtain ⟨cell, hcell, htitle⟩ := hpaired.target p hp
  rw [getElem?_columns, hcell, Option.map_some, ofName?_of_target htitle]

theorem Paired.exists_pair (hpaired : Paired header pairs) {i k : Nat} {c : Column}
    (hc : (Header.ofRecord header).columns[i]? = some (some c)) (hslot : c.slot? = some k) :
    ∃ p ∈ pairs, i = p.text ∨ i = p.target := by
  rw [getElem?_columns, Option.map_eq_some_iff] at hc
  obtain ⟨cell, hcell, hname⟩ := hc
  refine hpaired.only i cell hcell ?_
  rw [hname, Option.bind_some, hslot]
  exact Option.some_ne_none k

/-- A column that is read as the text of an option is that of a pair. -/
theorem Paired.exists_text (hpaired : Paired header pairs) {i k : Nat}
    (hc : (Header.ofRecord header).columns[i]? = some (some (.optionText k))) :
    ∃ p ∈ pairs, i = p.text ∧ slot p.number = k := by
  obtain ⟨p, hp, rfl | rfl⟩ := hpaired.exists_pair hc rfl
  · rw [hpaired.column_text hp] at hc
    cases hc
    exact ⟨p, hp, rfl, rfl⟩
  · rw [hpaired.column_target hp] at hc
    cases hc

theorem Paired.exists_target (hpaired : Paired header pairs) {i k : Nat}
    (hc : (Header.ofRecord header).columns[i]? = some (some (.optionTarget k))) :
    ∃ p ∈ pairs, i = p.target ∧ slot p.number = k := by
  obtain ⟨p, hp, rfl | rfl⟩ := hpaired.exists_pair hc rfl
  · rw [hpaired.column_text hp] at hc
    cases hc
  · rw [hpaired.column_target hp] at hc
    cases hc
    exact ⟨p, hp, rfl, rfl⟩

theorem Paired.mem_slots_iff (hpaired : Paired header pairs) {k : Nat} :
    k ∈ (Header.ofRecord header).slots ↔ ∃ p ∈ pairs, slot p.number = k := by
  rw [Sheet.mem_slots_iff]
  constructor
  · rintro (hmem | hmem)
    · obtain ⟨i, hi⟩ := List.mem_iff_getElem?.1 hmem
      obtain ⟨p, hp, _, hslot⟩ := hpaired.exists_text hi
      exact ⟨p, hp, hslot⟩
    · obtain ⟨i, hi⟩ := List.mem_iff_getElem?.1 hmem
      obtain ⟨p, hp, _, hslot⟩ := hpaired.exists_target hi
      exact ⟨p, hp, hslot⟩
  · rintro ⟨p, hp, rfl⟩
    exact Or.inl (List.mem_of_getElem? (hpaired.column_text hp))

/-! ## Small numbers -/

theorem slot_of_lt {k : Nat} (hk : k < UInt32.size) : slot k = k :=
  if_pos hk

/-- A cell stands under a title of its column. -/
theorem exists_cell {h : Header} {fields : List String} {c : Column} (hc : some c ∈ h.columns)
    (hwidth : h.width ≤ fields.length) : ∃ (i : Nat) (field : String),
      h.columns[i]? = some (some c) ∧ fields[i]? = some field ∧ h.cell fields c = strip field := by
  cases hlookup : (h.columns.zip fields).reverse.lookup (some c) with
  | none =>
    obtain ⟨i, hi⟩ := List.mem_iff_getElem?.1 hc
    have hlt : i < fields.length :=
      Nat.lt_of_lt_of_le (List.getElem?_eq_some_iff.1 hi).1 hwidth
    have hmem : (some c, fields[i]) ∈ (h.columns.zip fields).reverse :=
      List.mem_reverse.2 (List.mem_of_getElem?
        (List.getElem?_zip_eq_some.2 ⟨hi, List.getElem?_eq_getElem hlt⟩))
    have hother := List.lookup_eq_none_iff.1 hlookup _ hmem
    simp at hother
  | some field =>
    obtain ⟨before, after, heq, _⟩ := List.lookup_eq_some_iff.1 hlookup
    have hmem : (some c, field) ∈ h.columns.zip fields := by
      rw [← List.mem_reverse, heq]
      simp
    obtain ⟨i, hi⟩ := List.mem_iff_getElem?.1 hmem
    obtain ⟨hcolumn, hfield⟩ := List.getElem?_zip_eq_some.1 hi
    refine ⟨i, field, hcolumn, hfield, ?_⟩
    rw [Header.cell, hlookup]

variable {fields : List String} {options : List Choice}

theorem Pair.choice?_eq_some_iff {c : Choice} : p.choice? fields = some c ↔
    ∃ text target, fields[p.text]? = some text ∧ fields[p.target]? = some target ∧
      c.text = strip text ∧ Decimal.int32? (strip target).toList = some c.target := by
  unfold Pair.choice?
  constructor
  · intro h
    obtain ⟨text, htext, h⟩ := Option.bind_eq_some_iff.1 h
    obtain ⟨target, htarget, h⟩ := Option.bind_eq_some_iff.1 h
    obtain ⟨branch, hbranch, h⟩ := Option.bind_eq_some_iff.1 h
    cases h
    exact ⟨text, target, htext, htarget, rfl, hbranch⟩
  · rintro ⟨text, target, htext, htarget, hc, hbranch⟩
    simp only [htext, htarget, Option.bind_eq_bind, Option.bind_some, hbranch]
    rw [← hc]
    rfl

/-- A number that no other pair is read with gives the option of its pair. -/
theorem Paired.numberedChoice_eq (hpaired : Paired header pairs) (hp : p ∈ pairs)
    (hown : ∀ q ∈ pairs, slot q.number = slot p.number → q = p)
    (hwidth : (Header.ofRecord header).width ≤ fields.length) {c : Choice}
    (hc : p.choice? fields = some c) :
    numberedChoice (.ofRecord header) fields (slot p.number) = .ok (some c) := by
  obtain ⟨text, target, htext, htarget, hctext, hbranch⟩ := Pair.choice?_eq_some_iff.1 hc
  have htextCell : (Header.ofRecord header).cell fields (.optionText (slot p.number)) =
      strip text := by
    obtain ⟨i, field, hi, hfield, hcell⟩ :=
      exists_cell (List.mem_of_getElem? (hpaired.column_text hp)) hwidth
    obtain ⟨q, hq, rfl, hslot⟩ := hpaired.exists_text hi
    obtain rfl := hown q hq hslot
    rw [htext] at hfield
    cases hfield
    exact hcell
  have htargetCell : (Header.ofRecord header).cell fields (.optionTarget (slot p.number)) =
      strip target := by
    obtain ⟨i, field, hi, hfield, hcell⟩ :=
      exists_cell (List.mem_of_getElem? (hpaired.column_target hp)) hwidth
    obtain ⟨q, hq, rfl, hslot⟩ := hpaired.exists_target hi
    obtain rfl := hown q hq hslot
    rw [htarget] at hfield
    cases hfield
    exact hcell
  have hgiven : strip target ≠ "" := by
    intro hempty
    rw [hempty] at hbranch
    cases hbranch
  simp only [numberedChoice, htextCell, htargetCell]
  rw [if_neg fun hboth => hgiven hboth.2, hbranch, ← hctext]

/-- Small numbers are read as themselves, in ascending order. -/
theorem Paired.slots_eq (hpaired : Paired header pairs)
    (hsmall : ∀ p ∈ pairs, p.number < UInt32.size) :
    (Header.ofRecord header).slots = pairs.map Pair.number := by
  have hascending : (pairs.map Pair.number).Pairwise (· < ·) :=
    List.pairwise_map.2 hpaired.ascending
  apply (slots_sorted _).sortedLT.eq_of_mem_iff hascending.sortedLT
  intro k
  rw [hpaired.mem_slots_iff, List.mem_map]
  constructor
  · rintro ⟨p, hp, hslot⟩
    exact ⟨p, hp, (slot_of_lt (hsmall p hp)).symm.trans hslot⟩
  · rintro ⟨p, hp, hnumber⟩
    exact ⟨p, hp, (slot_of_lt (hsmall p hp)).trans hnumber⟩

theorem Paired.eq_of_number (hpaired : Paired header pairs) {q : Pair} (hp : p ∈ pairs)
    (hq : q ∈ pairs) (heq : q.number = p.number) : q = p := by
  have hdistinct : (pairs.map Pair.number).Nodup :=
    List.pairwise_map.2 (hpaired.ascending.imp Nat.ne_of_lt)
  exact List.inj_on_of_nodup_map hdistinct hq hp heq

/-- With small numbers the numbered options of a record are those of the pairs of columns. -/
theorem Paired.numberedChoices_eq (hpaired : Paired header pairs)
    (hsmall : ∀ p ∈ pairs, p.number < UInt32.size)
    (hwidth : (Header.ofRecord header).width ≤ fields.length)
    (hfilled : pairs.map (Pair.choice? fields) = options.map some) :
    numberedChoices (.ofRecord header) fields = .ok options := by
  have hread : ∀ p ∈ pairs,
      numberedChoice (.ofRecord header) fields p.number = .ok (p.choice? fields) := by
    intro p hp
    have hown : ∀ q ∈ pairs, slot q.number = slot p.number → q = p := by
      intro q hq hslot
      rw [slot_of_lt (hsmall q hq), slot_of_lt (hsmall p hp)] at hslot
      exact hpaired.eq_of_number hp hq hslot
    obtain ⟨c, _, hc⟩ := List.mem_map.1 (hfilled ▸ List.mem_map_of_mem hp)
    have hchoice := hpaired.numberedChoice_eq hp hown hwidth hc.symm
    rwa [slot_of_lt (hsmall p hp), hc] at hchoice
  rw [numberedChoices, hpaired.slots_eq hsmall, List.mapM_map,
    mapM_eq_ok (f := numberedChoice _ _ ∘ Pair.number) hread, hfilled]
  show Except.ok ((options.map some).filterMap id) = _
  rw [List.filterMap_map]
  simp

/-! ## Records of choices without a packed cell -/

theorem cell_options_of_unpacked (hunpacked : ∀ cell ∈ header.fields, ¬ Role.options.Names cell) :
    (Header.ofRecord header).cell fields (.role .options) = "" := by
  apply cell_eq_empty
  intro hmem
  obtain ⟨cell, hcell, hname⟩ := List.mem_map.1 hmem
  exact hunpacked cell hcell (Column.ofName?_eq_role_iff.1 hname)

/-- A choice keeps the options that were read of its record. -/
theorem Checked.choices_of_row {h : Header} (hchecked : Checked h fields)
    (hcommand : Command.ofWord (h.cell fields (.role .command)) = .setOption) {row : Row}
    (hrow : rowOf h fields = .ok row) : choices h fields = .ok row.choices := by
  obtain ⟨row', hcommand', heq⟩ := hchecked.rowOf_eq
  rw [heq] at hrow
  cases hfound : choices h fields with
  | error fault =>
    rw [hfound] at hrow
    cases hrow
  | ok found =>
    rw [hfound, ok_bind] at hrow
    cases hkept : keptChoices row'.command found with
    | error fault =>
      rw [hkept] at hrow
      cases hrow
    | ok kept =>
      rw [hkept] at hrow
      cases hrow
      rcases keptChoices_eq_ok hkept with ⟨_, _, rfl⟩ | ⟨hother, _⟩
      · rfl
      · exact absurd (hcommand'.trans hcommand) hother

/-! ## Large numbers -/

/-- What the trial record holds in its column `i`. -/
def trialField (i : Nat) : Option Column → String
  | some (.role .id) => "1"
  | some (.role .command) => "SetOption"
  | some (.optionText _) => Decimal.natText i
  | some (.optionTarget _) => "0"
  | _ => ""

/-- The fields of a choice in which every option has the place of its column for a text. -/
def trial (header : Record) : List String :=
  header.fields.mapIdx fun i cell => trialField i (Column.ofName? cell)

theorem width_trial (header : Record) :
    (Header.ofRecord header).width = (trial header).length := by
  rw [Header.width, Header.ofRecord, List.length_map, trial, List.length_mapIdx]

theorem getElem?_trial {i : Nat} {c : Option Column}
    (hc : (Header.ofRecord header).columns[i]? = some c) :
    (trial header)[i]? = some (trialField i c) := by
  rw [getElem?_columns, Option.map_eq_some_iff] at hc
  obtain ⟨cell, hcell, rfl⟩ := hc
  rw [trial, List.getElem?_mapIdx, hcell]
  rfl

theorem exists_trial_cell {c : Column} (hc : some c ∈ (Header.ofRecord header).columns) :
    ∃ i : Nat, (Header.ofRecord header).columns[i]? = some (some c) ∧
      (Header.ofRecord header).cell (trial header) c = strip (trialField i (some c)) := by
  obtain ⟨i, field, hi, hfield, hcell⟩ := exists_cell hc (width_trial header).le
  rw [getElem?_trial hi] at hfield
  cases hfield
  exact ⟨i, hi, hcell⟩

theorem role_mem_columns {r : Role} (h : ∃ cell ∈ header.fields, r.Names cell) :
    some (.role r) ∈ (Header.ofRecord header).columns := by
  have hhas := (Header.has_ofRecord header r).2 h
  rwa [Header.has, List.contains_iff_mem] at hhas

theorem cell_trial_eq_empty {r : Role} (hfield : ∀ i, trialField i (some (.role r)) = "") :
    (Header.ofRecord header).cell (trial header) (.role r) = "" := by
  by_cases hmem : some (.role r) ∈ (Header.ofRecord header).columns
  · obtain ⟨i, _, hcell⟩ := exists_trial_cell hmem
    rw [hcell, hfield]
    rfl
  · exact cell_eq_empty hmem _

theorem checked_trial (hid : ∃ cell ∈ header.fields, Role.id.Names cell) :
    Checked (.ofRecord header) (trial header) := by
  obtain ⟨i, _, hcell⟩ := exists_trial_cell (role_mem_columns hid)
  constructor
  · exact (width_trial header).le
  · rw [hcell]
    show (Decimal.int32? (strip "1").toList).isSome = true
    decide +kernel
  · exact Or.inl (cell_trial_eq_empty fun _ => rfl)
  · exact Or.inl (cell_trial_eq_empty fun _ => rfl)

theorem command_trial (hcommand : ∃ cell ∈ header.fields, Role.command.Names cell) :
    Command.ofWord ((Header.ofRecord header).cell (trial header) (.role .command)) =
      .setOption := by
  obtain ⟨i, _, hcell⟩ := exists_trial_cell (role_mem_columns hcommand)
  rw [hcell]
  show Command.ofWord (strip "SetOption") = .setOption
  decide +kernel

/-- The option of a pair in the trial record. -/
def trialChoice (p : Pair) : Choice :=
  ⟨Decimal.natText p.text, 0⟩

theorem Paired.choice?_trial (hpaired : Paired header pairs) (hp : p ∈ pairs) :
    p.choice? (trial header) = some (trialChoice p) := by
  refine Pair.choice?_eq_some_iff.2 ⟨_, _, getElem?_trial (hpaired.column_text hp),
    getElem?_trial (hpaired.column_target hp), ?_, ?_⟩
  · exact (Row.trimmed_natText p.text).symm
  · show Decimal.int32? (strip "0").toList = some 0
    decide +kernel

/-- Under each number that occurs the trial record has the option of one of the pairs with it. -/
theorem Paired.numberedChoice_trial (hpaired : Paired header pairs) (hp : p ∈ pairs) :
    ∃ q ∈ pairs, slot q.number = slot p.number ∧
      numberedChoice (.ofRecord header) (trial header) (slot p.number) =
        .ok (some (trialChoice q)) := by
  obtain ⟨i, hi, htext⟩ := exists_trial_cell (List.mem_of_getElem? (hpaired.column_text hp))
  obtain ⟨j, _, htarget⟩ := exists_trial_cell (List.mem_of_getElem? (hpaired.column_target hp))
  obtain ⟨q, hq, rfl, hslot⟩ := hpaired.exists_text hi
  refine ⟨q, hq, hslot, ?_⟩
  have hbranch : Decimal.int32? (strip "0").toList = some 0 := by decide +kernel
  have hname : strip (Decimal.natText q.text) = Decimal.natText q.text :=
    Row.trimmed_natText q.text
  simp only [numberedChoice, htext, htarget, trialField]
  rw [if_neg fun hboth => absurd hboth.2 (by decide +kernel), hbranch, hname]
  rfl

theorem Paired.slots_eq_cons (hpaired : Paired header pairs) (hp : p ∈ pairs)
    (hzero : slot p.number = 0) : ∃ ks, (Header.ofRecord header).slots = 0 :: ks := by
  have hmem : 0 ∈ (Header.ofRecord header).slots := hpaired.mem_slots_iff.2 ⟨p, hp, hzero⟩
  have hsorted := slots_sorted (.ofRecord header)
  cases hslots : (Header.ofRecord header).slots with
  | nil =>
    rw [hslots] at hmem
    cases hmem
  | cons k ks =>
    rw [hslots] at hmem hsorted
    rcases List.mem_cons.1 hmem with rfl | hlater
    · exact ⟨ks, rfl⟩
    · exact absurd ((List.pairwise_cons.1 hsorted).1 0 hlater) (Nat.not_lt_zero k)

/-- The option with the number zero comes first. If the option of the first pair does, then this pair
is read with the number zero. -/
theorem Paired.slot_first {first : Pair} {others : List Pair}
    (hpaired : Paired header (first :: others)) (hp : p ∈ first :: others)
    (hzero : slot p.number = 0) {found : List Choice}
    (hkept : numberedChoices (.ofRecord header) (trial header) = .ok (trialChoice first :: found)) :
    slot first.number = 0 := by
  obtain ⟨ks, hslots⟩ := hpaired.slots_eq_cons hp hzero
  obtain ⟨q, hq, hslot, hchoice⟩ := hpaired.numberedChoice_trial hp
  obtain ⟨read, hread, hchoices⟩ := bind_eq_ok.1 hkept
  rw [hslots] at hread
  cases mapM_eq_ok_iff.1 hread with
  | cons hhead _ =>
    rw [hzero, hhead] at hchoice
    cases hchoice
    have hsame : trialChoice q = trialChoice first := (List.cons.inj (Except.ok.inj hchoices)).1
    have hplace : q.text = first.text := Decimal.natText_inj.1 (congrArg Choice.text hsame)
    have hcolumn := hpaired.column_text hq
    rw [hplace, hpaired.column_text List.mem_cons_self] at hcolumn
    have hnumber : slot first.number = slot q.number := by simpa using hcolumn
    rw [hnumber, hslot, hzero]

/-- There are no more options than numbers. -/
theorem length_le_of_numberedChoices {h : Header} (hkept : numberedChoices h fields = .ok options) :
    options.length ≤ h.slots.length := by
  obtain ⟨read, hread, hchoices⟩ := bind_eq_ok.1 hkept
  have hlength := (mapM_eq_ok_iff.1 hread).length_eq
  have hatMost := List.length_filterMap_le id read
  have hall := congrArg List.length (Except.ok.inj hchoices)
  omega

/-- If the trial record keeps the options of all pairs, then no number is too large. Otherwise a pair
behind the first one would be read with the number zero, the first one too, and there would be
fewer numbers than pairs. -/
theorem Paired.lt_of_trial (hpaired : Paired header pairs) (htwo : 2 ≤ pairs.length)
    (hkept : numberedChoices (.ofRecord header) (trial header) = .ok (pairs.map trialChoice)) :
    ∀ p ∈ pairs, p.number < UInt32.size := by
  intro p hp
  by_contra hlarge
  obtain ⟨first, others, rfl⟩ : ∃ first others, pairs = first :: others := by
    refine List.exists_cons_of_ne_nil ?_
    rintro rfl
    cases hp
  obtain ⟨q, hq, hzero⟩ : ∃ q ∈ others, slot q.number = 0 := by
    rcases List.mem_cons.1 hp with rfl | hp
    · have hothers : others ≠ [] := by
        rintro rfl
        simp at htwo
      obtain ⟨q, hq⟩ := List.exists_mem_of_ne_nil others hothers
      have hlt : p.number < q.number := (List.pairwise_cons.1 hpaired.ascending).1 q hq
      exact ⟨q, hq, if_neg (by omega)⟩
    · exact ⟨p, hp, if_neg hlarge⟩
  have hfirst : slot first.number = 0 :=
    hpaired.slot_first (List.mem_cons_of_mem _ hq) hzero hkept
  have hfew : (Header.ofRecord header).slots ⊆ others.map fun p => slot p.number := by
    intro k hk
    obtain ⟨p, hp, rfl⟩ := hpaired.mem_slots_iff.1 hk
    rcases List.mem_cons.1 hp with rfl | hp
    · rw [hfirst, ← hzero]
      exact List.mem_map_of_mem hq
    · exact List.mem_map_of_mem hp
  have hnodup : (Header.ofRecord header).slots.Nodup := (slots_sorted _).imp Nat.ne_of_lt
  have hcount := (hnodup.subperm hfew).length_le
  have hall := length_le_of_numberedChoices hkept
  simp only [List.length_map, List.length_cons] at hcount hall
  omega

/-! ## All headers -/

/-- A header has two required columns, no packed cell, and two or more pairs of numbered columns. The
choices that fill every pair with a text and a branch, and are read up to their options, are rows
with one option for each pair in ascending order of the numbers, exactly if all numbers fit into
32 bits. -/
theorem numbered_kept_iff (hpaired : Paired header pairs) (htwo : 2 ≤ pairs.length)
    (hid : ∃ cell ∈ header.fields, Role.id.Names cell)
    (hcommand : ∃ cell ∈ header.fields, Role.command.Names cell)
    (hunpacked : ∀ cell ∈ header.fields, ¬ Role.options.Names cell) :
    (∀ (r : Record) (options : List Choice), Checked (.ofRecord header) r.fields →
      Command.ofWord ((Header.ofRecord header).cell r.fields (.role .command)) = .setOption →
      pairs.map (Pair.choice? r.fields) = options.map some → (∀ c ∈ options, c.text ≠ "") →
      ∃ row, entry (.ofRecord header) r = .ok row ∧ row.choices = options) ↔
    ∀ p ∈ pairs, p.number < UInt32.size := by
  constructor
  · intro hkept
    have hfilled : pairs.map (Pair.choice? (trial header)) =
        (pairs.map trialChoice).map some := by
      rw [List.map_map]
      exact List.map_congr_left fun p hp => hpaired.choice?_trial hp
    have hgiven : ∀ c ∈ pairs.map trialChoice, c.text ≠ "" := by
      intro c hc
      obtain ⟨p, _, rfl⟩ := List.mem_map.1 hc
      exact Decimal.natText_ne_empty p.text
    obtain ⟨row, hrow, hchoices⟩ := hkept ⟨2, trial header⟩ (pairs.map trialChoice)
      (checked_trial hid) (command_trial hcommand) hfilled hgiven
    have hfound := (checked_trial hid).choices_of_row (command_trial hcommand)
      (entry_eq_ok_iff.1 hrow)
    rw [choices_of_unpacked (cell_options_of_unpacked hunpacked), hchoices] at hfound
    exact hpaired.lt_of_trial htwo hfound
  · intro hsmall r options hchecked hcommandCell hfilled _
    have hnumbered := hpaired.numberedChoices_eq hsmall hchecked.width hfilled
    have hfound : choices (.ofRecord header) r.fields = .ok options := by
      rw [choices_of_unpacked (cell_options_of_unpacked hunpacked), hnumbered]
    have hlength := congrArg List.length hfilled
    simp only [List.length_map] at hlength
    obtain ⟨row, hrow, hchoices⟩ := hchecked.exists_row hcommandCell hfound (by omega)
    exact ⟨row, entry_eq_ok_iff.2 hrow, hchoices⟩

end

/-- Titles in letters of either case, with blanks and zeros, in no order; the largest number that
fits, and zero. -/
theorem numbered_kept_shuffled :
    let header : Record := ⟨1, ["Target0007", "ID", " OPTION 4294967295", "Command", "option7",
      "Target4294967295", "Option0", "target\t00"]⟩
    let pairs : List Pair := [⟨0, 6, 7⟩, ⟨7, 4, 0⟩, ⟨4294967295, 2, 5⟩]
    let r : Record := ⟨2, ["-1", "5", "big", "SetOption", " mid ", "2147483647", "zero", "+3"]⟩
    Paired header pairs ∧ 2 ≤ pairs.length ∧ (∃ cell ∈ header.fields, Role.id.Names cell) ∧
      (∃ cell ∈ header.fields, Role.command.Names cell) ∧
      (∀ cell ∈ header.fields, ¬ Role.options.Names cell) ∧
      (∀ p ∈ pairs, p.number < UInt32.size) ∧ Checked (.ofRecord header) r.fields ∧
      ∃ row, entry (.ofRecord header) r = .ok row ∧
        row.choices = [⟨"zero", 3⟩, ⟨"mid", -1⟩, ⟨"big", 2147483647⟩] := by
  intro header pairs r
  have hpaired : Paired header pairs := by
    constructor
    case ascending => simp [pairs]
    case text =>
      intro p hp
      simp only [pairs, List.mem_cons, List.not_mem_nil, or_false] at hp
      rcases hp with rfl | rfl | rfl
      · exact ⟨_, rfl, "Option".toList, [], "0".toList, by decide +kernel⟩
      · exact ⟨_, rfl, "option".toList, [], "7".toList, by decide +kernel⟩
      · exact ⟨_, rfl, "OPTION".toList, [' '], "4294967295".toList, by decide +kernel⟩
    case target =>
      intro p hp
      simp only [pairs, List.mem_cons, List.not_mem_nil, or_false] at hp
      rcases hp with rfl | rfl | rfl
      · exact ⟨_, rfl, "target".toList, ['\t'], "00".toList, by decide +kernel⟩
      · exact ⟨_, rfl, "Target".toList, [], "0007".toList, by decide +kernel⟩
      · exact ⟨_, rfl, "Target".toList, [], "4294967295".toList, by decide +kernel⟩
    case only =>
      intro i cell hcell
      have hi : i < 8 := (List.getElem?_eq_some_iff.1 hcell).1
      interval_cases i <;> cases hcell <;> decide +kernel
  have hid : ∃ cell ∈ header.fields, Role.id.Names cell := by decide +kernel
  have hcommand : ∃ cell ∈ header.fields, Role.command.Names cell := by decide +kernel
  have hunpacked : ∀ cell ∈ header.fields, ¬ Role.options.Names cell := by decide +kernel
  have hsmall : ∀ p ∈ pairs, p.number < UInt32.size := by decide
  have hchecked : Checked (.ofRecord header) r.fields :=
    ⟨by decide +kernel, by decide +kernel, by decide +kernel, by decide +kernel⟩
  exact ⟨hpaired, by decide, hid, hcommand, hunpacked, hsmall, hchecked,
    (numbered_kept_iff hpaired (by decide) hid hcommand hunpacked).2 hsmall r _ hchecked
      (by decide +kernel) (by decide +kernel) (by decide)⟩

/-- Two pairs that a choice fills, with numbers above 32 bits. One option hides the other, and the
record is skipped because it has a single one. -/
theorem ofText_numbered_large :
    let header : Record := ⟨1, ["ID", "Command", "Option4294967296", "Target4294967296",
      "Option4294967297", "Target4294967297"]⟩
    let pairs : List Pair := [⟨4294967296, 2, 3⟩, ⟨4294967297, 4, 5⟩]
    let r : Record := ⟨2, ["1", "SetOption", "a", "1", "b", "2"]⟩
    Paired header pairs ∧ (∀ cell ∈ header.fields, ¬ Role.options.Names cell) ∧
      Checked (.ofRecord header) r.fields ∧
      pairs.map (Pair.choice? r.fields) = [some ⟨"a", 1⟩, some ⟨"b", 2⟩] ∧
      ofText ("ID,Command,Option4294967296,Target4294967296,Option4294967297,Target4294967297\n" ++
        "1,SetOption,a,1,b,2\n") = .ok ⟨[], [⟨2, .tooFewOptions 1⟩]⟩ := by
  intro header pairs r
  have hpaired : Paired header pairs := by
    constructor
    case ascending => simp [pairs]
    case text =>
      intro p hp
      simp only [pairs, List.mem_cons, List.not_mem_nil, or_false] at hp
      rcases hp with rfl | rfl
      · exact ⟨_, rfl, "Option".toList, [], "4294967296".toList, by decide +kernel⟩
      · exact ⟨_, rfl, "Option".toList, [], "4294967297".toList, by decide +kernel⟩
    case target =>
      intro p hp
      simp only [pairs, List.mem_cons, List.not_mem_nil, or_false] at hp
      rcases hp with rfl | rfl
      · exact ⟨_, rfl, "Target".toList, [], "4294967296".toList, by decide +kernel⟩
      · exact ⟨_, rfl, "Target".toList, [], "4294967297".toList, by decide +kernel⟩
    case only =>
      intro i cell hcell
      have hi : i < 6 := (List.getElem?_eq_some_iff.1 hcell).1
      interval_cases i <;> cases hcell <;> decide +kernel
  have hchecked : Checked (.ofRecord header) r.fields :=
    ⟨by decide +kernel, by decide +kernel, by decide +kernel, by decide +kernel⟩
  exact ⟨hpaired, by decide +kernel, hchecked, by decide +kernel, by decide +kernel⟩

end Dialogue.Sheet
