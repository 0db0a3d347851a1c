import Dialogue.Proofs.Failing
import Dialogue.Proofs.Sheet.Columns
import Dialogue.Proofs.Sheet.Entries
import Dialogue.Proofs.Sheet.PackedOption
import Dialogue.Proofs.Sheet.RoundTrip
import Mathlib.Data.List.TakeDrop

/-!
# Packed and numbered options

A choice can give its options in numbered columns or packed into one cell. Both give the same list,
but for a text with a line feed: the numbered columns keep it, the packed cell is refused for it.

* `Checked` says that the checks of a record before its options pass. What is left of it is then
  what its options come to, by `Checked.rowOf_eq`.
* `NumbersOptions` and `PacksOptions` are the two ways to give options. `Part` is one option in a
  packed cell, with the blanks that may stand in it.
* `packedParts_packedCell` takes a packed cell apart again, and `Part.packedChoice_core` reads its
  parts.
* `packed_agrees` compares the two.
-/

namespace Dialogue

open Text

/-- An option that can stand in a packed cell: its text is trimmed, not empty, and has no bar. -/
structure Choice.Packable (c : Choice) : Prop where
  trimmed : Trimmed c.text
  nonempty : c.text ≠ ""
  noBar : '|' ∉ c.text.toList

namespace Sheet

/-! ## Records that are read up to their options -/

/-- A record passes the checks before its options: it is wide enough, and its scene, its branch and
its place are numbers, the last two if they are given. -/
structure Checked (h : Header) (fields : List String) : Prop where
  width : h.width ≤ fields.length
  scene : (Decimal.int32? (h.cell fields (.role .id)).toList).isSome
  branch : h.cell fields (.role .branch) = "" ∨
    (Decimal.int32? (h.cell fields (.role .branch)).toList).isSome
  seq : h.cell fields (.role .seq) = "" ∨
    (Decimal.uint32? (h.cell fields (.role .seq)).toList).isSome

variable {h : Header} {fields : List String} {options : List Choice}

theorem exists_required {α : Type} {read? : List Char → Option α} {cell : String}
    (hcell : (read? cell.toList).isSome) (fault : String → RowFault) :
    ∃ a, required read? fault cell = .ok a := by
  obtain ⟨a, ha⟩ := Option.isSome_iff_exists.1 hcell
  exact ⟨a, by rw [required, ha]⟩

theorem exists_optional {α : Type} {read? : List Char → Option α} {cell : String}
    (hcell : cell = "" ∨ (read? cell.toList).isSome) (fault : String → RowFault) :
    ∃ a, optional read? fault cell = .ok a := by
  by_cases hempty : cell = ""
  · exact ⟨none, if_pos hempty⟩
  · obtain ⟨a, ha⟩ := exists_required (hcell.resolve_left hempty) fault
    exact ⟨some a, by rw [optional, if_neg hempty, ha]; rfl⟩

/-- What is left of a record is what its options come to. -/
theorem Checked.rowOf_eq (hc : Checked h fields) :
    ∃ row : Row, row.command = Command.ofWord (h.cell fields (.role .command)) ∧
      rowOf h fields = (choices h fields >>= keptChoices row.command).map
        fun kept => { row with choices := kept } := by
  obtain ⟨scene, hscene⟩ := exists_required hc.scene .badId
  obtain ⟨branch, hbranch⟩ := exists_optional hc.branch .badBranch
  obtain ⟨seq, hseq⟩ := exists_optional hc.seq .badSeq
  have hwidth : ¬ fields.length < h.width := Nat.not_lt.2 hc.width
  unfold rowOf
  rw [if_neg hwidth]
  simp only [hscene, hbranch, hseq, ok_bind]
  -- the cells that are only copied are of no account
  generalize choices h fields = found
  generalize h.cell fields = cell
  refine ⟨{
    scene, branch := branch.getD 0, seq
    command := Command.ofWord (cell (.role .command))
    side := Side.ofWord (cell (.role .side))
    character := cell (.role .character)
    loadMode := LoadMode.ofWord (cell (.role .loadMode))
    highlight := Highlight.ofWord (cell (.role .highlight))
    background := key? (cell (.role .background))
    cg := key? (cell (.role .cg))
    speaker := cell (.role .speaker)
    line := cell (.role .line) }, ?_, ?_⟩
  · dsimp only
  · rw [map_bind_eq]

/-- A choice of two options or more is the row that keeps them. -/
theorem Checked.exists_row (hc : Checked h fields)
    (hcommand : Command.ofWord (h.cell fields (.role .command)) = .setOption)
    (hfound : choices h fields = .ok options) (htwo : 2 ≤ options.length) :
    ∃ row, rowOf h fields = .ok row ∧ row.choices = options := by
  obtain ⟨row, hrow, heq⟩ := hc.rowOf_eq
  have hkept : keptChoices row.command options = .ok options := by
    rw [hrow, hcommand, keptChoices, if_pos rfl, if_neg (by omega)]
  refine ⟨{ row with choices := options }, ?_, rfl⟩
  rw [heq, hfound]
  show (keptChoices row.command options).map _ = _
  rw [hkept]
  rfl

/-- A record whose options are no options is refused for them. -/
theorem Checked.rowOf_error (hc : Checked h fields) {fault : RowFault}
    (hfound : choices h fields = .error fault) : rowOf h fields = .error fault := by
  obtain ⟨row, _, heq⟩ := hc.rowOf_eq
  rw [heq, hfound]
  rfl

theorem choices_of_unpacked (hunpacked : h.cell fields (.role .options) = "") :
    choices h fields = numberedChoices h fields := by
  have hpacked : packedChoices "" = .ok [] := rfl
  rw [choices, hunpacked, hpacked]
  cases numberedChoices h fields with
  | error fault => rfl
  | ok found =>
    show Except.ok (found ++ []) = _
    rw [List.append_nil]

/-! ## Numbered options -/

/-- The cell of a column that the header does not name is empty. -/
theorem cell_eq_empty {c : Column} (hc : some c ∉ h.columns) (fields : List String) :
    h.cell fields c = "" := by
  refine cell_eq (fun t ht => ?_) (Or.inl rfl)
  exact absurd (List.of_mem_zip ht).1 hc

theorem mem_slots_iff {k : Nat} :
    k ∈ h.slots ↔ some (.optionText k) ∈ h.columns ∨ some (.optionTarget k) ∈ h.columns := by
  rw [Header.slots, List.mem_mergeSort, List.mem_eraseDups, List.mem_filterMap]
  constructor
  · rintro ⟨c, hc, hslot⟩
    have hmem : some c ∈ h.columns := by simpa using hc
    cases c with
    | role r => cases hslot
    | optionText n =>
      cases hslot
      exact Or.inl hmem
    | optionTarget n =>
      cases hslot
      exact Or.inr hmem
  · rintro (hmem | hmem)
    · exact ⟨.optionText k, by simpa using hmem, rfl⟩
    · exact ⟨.optionTarget k, by simpa using hmem, rfl⟩

/-- Options are given in the columns with the numbers from one on, and there is no packed cell. -/
structure NumbersOptions (h : Header) (fields : List String) (options : List Choice) : Prop where
  numbers : ∀ k, (some (.optionText k) ∈ h.columns ∨ some (.optionTarget k) ∈ h.columns) ↔
    1 ≤ k ∧ k ≤ options.length
  text : ∀ i (hi : i < options.length), h.cell fields (.optionText (i + 1)) = options[i].text
  target : ∀ i (hi : i < options.length),
    Decimal.int32? (h.cell fields (.optionTarget (i + 1))).toList = some options[i].target
  unpacked : h.cell fields (.role .options) = ""

theorem NumbersOptions.slots_eq (hn : NumbersOptions h fields options) :
    h.slots = List.range' 1 options.length := by
  refine (slots_sorted h).sortedLT.eq_of_mem_iff (List.pairwise_lt_range' 1).sortedLT fun k => ?_
  rw [mem_slots_iff, hn.numbers, List.mem_range'_1]
  omega

theorem NumbersOptions.numberedChoice_eq (hn : NumbersOptions h fields options) {i : Nat}
    (hi : i < options.length) : numberedChoice h fields (1 + i) = .ok (some options[i]) := by
  have htarget := hn.target i hi
  rw [Nat.add_comm] at htarget
  have hgiven : h.cell fields (.optionTarget (1 + i)) ≠ "" := by
    intro hempty
    rw [hempty] at htarget
    cases htarget
  have htext := hn.text i hi
  rw [Nat.add_comm] at htext
  simp only [numberedChoice]
  rw [if_neg fun hboth => hgiven hboth.2, htarget, htext]

/-- Numbered options are read in the order of their numbers. -/
theorem NumbersOptions.choices_eq (hn : NumbersOptions h fields options) :
    choices h fields = .ok options := by
  have hread : h.slots.mapM (numberedChoice h fields) =
      .ok (h.slots.map fun slot => options[slot - 1]?) := by
    refine mapM_eq_ok fun slot hslot => ?_
    rw [hn.slots_eq, List.mem_range'_1] at hslot
    obtain ⟨i, rfl⟩ := Nat.exists_eq_add_of_le hslot.1
    rw [hn.numberedChoice_eq (by omega), Nat.add_sub_cancel_left, List.getElem?_eq_getElem]
  have hall : (h.slots.map fun slot => options[slot - 1]?).filterMap id = options := by
    rw [hn.slots_eq, List.range'_eq_map_range, List.map_map, List.filterMap_map]
    simpa [Function.comp_def] using Row.filterMap_getElem?_range options
  rw [choices_of_unpacked hn.unpacked, numberedChoices, hread]
  exact congrArg Except.ok hall

/-! ## A packed part -/

/-- One option as it stands in a packed cell. -/
structure Part where
  choice : Choice
  before : List Char
  /-- The blanks behind the last colon. -/
  between : List Char
  /-- The digits of the target. -/
  digits : List Char
  after : List Char
  blank_before : allBlank before = true
  blank_between : allBlank between = true
  blank_after : allBlank after = true
  denotes : Decimal.signed32? digits = some choice.target

namespace Part

/-- The part without the blanks around it. -/
def core (p : Part) : List Char :=
  p.choice.text.toList ++ ':' :: (p.between ++ p.digits)

def chars (p : Part) : List Char :=
  p.before ++ (p.core ++ p.after)

variable {p : Part}

theorem digits_ne_nil (p : Part) : p.digits ≠ [] := by
  obtain ⟨ds, hds, hne, _⟩ := Decimal.signed32?_eq_some p.denotes
  rcases hds with h | h
  · rwa [h]
  · rw [h]
    exact List.cons_ne_nil _ _

theorem takes_digits (p : Part) : Pattern.Takes .signed p.digits [] :=
  Pattern.takes_signed_of_denotes (Decimal.signed32?_eq_some_iff.1 p.denotes)

theorem noBar (hp : p.choice.Packable) : '|' ∉ p.chars := by
  have hblank : isBlank '|' = false := by decide
  have hnone : ∀ {cs : List Char}, allBlank cs = true → '|' ∉ cs := by
    intro cs hcs hmem
    rw [List.all_eq_true.1 hcs _ hmem] at hblank
    cases hblank
  simp only [chars, core, List.mem_append, List.mem_cons, not_or]
  refine ⟨hnone p.blank_before, ⟨hp.noBar, by decide, ?_⟩, hnone p.blank_after⟩
  have htail : '|' ∉ p.between ++ p.digits :=
    notMem_blanks_number p.blank_between p.takes_digits hblank (by decide) (by decide)
  simpa using htail

/-- The blanks around a part do not count. -/
theorem trim_chars (hp : p.choice.Packable) : trim p.chars = p.core := by
  have htext : p.choice.text.toList ≠ [] := by
    simpa using hp.nonempty
  have htrimmed : trim p.choice.text.toList = p.choice.text.toList := by
    have hstrip := congrArg String.toList hp.trimmed
    rwa [strip, String.toList_ofList] at hstrip
  rw [chars, trim_blank_append p.blank_before, trim_append_blank _ p.blank_after]
  apply trim_eq_self
  · intro c hc
    rw [core, List.head?_append_of_ne_nil _ htext] at hc
    rw [← htrimmed] at hc
    exact head?_trim hc
  · intro c hc
    have hlast : p.core.getLast? = p.digits.getLast? := by
      have hcore : p.core = (p.choice.text.toList ++ ':' :: p.between) ++ p.digits := by
        simp [core]
      rw [hcore, List.getLast?_append_of_ne_nil _ p.digits_ne_nil]
    rw [hlast] at hc
    exact Pattern.isBlank_of_signed p.takes_digits (List.mem_of_getLast? hc)

/-- A part is cut behind its text, unless the text has a line feed. -/
theorem cut (hp : p.choice.Packable) (hfeed : '\n' ∉ p.choice.text.toList) :
    Cut p.core p.choice.text.toList p.between p.digits where
  eq := rfl
  last := colon_notMem p.blank_between p.takes_digits
  nonempty := by simpa using hp.nonempty
  noFeed := hfeed
  blank := p.blank_between

/-- The last colon of a part is the one behind its text, so that no other text is cut off. -/
theorem not_shaped (hfeed : '\n' ∈ p.choice.text.toList) : ¬ Shaped p.core := by
  rw [shaped_iff]
  rintro ⟨text, blanks, number, hcut, -⟩
  have hlast : ':' ∉ p.between ++ p.digits := colon_notMem p.blank_between p.takes_digits
  obtain ⟨htext, -⟩ := eq_of_append_cons hlast hcut.last hcut.eq
  exact hcut.noFeed (htext ▸ hfeed)

/-- A part is read as its option if the text has no line feed, and is no option if it has one. -/
theorem packedChoice_core (hp : p.choice.Packable) : packedChoice p.core =
    if '\n' ∈ p.choice.text.toList then .error (.notAnOption (String.ofList p.core))
    else .ok p.choice := by
  have hstrip : String.ofList (trim p.choice.text.toList) = p.choice.text := hp.trimmed
  split
  · rename_i hfeed
    exact packedChoice_of_not_shaped (not_shaped hfeed)
  · rename_i hfeed
    rw [(cut hp hfeed).packedChoice_eq p.takes_digits, p.denotes]
    dsimp only
    rw [hstrip]

end Part

/-! ## Packed cells -/

/-- Parts joined by bars. -/
def packedCell (parts : List Part) : String :=
  String.ofList (List.intercalate ['|'] (parts.map Part.chars))

variable {parts : List Part}

/-- The parts of a packed cell are those it was joined of, without the blanks around them. -/
theorem packedParts_packedCell (hne : parts ≠ []) (hparts : ∀ p ∈ parts, p.choice.Packable) :
    packedParts (packedCell parts) = parts.map Part.core := by
  have hsplit : (packedCell parts).toList.splitOn '|' = parts.map Part.chars := by
    rw [packedCell, String.toList_ofList]
    refine List.splitOn_intercalate '|' ?_ (by simpa using hne)
    intro cs hcs
    obtain ⟨p, hp, rfl⟩ := List.mem_map.1 hcs
    exact Part.noBar (hparts p hp)
  have htrim : (parts.map Part.chars).map trim = parts.map Part.core := by
    rw [List.map_map]
    exact List.map_congr_left fun p hp => Part.trim_chars (hparts p hp)
  rw [packedParts, hsplit, htrim, List.filter_eq_self]
  intro cs hcs
  obtain ⟨p, _, rfl⟩ := List.mem_map.1 hcs
  simp [Part.core]

/-- Options are given in the packed cell, and the numbered columns are empty where there are any. -/
structure PacksOptions (h : Header) (fields : List String) (parts : List Part) : Prop where
  unnumbered : ∀ k, h.cell fields (.optionText k) = "" ∧ h.cell fields (.optionTarget k) = ""
  packed : h.cell fields (.role .options) = packedCell parts

/-- What a record that packs its options has for choices is what its parts are read as. -/
theorem PacksOptions.choices_eq (hpacks : PacksOptions h fields parts) (hne : parts ≠ [])
    (hparts : ∀ p ∈ parts, p.choice.Packable) :
    choices h fields = (parts.map Part.core).mapM packedChoice := by
  have hread : h.slots.mapM (numberedChoice h fields) = .ok (h.slots.map fun _ => none) := by
    refine mapM_eq_ok fun slot _ => ?_
    rw [numberedChoice]
    exact if_pos (hpacks.unnumbered slot)
  have hnumbered : numberedChoices h fields = .ok [] := by
    rw [numberedChoices, hread]
    show Except.ok ((h.slots.map fun _ => none).filterMap id) = _
    rw [List.filterMap_map]
    simp
  rw [choices, hnumbered, hpacks.packed, packedChoices, packedParts_packedCell hne hparts]
  cases (parts.map Part.core).mapM packedChoice <;> rfl

theorem PacksOptions.choices_ok (hpacks : PacksOptions h fields parts) (hne : parts ≠ [])
    (hparts : ∀ p ∈ parts, p.choice.Packable)
    (hfeed : ∀ p ∈ parts, '\n' ∉ p.choice.text.toList) :
    choices h fields = .ok (parts.map Part.choice) := by
  have hread : parts.mapM (fun p => packedChoice p.core) = .ok (parts.map Part.choice) :=
    mapM_eq_ok fun p hp => by rw [Part.packedChoice_core (hparts p hp), if_neg (hfeed p hp)]
  rw [hpacks.choices_eq hne hparts, List.mapM_map]
  exact hread

/-- The first text with a line feed is what a packed cell is refused for. -/
theorem PacksOptions.choices_error {before after : List Part} {p : Part}
    (hpacks : PacksOptions h fields (before ++ p :: after))
    (hparts : ∀ q ∈ before ++ p :: after, q.choice.Packable)
    (hbefore : ∀ q ∈ before, '\n' ∉ q.choice.text.toList) (hfeed : '\n' ∈ p.choice.text.toList) :
    choices h fields = .error (.notAnOption (String.ofList p.core)) := by
  rw [hpacks.choices_eq (by simp) hparts, List.mapM_map]
  refine mapM_eq_error (fun q hq => ⟨q.choice, ?_⟩) ?_
  · have hq' : q ∈ before ++ p :: after := List.mem_append_left _ hq
    rw [Function.comp_apply, Part.packedChoice_core (hparts q hq'), if_neg (hbefore q hq)]
  · rw [Function.comp_apply, Part.packedChoice_core (hparts p (by simp)), if_pos hfeed]

/-! ## Both ways -/

/-- Two options or more that can be packed are given in numbered columns, by one record, and in a
packed cell, by another, each with whatever else it holds. The first record is a row with these
options in this order. The second is one if and only if no text has a line feed; if one has, the
record is refused for the first part of such a text. -/
theorem packed_agrees {options : List Choice} (htwo : 2 ≤ options.length)
    (hpackable : ∀ c ∈ options, c.Packable) {h h' : Header} {r r' : Record}
    (hchecked : Checked h r.fields) (hchecked' : Checked h' r'.fields)
    (hcommand : Command.ofWord (h.cell r.fields (.role .command)) = .setOption)
    (hcommand' : Command.ofWord (h'.cell r'.fields (.role .command)) = .setOption)
    (hnumbers : NumbersOptions h r.fields options)
    (hpacks : PacksOptions h' r'.fields parts) (hparts : parts.map Part.choice = options) :
    (∃ row, entry h r = .ok row ∧ row.choices = options) ∧
    ((∃ row, entry h' r' = .ok row ∧ row.choices = options) ↔
      ∀ c ∈ options, '\n' ∉ c.text.toList) ∧
    ∀ before p after, parts = before ++ p :: after →
      (∀ q ∈ before, '\n' ∉ q.choice.text.toList) → '\n' ∈ p.choice.text.toList →
      entry h' r' = .error ⟨r'.line, .notAnOption (String.ofList p.core)⟩ := by
  subst hparts
  have hne : parts ≠ [] := by
    rintro rfl
    simp at htwo
  have hparts : ∀ p ∈ parts, p.choice.Packable :=
    fun p hp => hpackable _ (List.mem_map_of_mem hp)
  have hrefused : ∀ before p after, parts = before ++ p :: after →
      (∀ q ∈ before, '\n' ∉ q.choice.text.toList) → '\n' ∈ p.choice.text.toList →
      entry h' r' = .error ⟨r'.line, .notAnOption (String.ofList p.core)⟩ := by
    rintro before p after rfl hbefore hfeed
    have herror := hpacks.choices_error hparts hbefore hfeed
    exact entry_eq_error_iff.2 (hchecked'.rowOf_error herror)
  refine ⟨?numbered, ⟨?plain, ?packed⟩, hrefused⟩
  case numbered =>
    obtain ⟨row, hrow, hchoices⟩ := hchecked.exists_row hcommand hnumbers.choices_eq htwo
    exact ⟨row, entry_eq_ok_iff.2 hrow, hchoices⟩
  case packed =>
    intro hplain
    have hfeed : ∀ p ∈ parts, '\n' ∉ p.choice.text.toList :=
      fun p hp => hplain _ (List.mem_map_of_mem hp)
    obtain ⟨row, hrow, hchoices⟩ :=
      hchecked'.exists_row hcommand' (hpacks.choices_ok hne hparts hfeed) htwo
    exact ⟨row, entry_eq_ok_iff.2 hrow, hchoices⟩
  case plain =>
    rintro ⟨row, hrow, _⟩
    by_contra hfeed
    -- the first part with a line feed would be refused
    obtain ⟨c, hc, hcfeed⟩ : ∃ c ∈ parts.map Part.choice, '\n' ∈ c.text.toList := by
      simpa using hfeed
    obtain ⟨q, hq, rfl⟩ := List.mem_map.1 hc
    obtain ⟨p, hp⟩ : ∃ p, parts.find? (fun p => '\n' ∈ p.choice.text.toList) = some p := by
      refine Option.isSome_iff_exists.1 (List.find?_isSome.2 ⟨q, hq, by simpa using hcfeed⟩)
    obtain ⟨hpfeed, before, after, hsplit, hbefore⟩ := List.find?_eq_some_iff_append.1 hp
    have herror := hrefused before p after hsplit (by simpa using hbefore) (by simpa using hpfeed)
    rw [hrow] at herror
    cases herror

/-- A text with a colon and a number behind it, and a target at the end of what words hold. The
columns stand in any order, and one target is written with a plus and zeros. -/
theorem packed_agrees_two :
    let options : List Choice := [⟨"a: 9", -2147483648⟩, ⟨"b, \"c\"", 7⟩]
    let numbered : List String := ["Target2", "Option2", "ID", "option 1", "Command", "TARGET1"]
    let packed : List String := ["Command", "Options", "ID"]
    let r : Record := ⟨2, ["+007", " b, \"c\" ", "1", "a: 9", "SetOption", "-2147483648"]⟩
    let r' : Record := ⟨2, ["SetOption", "a: 9:\t-2147483648 |\u3000b, \"c\":07 ", "1"]⟩
    2 ≤ options.length ∧ (∀ c ∈ options, c.Packable) ∧
      (∃ row, entry (.ofRecord ⟨1, numbered⟩) r = .ok row ∧ row.choices = options) ∧
      ∃ row, entry (.ofRecord ⟨1, packed⟩) r' = .ok row ∧ row.choices = options := by
  intro options numbered packed r r'
  have htwo : 2 ≤ options.length := by decide
  have hpackable : ∀ c ∈ options, c.Packable := by
    intro c hc
    simp only [options, List.mem_cons, List.not_mem_nil, or_false] at hc
    rcases hc with rfl | rfl
    · exact ⟨by decide +kernel, by decide, by decide⟩
    · exact ⟨by decide +kernel, by decide, by decide⟩
  let parts : List Part := [
    ⟨⟨"a: 9", -2147483648⟩, [], ['\t'], "-2147483648".toList, [' '], rfl, by decide, by decide,
      by decide +kernel⟩,
    ⟨⟨"b, \"c\"", 7⟩, ['\u3000'], [], "07".toList, [], by decide, rfl, rfl, by decide +kernel⟩]
  have hcolumns : (Header.ofRecord ⟨1, numbered⟩).columns = [some (.optionTarget 2),
      some (.optionText 2), some (.role .id), some (.optionText 1), some (.role .command),
      some (.optionTarget 1)] := by decide +kernel
  have hnumbers : NumbersOptions (.ofRecord ⟨1, numbered⟩) r.fields options := by
    constructor
    case numbers =>
      intro k
      rw [hcolumns]
      simp [options]
      omega
    case text => decide +kernel
    case target => decide +kernel
    case unpacked => decide +kernel
  have hpacks : PacksOptions (.ofRecord ⟨1, packed⟩) r'.fields parts := by
    constructor
    case unnumbered =>
      have hcolumns : (Header.ofRecord ⟨1, packed⟩).columns =
          [some (.role .command), some (.role .options), some (.role .id)] := by decide +kernel
      intro k
      exact ⟨cell_eq_empty (by simp [hcolumns]) _, cell_eq_empty (by simp [hcolumns]) _⟩
    case packed => decide +kernel
  have hchecked : Checked (.ofRecord ⟨1, numbered⟩) r.fields :=
    ⟨by decide +kernel, by decide +kernel, by decide +kernel, by decide +kernel⟩
  have hchecked' : Checked (.ofRecord ⟨1, packed⟩) r'.fields :=
    ⟨by decide +kernel, by decide +kernel, by decide +kernel, by decide +kernel⟩
  obtain ⟨hrow, hrow', _⟩ := @packed_agrees parts options htwo hpackable _ _ r r' hchecked hchecked'
    (by decide +kernel) (by decide +kernel) hnumbers hpacks rfl
  exact ⟨htwo, hpackable, hrow, hrow'.2 (by decide)⟩

/-- Two options that can be packed, in a sheet where they are: the line feed in one of the texts has
the record skipped. -/
theorem ofText_packed_lineFeed :
    (∀ text ∈ ["a\nb", "c"], Trimmed text ∧ text ≠ "" ∧ '|' ∉ text.toList) ∧
      ofText "ID,Command,Options\n1,SetOption,\"a\nb:1|c:2\"\n" =
        .ok ⟨[], [⟨2, .notAnOption "a\nb:1"⟩]⟩ := by
  refine ⟨?_, by decide +kernel⟩
  intro text htext
  simp only [List.mem_cons, List.not_mem_nil, or_false] at htext
  rcases htext with rfl | rfl
  · exact ⟨by decide +kernel, by decide, by decide⟩
  · exact ⟨by decide +kernel, by decide, by decide⟩

end Sheet

end Dialogue
