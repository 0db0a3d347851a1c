import Dialogue.Proofs.Text.Pattern
import Dialogue.Sheet.Header

/-!
# Names of columns

A cell of the header names a column by one of the names of the column, whatever the case of its
letters and whatever blanks stand around it.

* `Numbered` is the name of a numbered column in pieces. `takes_numberedName_iff`: the pattern takes
  these names and no others, and `Numbered.numberedColumn?_eq` says how they are read.
* `numberedColumn?_lowerAscii`: the case of letters does not count for numbered columns either.
* `Column.ofName?_eq_role_iff`: the columns that occur once are named by `Role.names` and by nothing
  else; none of these is the name of a numbered column.
-/

namespace Dialogue.Sheet

open Text

/-! ## The case of letters -/

/-- A capital letter made small. -/
def small (c : Char) : Char :=
  if 'A' ≤ c ∧ c ≤ 'Z' then Char.ofNat (c.toNat + 32) else c

theorem lowerAscii_eq (cs : List Char) : lowerAscii cs = cs.map small := rfl

/-- A letter stays one when it is made small, and every other character stays as it is. -/
theorem small_cases (c : Char) : small c = c ∨
    (65 ≤ c.toNat ∧ c.toNat ≤ 90) ∧ 97 ≤ (small c).toNat ∧ (small c).toNat ≤ 122 := by
  by_cases h : 'A' ≤ c ∧ c ≤ 'Z'
  · right
    have hlow : 65 ≤ c.toNat := h.1
    have hhigh : c.toNat ≤ 90 := h.2
    have hvalid : (c.toNat + 32).isValidChar := Or.inl (by omega)
    have hsmall : (small c).toNat = c.toNat + 32 := by
      rw [small, if_pos h, Char.ofNat, dif_pos hvalid]
      rfl
    omega
  · left
    exact if_neg h

theorem small_small (c : Char) : small (small c) = small c := by
  rcases small_cases c with h | ⟨_, hlow, _⟩
  · rw [h, h]
  · apply if_neg
    rintro ⟨_, hhigh⟩
    have hhigh : (small c).toNat ≤ 90 := hhigh
    omega

/-- From the capital `A` to the small `z` there is no blank. -/
theorem isBlank_of_letter {c : Char} (hlow : 65 ≤ c.toNat) (hhigh : c.toNat ≤ 122) :
    isBlank c = false := by
  have hranges : ∀ r ∈ blankRanges, r.2 < 65 ∨ 122 < r.1 := by decide
  rw [isBlank, List.any_eq_false]
  intro r hr
  have := hranges r hr
  simp only [Bool.and_eq_true, decide_eq_true_eq]
  omega

/-- From the capital `A` to the small `z` there is no digit. -/
theorem isDecimalDigit_of_letter {c : Char} (hlow : 65 ≤ c.toNat) (hhigh : c.toNat ≤ 122) :
    isDecimalDigit c = false := by
  have hzeros : ∀ z ∈ decimalZeros, z + 9 < 65 ∨ 122 < z := by decide
  have hany : decimalZeros.any (fun z => z ≤ c.toNat && c.toNat ≤ z + 9) = false := by
    rw [List.any_eq_false]
    intro z hz
    have := hzeros z hz
    simp only [Bool.and_eq_true, decide_eq_true_eq]
    omega
  rw [isDecimalDigit, hany, Bool.false_or, Bool.and_eq_false_iff, decide_eq_false_iff_not]
  omega

theorem isBlank_small (c : Char) : isBlank (small c) = isBlank c := by
  rcases small_cases c with h | ⟨⟨hlow, hhigh⟩, hlow', hhigh'⟩
  · rw [h]
  · rw [isBlank_of_letter (by omega) (by omega), isBlank_of_letter (by omega) (by omega)]

theorem isDecimalDigit_small (c : Char) : isDecimalDigit (small c) = isDecimalDigit c := by
  rcases small_cases c with h | ⟨⟨hlow, hhigh⟩, hlow', hhigh'⟩
  · rw [h]
  · rw [isDecimalDigit_of_letter (by omega) (by omega),
      isDecimalDigit_of_letter (by omega) (by omega)]

theorem small_of_isBlank {c : Char} (h : isBlank c = true) : small c = c := by
  rcases small_cases c with hc | ⟨⟨hlow, hhigh⟩, _⟩
  · exact hc
  · rw [isBlank_of_letter hlow (by omega)] at h
    cases h

theorem small_of_isDecimalDigit {c : Char} (h : isDecimalDigit c = true) : small c = c := by
  rcases small_cases c with hc | ⟨⟨hlow, hhigh⟩, _⟩
  · exact hc
  · rw [isDecimalDigit_of_letter hlow (by omega)] at h
    cases h

theorem lowerAscii_lowerAscii (cs : List Char) : lowerAscii (lowerAscii cs) = lowerAscii cs := by
  rw [lowerAscii_eq, lowerAscii_eq, List.map_map]
  exact List.map_congr_left fun c _ => small_small c

theorem lowerAscii_eq_self {cs : List Char} (h : ∀ c ∈ cs, small c = c) : lowerAscii cs = cs := by
  rw [lowerAscii_eq]
  conv_rhs => rw [← List.map_id cs]
  exact List.map_congr_left h

/-- Digits are not letters, so the number of a column is read as it is. -/
theorem lowerAscii_of_digits {cs : List Char} (h : cs.all isDecimalDigit = true) :
    lowerAscii cs = cs :=
  lowerAscii_eq_self fun c hc => small_of_isDecimalDigit (List.all_eq_true.1 h c hc)

/-- Nor are blanks. -/
theorem lowerAscii_of_blanks {cs : List Char} (h : allBlank cs = true) : lowerAscii cs = cs :=
  lowerAscii_eq_self fun c hc => small_of_isBlank (List.all_eq_true.1 h c hc)

/-! ## Numbered columns -/

/-- The name of a numbered column in pieces: one of the two words in letters of either case, blanks,
and digits. -/
structure Numbered (name letters blanks digits : List Char) : Prop where
  eq : name = letters ++ (blanks ++ digits)
  word : lowerAscii letters = "option".toList ∨ lowerAscii letters = "target".toList
  blank : allBlank blanks = true
  nonempty : digits ≠ []
  digit : digits.all isDecimalDigit = true

variable {name letters blanks digits : List Char} {gs : List (List Char)}

theorem takes_numberedName_iff : numberedName.Takes name gs ↔
    ∃ letters blanks digits, Numbered name letters blanks digits ∧ gs = [letters, digits] := by
  constructor
  · intro h
    simp only [numberedName, Pattern.takes_seq_iff, Pattern.takes_group_iff,
      Pattern.takes_either_iff, Pattern.takes_caseless_iff, Pattern.takes_many_iff,
      Pattern.takes_several_iff] at h
    obtain ⟨letters, _, _, _, ⟨_, hwords, rfl⟩, ⟨blanks, _, digits, _, ⟨hblanks, rfl⟩,
      ⟨_, ⟨hne, hall, rfl⟩, rfl⟩, rfl, rfl⟩, rfl, rfl⟩ := h
    obtain ⟨hword, rfl⟩ := or_and_right.2 hwords
    exact ⟨letters, blanks, digits,
      ⟨rfl, hword, List.all_eq_true.2 hblanks, hne, List.all_eq_true.2 hall⟩, rfl⟩
  · rintro ⟨letters, blanks, digits, h, rfl⟩
    have hword : Pattern.Takes
        (.either (.caseless "option".toList) (.caseless "target".toList)) letters [] := by
      rw [Pattern.takes_either_iff, Pattern.takes_caseless_iff, Pattern.takes_caseless_iff]
      exact h.word.imp (⟨·, rfl⟩) (⟨·, rfl⟩)
    have hdigits := Pattern.takes_several_iff.2 ⟨h.nonempty, List.all_eq_true.1 h.digit, rfl⟩
    have htakes : numberedName.Takes (letters ++ (blanks ++ digits))
        ([letters] ++ ([] ++ [digits])) :=
      .seq (.group hword) (.seq (.many (List.all_eq_true.1 h.blank)) (.group hdigits))
    rw [h.eq]
    exact htakes

namespace Numbered

/-- Both words have six letters. -/
theorem length_letters (h : Numbered name letters blanks digits) : letters.length = 6 := by
  have hlength : letters.length = (lowerAscii letters).length := by
    rw [lowerAscii_eq, List.length_map]
  rw [hlength]
  rcases h.word with hword | hword
  · rw [hword]
    rfl
  · rw [hword]
    rfl

theorem unique {letters' blanks' digits' : List Char} (h : Numbered name letters blanks digits)
    (h' : Numbered name letters' blanks' digits') : letters = letters' ∧ digits = digits' := by
  have hdigits : ∀ {blanks digits : List Char}, allBlank blanks = true →
      digits.all isDecimalDigit = true → (blanks ++ digits).dropWhile isBlank = digits :=
    fun hblanks hall => dropWhile_blank_append hblanks fun c hc =>
      Decimal.isBlank_of_isDecimalDigit (List.all_eq_true.1 hall c hc)
  obtain ⟨hletters, hrest⟩ := List.append_inj (h.eq.symm.trans h'.eq)
    (h.length_letters.trans h'.length_letters.symm)
  exact ⟨hletters, by rw [← hdigits h.blank h.digit, hrest, hdigits h'.blank h'.digit]⟩

theorem numberedColumn?_eq (h : Numbered name letters blanks digits) : numberedColumn? name =
    if lowerAscii letters = "option".toList then some (.optionText (slotOf digits))
    else some (.optionTarget (slotOf digits)) := by
  have hcaptures : numberedName.captures? name = some [letters, digits] := by
    apply Pattern.captures?_of_unique
    · exact takes_numberedName_iff.2 ⟨letters, blanks, digits, h, rfl⟩
    · intro hs hs'
      obtain ⟨letters', blanks', digits', h', rfl⟩ := takes_numberedName_iff.1 hs'
      obtain ⟨rfl, rfl⟩ := h.unique h'
      rfl
  rw [numberedColumn?, hcaptures]

theorem lowerAscii_name (h : Numbered name letters blanks digits) :
    Numbered (lowerAscii name) (lowerAscii letters) blanks digits where
  eq := by
    conv_rhs => rw [← lowerAscii_of_blanks h.blank, ← lowerAscii_of_digits h.digit]
    rw [h.eq]
    simp only [lowerAscii_eq, List.map_append]
  word := by
    rw [lowerAscii_lowerAscii]
    exact h.word
  blank := h.blank
  nonempty := h.nonempty
  digit := h.digit

/-- A name is that of a numbered column if it is one in small letters. -/
theorem of_lowerAscii (h : Numbered (lowerAscii name) letters blanks digits) :
    ∃ letters blanks digits, Numbered name letters blanks digits := by
  have hname := h.eq
  rw [lowerAscii_eq] at hname
  obtain ⟨word, rest, rfl, rfl, hrest⟩ := List.map_eq_append_iff.1 hname
  obtain ⟨gap, number, rfl, rfl, rfl⟩ := List.map_eq_append_iff.1 hrest
  have hblank := h.blank
  have hdigit := h.digit
  rw [allBlank, List.all_map] at hblank
  rw [List.all_map] at hdigit
  refine ⟨word, gap, number, rfl, ?_, ?_, ?_, ?_⟩
  · rw [← lowerAscii_lowerAscii]
    exact h.word
  · rwa [allBlank, ← funext isBlank_small]
  · simpa using h.nonempty
  · rwa [← funext isDecimalDigit_small]

end Numbered

theorem numberedColumn?_of_not_numbered
    (h : ¬ ∃ letters blanks digits, Numbered name letters blanks digits) :
    numberedColumn? name = none := by
  have hcaptures : numberedName.captures? name = none := by
    rw [Pattern.captures?_eq_none_iff]
    intro gs hgs
    obtain ⟨letters, blanks, digits, hnumbered, _⟩ := takes_numberedName_iff.1 hgs
    exact h ⟨letters, blanks, digits, hnumbered⟩
  rw [numberedColumn?, hcaptures]

/-- The name of a numbered column is read without regard to the case of its letters. -/
theorem numberedColumn?_lowerAscii (name : List Char) :
    numberedColumn? (lowerAscii name) = numberedColumn? name := by
  by_cases h : ∃ letters blanks digits, Numbered name letters blanks digits
  · obtain ⟨letters, blanks, digits, h⟩ := h
    rw [h.lowerAscii_name.numberedColumn?_eq, h.numberedColumn?_eq, lowerAscii_lowerAscii]
  · rw [numberedColumn?_of_not_numbered h, numberedColumn?_of_not_numbered]
    rintro ⟨letters, blanks, digits, hsmall⟩
    exact h hsmall.of_lowerAscii

/-! ## Columns that occur once -/

/-- Whether a cell is a name of the column of this role. -/
def Role.Names (r : Role) (cell : String) : Prop :=
  (String.ofList (lowerAscii (trim cell.toList)), r) ∈ Role.names

instance (r : Role) (cell : String) : Decidable (r.Names cell) :=
  inferInstanceAs (Decidable (_ ∈ _))

theorem numberedColumn?_ne_role (name : List Char) (r : Role) :
    numberedColumn? name ≠ some (.role r) := by
  unfold numberedColumn?
  split
  · split <;> simp
  · simp

/-- No name of a column that occurs once is the name of a numbered one. -/
theorem numberedColumn?_of_names {r : Role} {cell : String} (h : r.Names cell) :
    numberedColumn? (trim cell.toList) = none := by
  have hnames : ∀ n ∈ Role.names, numberedColumn? n.1.toList = none := by decide +kernel
  have hname := hnames _ h
  rwa [String.toList_ofList, numberedColumn?_lowerAscii] at hname

/-- The columns that occur once are known by their names. -/
theorem Column.ofName?_eq_role_iff {cell : String} {r : Role} :
    Column.ofName? cell = some (.role r) ↔ r.Names cell := by
  constructor
  · intro h
    unfold Column.ofName? at h
    dsimp only at h
    split at h
    · rename_i c hnumbered
      rw [h] at hnumbered
      exact absurd hnumbered (numberedColumn?_ne_role _ r)
    · obtain ⟨r', hlookup, heq⟩ := Option.map_eq_some_iff.1 h
      cases heq
      obtain ⟨before, after, hnames, _⟩ := List.lookup_eq_some_iff.1 hlookup
      rw [Role.Names, hnames]
      exact List.mem_append_right _ List.mem_cons_self
  · intro h
    have hlookup : ∀ n ∈ Role.names, Role.names.lookup n.1 = some n.2 := by decide +kernel
    have hrole := hlookup _ h
    unfold Column.ofName?
    dsimp only
    rw [numberedColumn?_of_names h, hrole]
    rfl

/-- A sheet has a column of a role exactly if one of the cells of its header names it. -/
theorem Header.has_ofRecord (header : Record) (r : Role) :
    (Header.ofRecord header).has r = true ↔ ∃ cell ∈ header.fields, r.Names cell := by
  simp only [Header.has, Header.ofRecord, List.contains_iff_mem, List.mem_map,
    Column.ofName?_eq_role_iff]

end Dialogue.Sheet
