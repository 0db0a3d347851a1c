import Dialogue.Proofs.Repeats
import Dialogue.Proofs.Sheet.Naming
import Dialogue.Sheet.Options
import Mathlib.Data.List.Sort

/-!
# Columns of a full header

The header that names every column once, with numbered options in columns of their own, and what is
read of it.

* `titles` are its cells and `columns` what they stand for: `ofName?_titles`.
* `slot` is the number that a numbered column is read with. Numbers that no 32-bit word holds are
  all read as `0`, and no column is written with that number.
* `mem_slots` and `slots_sorted`: the numbers of the option columns.
* `cell_eq`: the cell of a column, from the cells that stand under its title.
-/

namespace Dialogue.Sheet

open Text

/-! ## Titles -/

/-- The title of each column that occurs once, and what the column holds. -/
def roleTitles : List (String × Role) :=
  [("ID", .id), ("Branch", .branch), ("Seq", .seq), ("Command", .command), ("Side", .side),
    ("CharacterKey", .character), ("LoadMode", .loadMode), ("Highlight", .highlight),
    ("BG", .background), ("CG", .cg), ("Name", .speaker), ("Dialogue", .line)]

/-- The titles of the two columns of the option with this number. -/
def optionTitles (k : Nat) : List String :=
  ["Option" ++ Decimal.natText k, "Target" ++ Decimal.natText k]

/-- The titles of a sheet with `n` options. -/
def titles (n : Nat) : List String :=
  roleTitles.map Prod.fst ++ (List.range' 1 n).flatMap optionTitles

/-- The number that the column with number `k` is read with. -/
def slot (k : Nat) : Nat :=
  if k < UInt32.size then k else 0

def optionColumns (k : Nat) : List Column :=
  [.optionText (slot k), .optionTarget (slot k)]

/-- What the titles of a sheet with `n` options stand for. -/
def columns (n : Nat) : List Column :=
  roleTitles.map (fun t => .role t.2) ++ (List.range' 1 n).flatMap optionColumns

/-! ## Reading titles -/

theorem slotOf_ofNat (k : Nat) : slotOf (Decimal.ofNat k) = slot k := by
  rw [slotOf, Decimal.digits?_ofNat]
  rfl

/-- One of the two words with a number behind it. -/
theorem numberedColumn?_append {letters : List Char}
    (hword : lowerAscii letters = "option".toList ∨ lowerAscii letters = "target".toList) (k : Nat) :
    numberedColumn? (letters ++ Decimal.ofNat k) =
      if lowerAscii letters = "option".toList then some (.optionText (slot k))
      else some (.optionTarget (slot k)) := by
  have hnumbered : Numbered (letters ++ Decimal.ofNat k) letters [] (Decimal.ofNat k) :=
    ⟨rfl, hword, rfl, Decimal.ofNat_ne_nil k, List.all_eq_true.2 fun c hc =>
      Decimal.isDecimalDigit_of_isAsciiDigit (Decimal.isAsciiDigit_of_mem_ofNat hc)⟩
  rw [hnumbered.numberedColumn?_eq, slotOf_ofNat]

theorem trim_cons_ofNat (c : Char) (hc : isBlank c = false) (cs : List Char) (k : Nat) :
    trim (c :: cs ++ Decimal.ofNat k) = c :: cs ++ Decimal.ofNat k := by
  apply trim_eq_self
  · intro c' hc'
    cases hc'
    exact hc
  · intro c' hc'
    rw [List.getLast?_append_of_ne_nil _ (Decimal.ofNat_ne_nil k)] at hc'
    exact Decimal.isBlank_of_isAsciiDigit
      (Decimal.isAsciiDigit_of_mem_ofNat (List.mem_of_getLast? hc'))

/-- A title of a word and a number behind it. -/
theorem ofName?_append (c : Char) (hc : isBlank c = false) (cs : List Char) (k : Nat)
    {column : Column} (hcolumn : numberedColumn? (c :: cs ++ Decimal.ofNat k) = some column) :
    Column.ofName? (String.ofList (c :: cs) ++ Decimal.natText k) = some column := by
  have hname : trim (String.ofList (c :: cs) ++ Decimal.natText k).toList =
      c :: cs ++ Decimal.ofNat k := by
    simp only [Decimal.natText, String.toList_append, String.toList_ofList]
    exact trim_cons_ofNat c hc cs k
  rw [Column.ofName?, hname, hcolumn]

theorem ofName?_optionTitles (k : Nat) :
    (optionTitles k).map Column.ofName? = (optionColumns k).map some := by
  have hoption : Column.ofName? ("Option" ++ Decimal.natText k) = some (.optionText (slot k)) :=
    ofName?_append 'O' (by decide) "ption".toList k (numberedColumn?_append (Or.inl (by decide)) k)
  have htarget : Column.ofName? ("Target" ++ Decimal.natText k) = some (.optionTarget (slot k)) :=
    ofName?_append 'T' (by decide) "arget".toList k (numberedColumn?_append (Or.inr (by decide)) k)
  simp only [optionTitles, optionColumns, List.map_cons, List.map_nil, hoption, htarget]

theorem ofName?_titles (n : Nat) : (titles n).map Column.ofName? = (columns n).map some := by
  have hroles : (roleTitles.map Prod.fst).map Column.ofName? =
      (roleTitles.map fun t => Column.role t.2).map some := by decide +kernel
  rw [titles, columns, List.map_append, List.map_append, hroles, List.map_flatMap, List.map_flatMap]
  simp only [ofName?_optionTitles]

/-! ## Slots -/

/-- The header of a sheet with `n` options. -/
def fullHeader (n : Nat) : Header :=
  ⟨(columns n).map some⟩

/-- The numbers of the option columns ascend, and none of them stands twice. -/
theorem slots_sorted (h : Header) : h.slots.Pairwise (· < ·) := by
  unfold Header.slots
  generalize (h.columns.filterMap id).filterMap Column.slot? = ks
  have hle : (ks.eraseDups.mergeSort (· ≤ ·)).Pairwise (· ≤ ·) := by
    have htrans : ∀ a b c : Nat, decide (a ≤ b) = true → decide (b ≤ c) = true →
        decide (a ≤ c) = true := by
      intro a b c hab hbc
      simp only [decide_eq_true_eq] at *
      omega
    have htotal : ∀ a b : Nat, (decide (a ≤ b) || decide (b ≤ a)) = true := by
      intro a b
      simp only [Bool.or_eq_true, decide_eq_true_eq]
      omega
    simpa using List.pairwise_mergeSort htrans htotal ks.eraseDups
  have hne : (ks.eraseDups.mergeSort (· ≤ ·)).Pairwise (· ≠ ·) :=
    (List.mergeSort_perm _ _).nodup_iff.2 (nodup_eraseDups ks)
  exact (hle.and hne).imp fun h => Nat.lt_of_le_of_ne h.1 h.2

theorem mem_slots {n k : Nat} : k ∈ (fullHeader n).slots ↔ ∃ j, 1 ≤ j ∧ j ≤ n ∧ slot j = k := by
  have hcolumns : (fullHeader n).columns.filterMap id = columns n := by
    simp [fullHeader, List.filterMap_map]
  have hroles : (roleTitles.map fun t => Column.role t.2).filterMap Column.slot? = [] := by
    decide
  rw [Header.slots, List.mem_mergeSort, List.mem_eraseDups, hcolumns, columns,
    List.filterMap_append, hroles, List.nil_append]
  simp only [List.mem_filterMap, List.mem_flatMap, List.mem_range'_1, optionColumns, List.mem_cons,
    List.not_mem_nil, or_false]
  constructor
  · rintro ⟨c, ⟨j, hj, rfl | rfl⟩, hk⟩
    · exact ⟨j, hj.1, by omega, Option.some.inj hk⟩
    · exact ⟨j, hj.1, by omega, Option.some.inj hk⟩
  · rintro ⟨j, hlow, hhigh, rfl⟩
    exact ⟨.optionText (slot j), ⟨j, ⟨hlow, by omega⟩, Or.inl rfl⟩, rfl⟩

/-! ## Cells -/

/-- The cell of a column is the text that stands under every title of it, or empty if none does. -/
theorem cell_eq {h : Header} {fields : List String} {c : Column} {text : String}
    (hall : ∀ t, (some c, t) ∈ h.columns.zip (fields.map strip) → t = text)
    (hsome : text = "" ∨ (some c, text) ∈ h.columns.zip (fields.map strip)) :
    h.cell fields c = text := by
  have hzip : h.columns.zip (fields.map strip) =
      (h.columns.zip fields).map (Prod.map id strip) := List.zip_map_right
  rw [hzip] at hall hsome
  unfold Header.cell
  split
  · rename_i field hfield
    obtain ⟨before, after, heq, _⟩ := List.lookup_eq_some_iff.1 hfield
    have hmem : (some c, field) ∈ h.columns.zip fields := by
      rw [← List.mem_reverse, heq]
      simp
    exact hall _ (List.mem_map_of_mem hmem)
  · rename_i hnone
    rcases hsome with rfl | hsome
    · rfl
    · obtain ⟨⟨c', field⟩, hmem, heq⟩ := List.mem_map.1 hsome
      obtain ⟨rfl, rfl⟩ := Prod.mk.inj heq
      have hother := List.lookup_eq_none_iff.1 hnone _ (List.mem_reverse.2 hmem)
      simp at hother

end Dialogue.Sheet
