import Dialogue.Proofs.Failing
import Dialogue.Proofs.Text.Blank
import Dialogue.Sheet.Basic

/-!
# Rows of a sheet

What every row of a sheet satisfies, whatever the text of the sheet: its texts are trimmed, keys
that are given are not empty, and exactly the choices have options, at least two of them.

* `Row.WellFormed` lists it.
* `Sheet.wellFormed_of_rowOf` is the case of one record, `Sheet.wellFormed_of_ofText` that of a text.
-/

namespace Dialogue

open Text

/-- The texts of a row. -/
def Row.texts (r : Row) : List String :=
  [r.character, r.speaker, r.line] ++ r.background.toList ++ r.cg.toList ++ r.choices.map Choice.text

/-- A row as sheets hold it. -/
structure Row.WellFormed (r : Row) : Prop where
  trimmed : ∀ s ∈ r.texts, Trimmed s
  background : r.background ≠ some ""
  cg : r.cg ≠ some ""
  /-- A command without a meaning has a name that means nothing. -/
  command : ∀ name, r.command = .unknown name →
    Trimmed name ∧ name ≠ "" ∧ name ∉ Command.words.map Prod.fst
  choices : r.command = .setOption → 2 ≤ r.choices.length
  noChoices : r.command ≠ .setOption → r.choices = []

namespace Sheet

variable {h : Header} {fields : List String}

theorem trimmed_cell (h : Header) (fields : List String) (c : Column) :
    Trimmed (h.cell fields c) := by
  unfold Header.cell
  split
  · exact trimmed_strip _
  · rfl

theorem unknown_of_ofWord {cell name : String} (hname : Command.ofWord cell = .unknown name) :
    Trimmed name ∧ name ≠ "" ∧ name ∉ Command.words.map Prod.fst := by
  unfold Command.ofWord at hname
  split at hname
  case h_6 word hempty hsay hsetCharacter hcleanCharacter hsetOption =>
    cases hname
    refine ⟨trimmed_strip cell, hempty, ?_⟩
    simp_all [Command.words]
  all_goals cases hname

/-! ## Options -/

theorem trimmed_of_numberedChoice {slot : Nat} {c : Choice}
    (hc : numberedChoice h fields slot = .ok (some c)) : Trimmed c.text := by
  unfold numberedChoice at hc
  dsimp only at hc
  split at hc
  · cases hc
  · split at hc
    · cases hc
      exact trimmed_cell _ _ _
    · cases hc

theorem trimmed_of_packedChoice {part : List Char} {c : Choice}
    (hc : packedChoice part = .ok c) : Trimmed c.text := by
  unfold packedChoice at hc
  split at hc
  · split at hc
    · cases hc
      simp [Trimmed, strip, trim_trim]
    · cases hc
  · cases hc

theorem trimmed_of_choices {found : List Choice} (hfound : choices h fields = .ok found)
    {c : Choice} (hc : c ∈ found) : Trimmed c.text := by
  obtain ⟨numbered, hnumbered, hfound⟩ := bind_eq_ok.1 hfound
  obtain ⟨packed, hpacked, hfound⟩ := bind_eq_ok.1 hfound
  cases hfound
  rcases List.mem_append.1 hc with hc | hc
  · obtain ⟨read, hread, hnumbered⟩ := bind_eq_ok.1 hnumbered
    cases hnumbered
    have hmem : some c ∈ read := by simpa using hc
    obtain ⟨slot, _, hslot⟩ := exists_of_mem_mapM hread hmem
    exact trimmed_of_numberedChoice hslot
  · obtain ⟨part, _, hpart⟩ := exists_of_mem_mapM hpacked hc
    exact trimmed_of_packedChoice hpart

/-! ## Records -/

theorem trimmed_of_key? {cell s : String} (hcell : Trimmed cell) (hs : s ∈ (key? cell).toList) :
    Trimmed s := by
  unfold key? at hs
  split at hs
  · cases hs
  · obtain rfl := List.mem_singleton.1 hs
    exact hcell

theorem key?_ne_empty (cell : String) : key? cell ≠ some "" := by
  unfold key?
  split
  · simp
  · simpa

/-- Only a choice keeps options, and it has at least two of those found. -/
theorem keptChoices_eq_ok {command : Command} {found kept : List Choice}
    (hkept : keptChoices command found = .ok kept) :
    (command = .setOption ∧ 2 ≤ kept.length ∧ kept = found) ∨
      (command ≠ .setOption ∧ kept = []) := by
  unfold keptChoices at hkept
  split at hkept
  · rename_i hcommand
    split at hkept
    · cases hkept
    · rename_i htwo
      cases hkept
      exact Or.inl ⟨hcommand, by omega, rfl⟩
  · rename_i hcommand
    cases hkept
    exact Or.inr ⟨hcommand, rfl⟩

theorem wellFormed_of_rowOf {row : Row} (hrow : rowOf h fields = .ok row) : row.WellFormed := by
  unfold rowOf at hrow
  split at hrow
  · cases hrow
  · obtain ⟨scene, _, hrow⟩ := bind_eq_ok.1 hrow
    obtain ⟨branch, _, hrow⟩ := bind_eq_ok.1 hrow
    obtain ⟨seq, _, hrow⟩ := bind_eq_ok.1 hrow
    obtain ⟨found, hfound, hrow⟩ := bind_eq_ok.1 hrow
    obtain ⟨kept, hkept, hrow⟩ := bind_eq_ok.1 hrow
    generalize hcommand : Command.ofWord _ = command at hkept hrow
    have hkinds := keptChoices_eq_ok hkept
    cases hrow
    constructor
    case background => exact key?_ne_empty _
    case cg => exact key?_ne_empty _
    case command => exact fun name hname => unknown_of_ofWord (hcommand.trans hname)
    case choices =>
      intro hoption
      rcases hkinds with ⟨_, htwo, _⟩ | ⟨hother, _⟩
      · exact htwo
      · exact absurd hoption hother
    case noChoices =>
      intro hother
      rcases hkinds with ⟨hoption, _⟩ | ⟨_, hnone⟩
      · exact absurd hoption hother
      · exact hnone
    case trimmed =>
      have hcell : ∀ r : Role, Trimmed (h.cell fields (.role r)) := fun r =>
        trimmed_cell h fields (.role r)
      intro s hs
      simp only [Row.texts, List.mem_append] at hs
      rcases hs with ((hs | hs) | hs) | hs
      · simp only [List.mem_cons, List.not_mem_nil, or_false] at hs
        rcases hs with rfl | rfl | rfl
        · exact hcell .character
        · exact hcell .speaker
        · exact hcell .line
      · exact trimmed_of_key? (hcell .background) hs
      · exact trimmed_of_key? (hcell .cg) hs
      · obtain ⟨c, hc, rfl⟩ := List.mem_map.1 hs
        rcases hkinds with ⟨_, _, rfl⟩ | ⟨_, rfl⟩
        · exact trimmed_of_choices hfound hc
        · cases hc

theorem wellFormed_of_ofRecords {rs : List Record} {row : Row}
    (hrow : row ∈ (ofRecords h rs).rows) : row.WellFormed := by
  unfold ofRecords at hrow
  generalize (rs.filter fun r => !r.isBlank) = kept at hrow
  induction kept with
  | nil => cases hrow
  | cons r kept ih =>
    rw [List.foldr_cons, add] at hrow
    split at hrow
    · rename_i found hfound
      rcases List.mem_cons.1 hrow with rfl | hrow
      · exact wellFormed_of_rowOf hfound
      · exact ih hrow
    · exact ih hrow

/-- Every row of a sheet is well formed. -/
theorem wellFormed_of_ofText {text : String} {sheet : Sheet} (hsheet : ofText text = .ok sheet)
    {row : Row} (hrow : row ∈ sheet.rows) : row.WellFormed := by
  unfold ofText at hsheet
  split at hsheet
  · cases hsheet
  · rename_i r rs _
    cases hheader : headerOf r with
    | error e =>
      rw [hheader] at hsheet
      cases hsheet
    | ok h =>
      rw [hheader] at hsheet
      cases hsheet
      exact wellFormed_of_ofRecords hrow

end Sheet

end Dialogue
