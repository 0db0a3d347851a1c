import Dialogue.Proofs.Text.Pattern
import Dialogue.Proofs.Text.Pieces
import Dialogue.Sheet.Options

/-!
# Parts of a packed cell

Where the pattern of packed options cuts a part. It asks for some colon with blanks and a target
behind it. None of these holds a colon, so it is the last one, and there is one way to match.

* `Cut` is a part cut at its last colon, and `Shaped` such a part with the form of an option.
* `takes_packedOption_iff`: the pattern takes the parts of this form, and no others.
* `Cut.packedChoice_eq` and `packedChoice_of_not_shaped`: what is read of them, and of the others.
-/

namespace Dialogue.Sheet

open Text

/-- A part in pieces: a text that is not empty and has no line feed, the last colon of the part,
blanks, and the rest. -/
structure Cut (part text blanks rest : List Char) : Prop where
  eq : part = text ++ ':' :: (blanks ++ rest)
  last : ':' ∉ blanks ++ rest
  nonempty : text ≠ []
  noFeed : '\n' ∉ text
  blank : allBlank blanks = true

/-- A part has the form of an option, if decimal digits of any script count, however many. -/
def Shaped (part : List Char) : Prop :=
  ∃ text blanks number digits, Cut part text blanks number ∧
    (number = digits ∨ number = '-' :: digits) ∧ digits ≠ [] ∧ digits.all isDecimalDigit = true

variable {part text blanks number : List Char} {gs : List (List Char)}

theorem shaped_iff : Shaped part ↔
    ∃ text blanks number, Cut part text blanks number ∧ Pattern.Takes .signed number [] := by
  constructor
  · rintro ⟨text, blanks, number, digits, hcut, hdigits⟩
    exact ⟨text, blanks, number, hcut, Pattern.takes_signed_iff.2 ⟨⟨digits, hdigits⟩, rfl⟩⟩
  · rintro ⟨text, blanks, number, hcut, hnumber⟩
    obtain ⟨⟨digits, hdigits⟩, _⟩ := Pattern.takes_signed_iff.1 hnumber
    exact ⟨text, blanks, number, digits, hcut, hdigits⟩

theorem notMem_blanks_number {c : Char} (hblanks : allBlank blanks = true)
    (hnumber : Pattern.Takes .signed number []) (hblank : isBlank c = false) (hminus : c ≠ '-')
    (hdigit : isDecimalDigit c = false) : c ∉ blanks ++ number := by
  intro hmem
  rcases List.mem_append.1 hmem with hmem | hmem
  · rw [List.all_eq_true.1 hblanks c hmem] at hblank
    cases hblank
  · exact Pattern.notMem_of_signed hnumber hminus hdigit hmem

/-- Blanks and a number hold no colon. -/
theorem colon_notMem (hblanks : allBlank blanks = true) (hnumber : Pattern.Takes .signed number []) :
    ':' ∉ blanks ++ number :=
  notMem_blanks_number hblanks hnumber (by decide) (by decide) (by decide)

/-- The colon that the pattern finds is the last one of the part. -/
theorem takes_packedOption_iff : packedOption.Takes part gs ↔
    ∃ text blanks number, Cut part text blanks number ∧ Pattern.Takes .signed number [] ∧
      gs = [text, number] := by
  constructor
  · intro h
    simp only [packedOption, Pattern.takes_seq_iff, Pattern.takes_group_iff,
      Pattern.takes_several_iff, Pattern.takes_char_iff, Pattern.takes_many_iff] at h
    obtain ⟨text, _, _, _, ⟨_, ⟨hne, hdot, rfl⟩, rfl⟩, ⟨_, _, _, _, ⟨rfl, rfl⟩,
      ⟨blanks, _, number, _, ⟨hblanks, rfl⟩, ⟨hs, hnumber, rfl⟩, rfl, rfl⟩, rfl, rfl⟩, rfl, rfl⟩ := h
    obtain ⟨_, rfl⟩ := Pattern.takes_signed_iff.1 hnumber
    have hblanks : allBlank blanks = true := List.all_eq_true.2 hblanks
    refine ⟨text, blanks, number, ⟨rfl, colon_notMem hblanks hnumber, hne, ?_, hblanks⟩, hnumber, rfl⟩
    intro hfeed
    exact absurd (hdot _ hfeed) (by decide)
  · rintro ⟨text, blanks, number, hcut, hnumber, rfl⟩
    have hdot : ∀ c ∈ text, Pattern.dot c = true := by
      intro c hc
      rw [Pattern.dot, bne_iff_ne]
      exact ne_of_mem_of_not_mem hc hcut.noFeed
    have htakes : packedOption.Takes (text ++ ([':'] ++ (blanks ++ number)))
        ([text] ++ ([] ++ ([] ++ [number]))) :=
      .seq (.group (Pattern.takes_several_iff.2 ⟨hcut.nonempty, hdot, rfl⟩))
        (.seq (Pattern.takes_char ':')
          (.seq (.many (List.all_eq_true.1 hcut.blank)) (.group hnumber)))
    rw [hcut.eq]
    exact htakes

/-- There is one way to cut a part in front of a number. -/
theorem Cut.unique {text' blanks' number' : List Char} (hcut : Cut part text blanks number)
    (hcut' : Cut part text' blanks' number') (hnumber : Pattern.Takes .signed number [])
    (hnumber' : Pattern.Takes .signed number' []) : text = text' ∧ number = number' := by
  obtain ⟨htext, hrest⟩ :=
    eq_of_append_cons hcut.last hcut'.last (hcut.eq.symm.trans hcut'.eq)
  have hdrop : (blanks ++ number).dropWhile isBlank = number :=
    dropWhile_blank_append hcut.blank fun _ => Pattern.isBlank_of_signed hnumber
  have hdrop' : (blanks' ++ number').dropWhile isBlank = number' :=
    dropWhile_blank_append hcut'.blank fun _ => Pattern.isBlank_of_signed hnumber'
  exact ⟨htext, by rw [← hdrop, hrest, hdrop']⟩

theorem Cut.captures?_eq (hcut : Cut part text blanks number)
    (hnumber : Pattern.Takes .signed number []) :
    packedOption.captures? part = some [text, number] := by
  apply Pattern.captures?_of_unique
  · exact takes_packedOption_iff.2 ⟨text, blanks, number, hcut, hnumber, rfl⟩
  · intro hs hs'
    obtain ⟨text', blanks', number', hcut', hnumber', rfl⟩ := takes_packedOption_iff.1 hs'
    obtain ⟨rfl, rfl⟩ := hcut.unique hcut' hnumber hnumber'
    rfl

/-- An earlier colon belongs to the text. -/
example : packedOption.captures? "a:b: -1".toList = some ["a:b".toList, "-1".toList] := by
  decide +kernel

/-- What is read of a part that has the form of an option hangs on its target alone. -/
theorem Cut.packedChoice_eq (hcut : Cut part text blanks number)
    (hnumber : Pattern.Takes .signed number []) :
    packedChoice part = match Decimal.signed32? number with
      | some branch => .ok ⟨String.ofList (trim text), branch⟩
      | none => .error (.badPackedTarget (String.ofList part)) := by
  have hcaptures := hcut.captures?_eq hnumber
  cases hread : Decimal.signed32? number with
  | some branch => simp only [packedChoice, hcaptures, hread]
  | none => simp only [packedChoice, hcaptures, hread]

theorem packedChoice_of_not_shaped (h : ¬ Shaped part) :
    packedChoice part = .error (.notAnOption (String.ofList part)) := by
  have hnone : packedOption.captures? part = none := by
    rw [Pattern.captures?_eq_none_iff]
    intro gs hgs
    obtain ⟨text, blanks, number, hcut, hnumber, _⟩ := takes_packedOption_iff.1 hgs
    exact h (shaped_iff.2 ⟨text, blanks, number, hcut, hnumber⟩)
  rw [packedChoice, hnone]

end Dialogue.Sheet
