import Dialogue.Text.Blank
import Mathlib.Data.List.TakeDrop
import Mathlib.Data.List.TakeWhile

/-!
# Pieces of a text

A text cut at a character.

* `span_of_notMem` and `span_append_cons` cut a text at the first place of a character;
  `eq_of_append_cons` says that there is one last place.
-/

namespace Dialogue.Text

variable {c : Char} {cs : List Char}

theorem forall_ne_of_notMem (h : c ∉ cs) : ∀ d ∈ cs, decide (d ≠ c) = true :=
  fun _ hd => decide_eq_true (ne_of_mem_of_not_mem hd h)

theorem span_of_notMem (h : c ∉ cs) : cs.span (· ≠ c) = (cs, []) := by
  rw [List.span_eq_takeWhile_dropWhile, List.takeWhile_eq_self_iff.2 (forall_ne_of_notMem h),
    List.dropWhile_eq_nil_iff.2 (forall_ne_of_notMem h)]

theorem span_append_cons (h : c ∉ cs) (ds : List Char) :
    (cs ++ c :: ds).span (· ≠ c) = (cs, c :: ds) := by
  rw [List.span_eq_takeWhile_dropWhile, List.takeWhile_append_of_pos (forall_ne_of_notMem h),
    List.dropWhile_append_of_pos (forall_ne_of_notMem h), List.takeWhile_cons_of_neg (by simp),
    List.dropWhile_cons_of_neg (by simp), List.append_nil]

/-- A text is without a character, or is cut at the first place of it. -/
theorem notMem_or_eq_append_cons (c : Char) (cs : List Char) :
    c ∉ cs ∨ ∃ front rest, cs = front ++ c :: rest ∧ c ∉ front := by
  by_cases hmem : c ∈ cs
  · exact Or.inr (List.eq_append_cons_of_mem hmem)
  · exact Or.inl hmem

/-- A text has one last place of a character. -/
theorem eq_of_append_cons {front rest front' rest' : List Char} (hrest : c ∉ rest)
    (hrest' : c ∉ rest') (h : front ++ c :: rest = front' ++ c :: rest') :
    front = front' ∧ rest = rest' := by
  rcases List.append_eq_append_iff.1 h with ⟨ds, rfl, hds⟩ | ⟨ds, rfl, hds⟩
  · cases ds with
    | nil => exact ⟨(List.append_nil _).symm, (List.cons.inj hds).2⟩
    | cons d ds =>
      obtain ⟨rfl, rfl⟩ := List.cons.inj hds
      exact absurd (List.mem_append_right _ List.mem_cons_self) hrest
  · cases ds with
    | nil => exact ⟨List.append_nil _, (List.cons.inj hds).2.symm⟩
    | cons d ds =>
      obtain ⟨rfl, rfl⟩ := List.cons.inj hds
      exact absurd (List.mem_append_right _ List.mem_cons_self) hrest'

end Dialogue.Text
