import Mathlib.Data.List.Nodup

/-!
# Repetitions in a list

`List.eraseDups` keeps of equal entries the one that stands first.
-/

namespace Dialogue

variable {α : Type} [DecidableEq α] {r : α → α → Prop}

/-- What is left once repetitions are dropped stands in the same order, and strictly so. -/
theorem pairwise_eraseDups {xs : List α} (h : xs.Pairwise r) :
    xs.eraseDups.Pairwise fun x y => r x y ∧ x ≠ y := by
  match xs with
  | [] => exact List.Pairwise.nil
  | x :: xs =>
    obtain ⟨hfirst, hrest⟩ := List.pairwise_cons.1 h
    rw [List.eraseDups_cons]
    refine List.pairwise_cons.2 ⟨fun y hy => ?_, pairwise_eraseDups (hrest.filter _)⟩
    rw [List.mem_eraseDups, List.mem_filter] at hy
    exact ⟨hfirst y hy.1, fun heq => by simp [heq] at hy⟩
termination_by xs.length
decreasing_by exact Nat.lt_succ_of_le (List.length_filter_le _ _)

theorem nodup_eraseDups (xs : List α) : xs.eraseDups.Nodup :=
  have hany : xs.Pairwise fun _ _ => True := List.pairwise_of_forall fun _ _ => trivial
  (pairwise_eraseDups hany).imp And.right

end Dialogue
