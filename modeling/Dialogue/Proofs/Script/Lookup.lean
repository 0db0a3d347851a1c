import Dialogue.Proofs.Script.Grouping
import Mathlib.Data.List.Basic

/-!
# Rows of a script

A script holds the rows it was made of and no others: what is found at an address are the rows with
it, in playing order, and there is one (`of_lookup_eq_ok`). `rowsAt` are the rows found there.
-/

namespace Dialogue

theorem perm_inPlayingOrder (rows : List Row) : (inPlayingOrder rows).Perm rows := by
  unfold inPlayingOrder
  split
  · exact List.mergeSort_perm _ _
  · exact List.Perm.refl _

theorem mem_inPlayingOrder {rows : List Row} {row : Row} :
    row ∈ inPlayingOrder rows ↔ row ∈ rows :=
  (perm_inPlayingOrder rows).mem_iff

namespace Script

variable {rows found : List Row} {a : Address} {s : Script} {row : Row}

/-- Where something is found, it is the rows with the address, and there is one. -/
theorem of_lookup_eq_ok (h : (ofRows rows).lookup a = .ok found) :
    ¬ a.scene < 0 ∧ found = inPlayingOrder (addressed rows a) ∧ found ≠ [] := by
  rw [lookup_ofRows_eq] at h
  split at h
  · cases h
  · rename_i hthere
    rw [not_or] at hthere
    cases h
    refine ⟨hthere.1, rfl, fun hnil => hthere.2 ?_⟩
    have hperm := perm_inPlayingOrder (addressed rows a)
    rwa [hnil, List.nil_perm] at hperm

/-- A row that is found in a script is one of those it was made of. -/
theorem mem_of_lookup (hlookup : (ofRows rows).lookup a = .ok found) (hrow : row ∈ found) :
    row ∈ rows := by
  obtain ⟨-, rfl, -⟩ := of_lookup_eq_ok hlookup
  exact List.mem_of_mem_filter (mem_inPlayingOrder.1 hrow)

/-- The rows at an address, or none. -/
def rowsAt (script : Script) (a : Address) : List Row :=
  (script.lookup a).toOption.getD []

theorem rowsAt_of_lookup (h : s.lookup a = .ok found) : s.rowsAt a = found := by
  rw [rowsAt, h]
  rfl

theorem lookup_of_mem_rowsAt (h : row ∈ s.rowsAt a) : s.lookup a = .ok (s.rowsAt a) := by
  cases hlookup : s.lookup a with
  | ok found => rw [rowsAt_of_lookup hlookup]
  | error e =>
    rw [rowsAt, hlookup] at h
    cases h

theorem mem_of_mem_rowsAt (h : row ∈ (ofRows rows).rowsAt a) : row ∈ rows :=
  mem_of_lookup (lookup_of_mem_rowsAt h) h

end Script

end Dialogue
