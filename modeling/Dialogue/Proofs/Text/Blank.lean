import Dialogue.Text.Blank
import Mathlib.Data.List.DropRight
import Mathlib.Data.List.TakeWhile

/-!
# Trimmed texts

What trimming leaves has no blanks at its ends, and of such a text it takes nothing.

* `trim_eq_self` and `trim_trim` say so.
* `trim_eq_nil_iff`: nothing is left of a blank text, and of no other.
* `trim_append_blank` and `trim_blank_append`: blanks behind a text do not count, nor do those in
  front of it.
-/

namespace Dialogue.Text

/-- A text without blanks at its ends. -/
def Trimmed (s : String) : Prop :=
  strip s = s

instance (s : String) : Decidable (Trimmed s) :=
  inferInstanceAs (Decidable (strip s = s))

/-! ## Blank texts -/

theorem trimEnd_eq_nil_iff (cs : List Char) : trimEnd cs = [] ↔ allBlank cs = true := by
  simp only [trimEnd, allBlank, List.reverse_eq_nil_iff, List.dropWhile_eq_nil_iff,
    List.mem_reverse, List.all_eq_true]

/-- A text is blank exactly when nothing of it is left after trimming. -/
theorem trim_eq_nil_iff (cs : List Char) : trim cs = [] ↔ allBlank cs = true := by
  rw [trim, trimEnd_eq_nil_iff]
  induction cs with
  | nil => rfl
  | cons c cs ih => cases h : isBlank c <;> simp_all [allBlank]

/-! ## Trimmed texts -/

theorem dropWhile_eq_self {cs : List Char} (h : ∀ c, cs.head? = some c → isBlank c = false) :
    cs.dropWhile isBlank = cs := by
  cases cs with
  | nil => rfl
  | cons c cs => rw [List.dropWhile_cons_of_neg (by simp [h c rfl])]

/-- Of blanks in front of a text that has none, the text is left. -/
theorem dropWhile_blank_append {blanks cs : List Char} (hblanks : allBlank blanks = true)
    (h : ∀ c ∈ cs, isBlank c = false) : (blanks ++ cs).dropWhile isBlank = cs := by
  rw [List.dropWhile_append_of_pos (List.all_eq_true.1 hblanks),
    dropWhile_eq_self fun c hc => h c (List.mem_of_head? hc)]

theorem head?_dropWhile {cs : List Char} {c : Char}
    (h : (cs.dropWhile isBlank).head? = some c) : isBlank c = false := by
  have hnot := List.head?_dropWhile_not isBlank cs
  rw [h] at hnot
  exact hnot

theorem trimEnd_eq_self {cs : List Char} (h : ∀ c, cs.getLast? = some c → isBlank c = false) :
    trimEnd cs = cs := by
  have hreverse : cs.reverse.dropWhile isBlank = cs.reverse := by
    apply dropWhile_eq_self
    intro c hc
    rw [List.head?_reverse] at hc
    exact h c hc
  rw [trimEnd, hreverse, List.reverse_reverse]

/-- A text that neither starts nor ends with a blank is left as it is. -/
theorem trim_eq_self {cs : List Char} (hhead : ∀ c, cs.head? = some c → isBlank c = false)
    (hlast : ∀ c, cs.getLast? = some c → isBlank c = false) : trim cs = cs := by
  rw [trim, dropWhile_eq_self hhead, trimEnd_eq_self hlast]

theorem head?_trim {cs : List Char} {c : Char} (h : (trim cs).head? = some c) :
    isBlank c = false := by
  -- what is trimmed at the end is a part from the front of what is trimmed at the start
  obtain ⟨tail, htail⟩ : trim cs <+: cs.dropWhile isBlank := List.rdropWhile_prefix _ _
  have hhead : (cs.dropWhile isBlank).head? = some c := by
    rw [← htail, List.head?_append, h]
    rfl
  exact head?_dropWhile hhead

theorem getLast?_trim {cs : List Char} {c : Char} (h : (trim cs).getLast? = some c) :
    isBlank c = false := by
  rw [trim, trimEnd, List.getLast?_reverse] at h
  exact head?_dropWhile h

theorem trim_trim (cs : List Char) : trim (trim cs) = trim cs :=
  trim_eq_self (fun _ => head?_trim) (fun _ => getLast?_trim)

theorem trimmed_strip (s : String) : Trimmed (strip s) := by
  simp [Trimmed, strip, trim_trim]

/-- Blanks behind a text do not count. -/
theorem trim_append_blank (cs : List Char) {blanks : List Char} (h : allBlank blanks = true) :
    trim (cs ++ blanks) = trim cs := by
  by_cases hcs : allBlank cs = true
  · have hall : allBlank (cs ++ blanks) = true := by simp_all [allBlank]
    rw [(trim_eq_nil_iff _).2 hall, (trim_eq_nil_iff _).2 hcs]
  · have hdrop : (cs ++ blanks).dropWhile isBlank = cs.dropWhile isBlank ++ blanks := by
      rw [List.dropWhile_append, if_neg]
      rwa [List.isEmpty_iff, List.dropWhile_eq_nil_iff, ← List.all_eq_true]
    have hblanks : ∀ c ∈ blanks.reverse, isBlank c = true := by
      intro c hc
      exact List.all_eq_true.1 h c (List.mem_reverse.1 hc)
    rw [trim, hdrop, trim, trimEnd, trimEnd, List.reverse_append,
      List.dropWhile_append_of_pos hblanks]

/-- Blanks in front of a text do not count. -/
theorem trim_blank_append {blanks : List Char} (h : allBlank blanks = true) (cs : List Char) :
    trim (blanks ++ cs) = trim cs := by
  rw [trim, List.dropWhile_append_of_pos (List.all_eq_true.1 h), trim]

end Dialogue.Text
