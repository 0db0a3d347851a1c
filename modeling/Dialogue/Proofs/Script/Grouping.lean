import Dialogue.Script.Basic
import Mathlib.Data.List.Induction
import Mathlib.Data.List.Sort

/-!
# Groups of a script

What a script holds at an address is decided by the rows with that address alone, and by their
order in the source: rows of other addresses, before, behind and between them, change nothing.

* `Ascending` says that the groups stand in the order of their addresses, one for each. It is the
  invariant under which `held`, the view of the groups by address, follows each row that is added:
  `held_insert` is one row, `held_foldl_add` any number of them.
* `Sorts` is the stable order by places: sorted, and rows of one place as they were.
  `sorts_iff` says that there is one such order, and that it is the playing order.
* `Script.lookup_ofRows` puts this together.
-/

namespace Dialogue

variable {rows xs ys : List Row} {gs : List Group} {r : Row} {a b c : Address}

/-! ## The order of addresses -/

namespace Address

theorem le_iff : a.le b = true ↔ a.scene.toInt < b.scene.toInt ∨
    a.scene.toInt = b.scene.toInt ∧ a.branch.toInt ≤ b.branch.toInt := by
  unfold le
  by_cases hscene : a.scene = b.scene
  · rw [if_pos hscene, hscene, decide_eq_true_eq, Int32.le_iff_toInt_le]
    omega
  · have hne : a.scene.toInt ≠ b.scene.toInt := fun h => hscene (Int32.toInt_inj.1 h)
    rw [if_neg hscene, decide_eq_true_eq, Int32.le_iff_toInt_le]
    omega

theorem eq_iff : a = b ↔ a.scene.toInt = b.scene.toInt ∧ a.branch.toInt = b.branch.toInt := by
  cases a
  cases b
  rw [mk.injEq, Int32.toInt_inj, Int32.toInt_inj]

/-- The address `a` comes before `b`. -/
def Before (a b : Address) : Prop :=
  a.le b = true ∧ a ≠ b

theorem Before.trans (hab : a.Before b) (hbc : b.Before c) : a.Before c := by
  obtain ⟨hab, hne⟩ := hab
  obtain ⟨hbc, _⟩ := hbc
  rw [le_iff] at hab hbc
  rw [Ne, eq_iff] at hne
  constructor
  · rw [le_iff]
    omega
  · rw [Ne, eq_iff]
    omega

theorem before_of_not_le (h : a.le b = false) : b.Before a := by
  rw [← Bool.not_eq_true, le_iff] at h
  constructor
  · rw [le_iff]
    omega
  · rw [Ne, eq_iff]
    omega

end Address

/-! ## Groups by address -/

/-- The rows with an address, in source order. -/
def addressed (rows : List Row) (a : Address) : List Row :=
  rows.filter fun r => r.address = a

theorem addressed_concat (rows : List Row) (r : Row) (a : Address) :
    addressed (rows ++ [r]) a =
      if r.address = a then addressed rows a ++ [r] else addressed rows a := by
  by_cases h : r.address = a <;> simp [addressed, h]

theorem addressed_eq_nil_iff : addressed rows a = [] ↔ ∀ r ∈ rows, r.address ≠ a := by
  simp [addressed]

namespace Script

/-- Groups stand in the order of their addresses, at most one for each. -/
def Ascending (gs : List Group) : Prop :=
  gs.Pairwise fun g g' => g.address.Before g'.address

/-- The rows that groups hold at an address, if one of them is for it. -/
def held (gs : List Group) (a : Address) : Option (List Row) :=
  (gs.find? fun g => g.address = a).map Group.rows

theorem held_cons (g : Group) (gs : List Group) (a : Address) :
    held (g :: gs) a = if g.address = a then some g.rows else held gs a := by
  by_cases h : g.address = a <;> simp [held, h]

theorem held_eq_none (h : ∀ g ∈ gs, g.address ≠ a) : held gs a = none := by
  rw [held, List.find?_eq_none.2, Option.map_none]
  intro g hg
  simpa using h g hg

/-- The groups after a row is added are for its address and for those they were for. -/
theorem address_of_mem_insert {g : Group} (h : g ∈ insert r gs) :
    g.address = r.address ∨ ∃ g' ∈ gs, g'.address = g.address := by
  induction gs with
  | nil =>
    left
    rw [List.mem_singleton.1 h]
  | cons g' gs ih =>
    unfold insert at h
    split at h
    · rcases List.mem_cons.1 h with rfl | h
      · exact Or.inr ⟨g', List.mem_cons_self, rfl⟩
      · exact Or.inr ⟨g, List.mem_cons_of_mem _ h, rfl⟩
    · split at h
      · rcases List.mem_cons.1 h with rfl | h
        · exact Or.inl rfl
        · exact Or.inr ⟨g, h, rfl⟩
      · rcases List.mem_cons.1 h with rfl | h
        · exact Or.inr ⟨g, List.mem_cons_self, rfl⟩
        · apply (ih h).imp_right
          rintro ⟨g'', hg'', heq⟩
          exact ⟨g'', List.mem_cons_of_mem _ hg'', heq⟩

theorem ascending_insert (h : Ascending gs) (r : Row) : Ascending (insert r gs) := by
  induction gs with
  | nil => exact List.pairwise_singleton _ _
  | cons g gs ih =>
    obtain ⟨hfirst, hrest⟩ := List.pairwise_cons.1 h
    unfold insert
    split
    · exact List.pairwise_cons.2 ⟨hfirst, hrest⟩
    · rename_i hne
      split
      · -- the new group is the first, so it comes before the old first group and all behind that
        rename_i hle
        have hbefore : r.address.Before g.address := ⟨hle, hne⟩
        refine List.pairwise_cons.2 ⟨?_, h⟩
        intro g' hg'
        rcases List.mem_cons.1 hg' with rfl | hg'
        · exact hbefore
        · exact hbefore.trans (hfirst g' hg')
      · rename_i hle
        refine List.pairwise_cons.2 ⟨?_, ih hrest⟩
        intro g' hg'
        rcases address_of_mem_insert hg' with heq | ⟨g'', hg'', heq⟩
        · rw [heq]
          exact Address.before_of_not_le (by simpa using hle)
        · rw [← heq]
          exact hfirst g'' hg''

/-- A row is added behind those with its address, and nothing else changes. -/
theorem held_insert (h : Ascending gs) (r : Row) (a : Address) :
    held (insert r gs) a =
      if r.address = a then some ((held gs a).getD [] ++ [r]) else held gs a := by
  induction gs with
  | nil => exact held_cons _ _ _
  | cons g gs ih =>
    obtain ⟨hfirst, hrest⟩ := List.pairwise_cons.1 h
    unfold insert
    split
    · rename_i heq
      rw [held_cons, held_cons, ← heq]
      by_cases ha : r.address = a
      · rw [if_pos ha, if_pos ha, if_pos ha]
        rfl
      · rw [if_neg ha, if_neg ha, if_neg ha]
    · rename_i hne
      split
      · rename_i hle
        rw [held_cons]
        by_cases ha : r.address = a
        · -- all groups are for addresses behind that of the row
          have hnone : held (g :: gs) a = none := by
            apply held_eq_none
            intro g' hg'
            subst ha
            rcases List.mem_cons.1 hg' with rfl | hg'
            · exact fun heq => hne heq.symm
            · have hbefore := Address.Before.trans ⟨hle, hne⟩ (hfirst g' hg')
              exact fun heq => hbefore.2 heq.symm
          rw [if_pos ha, if_pos ha, hnone]
          rfl
        · rw [if_neg ha, if_neg ha]
      · rw [held_cons, held_cons, ih hrest]
        by_cases hg : g.address = a
        · have ha : r.address ≠ a := hg ▸ hne
          rw [if_pos hg, if_neg ha, if_pos hg]
        · rw [if_neg hg, if_neg hg]

theorem ascending_foldl_add (rows : List Row) : Ascending (rows.foldl add {}).groups := by
  induction rows using List.reverseRecOn with
  | nil => exact List.Pairwise.nil
  | append_singleton rows r ih =>
    rw [List.foldl_concat, add]
    split
    · exact ih
    · exact ascending_insert ih r

/-- Rows are collected under their addresses, in source order; those of scenes below zero are
dropped. -/
theorem held_foldl_add (rows : List Row) (a : Address) :
    held (rows.foldl add {}).groups a =
      if a.scene < 0 ∨ addressed rows a = [] then none else some (addressed rows a) := by
  induction rows using List.reverseRecOn with
  | nil => simp [held, addressed]
  | append_singleton rows r ih =>
    rw [List.foldl_concat, add, addressed_concat]
    by_cases ha : r.address = a
    · have hscene : r.scene = a.scene := congrArg Address.scene ha
      rw [if_pos ha, hscene]
      by_cases hneg : a.scene < 0
      · rw [if_pos hneg, if_pos (Or.inl hneg)]
        show held (rows.foldl add {}).groups a = none
        rw [ih, if_pos (Or.inl hneg)]
      · rw [if_neg hneg, if_neg (by simp [hneg])]
        show held (insert r (rows.foldl add {}).groups) a = _
        rw [held_insert (ascending_foldl_add rows), if_pos ha, ih]
        by_cases hnil : addressed rows a = []
        · rw [if_pos (Or.inr hnil), hnil]
          rfl
        · rw [if_neg (by simp [hneg, hnil])]
          rfl
    · rw [if_neg ha]
      split
      · exact ih
      · show held (insert r (rows.foldl add {}).groups) a = _
        rw [held_insert (ascending_foldl_add rows), if_neg ha, ih]

theorem held_arrange (s : Script) (a : Address) :
    held s.arrange.groups a = (held s.groups a).map inPlayingOrder := by
  show held (s.groups.map _) a = _
  unfold held
  rw [List.find?_map, Option.map_map, Option.map_map]
  rfl

theorem lookup_eq (s : Script) (a : Address) : s.lookup a =
    match held s.groups a with
    | some rows => .ok rows
    | none => .error ⟨a⟩ := by
  unfold lookup find? held
  cases s.groups.find? fun g => g.address = a <;> rfl

/-- The rows found at an address are those with the address, in playing order. -/
theorem lookup_ofRows_eq (rows : List Row) (a : Address) : (ofRows rows).lookup a =
    if a.scene < 0 ∨ addressed rows a = [] then .error ⟨a⟩
    else .ok (inPlayingOrder (addressed rows a)) := by
  rw [lookup_eq, ofRows, held_arrange, held_foldl_add]
  by_cases h : a.scene < 0 ∨ addressed rows a = []
  · rw [if_pos h, if_pos h]
    rfl
  · rw [if_neg h, if_neg h]
    rfl

end Script

/-! ## The stable order by places -/

/-- Places of rows do not descend. -/
def Ordered (xs : List Row) : Prop :=
  xs.Pairwise fun r r' => ∀ i ∈ r.seq, ∀ j ∈ r'.seq, i ≤ j

/-- The rows of `xs` in the order of their places, rows of one place in the order of `xs`. -/
structure Sorts (xs ys : List Row) : Prop where
  perm : ys.Perm xs
  ordered : Ordered ys
  stable : ∀ place, ys.filter (·.seq = place) = xs.filter (·.seq = place)

/-- Whether `a` may stand before `b`, for rows with places. -/
theorem notAfter_eq_true_iff {r r' : Row} (h : r.seq ≠ none) (h' : r'.seq ≠ none) :
    r.notAfter r' = true ↔ ∀ i ∈ r.seq, ∀ j ∈ r'.seq, i ≤ j := by
  unfold Row.notAfter
  cases hr : r.seq with
  | none => exact absurd hr h
  | some i =>
    cases hr' : r'.seq with
    | none => exact absurd hr' h'
    | some j => simp

theorem notAfter_trans (x y z : Row) (hxy : x.notAfter y = true) (hyz : y.notAfter z = true) :
    x.notAfter z = true := by
  unfold Row.notAfter at *
  cases hx : x.seq with
  | none => rfl
  | some i =>
    cases hy : y.seq with
    | none => simp [hx, hy] at hxy
    | some j =>
      cases hz : z.seq with
      | none => simp [hy, hz] at hyz
      | some k =>
        simp only [hx, hy, hz, decide_eq_true_eq, UInt32.le_iff_toNat_le] at *
        omega

theorem notAfter_total (x y : Row) : (x.notAfter y || y.notAfter x) = true := by
  unfold Row.notAfter
  cases x.seq with
  | none => rfl
  | some i =>
    cases y.seq with
    | none => rfl
    | some j =>
      simp only [Bool.or_eq_true, decide_eq_true_eq, UInt32.le_iff_toNat_le]
      omega

/-- Rows of one place keep their order when they are sorted. -/
theorem filter_mergeSort (xs : List Row) (place : Option UInt32) :
    (xs.mergeSort Row.notAfter).filter (·.seq = place) = xs.filter (·.seq = place) := by
  have hequal : (xs.filter (·.seq = place)).Pairwise fun r r' => r.notAfter r' = true := by
    rw [List.pairwise_filter]
    refine List.pairwise_of_forall ?_
    intro r r' hr hr'
    rw [decide_eq_true_eq] at hr hr'
    unfold Row.notAfter
    rw [hr, hr']
    cases place <;> simp
  have hsublist : (xs.filter (·.seq = place)).Sublist (xs.mergeSort Row.notAfter) :=
    List.sublist_mergeSort notAfter_trans notAfter_total hequal List.filter_sublist
  have hfilter := hsublist.filter (·.seq = place)
  simp only [List.filter_filter, Bool.and_self] at hfilter
  refine (hfilter.eq_of_length_le ?_).symm
  exact ((List.mergeSort_perm xs Row.notAfter).filter _).length_eq.le

theorem sorts_mergeSort (hall : ∀ r ∈ xs, r.seq ≠ none) : Sorts xs (xs.mergeSort Row.notAfter) := by
  constructor
  · exact List.mergeSort_perm _ _
  · have hsorted := List.pairwise_mergeSort notAfter_trans notAfter_total xs
    refine hsorted.imp_of_mem ?_
    intro r r' hr hr' hle
    exact (notAfter_eq_true_iff (hall r (List.mem_mergeSort.1 hr))
      (hall r' (List.mem_mergeSort.1 hr'))).1 hle
  · exact filter_mergeSort xs

theorem mem_of_filter_eq (h : ∀ place, xs.filter (·.seq = place) = ys.filter (·.seq = place))
    (hr : r ∈ xs) : r ∈ ys := by
  have hfilter : r ∈ xs.filter (·.seq = r.seq) := List.mem_filter.2 ⟨hr, decide_eq_true rfl⟩
  rw [h] at hfilter
  exact (List.mem_filter.1 hfilter).1

/-- The first place of rows in order is not behind any other. -/
theorem Ordered.le_of_mem {i j : UInt32} (h : Ordered (r :: xs)) (hi : r.seq = some i) {r' : Row}
    (hr' : r' ∈ r :: xs) (hj : r'.seq = some j) : i ≤ j := by
  rcases List.mem_cons.1 hr' with rfl | hr'
  · rw [hi] at hj
    rw [Option.some.inj hj]
    exact UInt32.le_refl j
  · exact (List.pairwise_cons.1 h).1 r' hr' i hi j hj

/-- Rows in order are known from the rows of each place. -/
theorem Ordered.eq_of_filter_eq (hall : ∀ r ∈ xs, r.seq ≠ none) (hx : Ordered xs) (hy : Ordered ys)
    (h : ∀ place, xs.filter (·.seq = place) = ys.filter (·.seq = place)) : xs = ys := by
  induction xs generalizing ys with
  | nil =>
    cases ys with
    | nil => rfl
    | cons y ys => cases mem_of_filter_eq (fun place => (h place).symm) List.mem_cons_self
  | cons x xs ih =>
    cases ys with
    | nil => cases mem_of_filter_eq h List.mem_cons_self
    | cons y ys =>
      have hxy : x ∈ y :: ys := mem_of_filter_eq h List.mem_cons_self
      have hyx : y ∈ x :: xs := mem_of_filter_eq (fun place => (h place).symm) List.mem_cons_self
      have hplace : x.seq = y.seq := by
        obtain ⟨i, hi⟩ := Option.ne_none_iff_exists'.1 (hall x List.mem_cons_self)
        obtain ⟨j, hj⟩ := Option.ne_none_iff_exists'.1 (hall y hyx)
        rw [hi, hj, UInt32.le_antisymm (hx.le_of_mem hi hyx hj) (hy.le_of_mem hj hxy hi)]
      -- both are the first row of their place
      have hhead := h x.seq
      rw [List.filter_cons_of_pos (by simp), List.filter_cons_of_pos (by simp [hplace])] at hhead
      obtain ⟨rfl, hfirst⟩ := List.cons.inj hhead
      have htails : ∀ place, xs.filter (·.seq = place) = ys.filter (·.seq = place) := by
        intro place
        by_cases hx : x.seq = place
        · subst hx
          exact hfirst
        · have hcons := h place
          rwa [List.filter_cons_of_neg (by simpa using hx),
            List.filter_cons_of_neg (by simpa using hx)] at hcons
      rw [ih (fun r hr => hall r (List.mem_cons_of_mem _ hr)) (List.pairwise_cons.1 hx).2
        (List.pairwise_cons.1 hy).2 htails]

/-- Rows with places have one stable order, the one in which they are played. -/
theorem sorts_iff (hall : ∀ r ∈ xs, r.seq ≠ none) : Sorts xs ys ↔ ys = inPlayingOrder xs := by
  have hsome : xs.all (fun r => r.seq.isSome) = true := by
    rw [List.all_eq_true]
    exact fun r hr => Option.isSome_iff_ne_none.2 (hall r hr)
  have hsorts := sorts_mergeSort hall
  rw [inPlayingOrder, if_pos hsome]
  constructor
  · intro h
    refine h.ordered.eq_of_filter_eq ?_ hsorts.ordered fun place => ?_
    · exact fun r hr => hall r (h.perm.mem_iff.1 hr)
    · rw [h.stable, hsorts.stable]
  · rintro rfl
    exact hsorts

theorem inPlayingOrder_of_none (h : ∃ r ∈ xs, r.seq = none) : inPlayingOrder xs = xs := by
  obtain ⟨r, hr, hseq⟩ := h
  apply if_neg
  intro hall
  have hsome := List.all_eq_true.1 hall r hr
  rw [hseq] at hsome
  cases hsome

namespace Script

/-- What is found at an address. There is nothing exactly if the scene is below zero or no row has
the address. Otherwise it is the rows with the address, in source order if one of them has no place,
and in the one stable order of their places if all have one. Other rows, and where they stand, do
not count. -/
theorem lookup_ofRows (rows : List Row) (a : Address) :
    ((ofRows rows).lookup a = .error ⟨a⟩ ↔ a.scene < 0 ∨ ∀ r ∈ rows, r.address ≠ a) ∧
      (¬ (a.scene < 0 ∨ ∀ r ∈ rows, r.address ≠ a) →
        ((∃ r ∈ addressed rows a, r.seq = none) →
          (ofRows rows).lookup a = .ok (addressed rows a)) ∧
        ((∀ r ∈ addressed rows a, r.seq ≠ none) →
          ∃ found, (ofRows rows).lookup a = .ok found ∧
            ∀ sorted, Sorts (addressed rows a) sorted ↔ sorted = found)) ∧
      ∀ others, addressed others a = addressed rows a →
        (ofRows others).lookup a = (ofRows rows).lookup a := by
  rw [← addressed_eq_nil_iff]
  refine ⟨?missing, ?there, ?others⟩
  case missing =>
    rw [lookup_ofRows_eq]
    by_cases h : a.scene < 0 ∨ addressed rows a = []
    · rw [if_pos h]
      exact iff_of_true rfl h
    · rw [if_neg h]
      exact iff_of_false (fun heq => nomatch heq) h
  case there =>
    intro h
    rw [lookup_ofRows_eq, if_neg h]
    constructor
    · intro hnone
      rw [inPlayingOrder_of_none hnone]
    · intro hall
      exact ⟨_, rfl, fun sorted => sorts_iff hall⟩
  case others =>
    intro others hothers
    rw [lookup_ofRows_eq, lookup_ofRows_eq, hothers]

/-- Two groups whose rows alternate in the source: one with two rows at one place, one with a row
without a place. -/
theorem lookup_ofRows_alternating :
    let row (scene : Int32) (seq : Option UInt32) (line : String) : Row :=
      { scene, seq, command := .say, line }
    let rows := [row 1 (some 2) "b", row 2 (some 2) "x", row (-1) none "dropped",
      row 1 (some 2) "c", row 2 none "y", row 1 (some 1) "a", row 2 (some 1) "z"]
    (ofRows rows).lookup ⟨-1, 0⟩ = .error ⟨⟨-1, 0⟩⟩ ∧
      (ofRows rows).lookup ⟨2, 0⟩ =
        .ok [row 2 (some 2) "x", row 2 none "y", row 2 (some 1) "z"] ∧
      ∀ sorted, Sorts [row 1 (some 2) "b", row 1 (some 2) "c", row 1 (some 1) "a"] sorted ↔
        sorted = [row 1 (some 1) "a", row 1 (some 2) "b", row 1 (some 2) "c"] := by
  intro row rows
  obtain ⟨found, hfound, hsorts⟩ :=
    ((lookup_ofRows rows ⟨1, 0⟩).2.1 (by decide +kernel)).2 (by decide +kernel)
  have hsorted : Sorts [row 1 (some 2) "b", row 1 (some 2) "c", row 1 (some 1) "a"]
      [row 1 (some 1) "a", row 1 (some 2) "b", row 1 (some 2) "c"] := by
    refine ⟨by decide +kernel, by simp [Ordered, row], fun place => ?_⟩
    by_cases hone : some 1 = place
    · subst hone
      decide +kernel
    · simp [row, List.filter_cons, hone]
  obtain rfl := (hsorts _).1 hsorted
  refine ⟨?_, ?_, hsorts⟩
  · exact (lookup_ofRows rows ⟨-1, 0⟩).1.2 (by decide +kernel)
  · exact ((lookup_ofRows rows ⟨2, 0⟩).2.1 (by decide +kernel)).1 (by decide +kernel)

end Script

end Dialogue
