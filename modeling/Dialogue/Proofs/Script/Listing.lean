import Dialogue.Proofs.Repeats
import Dialogue.Proofs.Script.Lookup
import Mathlib.Algebra.GroupWithZero.Nat
import Mathlib.Data.List.Perm.Basic

/-!
# What a script lists

The scenes and branches that a script lists are the addresses at which it holds rows. Together with
the rows that were dropped, the rows held there are all rows that the script was made of, each as
often as it came.

* `Script.addresses` are the listed addresses. `perm_addresses`: they are those of the groups, so a
  fact about listed rows is one about `rowsIn` of the groups.
* `perm_rowsIn_insert` is one row that is added, `perm_rowsIn_ofRows` all of them.
* `addressed_flatMap` and `inPlayingOrder_inPlayingOrder`: a script that is made of the listed rows
  of another one finds the same groups, and leaves their rows in the order they are in.
* `Script.Enumerates` puts this together, and `Script.ofRows_enumerates` proves it.
-/

namespace Dialogue

variable {rows : List Row} {gs : List Group} {s : Script} {scene branch : Int32} {a : Address}

namespace Script

/-! ## Listed addresses -/

/-- The addresses that a script lists: each branch of each scene. -/
def addresses (s : Script) : List Address :=
  s.scenes.flatMap fun scene => (s.branches scene).map fun branch => ⟨scene, branch⟩

theorem mem_scenes : scene ∈ s.scenes ↔ ∃ g ∈ s.groups, g.address.scene = scene := by
  rw [scenes, List.mem_eraseDups, List.mem_map]

theorem mem_branches :
    branch ∈ s.branches scene ↔ ∃ g ∈ s.groups, g.address = ⟨scene, branch⟩ := by
  simp only [branches, List.mem_map, List.mem_filter, decide_eq_true_eq, and_assoc]
  constructor
  · rintro ⟨g, hg, rfl, rfl⟩
    exact ⟨g, hg, rfl⟩
  · rintro ⟨g, hg, haddress⟩
    exact ⟨g, hg, congrArg Address.scene haddress, congrArg Address.branch haddress⟩

theorem mem_addresses : a ∈ s.addresses ↔ ∃ g ∈ s.groups, g.address = a := by
  simp only [addresses, List.mem_flatMap, List.mem_map, mem_branches]
  constructor
  · rintro ⟨scene, -, branch, hgroup, rfl⟩
    exact hgroup
  · rintro ⟨g, hg, rfl⟩
    exact ⟨_, mem_scenes.2 ⟨g, hg, rfl⟩, _, ⟨g, hg, rfl⟩, rfl⟩

theorem scenes_eq_nil_iff : s.scenes = [] ↔ s.groups = [] := by
  constructor
  · intro hnil
    rw [List.eq_nil_iff_forall_not_mem] at hnil ⊢
    exact fun g hg => hnil _ (mem_scenes.2 ⟨g, hg, rfl⟩)
  · intro hnil
    rw [scenes, hnil]
    rfl

theorem contains_iff : s.contains a = true ↔ ∃ g ∈ s.groups, g.address = a := by
  rw [contains, find?, List.find?_isSome]
  simp

/-! ## Their order -/

theorem ascending_ofRows (rows : List Row) : Ascending (ofRows rows).groups :=
  List.pairwise_map.2 (ascending_foldl_add rows)

theorem pairwise_scenes (h : Ascending s.groups) : s.scenes.Pairwise (· < ·) := by
  have hle : (s.groups.map (·.address.scene)).Pairwise (· ≤ ·) := by
    refine List.pairwise_map.2 (h.imp fun {g g'} hbefore => ?_)
    have hle := Address.le_iff.1 hbefore.1
    rw [Int32.le_iff_toInt_le]
    omega
  refine (pairwise_eraseDups hle).imp fun {x y} hxy => ?_
  obtain ⟨hle, hne⟩ := hxy
  rw [Ne, ← Int32.toInt_inj] at hne
  rw [Int32.le_iff_toInt_le] at hle
  rw [Int32.lt_iff_toInt_lt]
  omega

theorem pairwise_branches (h : Ascending s.groups) (scene : Int32) :
    (s.branches scene).Pairwise (· < ·) := by
  rw [branches, List.pairwise_map, List.pairwise_filter]
  refine h.imp fun {g g'} hbefore hg hg' => ?_
  rw [decide_eq_true_eq] at hg hg'
  have hle := Address.le_iff.1 hbefore.1
  have hne := hbefore.2
  rw [Ne, Address.eq_iff] at hne
  rw [hg, hg'] at hle hne
  rw [Int32.lt_iff_toInt_lt]
  omega

theorem before_of_scene_lt {b : Address} (h : a.scene < b.scene) : a.Before b := by
  rw [Int32.lt_iff_toInt_lt] at h
  constructor
  · rw [Address.le_iff]
    omega
  · rw [Ne, Address.eq_iff]
    omega

theorem before_of_branch_lt {b : Address} (hscene : a.scene = b.scene)
    (h : a.branch < b.branch) : a.Before b := by
  rw [Int32.lt_iff_toInt_lt] at h
  rw [← Int32.toInt_inj] at hscene
  constructor
  · rw [Address.le_iff]
    omega
  · rw [Ne, Address.eq_iff]
    omega

/-- Addresses are listed in their order, each once. -/
theorem pairwise_addresses (h : Ascending s.groups) : s.addresses.Pairwise Address.Before := by
  rw [addresses, List.pairwise_flatMap]
  constructor
  · intro scene _
    refine List.pairwise_map.2 ((pairwise_branches h scene).imp fun hlt => ?_)
    exact before_of_branch_lt rfl hlt
  · refine (pairwise_scenes h).imp fun hlt a ha b hb => before_of_scene_lt ?_
    obtain ⟨branch, -, rfl⟩ := List.mem_map.1 ha
    obtain ⟨branch', -, rfl⟩ := List.mem_map.1 hb
    exact hlt

theorem nodup_addresses (h : Ascending s.groups) : s.addresses.Nodup :=
  (pairwise_addresses h).imp And.right

/-- The addresses that are listed are those of the groups. -/
theorem perm_addresses (h : Ascending s.groups) :
    s.addresses.Perm (s.groups.map Group.address) := by
  have hnodup : (s.groups.map Group.address).Nodup := List.pairwise_map.2 (h.imp And.right)
  refine (List.perm_ext_iff_of_nodup (nodup_addresses h) hnodup).2 fun a => ?_
  rw [mem_addresses, List.mem_map]

/-! ## Rows at the listed addresses -/

/-- The rows of a list of groups. -/
def rowsIn (gs : List Group) : List Row :=
  gs.flatMap Group.rows

/-- The rows of a group are found at its address. -/
theorem lookup_of_mem (h : Ascending s.groups) {g : Group} (hg : g ∈ s.groups) :
    s.lookup g.address = .ok g.rows := by
  obtain ⟨front, back, hgroups⟩ := List.append_of_mem hg
  have hfind : s.find? g.address = some g := by
    refine List.find?_eq_some_iff_append.2 ⟨by simp, front, back, hgroups, fun g' hg' => ?_⟩
    rw [hgroups] at h
    have hbefore := (List.pairwise_append.1 h).2.2 g' hg' g List.mem_cons_self
    simpa using hbefore.2
  rw [lookup, hfind]

theorem rowsAt_of_mem (h : Ascending s.groups) {g : Group} (hg : g ∈ s.groups) :
    s.rowsAt g.address = g.rows :=
  rowsAt_of_lookup (lookup_of_mem h hg)

/-- The rows at the listed addresses are those of the groups. -/
theorem perm_flatMap_rowsAt (h : Ascending s.groups) :
    (s.addresses.flatMap s.rowsAt).Perm (rowsIn s.groups) := by
  refine ((perm_addresses h).flatMap_right s.rowsAt).trans ?_
  rw [List.flatMap_map, rowsIn]
  exact List.Perm.flatMap_left _ fun g hg => (rowsAt_of_mem h hg).symm ▸ List.Perm.refl _

theorem perm_rowsIn_insert (r : Row) (gs : List Group) :
    (rowsIn (insert r gs)).Perm (r :: rowsIn gs) := by
  induction gs with
  | nil => exact List.Perm.refl _
  | cons g gs ih =>
    unfold insert
    split
    · -- the row comes behind those of its group
      show ((g.rows ++ [r]) ++ rowsIn gs).Perm (r :: (g.rows ++ rowsIn gs))
      rw [List.append_assoc]
      exact List.perm_middle
    · split
      · exact List.Perm.refl _
      · exact (ih.append_left g.rows).trans List.perm_middle

/-- The rows of scenes that are not below zero. -/
def kept (rows : List Row) : List Row :=
  rows.filter fun r => 0 ≤ r.scene

theorem kept_concat (rows : List Row) (r : Row) :
    kept (rows ++ [r]) = if r.scene < 0 then kept rows else kept rows ++ [r] := by
  have hneg : r.scene < 0 ↔ ¬ 0 ≤ r.scene := by
    rw [Int32.lt_iff_toInt_lt, Int32.le_iff_toInt_le]
    omega
  by_cases h : 0 ≤ r.scene <;> simp [kept, hneg, h]

/-- Rows that are added are held, or they are counted as dropped. -/
theorem foldl_add_keeps (rows : List Row) :
    let s := rows.foldl add {}
    (rowsIn s.groups).Perm (kept rows) ∧ s.size = (kept rows).length ∧
      s.size + s.dropped = rows.length := by
  induction rows using List.reverseRecOn with
  | nil => exact ⟨List.Perm.refl _, rfl, rfl⟩
  | append_singleton rows r ih =>
    obtain ⟨hperm, hsize, hall⟩ := ih
    rw [List.foldl_concat, add, kept_concat, List.length_append, List.length_singleton]
    split
    · exact ⟨hperm, hsize, congrArg (· + 1) hall⟩
    · refine ⟨?_, ?_, ?_⟩
      · have hlast := (List.perm_append_singleton r (kept rows)).symm
        exact (perm_rowsIn_insert r _).trans ((hperm.cons r).trans hlast)
      · rw [List.length_append, List.length_singleton]
        exact congrArg (· + 1) hsize
      · show (rows.foldl add {}).size + 1 + (rows.foldl add {}).dropped = rows.length + 1
        omega

theorem perm_rowsIn_ofRows (rows : List Row) :
    (rowsIn (ofRows rows).groups).Perm (kept rows) := by
  refine List.Perm.trans ?_ (foldl_add_keeps rows).1
  show (((rows.foldl add {}).groups.map _).flatMap Group.rows).Perm _
  rw [List.flatMap_map]
  exact List.Perm.flatMap_left _ fun g _ => perm_inPlayingOrder g.rows

/-! ## What is found -/

theorem lookup_eq_ok_iff (h : Ascending s.groups) {found : List Row} :
    s.lookup a = .ok found ↔ ∃ g ∈ s.groups, g.address = a ∧ g.rows = found := by
  constructor
  · intro hlookup
    unfold lookup at hlookup
    split at hlookup
    · rename_i g hfind
      cases hlookup
      exact ⟨g, List.mem_of_find?_eq_some hfind, by simpa using List.find?_some hfind, rfl⟩
    · cases hlookup
  · rintro ⟨g, hg, rfl, rfl⟩
    exact lookup_of_mem h hg

theorem address_of_mem_rowsAt {r : Row} (h : r ∈ (ofRows rows).rowsAt a) :
    r.address = a ∧ ¬ a.scene < 0 := by
  obtain ⟨hscene, horderly, -⟩ := of_lookup_eq_ok (lookup_of_mem_rowsAt h)
  rw [horderly, mem_inPlayingOrder, addressed, List.mem_filter] at h
  exact ⟨by simpa using h.2, hscene⟩

/-! ## A script made of what another one lists -/

theorem inPlayingOrder_inPlayingOrder (rows : List Row) :
    inPlayingOrder (inPlayingOrder rows) = inPlayingOrder rows := by
  by_cases hall : rows.all (fun r => r.seq.isSome) = true
  · have hsorted : inPlayingOrder rows = rows.mergeSort Row.notAfter := if_pos hall
    have hsame : (rows.mergeSort Row.notAfter).all (fun r => r.seq.isSome) = true := by
      rwa [(List.mergeSort_perm rows _).all_eq]
    rw [hsorted, inPlayingOrder, if_pos hsame]
    exact List.mergeSort_of_pairwise (List.pairwise_mergeSort notAfter_trans notAfter_total rows)
  · have hkept : inPlayingOrder rows = rows := if_neg hall
    rw [hkept, hkept]

/-- Where rows stand with their addresses, one address after the other, those with an address are
found together again. -/
theorem addressed_flatMap {order : List Address} {rowsOf : Address → List Row}
    (hrows : ∀ b, ∀ r ∈ rowsOf b, r.address = b) (horder : order.Nodup) (a : Address) :
    addressed (order.flatMap rowsOf) a = if a ∈ order then rowsOf a else [] := by
  have hone : ∀ b, addressed (rowsOf b) a = if a = b then rowsOf b else [] := by
    intro b
    split
    · rename_i hab
      exact List.filter_eq_self.2 fun r hr => decide_eq_true (hab ▸ hrows b r hr)
    · rename_i hab
      exact addressed_eq_nil_iff.2 fun r hr heq => hab (heq ▸ hrows b r hr)
  induction order with
  | nil => rfl
  | cons b order ih =>
    obtain ⟨hb, horder⟩ := List.nodup_cons.1 horder
    have happend : addressed ((b :: order).flatMap rowsOf) a =
        addressed (rowsOf b) a ++ addressed (order.flatMap rowsOf) a := by
      rw [List.flatMap_cons, addressed, List.filter_append]
      rfl
    rw [happend, hone, ih horder]
    by_cases hab : a = b
    · subst hab
      rw [if_pos rfl, if_neg hb, if_pos List.mem_cons_self, List.append_nil]
    · rw [if_neg hab, List.nil_append]
      simp [hab]

/-- A script made of the groups of another one, in any order, finds what that one finds. -/
theorem lookup_ofRows_flatMap {order : List Address}
    (horder : order.Perm (ofRows rows).addresses) (a : Address) :
    (ofRows (order.flatMap (ofRows rows).rowsAt)).lookup a = (ofRows rows).lookup a := by
  have hascending := ascending_ofRows rows
  have hnodup : order.Nodup := horder.nodup_iff.2 (nodup_addresses hascending)
  have hmem : a ∈ order ↔ ∃ g ∈ (ofRows rows).groups, g.address = a :=
    horder.mem_iff.trans mem_addresses
  rw [lookup_ofRows_eq, addressed_flatMap (fun b r hr => (address_of_mem_rowsAt hr).1) hnodup]
  cases hfound : (ofRows rows).lookup a with
  | ok found =>
    obtain ⟨g, hg, haddress, -⟩ := (lookup_eq_ok_iff hascending).1 hfound
    obtain ⟨hscene, horderly, hne⟩ := of_lookup_eq_ok hfound
    -- these rows are in playing order, and stay so in the new script
    rw [if_pos (hmem.2 ⟨g, hg, haddress⟩), rowsAt_of_lookup hfound,
      if_neg (not_or.2 ⟨hscene, hne⟩), horderly, inPlayingOrder_inPlayingOrder]
  | error e =>
    have hnone : a ∉ order := by
      intro ha
      obtain ⟨g, hg, rfl⟩ := hmem.1 ha
      rw [lookup_of_mem hascending hg] at hfound
      cases hfound
    have herror : e = ⟨a⟩ := by
      rw [lookup_ofRows_eq] at hfound
      split at hfound <;> cases hfound
      rfl
    rw [if_neg hnone, if_pos (Or.inr rfl), herror]

/-- No row that is listed is dropped when a script is made of it. -/
theorem dropped_ofRows_flatMap (order : List Address) :
    (ofRows (order.flatMap (ofRows rows).rowsAt)).dropped = 0 := by
  have hkept : kept (order.flatMap (ofRows rows).rowsAt) =
      order.flatMap (ofRows rows).rowsAt := by
    refine List.filter_eq_self.2 fun r hr => decide_eq_true ?_
    obtain ⟨b, -, hrow⟩ := List.mem_flatMap.1 hr
    obtain ⟨rfl, hscene⟩ := address_of_mem_rowsAt hrow
    rw [Int32.lt_iff_toInt_lt] at hscene
    rw [Int32.le_iff_toInt_le]
    exact Int.not_lt.1 hscene
  obtain ⟨-, hsize, hall⟩ := foldl_add_keeps (order.flatMap (ofRows rows).rowsAt)
  rw [hsize, hkept] at hall
  show (List.foldl add {} _).dropped = 0
  omega

theorem size_eq_zero_iff (rows : List Row) :
    (ofRows rows).size = 0 ↔ (ofRows rows).groups = [] := by
  have hsize : (ofRows rows).size = (rowsIn (ofRows rows).groups).length :=
    (foldl_add_keeps rows).2.1.trans (perm_rowsIn_ofRows rows).length_eq.symm
  rw [hsize, List.length_eq_zero_iff, rowsIn, List.flatMap_eq_nil_iff]
  constructor
  · intro hnil
    rw [List.eq_nil_iff_forall_not_mem]
    intro g hg
    exact (of_lookup_eq_ok (lookup_of_mem (ascending_ofRows rows) hg)).2.2 (hnil g hg)
  · intro hnil g hg
    rw [hnil] at hg
    cases hg

/-- What a script lists of the rows it is made of. -/
structure Enumerates (s : Script) (rows : List Row) : Prop where
  scenes_ascend : s.scenes.Pairwise (· < ·)
  scenes_nonneg : ∀ scene ∈ s.scenes, 0 ≤ scene
  branches_ascend : ∀ scene, (s.branches scene).Pairwise (· < ·)
  branches_eq_nil_iff : ∀ scene, s.branches scene = [] ↔ scene ∉ s.scenes
  contains_iff : ∀ a, s.contains a = true ↔ a.branch ∈ s.branches a.scene
  /-- No group is empty. -/
  found : ∀ a, s.contains a = true → ∃ first rest, s.lookup a = .ok (first :: rest)
  sum_length : (s.addresses.map fun a => (s.rowsAt a).length).sum = s.size
  /-- Each row of a scene that is not below zero is listed as often as it came. -/
  perm : (s.addresses.flatMap s.rowsAt).Perm (rows.filter fun r => 0 ≤ r.scene)
  size_add_dropped : s.size + s.dropped = rows.length
  isEmpty_iff : s.isEmpty = true ↔ s.scenes = []
  /-- A script made of the groups, in any order, finds the same and drops nothing. -/
  again : ∀ order : List Address, order.Perm s.addresses →
    (∀ a, (ofRows (order.flatMap s.rowsAt)).lookup a = s.lookup a) ∧
      (ofRows (order.flatMap s.rowsAt)).dropped = 0

/-- What every script lists: its scenes and branches in their order, and at these addresses all
rows of scenes that are not below zero, in groups that make up the script again. -/
theorem ofRows_enumerates (rows : List Row) : (ofRows rows).Enumerates rows := by
  have hascending := ascending_ofRows rows
  have hperm : ((ofRows rows).addresses.flatMap (ofRows rows).rowsAt).Perm (kept rows) :=
    (perm_flatMap_rowsAt hascending).trans (perm_rowsIn_ofRows rows)
  obtain ⟨-, hsize, hall⟩ := foldl_add_keeps rows
  have hsum : ((ofRows rows).addresses.map fun a => ((ofRows rows).rowsAt a).length).sum =
      (ofRows rows).size := by
    rw [← List.length_flatMap, hperm.length_eq]
    exact hsize.symm
  constructor
  case scenes_ascend => exact pairwise_scenes hascending
  case branches_ascend => exact pairwise_branches hascending
  case sum_length => exact hsum
  case perm => exact hperm
  case size_add_dropped => exact hall
  case again =>
    exact fun order horder => ⟨lookup_ofRows_flatMap horder, dropped_ofRows_flatMap order⟩
  case scenes_nonneg =>
    intro scene hscene
    obtain ⟨g, hg, rfl⟩ := mem_scenes.1 hscene
    have hneg := (of_lookup_eq_ok (lookup_of_mem hascending hg)).1
    rw [Int32.lt_iff_toInt_lt] at hneg
    rw [Int32.le_iff_toInt_le]
    exact Int.not_lt.1 hneg
  case branches_eq_nil_iff =>
    intro scene
    rw [List.eq_nil_iff_forall_not_mem, mem_scenes]
    constructor
    · rintro hnone ⟨g, hg, rfl⟩
      exact hnone _ (mem_branches.2 ⟨g, hg, rfl⟩)
    · intro hnone branch hbranch
      obtain ⟨g, hg, haddress⟩ := mem_branches.1 hbranch
      exact hnone ⟨g, hg, congrArg Address.scene haddress⟩
  case contains_iff =>
    intro a
    rw [contains_iff, mem_branches]
  case found =>
    intro a ha
    obtain ⟨g, hg, rfl⟩ := contains_iff.1 ha
    have hlookup := lookup_of_mem hascending hg
    obtain ⟨first, rest, hrows⟩ := List.exists_cons_of_ne_nil (of_lookup_eq_ok hlookup).2.2
    exact ⟨first, rest, hrows ▸ hlookup⟩
  case isEmpty_iff =>
    rw [isEmpty, decide_eq_true_eq, size_eq_zero_iff, scenes_eq_nil_iff]

end Script

end Dialogue
