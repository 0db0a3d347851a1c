import Dialogue.Proofs.Failing
import Dialogue.Proofs.Json.RoundTrip
import Mathlib.Data.List.Count
import Mathlib.Data.List.Nodup

/-!
# Fields of JSON objects

What the reading of a record makes of an object: its known members are found by name, and the
others are passed over.

* `record?_known` and `of_record?` say when an object is a record, and of which fields.
* `list?_eq_some_iff` reads a list item by item.
* `Fills` are the members that fill the fields of a record, in any order. `Fills.required_eq` and
  `Fills.optional_eq` are what the reading of one field makes of them.
-/

namespace Dialogue

namespace Json

theorem bind_of_eq {α β : Type} {x : Option α} {a : α} (h : x = some a) (f : α → Option β) :
    (x >>= f) = f a := by
  rw [h]
  rfl

variable {α : Type} {names : List String} {Right : String → Json → Prop} {May : String → Prop}
  {members : List (String × Json)} {name : String} {read? : Json → Option α} {a : α}

/-! ## Members of an object -/

theorem plain_ofMembers (h : ∀ m ∈ members, m.2.Plain) : (ofMembers members).Plain := by
  refine .obj ?_ ?_
  · intro m hm
    obtain ⟨member, _, rfl⟩ := List.mem_map.1 hm
    rfl
  · intro m hm
    obtain ⟨member, hmember, rfl⟩ := List.mem_map.1 hm
    exact h member hmember

theorem lookup_of_mem (hnodup : (members.map Prod.fst).Nodup) {m : String × Json}
    (hm : m ∈ members) : members.lookup m.1 = some m.2 := by
  induction members with
  | nil => cases hm
  | cons m' members ih =>
    obtain ⟨hfirst, hnodup⟩ := List.nodup_cons.1 hnodup
    rcases List.mem_cons.1 hm with rfl | hm
    · rw [List.lookup_cons_self]
    · have hne : (m.1 == m'.1) = false := by
        rw [beq_eq_false_iff_ne]
        intro heq
        exact hfirst (heq ▸ List.mem_map_of_mem hm)
      rw [List.lookup_cons, hne]
      exact ih hnodup hm

theorem lookup_eq_none (h : name ∉ members.map Prod.fst) : members.lookup name = none := by
  rw [List.lookup_eq_none_iff]
  intro m hm
  simp only [bne_iff_ne, ne_eq]
  rintro rfl
  exact h (List.mem_map_of_mem hm)

theorem required_of_lookup {v : Json} (h : members.lookup name = some v)
    (hread : read? v = some a) : required read? name members = some a := by
  rw [required, h, Option.bind_some, hread]

theorem optional_of_lookup {v : Json} (default : α) (h : members.lookup name = some v)
    (hread : read? v = some a) : optional read? default name members = some a := by
  rw [optional, h]
  exact hread

/-- The members with a known name. -/
def known (names : List String) (members : List (String × Json)) : List (String × Json) :=
  members.filter fun m => names.contains m.1

theorem mem_known {m : String × Json} : m ∈ known names members ↔ m ∈ members ∧ m.1 ∈ names := by
  simp [known]

theorem map_fst_known (names : List String) (members : List (String × Json)) :
    (known names members).map Prod.fst =
      (members.map Prod.fst).filter fun name => names.contains name := by
  rw [List.filter_map]
  rfl

theorem mapM_keys (members : List (String × Json)) :
    (members.map fun m => (some m.1, m.2)).mapM
      (fun m : Option String × Json => m.1.map fun key => (key, m.2)) = some members := by
  induction members with
  | nil => rfl
  | cons m members ih =>
    rw [List.map_cons, List.mapM_cons, ih]
    rfl

/-- The fields of an object are its known members, if their names differ. -/
theorem record?_known (names : List String) (members : List (String × Json)) :
    record? names (ofMembers members) =
      if ((known names members).map Prod.fst).Nodup then some (known names members) else none := by
  unfold record? ofMembers
  dsimp only
  rw [mapM_keys, Option.bind_eq_bind, Option.bind_some]
  rfl

/-- The fields of an object of members with known and different names. -/
theorem record?_ofMembers (hknown : ∀ m ∈ members, m.1 ∈ names)
    (hnodup : (members.map Prod.fst).Nodup) : record? names (ofMembers members) = some members := by
  have hall : known names members = members :=
    List.filter_eq_self.2 fun m hm => List.contains_iff_mem.2 (hknown m hm)
  rw [record?_known, hall, if_pos hnodup]

theorem eq_map_of_mapM_keys {keyed : List (Option String × Json)}
    (h : keyed.mapM (fun m => m.1.map fun key => (key, m.2)) = some members) :
    keyed = members.map fun m => (some m.1, m.2) := by
  induction keyed generalizing members with
  | nil =>
    obtain rfl := Option.some.inj h
    rfl
  | cons m keyed ih =>
    obtain ⟨key, value⟩ := m
    rw [List.mapM_cons] at h
    obtain ⟨first, hfirst, h⟩ := Option.bind_eq_some_iff.1 h
    obtain ⟨others, hothers, h⟩ := Option.bind_eq_some_iff.1 h
    obtain rfl := Option.some.inj h
    obtain ⟨key, rfl, rfl⟩ := Option.map_eq_some_iff.1 hfirst
    rw [List.map_cons, ← ih hothers]

/-- What an object has to be to be read as a record. -/
theorem of_record? {keyed : List (Option String × Json)} {found : List (String × Json)}
    (h : record? names (.obj keyed) = some found) :
    ∃ members, keyed = members.map (fun m => (some m.1, m.2)) ∧ found = known names members ∧
      (found.map Prod.fst).Nodup := by
  obtain ⟨members, hmembers, _⟩ := Option.bind_eq_some_iff.1 h
  obtain rfl := eq_map_of_mapM_keys hmembers
  have hrecord := record?_known names members
  rw [show record? names (ofMembers members) = some found from h] at hrecord
  split at hrecord
  case isTrue hnodup =>
    obtain rfl := Option.some.inj hrecord
    exact ⟨members, rfl, rfl, hnodup⟩
  case isFalse => cases hrecord

theorem map_fst_keyed (members : List (String × Json)) :
    (members.map fun m => (some m.1, m.2)).map Prod.fst = (members.map Prod.fst).map some := by
  rw [List.map_map, List.map_map]
  rfl

/-- In an object that is read as a record no field comes twice. -/
theorem count_le_one_of_record? {keyed : List (Option String × Json)}
    {found : List (String × Json)} (h : record? names (.obj keyed) = some found)
    (hname : name ∈ names) : (keyed.map Prod.fst).count (some name) ≤ 1 := by
  obtain ⟨members, rfl, rfl, hnodup⟩ := of_record? h
  rw [map_fst_known] at hnodup
  have hcount := List.nodup_iff_count_le_one.1 hnodup name
  rw [List.count_filter (by simpa using hname)] at hcount
  rwa [map_fst_keyed, List.count_map_of_injective _ _ (Option.some_injective _)]

/-- A field that has to be given and is read is a member of the object. -/
theorem mem_of_required {keyed : List (Option String × Json)} {found : List (String × Json)}
    (h : record? names (.obj keyed) = some found) (hread : required read? name found = some a) :
    some name ∈ keyed.map Prod.fst := by
  obtain ⟨members, rfl, rfl, _⟩ := of_record? h
  have hfound : name ∈ (known names members).map Prod.fst := by
    by_contra hnot
    rw [required, lookup_eq_none hnot] at hread
    cases hread
  rw [map_fst_known] at hfound
  rw [map_fst_keyed]
  exact List.mem_map_of_mem (List.mem_filter.1 hfound).1

/-! ## Items of a list -/

/-- A list is read item by item. -/
theorem list?_eq_some_iff {items : List Json} {as : List α} :
    list? read? (arr items) = some as ↔
      List.Forall₂ (fun item a => read? item = some a) items as := by
  show items.mapM read? = some as ↔ _
  induction items generalizing as with
  | nil => simp [eq_comm]
  | cons item items ih =>
    rw [List.mapM_cons, List.forall₂_cons_left_iff]
    constructor
    · intro h
      obtain ⟨a, ha, h⟩ := Option.bind_eq_some_iff.1 h
      obtain ⟨as, has, h⟩ := Option.bind_eq_some_iff.1 h
      exact ⟨a, as, ha, ih.1 has, (Option.some.inj h).symm⟩
    · rintro ⟨a, as, ha, has, rfl⟩
      rw [ha, ih.2 has]
      rfl

theorem list?_map {write : α → Json} (h : ∀ a, read? (write a) = some a) (as : List α) :
    list? read? (arr (as.map write)) = some as := by
  rw [list?_eq_some_iff, List.forall₂_map_left_iff, List.forall₂_same]
  exact fun a _ => h a

/-- An item that is not read leaves the list unread. -/
theorem list?_eq_none {items : List Json} {item : Json} (hitem : item ∈ items)
    (h : read? item = none) : list? read? (arr items) = none := by
  rw [Option.eq_none_iff_forall_ne_some]
  intro as has
  obtain ⟨a, _, ha⟩ := exists_of_forall₂ (list?_eq_some_iff.1 has) hitem
  rw [h] at ha
  cases ha

/-! ## Fields that are filled -/

/-- A value without parts. -/
def IsScalar : Json → Prop
  | null | bool _ | int _ | str _ => True
  | _ => False

theorem IsScalar.plain {j : Json} (h : j.IsScalar) : j.Plain := by
  cases j with
  | null => exact .null
  | bool value => exact .bool value
  | int value => exact .int value
  | str value => exact .str value
  | arr | obj | other => exact h.elim

/-- Members that fill the fields `names` of a record, in any order and with others among them:
what is given is `Right`, and what is not given `May` be left out. -/
structure Fills (names : List String) (Right : String → Json → Prop) (May : String → Prop)
    (members : List (String × Json)) : Prop where
  once : ((members.map Prod.fst).filter fun name => names.contains name).Nodup
  right : ∀ m ∈ members, m.1 ∈ names → Right m.1 m.2
  left : ∀ name ∈ names, name ∉ members.map Prod.fst → May name
  others : ∀ m ∈ members, m.1 ∉ names → m.2.IsScalar

namespace Fills

variable (h : Fills names Right May members)

include h

theorem plain (hright : ∀ name v, Right name v → v.Plain) : (ofMembers members).Plain := by
  refine plain_ofMembers fun m hm => ?_
  by_cases hname : m.1 ∈ names
  · exact hright m.1 m.2 (h.right m hm hname)
  · exact (h.others m hm hname).plain

theorem nodup_known : ((known names members).map Prod.fst).Nodup := by
  rw [map_fst_known]
  exact h.once

theorem record?_eq : record? names (ofMembers members) = some (known names members) := by
  rw [record?_known, if_pos h.nodup_known]

/-- A field is found with a right value, or it was left out. -/
theorem lookup_known (hname : name ∈ names) :
    (∃ v, (known names members).lookup name = some v ∧ Right name v) ∨
      (known names members).lookup name = none ∧ May name := by
  by_cases hgiven : name ∈ members.map Prod.fst
  · obtain ⟨m, hm, rfl⟩ := List.mem_map.1 hgiven
    exact .inl ⟨m.2, lookup_of_mem h.nodup_known (mem_known.2 ⟨hm, hname⟩), h.right m hm hname⟩
  · refine .inr ⟨lookup_eq_none fun hmem => hgiven ?_, h.left name hname hgiven⟩
    obtain ⟨m, hm, rfl⟩ := List.mem_map.1 hmem
    exact List.mem_map_of_mem (mem_known.1 hm).1

theorem required_eq (hname : name ∈ names) (hread : ∀ v, Right name v → read? v = some a)
    (hmust : ¬ May name) : required read? name (known names members) = some a := by
  obtain ⟨v, hv, hright⟩ | ⟨_, hmay⟩ := h.lookup_known hname
  · exact required_of_lookup hv (hread v hright)
  · exact absurd hmay hmust

theorem optional_eq {default : α} (hname : name ∈ names)
    (hread : ∀ v, Right name v → read? v = some a) (hmay : May name → default = a) :
    optional read? default name (known names members) = some a := by
  obtain ⟨v, hv, hright⟩ | ⟨hnone, hleft⟩ := h.lookup_known hname
  · exact optional_of_lookup default hv (hread v hright)
  · rw [optional, hnone, hmay hleft]

end Fills

end Json

end Dialogue
