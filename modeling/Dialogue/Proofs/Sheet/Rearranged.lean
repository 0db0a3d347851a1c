import Dialogue.Proofs.Sheet.Columns
import Dialogue.Proofs.Sheet.Entries
import Mathlib.Data.List.FinRange
import Mathlib.Data.List.GetD

/-!
# Columns in another order

A sheet is read by the names of its columns, so their order does not count: if the cells of the
header and the fields of every record are moved in the same way, the sheet stays the same.
-/

namespace Dialogue.Sheet

open Text

/-- The first `n` of some fields, moved by a permutation; those behind them stay. -/
def rearranged {n : Nat} (σ : Equiv.Perm (Fin n)) (fields : List String) : List String :=
  (List.ofFn fun i => fields.getD (σ i) "") ++ fields.drop n

/-- A record whose first `n` fields are moved. -/
def Record.rearranged {n : Nat} (σ : Equiv.Perm (Fin n)) (r : Record) : Record :=
  { r with fields := Sheet.rearranged σ r.fields }

variable {n : Nat} {σ : Equiv.Perm (Fin n)} {fields titles : List String}

/-! ## Moved fields -/

theorem rearranged_refl (h : n ≤ fields.length) :
    rearranged (Equiv.refl (Fin n)) fields = fields := by
  have htake : (List.ofFn fun i : Fin n => fields.getD i "") = fields.take n := by
    apply List.ext_getElem
    · rw [List.length_ofFn, List.length_take, Nat.min_eq_left h]
    · intro i hi _
      rw [List.length_ofFn] at hi
      rw [List.getElem_ofFn, List.getElem_take, List.getD_eq_getElem _ _ (Nat.lt_of_lt_of_le hi h)]
  show (List.ofFn fun i : Fin n => fields.getD i "") ++ fields.drop n = fields
  rw [htake, List.take_append_drop]

theorem rearranged_perm (h : n ≤ fields.length) : (rearranged σ fields).Perm fields := by
  have hmoved : (List.ofFn fun i => fields.getD (σ i) "").Perm
      (List.ofFn fun i : Fin n => fields.getD i "") :=
    σ.ofFn_comp_perm fun i => fields.getD i ""
  conv_rhs => rw [← rearranged_refl h]
  exact hmoved.append_right (fields.drop n)

/-- Titles and fields that are moved together stand in the same pairs. -/
theorem zip_rearranged {α : Type} (read : String → α) (htitles : titles.length = n)
    (hfields : n ≤ fields.length) :
    (((rearranged σ titles).map read).zip (rearranged σ fields)).Perm
      ((titles.map read).zip fields) := by
  have hzip : ∀ σ : Equiv.Perm (Fin n),
      ((rearranged σ titles).map read).zip (rearranged σ fields) =
        List.ofFn fun i => (read (titles.getD (σ i) ""), fields.getD (σ i) "") := by
    intro σ
    have hdrop : titles.drop n = [] := List.drop_eq_nil_of_le htitles.le
    rw [rearranged, hdrop, List.append_nil, List.map_ofFn, rearranged]
    apply List.ext_getElem
    · rw [List.length_zip, List.length_append, List.length_ofFn, List.length_ofFn, List.length_ofFn]
      omega
    · intro i hi hi'
      have hlt : i < (List.ofFn fun i => fields.getD (σ i) "").length := by simpa using hi'
      rw [List.getElem_zip, List.getElem_append_left hlt]
      simp
  have hone := hzip (Equiv.refl _)
  rw [rearranged_refl htitles.ge, rearranged_refl hfields] at hone
  rw [hzip, hone]
  exact σ.ofFn_comp_perm fun i : Fin n => (read (titles.getD i ""), fields.getD i "")

/-! ## What is read of moved fields -/

/-- A key that stands once finds the same in every order. -/
theorem lookup_eq_of_perm {α β : Type} [BEq α] [LawfulBEq α] {xs ys : List (α × β)} {k : α}
    (hperm : xs.Perm ys) (honce : ∀ a b, (k, a) ∈ xs → (k, b) ∈ xs → a = b) :
    xs.lookup k = ys.lookup k := by
  have hmem : ∀ {l : List (α × β)} {a : β}, l.lookup k = some a → (k, a) ∈ l := by
    intro l a h
    obtain ⟨before, after, heq, _⟩ := List.lookup_eq_some_iff.1 h
    rw [heq]
    exact List.mem_append_right _ List.mem_cons_self
  have hnone : ∀ {l l' : List (α × β)}, l.Perm l' → l.lookup k = none → l'.lookup k = none := by
    intro l l' hperm h
    rw [List.lookup_eq_none_iff] at h ⊢
    exact fun p hp => h p (hperm.mem_iff.2 hp)
  cases hx : xs.lookup k with
  | none => rw [hnone hperm hx]
  | some a =>
    cases hy : ys.lookup k with
    | none => rw [hnone hperm.symm hy] at hx; cases hx
    | some b => rw [honce a b (hmem hx) (hperm.mem_iff.2 (hmem hy))]

/-- A column that is named once holds one field of a record. -/
theorem field_unique {columns : List (Option Column)} (h : (columns.filterMap id).Nodup)
    {c : Column} {a b : String} (ha : (some c, a) ∈ columns.zip fields)
    (hb : (some c, b) ∈ columns.zip fields) : a = b := by
  induction columns generalizing fields with
  | nil => cases ha
  | cons column columns ih =>
    cases fields with
    | nil => cases ha
    | cons field fields =>
      -- behind the cell that names the column no other one does
      have hlater : column = some c → ∀ a, (some c, a) ∉ columns.zip fields := by
        rintro rfl a ha
        have hmem : c ∈ columns.filterMap id :=
          List.mem_filterMap.2 ⟨some c, (List.of_mem_zip ha).1, rfl⟩
        exact (List.nodup_cons.1 h).1 hmem
      have hrest : (columns.filterMap id).Nodup :=
        h.sublist ((List.sublist_cons_self column columns).filterMap id)
      rcases List.mem_cons.1 ha with ha | ha
      · obtain ⟨hcolumn, rfl⟩ := Prod.mk.inj ha
        rcases List.mem_cons.1 hb with hb | hb
        · exact (Prod.mk.inj hb).2.symm
        · exact absurd hb (hlater hcolumn.symm b)
      · rcases List.mem_cons.1 hb with hb | hb
        · exact absurd ha (hlater (Prod.mk.inj hb).1.symm a)
        · exact ih hrest ha hb

theorem cell_eq_of_perm {h h' : Header} {fields fields' : List String}
    (hdistinct : (h.columns.filterMap id).Nodup)
    (hperm : (h'.columns.zip fields').Perm (h.columns.zip fields)) (c : Column) :
    h'.cell fields' c = h.cell fields c := by
  have hlookup : (h.columns.zip fields).reverse.lookup (some c) =
      (h'.columns.zip fields').reverse.lookup (some c) := by
    apply lookup_eq_of_perm
    · exact (List.reverse_perm _).trans (hperm.symm.trans (List.reverse_perm _).symm)
    · intro a b ha hb
      exact field_unique hdistinct (List.mem_reverse.1 ha) (List.mem_reverse.1 hb)
  rw [Header.cell, Header.cell, hlookup]

theorem slots_eq_of_perm {h h' : Header} (hperm : h'.columns.Perm h.columns) :
    h'.slots = h.slots := by
  apply (slots_sorted h').sortedLT.eq_of_mem_iff (slots_sorted h).sortedLT
  intro k
  have hnumbers := ((hperm.filterMap id).filterMap Column.slot?).mem_iff (a := k)
  rw [Header.slots, Header.slots, List.mem_mergeSort, List.mem_mergeSort, List.mem_eraseDups,
    List.mem_eraseDups, hnumbers]

/-- A row is read from the number of fields, the cells and the numbers of the options. -/
theorem rowOf_congr {h h' : Header} {fields fields' : List String} (hwidth : h'.width = h.width)
    (hlength : fields'.length = fields.length) (hslots : h'.slots = h.slots)
    (hcell : ∀ c, h'.cell fields' c = h.cell fields c) : rowOf h' fields' = rowOf h fields := by
  have hnumbered : numberedChoice h' fields' = numberedChoice h fields := by
    funext k
    rw [numberedChoice, numberedChoice, hcell, hcell]
  have hchoices : choices h' fields' = choices h fields := by
    rw [choices, choices, numberedChoices, numberedChoices, hslots, hnumbered, hcell]
  simp only [rowOf, hwidth, hlength, hcell, hchoices]

theorem isBlank_rearranged {r : Record} (h : n ≤ r.fields.length) :
    (r.rearranged σ).isBlank = r.isBlank := by
  have hmem : ∀ f, f ∈ (r.rearranged σ).fields ↔ f ∈ r.fields :=
    fun f => (rearranged_perm h).mem_iff
  rw [Bool.eq_iff_iff, Record.isBlank, Record.isBlank, List.all_eq_true, List.all_eq_true]
  constructor
  · exact fun hall f hf => hall f ((hmem f).2 hf)
  · exact fun hall f hf => hall f ((hmem f).1 hf)

/-! ## Sheets -/

section

variable {header : Record} {σ : Equiv.Perm (Fin header.fields.length)}

theorem rowOf_rearranged (hdistinct : (header.fields.filterMap Column.ofName?).Nodup)
    {fields : List String} (hfields : header.fields.length ≤ fields.length) :
    rowOf (.ofRecord (header.rearranged σ)) (rearranged σ fields) =
      rowOf (.ofRecord header) fields := by
  have hcolumns : (Header.ofRecord (header.rearranged σ)).columns.Perm
      (Header.ofRecord header).columns :=
    (rearranged_perm le_rfl).map Column.ofName?
  apply rowOf_congr
  · exact hcolumns.length_eq
  · exact (rearranged_perm hfields).length_eq
  · exact slots_eq_of_perm hcolumns
  · apply cell_eq_of_perm
    · rwa [Header.ofRecord, List.filterMap_map]
    · exact zip_rearranged Column.ofName? rfl hfields

theorem ofRecords_rearranged (hdistinct : (header.fields.filterMap Column.ofName?).Nodup)
    {rs : List Record} (hfull : ∀ r ∈ rs, header.fields.length ≤ r.fields.length) :
    ofRecords (.ofRecord (header.rearranged σ)) (rs.map (Record.rearranged σ)) =
      ofRecords (.ofRecord header) rs := by
  have hentries : ((rs.map (Record.rearranged σ)).filter fun r => !r.isBlank).map
      (entry (.ofRecord (header.rearranged σ))) =
        (rs.filter fun r => !r.isBlank).map (entry (.ofRecord header)) := by
    induction rs with
    | nil => rfl
    | cons r rs ih =>
      obtain ⟨hr, hrs⟩ := List.forall_mem_cons.1 hfull
      rw [List.map_cons, List.filter_cons, List.filter_cons, isBlank_rearranged hr]
      cases r.isBlank with
      | true => exact ih hrs
      | false =>
        have hentry : entry (.ofRecord (header.rearranged σ)) (r.rearranged σ) =
            entry (.ofRecord header) r := by
          show (rowOf _ (rearranged σ r.fields)).mapError (Skipped.mk r.line) = _
          rw [rowOf_rearranged hdistinct hr]
          rfl
        show _ :: _ = _ :: _
        rw [hentry]
        exact congrArg _ (ih hrs)
  rw [ofRecords_eq, ofRecords_eq, hentries]

/-- The header is moved too, and so is accepted or rejected for the same column. -/
theorem headerOf_rearranged : headerOf (header.rearranged σ) =
    (headerOf header).map fun _ => .ofRecord (header.rearranged σ) := by
  have hnames : ∀ role : Role, (∃ cell ∈ (header.rearranged σ).fields, role.Names cell) ↔
      ∃ cell ∈ header.fields, role.Names cell := by
    intro role
    have hmem : ∀ cell, cell ∈ (header.rearranged σ).fields ↔ cell ∈ header.fields :=
      fun cell => (rearranged_perm le_rfl).mem_iff
    simp only [hmem]
  rw [headerOf_eq, headerOf_eq]
  simp only [hnames]
  split
  · split <;> rfl
  · rfl

end

/-- If no two cells of a header name one column and no record is shorter than the header, then the
cells of the header and the first fields of every record can be moved by one permutation, and what
is read of the records stays the same: rows, faults with their lines, or the fault of the header. -/
theorem ofList_rearranged {header : Record} {rs : List Record}
    (hdistinct : (header.fields.filterMap Column.ofName?).Nodup)
    (hfull : ∀ r ∈ rs, header.fields.length ≤ r.fields.length)
    (σ : Equiv.Perm (Fin header.fields.length)) :
    ofList (header.rearranged σ :: rs.map (Record.rearranged σ)) = ofList (header :: rs) ∧
      ∀ text text', records text = header :: rs →
        records text' = header.rearranged σ :: rs.map (Record.rearranged σ) →
        ofText text' = ofText text := by
  have hlist : ofList (header.rearranged σ :: rs.map (Record.rearranged σ)) =
      ofList (header :: rs) := by
    rw [ofList, ofList, headerOf_rearranged, headerOf_eq]
    split
    · split
      · exact congrArg Except.ok (ofRecords_rearranged hdistinct hfull)
      · rfl
    · rfl
  refine ⟨hlist, ?_⟩
  intro text text' htext htext'
  rw [ofText_eq, ofText_eq, htext, htext', hlist]

/-- Columns in the opposite order, one of them without a meaning. One record is a choice, and one
has no scene and more fields than the header, which stay behind the others. -/
theorem ofList_rearranged_reversed :
    let header : Record :=
      ⟨1, ["Note", " command", "OPTION 2", "target02", "Option1", "Target1", "Scene"]⟩
    let rs : List Record := [⟨2, ["", "SetOption", "b", "2", "a", "1", "5"]⟩,
      ⟨3, ["", "Say", "", "", "", "", "x", "more", "still"]⟩]
    (header.fields.filterMap Column.ofName?).Nodup ∧
      (∀ r ∈ rs, header.fields.length ≤ r.fields.length) ∧
      ofText ("Scene,Target1,Option1,target02,OPTION 2, command,Note\n" ++
          "5,1,a,2,b,SetOption,\nx,,,,,Say,,more,still") =
        ofText ("Note, command,OPTION 2,target02,Option1,Target1,Scene\n" ++
          ",SetOption,b,2,a,1,5\n,Say,,,,,x,more,still") := by
  intro header rs
  have hdistinct : (header.fields.filterMap Column.ofName?).Nodup := by decide +kernel
  have hfull : ∀ r ∈ rs, header.fields.length ≤ r.fields.length := by decide
  refine ⟨hdistinct, hfull, (ofList_rearranged hdistinct hfull Fin.revPerm).2 _ _ ?_ ?_⟩
  · decide +kernel
  · decide +kernel

end Dialogue.Sheet
