import Dialogue.Proofs.Files.ReadWrite
import Mathlib.Data.List.Nodup

/-!
# Files below a directory

The files below a directory are listed once each, in the order of their paths, and each path of the
list leads back to its file.

* `IsName` are the names that entries can have, `Node.Proper` the nodes in which all entries have
  different ones.
* `Node.Proper.mem_files_iff` and `Node.Proper.pairwise_files` say what is listed and in which order;
  both are inductions on the node, with the entries of a directory as its children.
* `Path.parts_join` and its neighbours take a path apart to which a name was added.
* `Tree.follow_names` goes down from a directory by names.
-/

namespace Dialogue.Files

open Text

/-- A name that an entry of a directory can have. -/
structure IsName (name : String) : Prop where
  nonempty : name ≠ ""
  noSlash : '/' ∉ name.toList
  noNul : '\x00' ∉ name.toList
  notHere : name ≠ "."
  notUp : name ≠ ".."
  short : name.utf8ByteSize ≤ Tree.longestName

instance (name : String) : Decidable (IsName name) :=
  decidable_of_iff (name ≠ "" ∧ '/' ∉ name.toList ∧ '\x00' ∉ name.toList ∧ name ≠ "." ∧
      name ≠ ".." ∧ name.utf8ByteSize ≤ Tree.longestName)
    ⟨fun ⟨h₁, h₂, h₃, h₄, h₅, h₆⟩ => ⟨h₁, h₂, h₃, h₄, h₅, h₆⟩,
      fun ⟨h₁, h₂, h₃, h₄, h₅, h₆⟩ => ⟨h₁, h₂, h₃, h₄, h₅, h₆⟩⟩

/-- One list of names comes before another: they are compared name by name, and a list comes before
those that go on from it. -/
def Earlier (names names' : List String) : Prop :=
  List.Lex (fun a b : String => a < b) names names'

namespace Node

variable {node child : Node} {names : List String} {name : String} {content : Content}
  {entries : List (String × Node)} {f : List String × Content}

/-- The entries of every directory have names, all of them different. -/
inductive Proper : Node → Prop
  | file (content : Content) : Proper (.file content)
  | dir {entries : List (String × Node)} (hnodup : (entries.map Prod.fst).Nodup)
      (hnames : ∀ e ∈ entries, IsName e.1) (hentries : ∀ e ∈ entries, Proper e.2) :
      Proper (.dir entries)

/-! ## What is listed -/

theorem lookup_eq_some_iff_mem (hnodup : (entries.map Prod.fst).Nodup) :
    entries.lookup name = some node ↔ (name, node) ∈ entries := by
  induction entries with
  | nil => simp
  | cons e entries ih =>
    obtain ⟨name', node'⟩ := e
    obtain ⟨hfirst, hnodup⟩ := List.nodup_cons.1 hnodup
    rw [lookup_cons_eq]
    by_cases hname : name = name'
    · subst hname
      have hrest : (name, node) ∉ entries := fun hmem =>
        hfirst (List.mem_map.2 ⟨_, hmem, rfl⟩)
      simp [hrest, eq_comm]
    · simp [hname, ih hnodup]

theorem get?_dir_cons (entries : List (String × Node)) (name : String) (names : List String) :
    (dir entries).get? (name :: names) = (entries.lookup name).bind (get? names) := rfl

theorem entryFiles_eq (entries : List (String × Node)) :
    entryFiles entries = entries.map fun e => (e.1, e.2.files) := by
  induction entries with
  | nil => rfl
  | cons e entries ih => rw [entryFiles, ih, List.map_cons]

/-- The entries of a directory with the files below them, in the order of the names. -/
def sortedFiles (entries : List (String × Node)) : List (String × List (List String × Content)) :=
  (entries.map fun e => (e.1, e.2.files)).mergeSort fun a b => a.1 ≤ b.1

theorem files_dir (entries : List (String × Node)) : (dir entries).files =
    (sortedFiles entries).flatMap fun e => e.2.map fun f => (e.1 :: f.1, f.2) := by
  rw [files, entryFiles_eq, sortedFiles]

theorem mem_files_dir : f ∈ (dir entries).files ↔
    ∃ e ∈ entries, ∃ g ∈ e.2.files, (e.1 :: g.1, g.2) = f := by
  simp only [files_dir, sortedFiles, List.mem_flatMap, List.mem_mergeSort, List.mem_map,
    exists_exists_and_eq_and]

/-- The files below a node are those that are found there by their names. -/
theorem Proper.mem_files_iff (h : node.Proper) :
    (names, content) ∈ node.files ↔ node.get? names = some (.file content) := by
  induction h generalizing names with
  | file content' =>
    cases names with
    | nil => simp [files, get?, eq_comm]
    | cons name names => simp [files, get?, entry?]
  | @dir entries hnodup hnames hentries ih =>
    rw [mem_files_dir]
    cases names with
    | nil => simp [get?]
    | cons name names =>
      rw [get?_dir_cons, Option.bind_eq_some_iff]
      constructor
      · rintro ⟨⟨name', child⟩, he, ⟨names', content'⟩, hg, heq⟩
        obtain ⟨⟨rfl, rfl⟩, rfl⟩ : (name' = name ∧ names' = names) ∧ content' = content := by
          simpa using heq
        exact ⟨child, (lookup_eq_some_iff_mem hnodup).2 he, (ih _ he).1 hg⟩
      · rintro ⟨child, hchild, hget⟩
        have he := (lookup_eq_some_iff_mem hnodup).1 hchild
        exact ⟨(name, child), he, (names, content), (ih _ he).2 hget, rfl⟩

/-! ## The order of the list -/

theorem pairwise_sortedFiles (hnodup : (entries.map Prod.fst).Nodup) :
    (sortedFiles entries).Pairwise fun a b => a.1 < b.1 := by
  have hsorted : (sortedFiles entries).Pairwise fun a b => decide (a.1 ≤ b.1) = true := by
    apply List.pairwise_mergeSort
    · intro a b c hab hbc
      exact decide_eq_true (String.le_trans (of_decide_eq_true hab) (of_decide_eq_true hbc))
    · intro a b
      simpa using String.le_total a.1 b.1
  have hdifferent : (sortedFiles entries).Pairwise fun a b => a.1 ≠ b.1 := by
    rw [← List.pairwise_map (f := Prod.fst) (R := (· ≠ ·))]
    have hperm : ((sortedFiles entries).map Prod.fst).Perm (entries.map Prod.fst) := by
      have := (List.mergeSort_perm (entries.map fun e => (e.1, e.2.files))
        fun a b => a.1 ≤ b.1).map Prod.fst
      simpa [sortedFiles, Function.comp_def] using this
    exact hperm.nodup_iff.2 hnodup
  refine hsorted.imp₂ ?_ hdifferent
  intro a b hle hne
  by_contra hlt
  exact hne (String.le_antisymm (of_decide_eq_true hle) (String.not_lt.1 hlt))

/-- The files below a node are listed in the order of their names, and none of them twice. -/
theorem Proper.pairwise_files (h : node.Proper) :
    node.files.Pairwise fun f g => Earlier f.1 g.1 := by
  induction h with
  | file content => exact List.pairwise_singleton _ _
  | @dir entries hnodup hnames hentries ih =>
    rw [files_dir, List.pairwise_flatMap]
    constructor
    · -- below one entry the names behind the first decide
      intro e he
      obtain ⟨e', he', rfl⟩ := List.mem_map.1 (List.mem_mergeSort.1 he)
      rw [List.pairwise_map]
      exact (ih e' he').imp fun hlt => .cons hlt
    · -- between two entries their names do
      refine (pairwise_sortedFiles hnodup).imp ?_
      intro a b hlt f hf g hg
      obtain ⟨f, -, rfl⟩ := List.mem_map.1 hf
      obtain ⟨g, -, rfl⟩ := List.mem_map.1 hg
      exact .rel hlt

theorem Proper.isName_of_get? (h : node.Proper) (hget : node.get? names = some child) :
    ∀ name ∈ names, IsName name := by
  induction h generalizing names with
  | file content =>
    cases names with
    | nil => simp
    | cons name names => simp [get?, entry?] at hget
  | @dir entries hnodup hnames hentries ih =>
    cases names with
    | nil => simp
    | cons name names =>
      rw [get?_dir_cons, Option.bind_eq_some_iff] at hget
      obtain ⟨node, hnode, hget⟩ := hget
      have he := (lookup_eq_some_iff_mem hnodup).1 hnode
      exact List.forall_mem_cons.2 ⟨hnames _ he, ih _ he hget⟩

end Node

/-! ## Paths with a name added -/

namespace Path

variable {base name : String}

theorem text_ofText (s : String) : (ofText s).text = s := by
  have hlist : ((s.toList.splitOn '/').map String.ofList).map String.toList = s.toList.splitOn '/' := by
    simp [Function.comp_def]
  rw [← String.toList_inj, text, ofText, String.toList_intercalate, hlist]
  exact List.intercalate_splitOn '/'

theorem segments_slash (base name : String) : (ofText (base ++ "/" ++ name)).segments =
    (ofText base).segments ++ (ofText name).segments := by
  have hlist : (base ++ "/" ++ name).toList = base.toList ++ '/' :: name.toList := by simp
  simp only [ofText, hlist, List.splitOn_append_cons_self, List.map_append]

theorem segments_name (h : '/' ∉ name.toList) : (ofText name).segments = [name] := by
  simp [ofText, List.splitOn_eq_singleton h]

theorem segments_empty : (ofText "").segments = [""] :=
  segments_name (by simp)

theorem segments_ne_nil (s : String) : (ofText s).segments ≠ [] := by
  simp [ofText, List.splitOn_ne_nil]

/-- Before the name that is added stands a slash, which may have been there already. -/
theorem join_cases (hbase : base ≠ "") (name : String) :
    ∃ front, join base name = front ++ "/" ++ name ∧ (base = front ∨ base = front ++ "/") := by
  unfold join
  rw [if_neg hbase]
  split
  · rename_i hlast
    obtain ⟨cs, hcs⟩ := List.getLast?_eq_some_iff.1 hlast
    have hfront : base = String.ofList cs ++ "/" := by
      rw [← String.toList_inj, hcs]
      simp
    exact ⟨String.ofList cs, by rw [hfront], Or.inr hfront⟩
  · exact ⟨base, rfl, Or.inl rfl⟩

theorem join_ne_empty (hname : name ≠ "") : join base name ≠ "" := by
  unfold join
  split
  · exact hname
  · split <;> simp_all

theorem parts_join (hbase : base ≠ "") (hname : IsName name) :
    (ofText (join base name)).parts = (ofText base).parts ++ [.name name] := by
  obtain ⟨front, hjoin, hfront⟩ := join_cases hbase name
  have hpart : Part.ofText name = .name name := by
    unfold Part.ofText
    split
    · exact absurd rfl hname.notHere
    · exact absurd rfl hname.notUp
    · rfl
  have hparts : (ofText base).parts = (ofText front).parts := by
    rcases hfront with rfl | rfl
    · rfl
    · have hslash := segments_slash front ""
      rw [String.append_empty] at hslash
      rw [parts, hslash, segments_empty, List.filter_append]
      simp [parts]
  rw [hparts, hjoin, parts, segments_slash, segments_name hname.noSlash, List.filter_append,
    List.map_append, parts]
  simp [hname.nonempty, hpart]

theorem asDirectory_join (hbase : base ≠ "") (hname : IsName name) :
    (ofText (join base name)).asDirectory = false := by
  obtain ⟨front, hjoin, -⟩ := join_cases hbase name
  rw [asDirectory, hjoin, segments_slash, segments_name hname.noSlash, List.getLast?_append]
  simp [hname.nonempty]

theorem absolute_join (hbase : base ≠ "") (hname : IsName name) :
    (ofText (join base name)).absolute = (ofText base).absolute := by
  obtain ⟨front, hjoin, hfront⟩ := join_cases hbase name
  have hpos := List.length_pos_iff.2 (segments_ne_nil front)
  have hhead : ∀ segment, ((ofText front).segments ++ [segment]).head? =
      (ofText front).segments.head? := by
    intro segment
    rw [List.head?_append_of_ne_nil _ (segments_ne_nil front)]
  have habsolute : (ofText (join base name)).absolute =
      decide ((ofText front).segments.head? = some "") := by
    rw [absolute, hjoin, segments_slash, segments_name hname.noSlash, hhead, List.length_append]
    simp [hpos]
  rw [habsolute]
  rcases hfront with rfl | rfl
  · -- a single segment is the path itself, which is not empty
    have hsingle : (ofText base).segments.length = 1 →
        (ofText base).segments.head? ≠ some "" := by
      intro hlength hempty
      obtain ⟨segment, hsegments⟩ := List.length_eq_one_iff.1 hlength
      rw [hsegments] at hempty
      have htext := text_ofText base
      rw [text, hsegments, Option.some.inj hempty] at htext
      exact hbase htext.symm
    rw [absolute]
    by_cases hlength : (ofText base).segments.length = 1
    · simp [hlength, hsingle hlength]
    · have : 1 < (ofText base).segments.length := by omega
      simp [this]
  · have hslash := segments_slash front ""
    rw [String.append_empty] at hslash
    rw [absolute, hslash, segments_empty, hhead, List.length_append]
    simp [hpos]

theorem noNul_join (hbase : base ≠ "") (hsound : ∀ s ∈ (ofText base).segments, '\x00' ∉ s.toList)
    (hname : IsName name) :
    ∀ s ∈ (ofText (join base name)).segments, '\x00' ∉ s.toList := by
  obtain ⟨front, hjoin, hfront⟩ := join_cases hbase name
  have hfrontSound : ∀ s ∈ (ofText front).segments, '\x00' ∉ s.toList := by
    rcases hfront with rfl | rfl
    · exact hsound
    · have hslash := segments_slash front ""
      rw [String.append_empty] at hslash
      rw [hslash] at hsound
      exact fun s hs => hsound s (List.mem_append_left _ hs)
  intro s hs
  rw [hjoin, segments_slash, segments_name hname.noSlash] at hs
  rcases List.mem_append.1 hs with hs | hs
  · exact hfrontSound s hs
  · rw [List.mem_singleton.1 hs]
    exact hname.noNul

theorem fault?_eq_none_iff {s : String} : (ofText s).fault? = none ↔
    (∀ segment ∈ (ofText s).segments, '\x00' ∉ segment.toList) ∧ s.utf8ByteSize ≠ 0 ∧
      s.utf8ByteSize ≤ longest := by
  have hnul : ((ofText s).segments.any fun segment => segment.toList.contains '\x00') = true ↔
      ¬ ∀ segment ∈ (ofText s).segments, '\x00' ∉ segment.toList := by
    simp
  unfold fault?
  rw [size, text_ofText]
  split
  · rename_i h
    simp [hnul.1 h]
  · rename_i h
    rw [hnul, not_not] at h
    split
    · rename_i hempty
      simp [hempty]
    · rename_i hne
      split
      · rename_i hlong
        simp [Nat.not_le.2 hlong]
      · rename_i hshort
        exact iff_of_true rfl ⟨h, hne, Nat.not_lt.1 hshort⟩

end Path

/-! ## Going down by names -/

namespace Tree

variable {t : Tree} {place names : List String}

theorem nameFault?_of_isName {name : String} (h : IsName name) : nameFault? name = none :=
  if_neg (Nat.not_lt.2 h.short)

/-- Names lead down to a node that is there. -/
theorem follow_names (hnames : ∀ name ∈ names, IsName name)
    (hthere : (t.root.get? (place ++ names)).isSome) :
    t.follow place (names.map .name) = .ok (place ++ names) := by
  induction names generalizing place with
  | nil => rw [List.append_nil]; rfl
  | cons name names ih =>
    obtain ⟨hname, hnames⟩ := List.forall_mem_cons.1 hnames
    obtain ⟨node, hnode⟩ := Option.isSome_iff_exists.1 hthere
    rw [Node.get?_append] at hnode
    obtain ⟨above, habove, hnode⟩ := Option.bind_eq_some_iff.1 hnode
    obtain ⟨child, hchild, -⟩ := Option.bind_eq_some_iff.1 hnode
    cases above with
    | file content => cases hchild
    | dir entries =>
      have hstep : (t.root.get? (place ++ [name])).isSome := by
        rw [Node.get?_concat habove]
        exact Option.isSome_of_mem hchild
      have hbelow : (t.root.get? ((place ++ [name]) ++ names)).isSome := by simpa using hthere
      have hrest := ih hnames hbelow
      refine follow_cons.2
        ⟨place ++ [name], .name ⟨entries, habove⟩ (nameFault?_of_isName hname) hstep, ?_⟩
      rw [hrest, List.append_assoc, List.singleton_append]

end Tree

end Dialogue.Files
