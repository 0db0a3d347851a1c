import Dialogue.Files.Tree
import Dialogue.Proofs.Failing
import Mathlib.Data.List.Basic

/-!
# Files read back

A file that is written is read back with the bytes that were written, and can be written again.

* `Node.Keeps` says that directories stay directories and that nothing goes away. Putting a node in
  a place where no directory is keeps all others (`Node.keeps_set`), so every path that could be
  followed still can (`Tree.follow_of_keeps`).
* `Tree.Slot` is a directory that is there and a name in it; `Tree.write_eq_ok` says that files are
  written to slots.
* Directories that were made are there (`Tree.isDirAt_of_makeDirsAt`) and are not made again
  (`Tree.makeDirsAt_of_isDirAt`).
* `Tree.Writable.read_put` and `Tree.Writable.put` are about `put`, which makes the directories
  above the file first.
-/

namespace Dialogue.Files

open Text

namespace Node

variable {node old new child : Node} {names : List String} {name : String}
  {entries : List (String × Node)}

/-! ## Nodes -/

theorem lookup_cons_eq (name : String) (node : Node) (entries : List (String × Node))
    (other : String) : ((name, node) :: entries).lookup other =
      if other = name then some node else entries.lookup other := by
  by_cases h : other = name
  · rw [if_pos h, h, List.lookup_cons_self]
  · rw [if_neg h, List.lookup_cons, beq_false_of_ne h]

theorem lookup_setEntry (name : String) (new : Node) (entries : List (String × Node))
    (other : String) : (setEntry name new entries).lookup other =
      if other = name then some new else entries.lookup other := by
  induction entries with
  | nil => exact lookup_cons_eq name new [] other
  | cons e entries ih =>
    obtain ⟨name', node'⟩ := e
    unfold setEntry
    by_cases hname : name' = name
    · subst hname
      rw [if_pos rfl, lookup_cons_eq, lookup_cons_eq]
      split <;> rfl
    · rw [if_neg hname, lookup_cons_eq, lookup_cons_eq, ih]
      by_cases h : other = name'
      · rw [if_pos h, if_neg (h ▸ hname), if_pos h]
      · rw [if_neg h, if_neg h]

theorem get?_append (names names' : List String) (node : Node) :
    node.get? (names ++ names') = (node.get? names).bind (get? names') := by
  induction names generalizing node with
  | nil => rfl
  | cons name names ih =>
    show (node.entry? name).bind (get? (names ++ names')) = _
    rw [get?, Option.bind_assoc]
    exact congrArg _ (funext ih)

/-- There is a directory under these names. -/
def HasDir (node : Node) (names : List String) : Prop :=
  ∃ entries, node.get? names = some (.dir entries)

theorem hasDir_cons {node : Node} : node.HasDir (name :: names) ↔ ∃ entries child,
    node = dir entries ∧ entries.lookup name = some child ∧ child.HasDir names := by
  constructor
  · rintro ⟨entries', h⟩
    obtain ⟨child, hchild, hdir⟩ := Option.bind_eq_some_iff.1 h
    cases node with
    | file content => cases hchild
    | dir entries => exact ⟨entries, child, rfl, hchild, entries', hdir⟩
  · rintro ⟨entries, child, rfl, hchild, entries', h⟩
    exact ⟨entries', Option.bind_eq_some_iff.2 ⟨child, hchild, h⟩⟩

/-- What is in a directory is found under its names and one more. -/
theorem get?_concat (h : node.get? names = some (.dir entries)) (name : String) :
    node.get? (names ++ [name]) = entries.lookup name := by
  rw [get?_append, h]
  show (entries.lookup name).bind some = entries.lookup name
  exact Option.bind_fun_some _

/-- Directories stay directories, and what is there stays there. -/
structure Keeps (old new : Node) : Prop where
  dir : ∀ names, old.HasDir names → new.HasDir names
  there : ∀ names, (old.get? names).isSome → (new.get? names).isSome

/-- Below a file there is nothing to keep. -/
theorem keeps_file (content : Content) (new : Node) : (file content).Keeps new := by
  constructor
  · rintro names ⟨entries, h⟩
    cases names <;> cases h
  · intro names h
    cases names with
    | nil => rfl
    | cons name names => cases h

theorem get?_setEntry (name : String) (new : Node) (entries : List (String × Node))
    (other : String) (names : List String) :
    (dir (setEntry name new entries)).get? (other :: names) =
      if other = name then new.get? names else (dir entries).get? (other :: names) := by
  show ((setEntry name new entries).lookup other).bind (get? names) = _
  rw [lookup_setEntry]
  by_cases h : other = name
  · rw [if_pos h, if_pos h, Option.bind_some]
  · rw [if_neg h, if_neg h]
    rfl

/-- A directory is kept if the entry that is put into it keeps the one in its place. -/
theorem keeps_setEntry (h : ∀ child, entries.lookup name = some child → child.Keeps new) :
    (dir entries).Keeps (dir (setEntry name new entries)) := by
  constructor
  · rintro names ⟨entries', hnames⟩
    cases names with
    | nil => exact ⟨_, rfl⟩
    | cons other names =>
      rw [HasDir, get?_setEntry]
      by_cases hother : other = name
      · subst hother
        obtain ⟨child, hchild, hdir⟩ := Option.bind_eq_some_iff.1 hnames
        rw [if_pos rfl]
        exact (h child hchild).dir names ⟨entries', hdir⟩
      · rw [if_neg hother]
        exact ⟨entries', hnames⟩
  · intro names hnames
    cases names with
    | nil => rfl
    | cons other names =>
      rw [get?_setEntry]
      by_cases hother : other = name
      · subst hother
        obtain ⟨node, hnode⟩ := Option.isSome_iff_exists.1 hnames
        obtain ⟨child, hchild, hnode⟩ := Option.bind_eq_some_iff.1 hnode
        rw [if_pos rfl]
        exact (h child hchild).there names (by rw [hnode]; rfl)
      · rw [if_neg hother]
        exact hnames

/-- A node that is put below a directory goes into the entry that leads there. -/
theorem set_cons (h : entries.lookup name = some child) (hnames : names ≠ []) :
    set new (name :: names) (dir entries) = dir (setEntry name (set new names child) entries) := by
  cases names with
  | nil => exact absurd rfl hnames
  | cons name' names => simp [set, h]

theorem set_one (name : String) (new : Node) (entries : List (String × Node)) :
    set new [name] (dir entries) = dir (setEntry name new entries) := by
  simp [set]

/-- A node is found where it is put, if there is a directory to hold it. -/
theorem get?_set_self (name : String) (new : Node) {names : List String} {node : Node}
    (h : node.HasDir names) :
    (set new (names ++ [name]) node).get? (names ++ [name]) = some new := by
  induction names generalizing node with
  | nil =>
    obtain ⟨entries, hnode⟩ := h
    obtain rfl := Option.some.inj hnode
    rw [List.nil_append, set_one]
    show ((setEntry name new entries).lookup name).bind some = some new
    rw [lookup_setEntry, if_pos rfl, Option.bind_some]
  | cons n names ih =>
    obtain ⟨entries, child, rfl, hchild, hdir⟩ := hasDir_cons.1 h
    rw [List.cons_append, set_cons hchild (by simp)]
    show ((setEntry n _ entries).lookup n).bind (get? _) = some new
    rw [lookup_setEntry, if_pos rfl, Option.bind_some]
    exact ih hdir

/-- Where no directory is, a node can be put and all others are kept. -/
theorem keeps_set (name : String) (new : Node) {names : List String} {node : Node}
    (h : node.HasDir names) (hfree : ¬node.HasDir (names ++ [name])) :
    node.Keeps (set new (names ++ [name]) node) := by
  induction names generalizing node with
  | nil =>
    obtain ⟨entries, hnode⟩ := h
    obtain rfl := Option.some.inj hnode
    rw [List.nil_append, set_one]
    refine keeps_setEntry fun child hchild => ?_
    cases child with
    | file content => exact keeps_file content new
    | dir entries' => exact absurd (hasDir_cons.2 ⟨entries, _, rfl, hchild, entries', rfl⟩) hfree
  | cons n names ih =>
    obtain ⟨entries, child, rfl, hchild, hdir⟩ := hasDir_cons.1 h
    rw [List.cons_append, set_cons hchild (by simp)]
    refine keeps_setEntry fun child' hchild' => ?_
    obtain rfl := Option.some.inj (hchild.symm.trans hchild')
    exact ih hdir fun hdir' => hfree (hasDir_cons.2 ⟨entries, child, rfl, hchild, hdir'⟩)

end Node

namespace Tree

variable {t t' : Tree} {p : Path} {path : String} {names names' : List String} {name : String}

/-! ## Places -/

/-- A part leads from a directory to one place. -/
inductive Leads (t : Tree) (names : List String) : Part → List String → Prop
  | here (hdir : t.root.HasDir names) : t.Leads names .here names
  | up (hdir : t.root.HasDir names) : t.Leads names .up names.dropLast
  | name {name : String} (hdir : t.root.HasDir names) (hshort : nameFault? name = none)
      (hthere : (t.root.get? (names ++ [name])).isSome) :
      t.Leads names (.name name) (names ++ [name])

theorem follow_cons {part : Part} {parts : List Part} {names'' : List String} :
    t.follow names (part :: parts) = .ok names'' ↔
      ∃ names', t.Leads names part names' ∧ t.follow names' parts = .ok names'' := by
  constructor
  · intro h
    unfold follow at h
    split at h
    · rename_i entries hentries
      have hdir : t.root.HasDir names := ⟨entries, hentries⟩
      split at h
      · exact ⟨names, .here hdir, h⟩
      · exact ⟨names.dropLast, .up hdir, h⟩
      · rename_i name
        split at h
        · cases h
        · rename_i hshort
          split at h
          · rename_i hname
            exact ⟨names ++ [name], .name hdir hshort (by rwa [Node.get?_concat hentries]), h⟩
          · cases h
    · cases h
  · rintro ⟨names', hleads, h⟩
    unfold follow
    cases hleads with
    | here hdir =>
      obtain ⟨entries, hentries⟩ := hdir
      rwa [hentries]
    | up hdir =>
      obtain ⟨entries, hentries⟩ := hdir
      rwa [hentries]
    | name hdir hshort hthere =>
      obtain ⟨entries, hentries⟩ := hdir
      rw [Node.get?_concat hentries] at hthere
      simp only [hentries, hshort, hthere, if_true]
      exact h

theorem follow_append {parts parts' : List Part} {names'' : List String} :
    t.follow names (parts ++ parts') = .ok names'' ↔
      ∃ names', t.follow names parts = .ok names' ∧ t.follow names' parts' = .ok names'' := by
  induction parts generalizing names with
  | nil =>
    constructor
    · intro h
      exact ⟨names, rfl, h⟩
    · rintro ⟨names', hnames, h⟩
      cases hnames
      exact h
  | cons part parts ih =>
    rw [List.cons_append, follow_cons]
    constructor
    · rintro ⟨mid, hleads, h⟩
      obtain ⟨names', hnames', h⟩ := ih.1 h
      exact ⟨names', follow_cons.2 ⟨mid, hleads, hnames'⟩, h⟩
    · rintro ⟨names', hnames', h⟩
      obtain ⟨mid, hleads, hmid⟩ := follow_cons.1 hnames'
      exact ⟨mid, hleads, ih.2 ⟨names', hmid, h⟩⟩

theorem Leads.hasDir {part : Part} (h : t.Leads names part names') : t.root.HasDir names := by
  cases h <;> assumption

theorem Leads.of_keeps {part : Part} (hkeeps : t.root.Keeps t'.root)
    (h : t.Leads names part names') : t'.Leads names part names' := by
  cases h with
  | here hdir => exact .here (hkeeps.dir _ hdir)
  | up hdir => exact .up (hkeeps.dir _ hdir)
  | name hdir hshort hthere => exact .name (hkeeps.dir _ hdir) hshort (hkeeps.there _ hthere)

/-- A path that can be followed still can when the nodes are kept. -/
theorem follow_of_keeps (hkeeps : t.root.Keeps t'.root) {parts : List Part}
    (h : t.follow names parts = .ok names') : t'.follow names parts = .ok names' := by
  induction parts generalizing names with
  | nil => exact h
  | cons part parts ih =>
    obtain ⟨mid, hleads, hmid⟩ := follow_cons.1 h
    exact follow_cons.2 ⟨mid, hleads.of_keeps hkeeps, ih hmid⟩

/-- A path names the entry `name` of a directory that is there. -/
structure Slot (t : Tree) (p : Path) (names : List String) (name : String) : Prop where
  sound : p.fault? = none
  follow : t.follow (t.origin p) p.parts.dropLast = .ok names
  dir : t.root.HasDir names
  last : p.parts.getLast? = some (.name name)
  short : nameFault? name = none

/-- A slot is one in every tree with the same working directory in which the nodes are kept. -/
theorem Slot.of_keeps (hkeeps : t.root.Keeps t'.root) (hdir : t'.workingDir = t.workingDir)
    (h : t.Slot p names name) : t'.Slot p names name := by
  have horigin : t'.origin p = t.origin p := by rw [origin, origin, hdir]
  have hfollow := follow_of_keeps hkeeps h.follow
  exact ⟨h.sound, horigin ▸ hfollow, hkeeps.dir names h.dir, h.last, h.short⟩

/-- What a path leads to. A slash at the end of the path asks for a directory. -/
theorem locateAt_eq_ok {node : Node} : t.locateAt p = .ok (names, node) ↔
    p.fault? = none ∧ t.follow (t.origin p) p.parts = .ok names ∧ t.root.get? names = some node ∧
      (p.asDirectory → node.isDir) := by
  unfold locateAt
  split
  · rename_i fault hfault
    simp [hfault]
  · rename_i hsound
    rw [bind_eq_ok]
    constructor
    · rintro ⟨names', hfollow, h⟩
      split at h
      · rename_i node' hnode
        obtain ⟨hfits, hfound⟩ := ite_error_eq_ok.1 h
        cases hfound
        exact ⟨hsound, hfollow, hnode, by simpa using hfits⟩
      · cases h
    · rintro ⟨-, hfollow, hnode, hkind⟩
      exact ⟨names, hfollow, by rw [hnode]; exact if_neg (by simpa using hkind)⟩

/-- A slot with a node in it leads to that node. -/
theorem Slot.locateAt {node : Node} (h : t.Slot p names name)
    (hnode : t.root.get? (names ++ [name]) = some node) (hkind : p.asDirectory → node.isDir) :
    t.locateAt p = .ok (names ++ [name], node) := by
  refine locateAt_eq_ok.2 ⟨h.sound, ?_, hnode, hkind⟩
  have hparts : p.parts.dropLast ++ [.name name] = p.parts :=
    List.dropLast_append_getLast? _ h.last
  rw [← hparts]
  refine follow_append.2 ⟨names, h.follow, follow_cons.2 ⟨_, .name h.dir h.short ?_, rfl⟩⟩
  rw [hnode]
  rfl

theorem slot_eq_ok {last : Option Part} : t.slot p = .ok (names, last) ↔
    t.follow (t.origin p) p.parts.dropLast = .ok names ∧ t.root.HasDir names ∧
      p.parts.getLast? = last := by
  unfold slot
  rw [bind_eq_ok]
  constructor
  · rintro ⟨names', hfollow, h⟩
    split at h
    · rename_i entries hdir
      cases h
      exact ⟨hfollow, ⟨entries, hdir⟩, rfl⟩
    · cases h
  · rintro ⟨hfollow, ⟨entries, hdir⟩, hlast⟩
    exact ⟨names, hfollow, by rw [hdir, hlast]⟩

theorem slot_iff : t.Slot p names name ↔
    p.fault? = none ∧ t.slot p = .ok (names, some (.name name)) ∧ nameFault? name = none := by
  rw [slot_eq_ok]
  constructor
  · intro h
    exact ⟨h.sound, ⟨h.follow, h.dir, h.last⟩, h.short⟩
  · rintro ⟨hsound, ⟨hfollow, hdir, hlast⟩, hshort⟩
    exact ⟨hsound, hfollow, hdir, hlast, hshort⟩

/-- A slot that holds no directory is the place of a file. -/
theorem Slot.filePlace (h : t.Slot (Path.ofText path) names name)
    (hfree : ¬t.root.HasDir (names ++ [name])) (hp : (Path.ofText path).asDirectory = false) :
    t.filePlace path = .ok (names ++ [name]) := by
  obtain ⟨hsound, hslot, hshort⟩ := slot_iff.1 h
  simp only [Tree.filePlace, hsound, hslot, bind, Except.bind, hshort, hp, Bool.false_eq_true,
    if_false]
  split
  · rename_i hfault
    cases hfault
  · rename_i entries _ hdir
    exact absurd ⟨entries, hdir⟩ hfree
  · rfl
  · rfl

theorem exists_slot_of_filePlace {place : List String} (h : t.filePlace path = .ok place) :
    (Path.ofText path).asDirectory = false ∧ ∃ names name, t.Slot (Path.ofText path) names name ∧
      ¬t.root.HasDir (names ++ [name]) ∧ place = names ++ [name] := by
  unfold filePlace at h
  simp only at h
  split at h
  · cases h
  · rename_i hsound
    obtain ⟨⟨names, last⟩, hslot, h⟩ := bind_eq_ok.1 h
    split at h
    · rename_i names name hfound
      cases hfound
      obtain ⟨hshort, hfree, hp, rfl⟩ : nameFault? name = none ∧
          ¬t.root.HasDir (names ++ [name]) ∧ (Path.ofText path).asDirectory = false ∧
          place = names ++ [name] := by
        split at h
        · cases h
        · cases h
        · rename_i content hshort hfile
          obtain ⟨hp, hplace⟩ := ite_error_eq_ok.1 h
          exact ⟨hshort, by simp [Node.HasDir, hfile], hp, hplace.symm⟩
        · rename_i hshort hnone
          obtain ⟨hp, hplace⟩ := ite_error_eq_ok.1 h
          exact ⟨hshort, by simp [Node.HasDir, hnone], hp, hplace.symm⟩
      exact ⟨hp, names, name, slot_iff.2 ⟨hsound, hslot, hshort⟩, hfree, rfl⟩
    · cases h

/-! ## Reading back -/

/-- What is put into a slot is found there. -/
theorem Slot.locateAt_set {node : Node} (h : t.Slot p names name)
    (hfree : ¬t.root.HasDir (names ++ [name])) (hkind : p.asDirectory → node.isDir) :
    (t.set (names ++ [name]) node).locateAt p = .ok (names ++ [name], node) := by
  have hset : (t.set (names ++ [name]) node).Slot p names name :=
    h.of_keeps (Node.keeps_set name node h.dir hfree) rfl
  exact hset.locateAt (Node.get?_set_self name node h.dir) hkind

/-- Writing puts a file into a slot that holds no directory. -/
theorem write_eq_ok {content : Bytes} (h : t.write path content = .ok t') :
    (Path.ofText path).asDirectory = false ∧ ∃ names name, t.Slot (Path.ofText path) names name ∧
      ¬t.root.HasDir (names ++ [name]) ∧ t' = t.set (names ++ [name]) (.file (.ok content)) := by
  obtain ⟨place, hplace, h⟩ := bind_eq_ok.1 h
  cases h
  obtain ⟨hp, names, name, hslot, hfree, rfl⟩ := exists_slot_of_filePlace hplace
  exact ⟨hp, names, name, hslot, hfree, rfl⟩

/-- A file that is written is read back. -/
theorem read_write {content : Bytes} (h : t.write path content = .ok t') :
    t'.read path = .ok content := by
  obtain ⟨hp, names, name, hslot, hfree, rfl⟩ := write_eq_ok h
  rw [read, locate, hslot.locateAt_set hfree (by simp [hp])]
  rfl

/-- A file that is written can be written again. -/
theorem filePlace_write {content : Bytes} (h : t.write path content = .ok t') :
    ∃ place, t'.filePlace path = .ok place := by
  obtain ⟨hp, names, name, hslot, hfree, rfl⟩ := write_eq_ok h
  have hset : (t.set (names ++ [name]) (.file (.ok content))).Slot (Path.ofText path) names name :=
    hslot.of_keeps (Node.keeps_set name _ hslot.dir hfree) rfl
  refine ⟨names ++ [name], hset.filePlace ?_ hp⟩
  rintro ⟨entries, hdir⟩
  cases (Node.get?_set_self name (.file (.ok content)) hslot.dir).symm.trans hdir

/-- Writing keeps the nodes and the working directory. -/
theorem keeps_write {content : Bytes} (h : t.write path content = .ok t') :
    t.root.Keeps t'.root ∧ t'.workingDir = t.workingDir := by
  obtain ⟨-, names, name, hslot, hfree, rfl⟩ := write_eq_ok h
  exact ⟨Node.keeps_set name _ hslot.dir hfree, rfl⟩

/-! ## Directories above -/

theorem isDirAt_iff : t.isDirAt p ↔ p.fault? = none ∧
    ∃ names, t.follow (t.origin p) p.parts = .ok names ∧ t.root.HasDir names := by
  unfold isDirAt
  constructor
  · intro h
    split at h
    · rename_i names node hnode
      obtain ⟨hsound, hfollow, hget, -⟩ := locateAt_eq_ok.1 hnode
      cases node with
      | file content => cases h
      | dir entries => exact ⟨hsound, names, hfollow, entries, hget⟩
    · cases h
  · rintro ⟨hsound, names, hfollow, entries, hdir⟩
    rw [locateAt_eq_ok.2 ⟨hsound, hfollow, hdir, fun _ => rfl⟩]
    rfl

theorem isDirAt_of_keeps (hkeeps : t.root.Keeps t'.root) (hdir : t'.workingDir = t.workingDir)
    (h : t.isDirAt p) : t'.isDirAt p := by
  obtain ⟨hsound, names, hfollow, hnames⟩ := isDirAt_iff.1 h
  have horigin : t'.origin p = t.origin p := by rw [origin, origin, hdir]
  exact isDirAt_iff.2 ⟨hsound, names, horigin ▸ follow_of_keeps hkeeps hfollow,
    hkeeps.dir names hnames⟩

/-- A directory that is made is there. -/
theorem isDirAt_of_makeDirAt (h : t.makeDirAt p = .ok t') : t'.isDirAt p := by
  unfold makeDirAt at h
  split at h
  · cases h
  · rename_i hsound
    obtain ⟨⟨names, last⟩, hslot, h⟩ := bind_eq_ok.1 h
    split at h
    · rename_i names name hfound
      cases hfound
      split at h
      · cases h
      · cases h
      · rename_i hshort hnone
        cases h
        have hplace : t.Slot p names name := slot_iff.2 ⟨hsound, hslot, hshort⟩
        have hfree : ¬t.root.HasDir (names ++ [name]) := by
          rintro ⟨entries, hdir⟩
          cases hnone.symm.trans hdir
        rw [isDirAt, hplace.locateAt_set hfree fun _ => rfl]
        rfl
    · cases h

/-- A directory that is there cannot be made again. -/
theorem makeDirAt_of_isDirAt (h : t.isDirAt p) : t.makeDirAt p = .error .alreadyExists := by
  obtain ⟨hsound, names, hfollow, hdir⟩ := isDirAt_iff.1 h
  unfold makeDirAt
  rw [hsound]
  cases hlast : p.parts.getLast? with
  | none =>
    have hparts : p.parts = [] := List.getLast?_eq_none_iff.1 hlast
    have hslot : t.slot p = .ok (names, none) :=
      slot_eq_ok.2 ⟨by rw [hparts] at hfollow ⊢; exact hfollow, hdir, hlast⟩
    rw [hslot]
    rfl
  | some part =>
    have hparts : p.parts.dropLast ++ [part] = p.parts := List.dropLast_append_getLast? _ hlast
    rw [← hparts] at hfollow
    obtain ⟨above, habove, hfollow⟩ := follow_append.1 hfollow
    obtain ⟨_, hleads, -⟩ := follow_cons.1 hfollow
    have hslot : t.slot p = .ok (above, some part) :=
      slot_eq_ok.2 ⟨habove, hleads.hasDir, hlast⟩
    rw [hslot]
    cases hleads with
    | here hdir => rfl
    | up hdir => rfl
    | name hdir hshort hthere =>
      obtain ⟨node, hnode⟩ := Option.isSome_iff_exists.1 hthere
      simp only [bind, Except.bind, hshort, hnode]

/-- Where directories can be made, there is a directory then. -/
theorem isDirAt_of_makeDirsAt (h : t.makeDirsAt p = (t', none)) : p.size = 0 ∨ t'.isDirAt p := by
  have hexcused {made : Tree} {fault : FileError}
      (h : (made, if made.isDirAt p then none else some fault) = (t', none)) : t'.isDirAt p := by
    split at h
    · rename_i hdir
      cases h
      exact hdir
    · cases h
  unfold makeDirsAt at h
  split at h
  · rename_i hsize
    exact .inl hsize
  right
  split at h
  · rename_i made hmade
    cases h
    exact isDirAt_of_makeDirAt hmade
  · split at h
    · cases h
    · split at h
      · cases h
      · split at h
        · rename_i made hmade
          cases h
          exact isDirAt_of_makeDirAt hmade
        · exact hexcused h
  · exact hexcused h

/-- Directories that are there are not made again. -/
theorem makeDirsAt_of_isDirAt (h : p.size = 0 ∨ t.isDirAt p) : t.makeDirsAt p = (t, none) := by
  unfold makeDirsAt
  split
  · rfl
  · rename_i hsize
    have hdir := h.resolve_left hsize
    rw [makeDirAt_of_isDirAt hdir]
    simp [hdir]

/-! ## Files with the directories above them -/

/-- The directories above a file are there or can be made, and then the file can be written. -/
def Writable (t : Tree) (path : String) : Prop :=
  ∃ made place, t.makeParents path = (made, none) ∧ made.filePlace path = .ok place

theorem Writable.put_eq (h : t.Writable path) (content : Bytes) : ∃ made,
    t.makeParents path = (made, none) ∧ made.write path content = .ok (t.put path content) := by
  obtain ⟨made, place, hmade, hplace⟩ := h
  have hwrite : made.write path content = .ok (made.set place (.file (.ok content))) := by
    rw [write, hplace]
    rfl
  exact ⟨made, hmade, by simp only [put, hmade, hwrite]; rfl⟩

/-- What is put into a file is read back. -/
theorem Writable.read_put (h : t.Writable path) (content : Bytes) :
    (t.put path content).read path = .ok content := by
  obtain ⟨made, -, hwrite⟩ := h.put_eq content
  exact read_write hwrite

/-- Where a file is put, one can be put again. -/
theorem Writable.put (h : t.Writable path) (content : Bytes) :
    (t.put path content).Writable path := by
  obtain ⟨made, hmade, hwrite⟩ := h.put_eq content
  obtain ⟨place, hplace⟩ := filePlace_write hwrite
  refine ⟨t.put path content, place, ?_, hplace⟩
  unfold makeParents at hmade ⊢
  split at hmade
  · rename_i above habove
    obtain ⟨hkeeps, hdir⟩ := keeps_write hwrite
    exact makeDirsAt_of_isDirAt ((isDirAt_of_makeDirsAt hmade).imp_right
      (isDirAt_of_keeps hkeeps hdir))
  · rfl

end Tree

end Dialogue.Files
