import Dialogue.Proofs.Files.Walk
import Dialogue.Proofs.Text.Pieces
import Dialogue.Source.Basic
import Mathlib.Tactic.Linarith

/-!
# Sheets below a directory

The sheets below a directory are read in the order of their paths, all of them or none: the first
that cannot be read fails the load.

* `IsSheet` are the names of sheets, `SheetAt` is a sheet at some names below a directory, and
  `Lists` a list of exactly these sheets in the order of their paths.
* `locate_joinAll` and `read_joinAll`: the path of a sheet leads to it.
* `Gives` and `Fails` are what one file comes to.
* `load_below` is the load of a directory.
-/

namespace Dialogue

namespace Source

open Files Text

variable {t : Tree} {path base : String} {place names : List String} {name : String}
  {dir node : Node} {content : Content} {rows : List Row} {e : SourceError}
  {entries : List (String × Node)}

/-! ## Names of sheets -/

/-- The name of a sheet: something, a point, and the extension in letters of either case. -/
def IsSheet (name : String) : Prop :=
  ∃ stem ext, name.toList = stem ++ '.' :: ext ∧ stem ≠ [] ∧ lowerAscii ext = "csv".toList

theorem extension?_eq_some_iff {ext : List Char} : extension? name = some ext ↔
    ∃ stem, name.toList = stem ++ '.' :: ext ∧ stem ≠ [] ∧ '.' ∉ ext := by
  unfold extension?
  rcases notMem_or_eq_append_cons '.' name.toList.reverse with hnone | ⟨last, front, heq, hlast⟩
  · rw [span_of_notMem hnone]
    constructor
    · intro h
      cases h
    · rintro ⟨stem, hname, -⟩
      simp [hname] at hnone
  · have hname : name.toList = front.reverse ++ '.' :: last.reverse := by
      simpa using congrArg List.reverse heq
    rw [heq, span_append_cons hlast]
    constructor
    · intro h
      cases front with
      | nil => cases h
      | cons c front =>
        cases h
        exact ⟨_, hname, by simp, by simpa using hlast⟩
    · rintro ⟨stem, hstem, hne, hext⟩
      -- there is one way to cut a name at its last point
      rw [hname] at hstem
      have hcut := congrArg (fun cs : List Char => cs.reverse.span (· ≠ '.')) hstem
      simp only [List.reverse_append, List.reverse_cons, List.reverse_reverse, List.append_assoc,
        List.singleton_append] at hcut
      rw [span_append_cons hlast, span_append_cons (by simpa using hext)] at hcut
      obtain ⟨rfl, hfront⟩ := Prod.mk.inj hcut
      obtain ⟨-, rfl⟩ := List.cons.inj hfront
      cases hrev : stem.reverse with
      | nil => exact absurd (List.reverse_eq_nil_iff.1 hrev) hne
      | cons c cs => simp

/-- The extension of a sheet has no point. -/
theorem point_notMem_of_lowerAscii {ext : List Char} (h : lowerAscii ext = "csv".toList) :
    '.' ∉ ext := by
  intro hmem
  have hpoint : '.' ∈ lowerAscii ext := List.mem_map.2 ⟨'.', hmem, by decide⟩
  rw [h] at hpoint
  exact absurd hpoint (by decide)

theorem isSheetName_iff : isSheetName name = true ↔ IsSheet name := by
  rw [isSheetName, Option.any_eq_true]
  constructor
  · rintro ⟨ext, hext, hcsv⟩
    obtain ⟨stem, hname, hne, -⟩ := extension?_eq_some_iff.1 hext
    exact ⟨stem, ext, hname, hne, of_decide_eq_true hcsv⟩
  · rintro ⟨stem, ext, hname, hne, hcsv⟩
    exact ⟨ext, extension?_eq_some_iff.2 ⟨stem, hname, hne, point_notMem_of_lowerAscii hcsv⟩,
      decide_eq_true hcsv⟩

/-! ## Paths of sheets -/

theorem joinAll_concat (base : String) (names : List String) (name : String) :
    joinAll base (names ++ [name]) = join (joinAll base names) name :=
  List.foldl_concat ..

theorem joinAll_ne_empty (hbase : base ≠ "") (hnames : ∀ name ∈ names, IsName name) :
    joinAll base names ≠ "" := by
  induction names generalizing base with
  | nil => exact hbase
  | cons name names ih =>
    obtain ⟨hname, hnames⟩ := List.forall_mem_cons.1 hnames
    exact ih (Path.join_ne_empty hname.nonempty) hnames

theorem parts_joinAll (hbase : base ≠ "") (hnames : ∀ name ∈ names, IsName name) :
    (Path.ofText (joinAll base names)).parts = (Path.ofText base).parts ++ names.map .name := by
  induction names generalizing base with
  | nil => exact (List.append_nil _).symm
  | cons name names ih =>
    obtain ⟨hname, hnames⟩ := List.forall_mem_cons.1 hnames
    show (Path.ofText (joinAll (join base name) names)).parts = _
    rw [ih (Path.join_ne_empty hname.nonempty) hnames, Path.parts_join hbase hname,
      List.append_assoc]
    rfl

theorem absolute_joinAll (hbase : base ≠ "") (hnames : ∀ name ∈ names, IsName name) :
    (Path.ofText (joinAll base names)).absolute = (Path.ofText base).absolute := by
  induction names generalizing base with
  | nil => rfl
  | cons name names ih =>
    obtain ⟨hname, hnames⟩ := List.forall_mem_cons.1 hnames
    show (Path.ofText (joinAll (join base name) names)).absolute = _
    rw [ih (Path.join_ne_empty hname.nonempty) hnames, Path.absolute_join hbase hname]

theorem noNul_joinAll (hbase : base ≠ "")
    (hsound : ∀ s ∈ (Path.ofText base).segments, '\x00' ∉ s.toList)
    (hnames : ∀ name ∈ names, IsName name) :
    ∀ s ∈ (Path.ofText (joinAll base names)).segments, '\x00' ∉ s.toList := by
  induction names generalizing base with
  | nil => exact hsound
  | cons name names ih =>
    obtain ⟨hname, hnames⟩ := List.forall_mem_cons.1 hnames
    exact ih (Path.join_ne_empty hname.nonempty) (Path.noNul_join hbase hsound hname) hnames

theorem ne_empty_of_fault? (h : (Path.ofText path).fault? = none) : path ≠ "" := by
  rintro rfl
  exact absurd rfl (Path.fault?_eq_none_iff.1 h).2.1

/-- A path to which names are added is faulty only if it is too long. -/
theorem fault?_joinAll (hroot : (Path.ofText path).fault? = none)
    (hnames : ∀ name ∈ names, IsName name) : (Path.ofText (joinAll path names)).fault? = none ↔
      (joinAll path names).utf8ByteSize ≤ Path.longest := by
  have hbase := ne_empty_of_fault? hroot
  rw [Path.fault?_eq_none_iff]
  constructor
  · exact fun h => h.2.2
  · intro hshort
    refine ⟨noNul_joinAll hbase (Path.fault?_eq_none_iff.1 hroot).1 hnames, ?_, hshort⟩
    rw [Ne, String.utf8ByteSize_eq_zero_iff]
    exact joinAll_ne_empty hbase hnames

/-- The path of what is below a directory leads there. -/
theorem locate_joinAll (hroot : t.locate path = .ok (place, dir)) (hproper : dir.Proper)
    (hget : dir.get? names = some node) (hne : names ≠ [])
    (hshort : (joinAll path names).utf8ByteSize ≤ Path.longest) :
    t.locate (joinAll path names) = .ok (place ++ names, node) := by
  obtain ⟨hsound, hfollow, hdir, -⟩ := Tree.locateAt_eq_ok.1 hroot
  have hbase := ne_empty_of_fault? hsound
  have hnames := hproper.isName_of_get? hget
  have hnode : t.root.get? (place ++ names) = some node := by
    rw [Node.get?_append, hdir, Option.bind_some, hget]
  refine Tree.locateAt_eq_ok.2 ⟨(fault?_joinAll hsound hnames).2 hshort, ?_, hnode, ?_⟩
  · have horigin : t.origin (Path.ofText (joinAll path names)) = t.origin (Path.ofText path) := by
      rw [Tree.origin, Tree.origin, absolute_joinAll hbase hnames]
    rw [horigin, parts_joinAll hbase hnames]
    exact Tree.follow_append.2 ⟨place, hfollow, Tree.follow_names hnames (by rw [hnode]; rfl)⟩
  · obtain ⟨above, name, rfl⟩ : ∃ above name, names = above ++ [name] :=
      ⟨_, _, (List.dropLast_append_getLast hne).symm⟩
    have habove : joinAll path above ≠ "" :=
      joinAll_ne_empty hbase fun n hn => hnames n (List.mem_append_left _ hn)
    rw [joinAll_concat, Path.asDirectory_join habove (hnames name (by simp))]
    exact fun h => absurd h Bool.false_ne_true

theorem read_joinAll (hroot : t.locate path = .ok (place, .dir entries))
    (hproper : (Node.dir entries).Proper) (hget : (Node.dir entries).get? names = some (.file content))
    (hshort : (joinAll path names).utf8ByteSize ≤ Path.longest) :
    t.read (joinAll path names) = content := by
  have hne : names ≠ [] := by
    rintro rfl
    cases hget
  rw [Tree.read, locate_joinAll hroot hproper hget hne hshort]
  rfl

/-! ## The list of the sheets -/

/-- Below a directory, which a path leads to, there is a sheet with this content under these names,
and its path is not too long for the system. -/
structure SheetAt (path : String) (dir : Node) (names : List String) (content : Content) : Prop where
  there : dir.get? names = some (.file content)
  named : ∃ name, names.getLast? = some name ∧ IsSheet name
  short : (joinAll path names).utf8ByteSize ≤ Path.longest

/-- All sheets below a directory in the order of their paths, none of them twice. -/
structure Lists (path : String) (dir : Node) (sheets : List (List String × Content)) : Prop where
  mem_iff : ∀ names content, (names, content) ∈ sheets ↔ SheetAt path dir names content
  increasing : sheets.Pairwise fun a b => Earlier a.1 b.1

/-- The sheets below a directory by their names. -/
def sheetsBelow (path : String) (dir : Node) : List (List String × Content) :=
  (dir.files.filter fun f => f.1.getLast?.any isSheetName).filter fun f =>
    (Path.ofText (joinAll path f.1)).fault?.isNone

theorem sheetFiles_eq (path : String) (dir : Node) :
    sheetFiles path dir = (sheetsBelow path dir).map fun f => (joinAll path f.1, f.2) := by
  rw [sheetFiles, List.filter_map]
  rfl

theorem lists_sheetsBelow (hroot : (Path.ofText path).fault? = none) (hproper : dir.Proper) :
    Lists path dir (sheetsBelow path dir) := by
  constructor
  · intro names content
    have hnamed : (names.getLast?.any isSheetName = true) ↔
        ∃ name, names.getLast? = some name ∧ IsSheet name := by
      rw [Option.any_eq_true]
      simp only [isSheetName_iff]
    rw [sheetsBelow, List.mem_filter, List.mem_filter, hproper.mem_files_iff, hnamed,
      Option.isNone_iff_eq_none]
    constructor
    · rintro ⟨⟨hthere, hname⟩, hfault⟩
      exact ⟨hthere, hname, (fault?_joinAll hroot (hproper.isName_of_get? hthere)).1 hfault⟩
    · rintro ⟨hthere, hname, hshort⟩
      exact ⟨⟨hthere, hname⟩, (fault?_joinAll hroot (hproper.isName_of_get? hthere)).2 hshort⟩
  · exact (hproper.pairwise_files.filter _).filter _

/-! ## One sheet -/

/-- What reading a sheet comes to, and its rows. -/
def Gives (content : Content) (rows : List Row) : Prop :=
  ∃ bytes text sheet, content = .ok bytes ∧ text? bytes = some text ∧
    Sheet.ofText text = .ok sheet ∧ sheet.rows = rows

/-- What reading a file that is no sheet, or that cannot be read, comes to, and the failure with its
path. -/
inductive Fails (path : String) : Content → SourceError → Prop
  | unreadable (cause : FileError) : Fails path (.error cause) (.unreadable path cause)
  | notText {bytes : Bytes} (htext : text? bytes = none) :
    Fails path (.ok bytes) (.unreadable path .notText)
  | rejected {bytes : Bytes} {text : String} {cause : Sheet.SheetError}
    (htext : text? bytes = some text) (hsheet : Sheet.ofText text = .error cause) :
    Fails path (.ok bytes) (.rejected path cause)

theorem rowsOfFile_eq_ok_iff : rowsOfFile path content = .ok rows ↔ Gives content rows := by
  unfold rowsOfFile
  constructor
  · intro h
    split at h
    · cases h
    · rename_i bytes
      split at h
      · cases h
      · rename_i text htext
        split at h
        · rename_i sheet hsheet
          cases h
          exact ⟨bytes, text, sheet, rfl, htext, hsheet, rfl⟩
        · cases h
  · rintro ⟨bytes, text, sheet, rfl, htext, hsheet, rfl⟩
    simp only [htext, hsheet]

theorem rowsOfFile_eq_error_iff : rowsOfFile path content = .error e ↔ Fails path content e := by
  unfold rowsOfFile
  constructor
  · intro h
    split at h
    · cases h
      exact .unreadable _
    · split at h
      · rename_i htext
        cases h
        exact .notText htext
      · rename_i text htext
        split at h
        · cases h
        · rename_i cause hsheet
          cases h
          exact .rejected htext hsheet
  · intro h
    cases h with
    | unreadable cause => rfl
    | notText htext => simp only [htext]
    | rejected htext hsheet => simp only [htext, hsheet]

/-! ## All sheets -/

/-- The rows of sheets that were found, one sheet after the other. -/
def rowsOfAll (path : String) (sheets : List (List String × Content)) :
    Except SourceError (List Row) :=
  (sheets.mapM fun s => rowsOfFile (joinAll path s.1) s.2).map List.flatten

theorem rowsOfAll_eq_ok_iff {sheets : List (List String × Content)} :
    rowsOfAll path sheets = .ok rows ↔
      ∃ each, List.Forall₂ (fun s rs => Gives s.2 rs) sheets each ∧ rows = each.flatten := by
  have hgives : ∀ each, (sheets.mapM fun s => rowsOfFile (joinAll path s.1) s.2) = .ok each ↔
      List.Forall₂ (fun s rs => Gives s.2 rs) sheets each := by
    intro each
    rw [mapM_eq_ok_iff]
    simp only [rowsOfFile_eq_ok_iff]
  simp only [← hgives, rowsOfAll]
  cases sheets.mapM fun s => rowsOfFile (joinAll path s.1) s.2 <;> simp [Except.map, eq_comm]

theorem rowsOfAll_eq_error_iff {sheets : List (List String × Content)} :
    rowsOfAll path sheets = .error e ↔ ∃ before s after, sheets = before ++ s :: after ∧
      (∀ b ∈ before, ∃ rs, Gives b.2 rs) ∧ Fails (joinAll path s.1) s.2 e := by
  rw [rowsOfAll, map_eq_error_iff]
  simp only [← rowsOfFile_eq_error_iff]
  constructor
  · intro h
    obtain ⟨before, s, after, hsheets, hbefore, hs⟩ := exists_of_mapM_eq_error h
    refine ⟨before, s, after, hsheets, fun b hb => ?_, hs⟩
    obtain ⟨rs, hrs⟩ := hbefore b hb
    exact ⟨rs, rowsOfFile_eq_ok_iff.1 hrs⟩
  · rintro ⟨before, s, after, rfl, hbefore, hs⟩
    refine mapM_eq_error (fun b hb => ?_) hs
    obtain ⟨rs, hrs⟩ := hbefore b hb
    exact ⟨rs, rowsOfFile_eq_ok_iff.2 hrs⟩

/-- The failure of a directory without sheets. -/
def noSheets (path : String) : SourceError :=
  .unavailable ("no csv sheets under " ++ quoted path)

theorem rowsUnder_dir (hroot : t.locate path = .ok (place, .dir entries)) :
    rowsUnder t path = if sheetsBelow path (.dir entries) = [] then .error (noSheets path)
      else rowsOfAll path (sheetsBelow path (.dir entries)) := by
  unfold rowsUnder
  rw [hroot]
  dsimp only
  rw [sheetFiles_eq]
  cases sheetsBelow path (.dir entries) with
  | nil => rfl
  | cons s sheets =>
    rw [if_neg (List.cons_ne_nil _ _), rowsOfAll]
    show ((s :: sheets).map _).mapM _ >>= (fun each => pure each.flatten) = _
    rw [List.mapM_map]
    simp only [Function.comp_def]
    cases (s :: sheets).mapM fun s => rowsOfFile (joinAll path s.1) s.2 <;> rfl

theorem ne_unavailable_of_fails {reason : String} (h : Fails path content e) :
    e ≠ .unavailable reason := by
  rintro rfl
  cases h

/-- Below a directory with proper entries, the sheets are the files at any depth whose name is that
of a sheet and whose path is not too long. In the order of their paths, each leads to its file, and
a load gives their rows in this order if all of them can be read and are sheets. Otherwise it fails
with the first that does not, or for want of sheets if there are none at all. -/
theorem load_below (hroot : t.locate path = .ok (place, .dir entries))
    (hproper : (Node.dir entries).Proper) (force : Bool) :
    ∃ sheets, Lists path (.dir entries) sheets ∧
      (∀ s ∈ sheets, t.read (joinAll path s.1) = s.2) ∧
      (∀ rows, (load (.sheets path) force t).result = .ok rows ↔ sheets ≠ [] ∧
        ∃ each, List.Forall₂ (fun s rs => Gives s.2 rs) sheets each ∧ rows = each.flatten) ∧
      (∀ e, (load (.sheets path) force t).result = .error e ↔
        sheets = [] ∧ e = noSheets path ∨ ∃ before s after, sheets = before ++ s :: after ∧
          (∀ b ∈ before, ∃ rs, Gives b.2 rs) ∧ Fails (joinAll path s.1) s.2 e) ∧
      ((∃ reason, (load (.sheets path) force t).result = .error (.unavailable reason)) ↔
        ∀ names content, ¬ SheetAt path (.dir entries) names content) := by
  have hlists := lists_sheetsBelow (Tree.locateAt_eq_ok.1 hroot).1 hproper
  have hresult : (load (.sheets path) force t).result = _ := rowsUnder_dir hroot
  generalize sheetsBelow path (.dir entries) = sheets at hlists hresult
  have hsome : (∀ names content, ¬ SheetAt path (.dir entries) names content) ↔ sheets = [] := by
    simp only [← hlists.mem_iff, List.eq_nil_iff_forall_not_mem, Prod.forall]
  refine ⟨sheets, hlists, ?_, ?_, ?_, ?_⟩
  · intro s hs
    have hsheet := (hlists.mem_iff s.1 s.2).1 hs
    exact read_joinAll hroot hproper hsheet.there hsheet.short
  · intro rows
    rw [hresult]
    split
    · rename_i hnone
      simp [hnone]
    · rename_i hsheets
      rw [rowsOfAll_eq_ok_iff]
      exact (and_iff_right hsheets).symm
  · intro e
    rw [hresult]
    split
    · rename_i hnone
      simp [hnone, eq_comm]
    · rename_i hsheets
      rw [rowsOfAll_eq_error_iff]
      simp [hsheets]
  · rw [hresult, hsome]
    split
    · rename_i hnone
      exact iff_of_true ⟨_, rfl⟩ hnone
    · rename_i hsheets
      refine iff_of_false ?_ hsheets
      rintro ⟨reason, herror⟩
      obtain ⟨_, _, _, _, _, hfails⟩ := rowsOfAll_eq_error_iff.1 herror
      exact ne_unavailable_of_fails hfails rfl

/-- A directory with the name of a sheet that holds a sheet, a file before it in the order of the
paths that cannot be read, and a file of another kind. -/
theorem load_below_nested :
    let sheet := bytesOf "ID,Command\n1,Say\n"
    let entries : List (String × Node) := [("b.csv", .dir [("x.CsV", .file (.ok sheet))]),
      ("a.csv", .file (.error .permissionDenied)), ("c.txt", .file (.ok [0xFF]))]
    let t : Tree := { root := .dir [("game", .dir entries)] }
    t.locate "game/" = .ok (["game"], .dir entries) ∧ (Node.dir entries).Proper ∧
      SheetAt "game/" (.dir entries) ["b.csv", "x.CsV"] (.ok sheet) ∧
      (¬ ∃ reason, (load (.sheets "game/") true t).result = .error (.unavailable reason)) ∧
      ∃ sheets, Lists "game/" (.dir entries) sheets ∧
        ∀ s ∈ sheets, t.read (joinAll "game/" s.1) = s.2 := by
  intro sheet entries t
  have hroot : t.locate "game/" = .ok (["game"], .dir entries) := by rfl
  have hproper : (Node.dir entries).Proper := by
    have hinner : (Node.dir [("x.CsV", .file (.ok sheet))]).Proper :=
      .dir (by decide +kernel) (by decide +kernel) (by simpa using .file _)
    refine .dir (by decide +kernel) (by decide +kernel) ?_
    simpa [entries] using ⟨hinner, .file _, .file _⟩
  have hsheet : SheetAt "game/" (.dir entries) ["b.csv", "x.CsV"] (.ok sheet) := by
    have hname : IsSheet "x.CsV" := isSheetName_iff.1 (by decide +kernel)
    exact ⟨rfl, ⟨"x.CsV", rfl, hname⟩, by decide +kernel⟩
  obtain ⟨sheets, hlists, hread, -, -, hnone⟩ := load_below hroot hproper true
  refine ⟨hroot, hproper, hsheet, ?_, sheets, hlists, hread⟩
  rw [hnone]
  exact fun hall => hall _ _ hsheet

/-! ## Paths that are too long -/

/-- A path with steps in front of it that stay in place. -/
def stepsTo (n : Nat) (path : String) : String :=
  (List.replicate n "./").foldr (· ++ ·) path

theorem stepsTo_succ (n : Nat) (path : String) : stepsTo (n + 1) path = "./" ++ stepsTo n path := rfl

theorem segments_here (path : String) :
    (Path.ofText ("./" ++ path)).segments = "." :: (Path.ofText path).segments :=
  Path.segments_slash "." path

/-- A step that stays in place leads nowhere else, from the working directory. -/
theorem locate_here (hroot : t.locate path = .ok (place, node)) (hdir : node.isDir = true)
    (hrelative : (Path.ofText path).absolute = false) (hworking : t.root.HasDir t.workingDir)
    (hshort : ("./" ++ path).utf8ByteSize ≤ Path.longest) :
    t.locate ("./" ++ path) = .ok (place, node) ∧
      (Path.ofText ("./" ++ path)).absolute = false := by
  obtain ⟨hsound, hfollow, hnode, -⟩ := Tree.locateAt_eq_ok.1 hroot
  have habsolute : (Path.ofText ("./" ++ path)).absolute = false := by
    rw [Path.absolute, segments_here]
    simp
  have hparts : (Path.ofText ("./" ++ path)).parts = .here :: (Path.ofText path).parts := by
    rw [Path.parts, segments_here]
    rfl
  refine ⟨Tree.locateAt_eq_ok.2 ⟨?_, ?_, hnode, fun _ => hdir⟩, habsolute⟩
  · refine Path.fault?_eq_none_iff.2 ⟨?_, by simp, hshort⟩
    rw [segments_here]
    exact List.forall_mem_cons.2 ⟨by decide, (Path.fault?_eq_none_iff.1 hsound).1⟩
  · rw [Tree.origin, habsolute, hparts]
    rw [Tree.origin, hrelative] at hfollow
    exact Tree.follow_cons.2 ⟨_, .here hworking, hfollow⟩

theorem locate_stepsTo (hroot : t.locate path = .ok (place, node)) (hdir : node.isDir = true)
    (hrelative : (Path.ofText path).absolute = false) (hworking : t.root.HasDir t.workingDir)
    (n : Nat) (hshort : 2 * n + path.utf8ByteSize ≤ Path.longest) :
    t.locate (stepsTo n path) = .ok (place, node) ∧
      (Path.ofText (stepsTo n path)).absolute = false ∧
      (stepsTo n path).utf8ByteSize = 2 * n + path.utf8ByteSize := by
  induction n with
  | zero => exact ⟨hroot, hrelative, (Nat.zero_add _).symm⟩
  | succ n ih =>
    obtain ⟨hlocate, habsolute, hsize⟩ := ih (by omega)
    have hstep : ("./" ++ stepsTo n path).utf8ByteSize = 2 * (n + 1) + path.utf8ByteSize := by
      rw [String.utf8ByteSize_append, hsize]
      show 2 + _ = _
      omega
    rw [stepsTo_succ]
    obtain ⟨hlocate, habsolute⟩ := locate_here hlocate hdir habsolute hworking (by omega)
    exact ⟨hlocate, habsolute, hstep⟩

theorem utf8ByteSize_join_ge (base name : String) :
    base.utf8ByteSize + name.utf8ByteSize ≤ (join base name).utf8ByteSize := by
  unfold join
  split
  · rename_i hbase
    simp [hbase]
  · split <;> simp only [String.utf8ByteSize_append] <;> omega

theorem utf8ByteSize_joinAll_ge (base : String) (names : List String) :
    base.utf8ByteSize + (names.map String.utf8ByteSize).sum ≤ (joinAll base names).utf8ByteSize := by
  induction names generalizing base with
  | nil => exact Nat.le_refl _
  | cons name names ih =>
    have hfirst := utf8ByteSize_join_ge base name
    have hrest := ih (join base name)
    rw [List.map_cons, List.sum_cons]
    exact Nat.le_trans (by omega) hrest

/-- A directory with one sheet, named by so long a path that the path of the sheet is too long. The
sheet is there and could be read by a shorter path, but it is passed over. -/
theorem load_long_path :
    let sheet := bytesOf "ID,Command\n1,Say\n"
    let t : Tree := { root := .dir [("d", .dir [("a.csv", .file (.ok sheet))])] }
    let path := stepsTo 2046 "d"
    t.locate path = .ok (["d"], .dir [("a.csv", .file (.ok sheet))]) ∧
      (Node.dir [("a.csv", .file (.ok sheet))]).Proper ∧ IsSheet "a.csv" ∧
      t.read "d/a.csv" = .ok sheet ∧ Gives (.ok sheet) [{ scene := 1, command := .say }] ∧
      (load (.sheets path) false t).result = .error (noSheets path) := by
  intro sheet t path
  have hproper : (Node.dir [("a.csv", .file (.ok sheet))]).Proper :=
    .dir (by decide +kernel) (by decide +kernel) (by simpa using .file _)
  have hroot : t.locate "d" = .ok (["d"], .dir [("a.csv", .file (.ok sheet))]) := by rfl
  obtain ⟨hlocate, hsize⟩ : t.locate path = .ok (["d"], .dir [("a.csv", .file (.ok sheet))]) ∧
      path.utf8ByteSize = 4093 := by
    have hd : "d".utf8ByteSize = 1 := by decide +kernel
    obtain ⟨hlocate, -, hsize⟩ :=
      locate_stepsTo hroot rfl (by decide +kernel) ⟨_, rfl⟩ 2046 (by rw [hd]; decide)
    rw [hd] at hsize
    exact ⟨hlocate, hsize⟩
  -- only the place and the size of the long path count from here on
  clear_value path
  have hrows : rowsOfFile "d/a.csv" (.ok sheet) = .ok [{ scene := 1, command := .say }] := by
    decide +kernel
  have hnone : sheetsBelow path (.dir [("a.csv", .file (.ok sheet))]) = [] := by
    refine List.eq_nil_iff_forall_not_mem.2 fun ⟨names, content⟩ hmem => ?_
    have hsheet := ((lists_sheetsBelow (Tree.locateAt_eq_ok.1 hlocate).1 hproper).mem_iff _ _).1 hmem
    have hfiles : (Node.dir [("a.csv", .file (.ok sheet))]).files = [(["a.csv"], .ok sheet)] := by
      decide +kernel
    have hfile := hproper.mem_files_iff.2 hsheet.there
    rw [hfiles] at hfile
    obtain ⟨rfl, rfl⟩ := Prod.mk.inj (List.mem_singleton.1 hfile)
    have hlong := utf8ByteSize_joinAll_ge path ["a.csv"]
    have hname : (["a.csv"].map String.utf8ByteSize).sum = 5 := by decide +kernel
    rw [hsize, hname] at hlong
    exact absurd (Nat.le_trans hlong hsheet.short) (by decide)
  refine ⟨hlocate, hproper, isSheetName_iff.1 (by decide +kernel), by rfl,
    rowsOfFile_eq_ok_iff.1 hrows, ?_⟩
  show rowsUnder t path = _
  rw [rowsUnder_dir hlocate, if_pos hnone]

end Source

end Dialogue
