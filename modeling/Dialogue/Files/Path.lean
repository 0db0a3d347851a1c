import Dialogue.Files.Error

/-!
# Paths

A path as the texts between its slashes, and the parts it names.

* Empty texts name no part. A slash at the end asks for a directory.
* `Path.fault?` tells the paths at which nothing can be.
* `join` adds a name to a path, `Path.parent?` takes the last part away.
-/

namespace Dialogue.Files

/-- A part of a path. -/
inductive Part where
  /-- `.`, the directory itself. -/
  | here
  /-- `..`, the directory above. -/
  | up
  | name (name : String)
deriving DecidableEq, Repr

/-- The part that a text between slashes names. -/
def Part.ofText : String → Part
  | "." => .here
  | ".." => .up
  | s => .name s

/-- A path, as the texts between its slashes. -/
structure Path where
  segments : List String
deriving DecidableEq, Repr

namespace Path

def ofText (s : String) : Path :=
  ⟨(s.toList.splitOn '/').map String.ofList⟩

/-- Whether the path starts at the root rather than in the working directory. -/
def absolute (p : Path) : Bool :=
  1 < p.segments.length && p.segments.head? = some ""

/-- Whether a slash at the end asks for a directory. -/
def asDirectory (p : Path) : Bool :=
  1 < p.segments.length && p.segments.getLast? = some ""

def parts (p : Path) : List Part :=
  (p.segments.filter (· ≠ "")).map Part.ofText

def text (p : Path) : String :=
  "/".intercalate p.segments

/-- The size of the path as a text, in bytes. -/
def size (p : Path) : Nat :=
  p.text.utf8ByteSize

/-- The greatest size of a path. -/
def longest : Nat := 4095

/-- Why nothing can be at the path, if so. -/
def fault? (p : Path) : Option FileError :=
  if p.segments.any fun s => s.toList.contains '\x00' then some .invalidPath
  else if p.size = 0 then some .notFound
  else if longest < p.size then some .nameTooLong
  else none

/-! ## Parents -/

/-- Whether a segment behind the first leads nowhere else. -/
def staysHere (segment : String) : Bool :=
  segment = "" || segment = "."

/-- The path of these segments. The root alone has a slash too. -/
def ofSegments (first : String) (rest : List String) : Path :=
  if first = "" ∧ rest = [] then ⟨["", ""]⟩ else ⟨first :: rest⟩

/-- The path without its last part, and without what stays in place around it. -/
def parent? (p : Path) : Option Path :=
  match p.segments with
  | [] => none
  | first :: rest =>
    match rest.reverse.dropWhile staysHere with
    | [] => if first = "" then none else some ⟨[""]⟩
    | _ :: before => some (ofSegments first (before.dropWhile staysHere).reverse)

theorem length_parts (p : Path) : p.parts.length = p.segments.countP (· ≠ "") := by
  rw [parts, List.length_map, List.countP_eq_length_filter]

theorem countP_ofSegments (first : String) (rest : List String) :
    (ofSegments first rest).segments.countP (· ≠ "") = (first :: rest).countP (· ≠ "") := by
  unfold ofSegments
  split
  · rename_i h
    rw [h.1, h.2]
    rfl
  · rfl

/-- The last part is one more than those before it. -/
theorem countP_before_lt {rest before : List String} {last : String}
    (h : rest.reverse.dropWhile staysHere = last :: before) :
    before.countP (· ≠ "") < rest.countP (· ≠ "") := by
  have hlast : last ≠ "" := by
    have hstays := List.head?_dropWhile_not staysHere rest.reverse
    rw [h] at hstays
    intro he
    simp [he, staysHere] at hstays
  have hle : (last :: before).countP (· ≠ "") ≤ rest.reverse.countP (· ≠ "") :=
    List.Sublist.countP_le (h ▸ List.dropWhile_sublist staysHere)
  rw [List.countP_reverse, List.countP_cons_of_pos (by simpa using hlast)] at hle
  exact hle

/-- The parent of a path has fewer parts. -/
theorem length_parent_lt {p q : Path} (h : p.parent? = some q) :
    q.parts.length < p.parts.length := by
  rw [length_parts, length_parts]
  unfold parent? at h
  split at h
  · simp at h
  · rename_i first rest hp
    rw [hp]
    split at h
    · split at h
      · simp at h
      · rename_i hfirst
        obtain rfl := Option.some.inj h
        have hpos : 0 < (first :: rest).countP (· ≠ "") :=
          List.countP_pos_iff.2 ⟨first, List.mem_cons_self, by simpa using hfirst⟩
        exact hpos
    · rename_i last before hbefore
      obtain rfl := Option.some.inj h
      have hlt := countP_before_lt hbefore
      have hle : (before.dropWhile staysHere).countP (· ≠ "") ≤ before.countP (· ≠ "") :=
        (List.dropWhile_sublist staysHere).countP_le
      rw [countP_ofSegments, List.countP_cons, List.countP_cons, List.countP_reverse]
      omega

end Path

/-- A path with a name added to it. -/
def join (base name : String) : String :=
  if base = "" then name
  else if base.toList.getLast? = some '/' then base ++ name
  else base ++ "/" ++ name

/-- The extension of a file name: what follows its last point, unless that is its first
character. -/
def extension? (name : String) : Option (List Char) :=
  match name.toList.reverse.span (· ≠ '.') with
  | (ext, _ :: _ :: _) => some ext.reverse
  | _ => none

end Dialogue.Files
