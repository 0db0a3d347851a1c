import Dialogue.Toml.Dated
import Dialogue.Toml.Draft
import Dialogue.Toml.Quoted
import Dialogue.Toml.Word

/-!
# TOML documents

A document is a list of statements, one a line: headers, which open tables, and assignments to the
table that is open. `Toml.ofText?` reads a document, or nothing of it if any part is at fault.

* Keys are bare, or quoted on one line; dots join up to `longestPath` of them, with white space
  around.
* Lists and inline tables go over several lines, with comments, and may end in a comma. They nest
  `nestingLimit` deep.
* A byte order mark in front is passed over.
-/

namespace Dialogue.Toml

/-! ## White space and comments -/

/-- Without the white space in front. -/
def skipGap (cs : List Char) : List Char :=
  cs.dropWhile isGap

/-- Without the comment in front, if there is one. -/
def skipComment : List Char → List Char
  | '#' :: cs => cs.dropWhile isPrintable
  | cs => cs

theorem length_skipComment_le (cs : List Char) : (skipComment cs).length ≤ cs.length := by
  unfold skipComment
  split
  · exact Nat.le_succ_of_le (List.dropWhile_suffix _).length_le
  · exact Nat.le_refl _

/-- Without white space, comments and line ends. -/
def skipLines (cs : List Char) : List Char :=
  match h : newline? (skipComment (skipGap cs)) with
  | some rest =>
    have := Nat.lt_of_lt_of_le (length_newline_lt h)
      (Nat.le_trans (length_skipComment_le _) (List.dropWhile_suffix _).length_le)
    skipLines rest
  | none => skipComment (skipGap cs)
termination_by cs.length

/-- What is behind the end of a statement: nothing but a comment may stand before the line end. -/
def endLine? (cs : List Char) : Option (List Char) :=
  match skipComment (skipGap cs) with
  | [] => some []
  | cs => newline? cs

/-! ## Keys -/

/-- Whether a bare key may hold a character. -/
def isBare (c : Char) : Bool :=
  ('a' ≤ c && c ≤ 'z') || ('A' ≤ c && c ≤ 'Z') || ('0' ≤ c && c ≤ '9') || c = '_' || c = '-'

def scanKey (cs : List Char) : Option (String × List Char) :=
  match scanLine cs with
  | some r => some r
  | none =>
    let key := cs.takeWhile isBare
    if key.isEmpty then none else some (String.ofList key, cs.drop key.length)

/-- Reads the rest of a path behind a key, with the keys before it backwards. -/
def scanPathFrom (tables : List String) (key : String) (cs : List Char) :
    Option (Path × List Char) :=
  match skipGap cs with
  | '.' :: rest =>
    match scanKey (skipGap rest) with
    | some (next, rest') =>
      if rest'.length < cs.length then scanPathFrom (key :: tables) next rest' else none
    | none => none
  | rest => some (⟨tables.reverse, key⟩, rest)
termination_by cs.length

/-- How many keys dots may join. -/
def longestPath : Nat := 80

/-- Reads keys joined by dots, and the white space around them. -/
def scanPath (cs : List Char) : Option (Path × List Char) :=
  ((scanKey (skipGap cs)).bind fun r => scanPathFrom [] r.1 r.2).filter fun r =>
    r.1.tables.length < longestPath

/-! ## Values -/

def endsWord (c : Char) : Bool :=
  [',', '[', ']', '\x7b', '\x7d', '=', '#', '"', '\x27', ' ', '\t', '\n', '\r'].contains c

/-- Whether a word has the shape of a date, which a time may follow behind a blank. -/
def hasDateShape : List Char → Bool
  | [y₁, y₂, y₃, y₄, '-', m₁, m₂, '-', d₁, d₂] =>
    [y₁, y₂, y₃, y₄, m₁, m₂, d₁, d₂].all Text.isAsciiDigit
  | _ => false

/-- The word in front, and the time behind it if it is a date. -/
def wordOf (cs : List Char) : List Char :=
  let word := cs.takeWhile fun c => !endsWord c
  match cs.drop word.length with
  | ' ' :: c :: rest =>
    if hasDateShape word && Text.isAsciiDigit c then
      word ++ ' ' :: (c :: rest).takeWhile fun c => !endsWord c
    else word
  | _ => word

/-- Reads a value that is one text or one word. -/
def scanScalar (cs : List Char) : Option (Toml × List Char) :=
  match cs with
  | '"' :: _ | '\x27' :: _ => (scanText cs).map fun r => (.str r.1, r.2)
  | _ => (ofWord? (wordOf cs)).map fun v => (v, cs.drop (wordOf cs).length)

/-- Reads items up to a closing mark, with commas between them and, where wanted, behind the last
one. -/
def scanItems (close : Char) (scanItem : List Char → Option (α × List Char)) (items : List α)
    (cs : List Char) : Option (List α × List Char) :=
  match skipLines cs with
  | [] => none
  | c :: rest =>
    if c = close then some (items.reverse, rest)
    else
      match scanItem (c :: rest) with
      | none => none
      | some (item, rest') =>
        match skipLines rest' with
        | [] => none
        | c :: rest'' =>
          if c = close then some ((item :: items).reverse, rest'')
          else if c = ',' ∧ rest''.length < cs.length then
            scanItems close scanItem (item :: items) rest''
          else none
termination_by cs.length

/-- Reads a path and the value that is assigned to it, where `skip` passes over what may stand
around the equals sign. -/
def scanAssignment (skip : List Char → List Char)
    (scanValue : List Char → Option (Toml × List Char)) (cs : List Char) :
    Option ((Path × Toml) × List Char) :=
  (scanPath cs).bind fun r =>
    match skip r.2 with
    | '=' :: rest => (scanValue (skip rest)).map fun v => ((r.1, v.1), v.2)
    | _ => none

/-- Reads a value in which lists and tables nest no deeper than this. -/
def scanNested : Nat → List Char → Option (Toml × List Char)
  | depth + 1, '[' :: rest =>
    (scanItems ']' (scanNested depth) [] rest).map fun r => (.arr r.1, r.2)
  | depth + 1, '\x7b' :: rest =>
    (scanItems '\x7d' (scanAssignment skipLines (scanNested depth)) [] rest).bind fun r =>
      (tableOf? r.1).map fun v => (v, r.2)
  | _, cs => scanScalar cs

/-- How deep lists and tables may nest. -/
def nestingLimit : Nat := 80

def scanValue (cs : List Char) : Option (Toml × List Char) :=
  scanNested nestingLimit cs

/-! ## Statements -/

/-- A statement of a document. -/
inductive Statement where
  /-- The header of a table. -/
  | table (path : Path)
  /-- The header of another table of a list. -/
  | item (path : Path)
  | assign (path : Path) (value : Toml)
deriving Repr

/-- Reads the path of a header up to its closing brackets. -/
def scanHeader (close : List Char) (cs : List Char) : Option (Path × List Char) :=
  (scanPath cs).bind fun r => (close.isPrefixOf? r.2).map fun rest => (r.1, rest)

/-- Reads a statement, unless the line is without one. -/
def scanStatement (cs : List Char) : Option (Option Statement × List Char) :=
  match skipGap cs with
  | [] | '#' :: _ | '\n' :: _ | '\r' :: _ => some (none, cs)
  | '[' :: '[' :: rest => (scanHeader [']', ']'] rest).map fun r => (some (.item r.1), r.2)
  | '[' :: rest => (scanHeader [']'] rest).map fun r => (some (.table r.1), r.2)
  | rest => (scanAssignment skipGap scanValue rest).map fun r => (some (.assign r.1.1 r.1.2), r.2)

/-- The statements of a document, line by line. -/
def statements (cs : List Char) : Option (List Statement) :=
  match cs with
  | [] => some []
  | c :: cs =>
    match scanStatement (c :: cs) with
    | none => none
    | some (statement, rest) =>
      match endLine? rest with
      | none => none
      | some rest =>
        if rest.length ≤ cs.length then
          (statements rest).map fun ss => statement.toList ++ ss
        else none
termination_by cs.length
decreasing_by exact Nat.lt_succ_of_le ‹_›

/-! ## Documents -/

/-- A document in the making: its tables, and the path of the one that is open. -/
structure Outline where
  draft : Draft := []
  opened : List String := []

def Outline.add (o : Outline) : Statement → Option Outline
  | .table path =>
    (o.draft.openTable path).map fun d => ⟨d, path.tables ++ [path.key]⟩
  | .item path => (o.draft.openItem path).map fun d => ⟨d, path.tables ++ [path.key]⟩
  | .assign path value =>
    (Draft.modify false (Draft.assign path value) o.opened .header o.draft).map fun d =>
      { o with draft := d }

def ofStatements? (ss : List Statement) : Option Members :=
  (ss.foldlM Outline.add {}).map fun o => Draft.members o.draft

/-- Without a byte order mark in front. -/
def skipMark : List Char → List Char
  | '\uFEFF' :: cs => cs
  | cs => cs

/-- The keys and values of a document. -/
def ofText? (s : String) : Option Members :=
  ((statements (skipMark s.toList)).bind ofStatements?).bind datedMembers?

end Dialogue.Toml
