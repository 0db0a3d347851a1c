import Dialogue.Text.Digit

/-!
# Quoted text

A text stands between double quotes, where a backslash escapes, or between single quotes, where
nothing does. Three quotes open a text of several lines.

* A text of one line ends at the first quote of its kind that is not escaped.
* A text of several lines ends at three quotes or more; up to two of them belong to the text. A line
  end right behind the opening quotes does not, and a backslash at the end of a line takes away the
  white space up to the next text.
* Controls are refused, tabs apart, and so are escapes without a meaning.
-/

namespace Dialogue.Toml

open Text

/-- Whether a comment or a text may hold a character. -/
def isPrintable (c : Char) : Bool :=
  c = '\t' || (' ' ≤ c && c ≠ '\x7f')

/-- Whether a character is white space within a line. -/
def isGap (c : Char) : Bool :=
  c = ' ' || c = '\t'

def newline? : List Char → Option (List Char)
  | '\n' :: cs => some cs
  | '\r' :: '\n' :: cs => some cs
  | _ => none

/-! ## Escapes -/

/-- What a letter stands for behind a backslash. -/
def escapes : List (Char × Char) :=
  [('b', '\x08'), ('t', '\t'), ('n', '\n'), ('f', '\x0c'), ('r', '\r'), ('e', '\x1b'), ('"', '"'),
    ('\\', '\\')]

/-- How many hexadecimal digits follow a letter behind a backslash. -/
def escapeWidths : List (Char × Nat) :=
  [('x', 2), ('u', 4), ('U', 8)]

/-- The character with this code, unless there is none. -/
def charOf? (n : Nat) : Option Char :=
  if n < 0xD800 ∨ (0xE000 ≤ n ∧ n < 0x110000) then some (Char.ofNat n) else none

def hexChar? (digits : List Char) : Option Char :=
  (digits.foldlM (fun n c => (hexDigit? c).map (n * 16 + ·)) 0).bind charOf?

def scanEscape : List Char → Option (Char × List Char)
  | [] => none
  | c :: cs =>
    match escapes.lookup c, escapeWidths.lookup c with
    | some e, _ => some (e, cs)
    | none, some width =>
      if (cs.take width).length = width then
        (hexChar? (cs.take width)).map fun e => (e, cs.drop width)
      else none
    | none, none => none

theorem length_scanEscape_lt {cs : List Char} {r : Char × List Char}
    (h : scanEscape cs = some r) : r.2.length < cs.length := by
  unfold scanEscape at h
  split at h
  · simp at h
  · split at h
    · obtain rfl := Option.some.inj h
      exact Nat.lt_succ_self _
    · split at h
      · obtain ⟨e, _, rfl⟩ := Option.map_eq_some_iff.1 h
        simp only [List.length_drop, List.length_cons]
        omega
      · simp at h
    · simp at h

/-! ## Texts of one line -/

/-- Reads the rest of a text in double quotes. -/
def scanBasic (text : List Char) (cs : List Char) : Option (String × List Char) :=
  match cs with
  | [] => none
  | '"' :: rest => some (String.ofList text.reverse, rest)
  | '\\' :: rest =>
    match h : scanEscape rest with
    | some (c, rest') =>
      have := length_scanEscape_lt h
      scanBasic (c :: text) rest'
    | none => none
  | c :: rest => if isPrintable c then scanBasic (c :: text) rest else none
termination_by cs.length
decreasing_by
  · simp only [List.length_cons] at *; omega
  · exact Nat.lt_succ_self _

/-- Reads the rest of a text in single quotes. -/
def scanLiteral (text : List Char) : List Char → Option (String × List Char)
  | [] => none
  | '\x27' :: rest => some (String.ofList text.reverse, rest)
  | c :: rest => if isPrintable c then scanLiteral (c :: text) rest else none

def scanLine : List Char → Option (String × List Char)
  | '"' :: rest => scanBasic [] rest
  | '\x27' :: rest => scanLiteral [] rest
  | _ => none

/-! ## Texts of several lines -/

/-- How many of the characters in front are this one. -/
def leading (mark : Char) (cs : List Char) : Nat :=
  (cs.takeWhile (· = mark)).length

/-- Without white space and line ends. -/
def skipMargin : List Char → List Char
  | '\n' :: cs => skipMargin cs
  | '\r' :: '\n' :: cs => skipMargin cs
  | c :: cs => if isGap c then skipMargin cs else c :: cs
  | [] => []

/-- What is behind a line end and the margin of the lines after it, if a line ends here. -/
def foldedLine? (cs : List Char) : Option (List Char) :=
  (newline? (cs.dropWhile isGap)).map skipMargin

/-- Reads a character of a text of several lines as it stands; a line end is one or two. -/
def scanRaw : List Char → Option (List Char × List Char)
  | '\n' :: cs => some (['\n'], cs)
  | '\r' :: '\n' :: cs => some (['\r', '\n'], cs)
  | c :: cs => if isPrintable c then some ([c], cs) else none
  | [] => none

/-- Reads a part of a text of several lines between marks of this kind. -/
def scanPart (mark : Char) : List Char → Option (List Char × List Char)
  | '\\' :: cs =>
    if mark = '"' then
      match foldedLine? cs with
      | some rest => some ([], rest)
      | none => (scanEscape cs).map fun r => ([r.1], r.2)
    else some (['\\'], cs)
  | cs => scanRaw cs

theorem length_skipMargin_le (cs : List Char) : (skipMargin cs).length ≤ cs.length := by
  fun_induction skipMargin cs with
  | case1 | case2 | case3 => simp only [List.length_cons]; omega
  | case4 | case5 => exact Nat.le_refl _

theorem length_newline_lt {cs rest : List Char} (h : newline? cs = some rest) :
    rest.length < cs.length := by
  unfold newline? at h
  split at h
  · obtain rfl := Option.some.inj h; exact Nat.lt_succ_self _
  · obtain rfl := Option.some.inj h; simp only [List.length_cons]; omega
  · simp at h

theorem length_foldedLine_lt {cs rest : List Char} (h : foldedLine? cs = some rest) :
    rest.length < cs.length := by
  obtain ⟨r, hr, rfl⟩ := Option.map_eq_some_iff.1 h
  exact Nat.lt_of_le_of_lt (length_skipMargin_le r)
    (Nat.lt_of_lt_of_le (length_newline_lt hr) (List.dropWhile_suffix _).length_le)

theorem length_scanRaw_lt {cs : List Char} {r : List Char × List Char}
    (h : scanRaw cs = some r) : r.2.length < cs.length := by
  unfold scanRaw at h
  split at h
  · obtain rfl := Option.some.inj h; exact Nat.lt_succ_self _
  · obtain rfl := Option.some.inj h; simp only [List.length_cons]; omega
  · split at h
    · obtain rfl := Option.some.inj h; exact Nat.lt_succ_self _
    · simp at h
  · simp at h

theorem length_scanPart_lt {mark : Char} {cs : List Char} {r : List Char × List Char}
    (h : scanPart mark cs = some r) : r.2.length < cs.length := by
  unfold scanPart at h
  split at h
  · split at h
    · split at h
      · rename_i hfold
        obtain rfl := Option.some.inj h
        have := length_foldedLine_lt hfold
        simp only [List.length_cons]
        omega
      · obtain ⟨e, he, rfl⟩ := Option.map_eq_some_iff.1 h
        have := length_scanEscape_lt he
        simp only [List.length_cons]
        omega
    · obtain rfl := Option.some.inj h
      exact Nat.lt_succ_self _
  · exact length_scanRaw_lt h

/-- Reads the rest of a text of several lines, up to three marks. -/
def scanLinesFrom (mark : Char) (text : List Char) (cs : List Char) :
    Option (String × List Char) :=
  if 3 ≤ leading mark cs then
    if leading mark cs ≤ 5 then
      some (String.ofList (text.reverse ++ List.replicate (leading mark cs - 3) mark),
        cs.drop (leading mark cs))
    else none
  else
    match h : scanPart mark cs with
    | some (part, rest) =>
      have := length_scanPart_lt h
      scanLinesFrom mark (part.reverse ++ text) rest
    | none => none
termination_by cs.length

/-- Reads a text of several lines behind its opening marks. -/
def scanLines (mark : Char) (cs : List Char) : Option (String × List Char) :=
  scanLinesFrom mark [] ((newline? cs).getD cs)

def scanText : List Char → Option (String × List Char)
  | '"' :: '"' :: '"' :: rest => scanLines '"' rest
  | '\x27' :: '\x27' :: '\x27' :: rest => scanLines '\x27' rest
  | cs => scanLine cs

end Dialogue.Toml
