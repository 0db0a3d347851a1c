import Dialogue.Text.Digit

/-!
# Patterns

Regular expressions with groups, with the leftmost-first meaning of a backtracking matcher. A
pattern can take the front of a text in several ways; they are listed in the order in which they are
tried, and the first one that goes through to the end is the match.

* `Pattern.ways` lists the ways. Repetitions and optional parts are greedy: they take as much as
  they can before they take less.
* `Pattern.captures?` matches a whole text, as between `^` and `$`, and gives what the groups took.
* `Pattern.signed` and `Pattern.caseless` are parts that several patterns have in common.
-/

namespace Dialogue.Text

/-- A regular expression over classes of characters. -/
inductive Pattern where
  /-- The empty text. -/
  | nothing
  /-- One character of a class. -/
  | one (ok : Char → Bool)
  /-- Any number of characters of a class. -/
  | many (ok : Char → Bool)
  | either (p q : Pattern)
  | seq (p q : Pattern)
  /-- A part of which it is kept what it took. -/
  | group (p : Pattern)

namespace Pattern

/-- The class of every character but the line feed. -/
def dot (c : Char) : Bool :=
  c != '\n'

/-- One or more characters of a class. -/
def several (ok : Char → Bool) : Pattern :=
  seq (one ok) (many ok)

def char (c : Char) : Pattern :=
  one (· == c)

def optional (p : Pattern) : Pattern :=
  either p nothing

/-- An optional minus and decimal digits of any script. -/
def signed : Pattern :=
  seq (optional (char '-')) (several isDecimalDigit)

/-- A word in letters of either case; the word itself is in small letters. -/
def caseless : List Char → Pattern
  | [] => nothing
  | c :: cs => seq (one fun d => lowerAscii [d] == [c]) (caseless cs)

/-- A way to take the front of a text: what is taken, what each group that took part took, in the
order in which the groups open, and what is left. -/
structure Way where
  taken : List Char
  groups : List (List Char)
  rest : List Char

/-- The ways to take characters of a class, those that take more first. -/
def manyWays (ok : Char → Bool) : List Char → List Way
  | [] => [⟨[], [], []⟩]
  | c :: cs =>
    (if ok c then (manyWays ok cs).map fun w => { w with taken := c :: w.taken } else []) ++
      [⟨[], [], c :: cs⟩]

/-- The ways to take the front of a text, in the order in which they are tried. -/
def ways : Pattern → List Char → List Way
  | nothing, cs => [⟨[], [], cs⟩]
  | one _, [] => []
  | one ok, c :: cs => if ok c then [⟨[c], [], cs⟩] else []
  | many ok, cs => manyWays ok cs
  | either p q, cs => p.ways cs ++ q.ways cs
  | seq p q, cs => (p.ways cs).flatMap fun w =>
    (q.ways w.rest).map fun v => ⟨w.taken ++ v.taken, w.groups ++ v.groups, v.rest⟩
  | group p, cs => (p.ways cs).map fun w => { w with groups := w.taken :: w.groups }

/-- Matches a whole text: what the groups took in the first way that leaves nothing. -/
def captures? (p : Pattern) (cs : List Char) : Option (List (List Char)) :=
  ((p.ways cs).find? fun w => w.rest.isEmpty).map Way.groups

end Pattern

end Dialogue.Text
