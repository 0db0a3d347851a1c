import Dialogue.Toml.Value

/-!
# Unquoted values

Numbers, truth values, dates and times are written without quotes, as one word.

* Digits may be grouped by single underscores, each between two digits.
* A decimal integer has no zero in front; a hexadecimal, octal or binary one has no sign.
* An integer that does not fit 64 bits, and a decimal number beyond the largest finite one, is no
  value at all.
-/

namespace Dialogue.Toml

open Text

/-! ## Digits -/

/-- The digits of a word in which single underscores stand between digits. -/
def ungrouped? (isDigit : Char → Bool) : List Char → Option (List Char)
  | [] => none
  | [c] => if isDigit c then some [c] else none
  | c :: '_' :: cs => if isDigit c then (ungrouped? isDigit cs).map (c :: ·) else none
  | c :: cs => if isDigit c then (ungrouped? isDigit cs).map (c :: ·) else none

/-- The number that digits spell to this base. -/
def valueOf (base : Nat) (digits : List Char) : Nat :=
  digits.foldl (fun n c => n * base + (hexDigit? c).getD 0) 0

/-- The number that a word spells to this base. -/
def natOf? (base : Nat) (cs : List Char) : Option Nat :=
  (ungrouped? (fun c => (hexDigit? c).any (· < base)) cs).map (valueOf base)

/-- Whether digits have a zero in front of others. -/
def hasZeroInFront : List Char → Bool
  | '0' :: _ :: _ => true
  | _ => false

/-! ## Integers -/

def int64? (i : Int) : Option Int :=
  if Int64.minValue.toInt ≤ i ∧ i ≤ Int64.maxValue.toInt then some i else none

/-- A word and the sign in front of it: whether it is a minus. -/
def unsigned : List Char → Bool × List Char
  | '+' :: cs => (false, cs)
  | '-' :: cs => (true, cs)
  | cs => (false, cs)

def intOf? : List Char → Option Int
  | '0' :: 'x' :: cs => (natOf? 16 cs).bind fun n => int64? n
  | '0' :: 'o' :: cs => (natOf? 8 cs).bind fun n => int64? n
  | '0' :: 'b' :: cs => (natOf? 2 cs).bind fun n => int64? n
  | cs =>
    if hasZeroInFront (unsigned cs).2 then none
    else (natOf? 10 (unsigned cs).2).bind fun n =>
      int64? (if (unsigned cs).1 then -(n : Int) else n)

/-! ## Other numbers -/

/-- A decimal number without its sign: its digits, how many of them are behind the point, and the
exponent of ten. -/
structure Scientific where
  digits : List Char
  places : Nat
  exponent : Int
deriving Repr

def exponentOf? (cs : List Char) : Option Int :=
  (natOf? 10 (unsigned cs).2).map fun n => if (unsigned cs).1 then -(n : Int) else n

def isExponentMark (c : Char) : Bool :=
  c = 'e' || c = 'E'

/-- The digits behind the point, if there is one. -/
def placesOf? : List Char → Option (List Char)
  | [] => some []
  | _ :: cs => ungrouped? isAsciiDigit cs

def optionalExponent? : List Char → Option Int
  | [] => some 0
  | _ :: cs => exponentOf? cs

/-- The number that a word without a sign spells with a fraction, an exponent, or both. -/
def scientificOf? (cs : List Char) : Option Scientific := do
  let (mantissa, exponent) := cs.span fun c => !isExponentMark c
  let (whole, places) := mantissa.span (· ≠ '.')
  if exponent.isEmpty && places.isEmpty then none
  let whole ← ungrouped? isAsciiDigit whole
  if hasZeroInFront whole then none
  let places ← placesOf? places
  return ⟨whole ++ places, places.length, ← optionalExponent? exponent⟩

/-- The least number that is nearer to an infinity than to a finite number of 64 bits. -/
def floatLimit : Nat :=
  (Nat.pow 2 54 - 1) * Nat.pow 2 970

/-- Whether a number stays below `floatLimit`; it has 309 digits. -/
def Scientific.isFinite (s : Scientific) : Bool :=
  let digits := s.digits.dropWhile (· = '0')
  let exponent := s.exponent - s.places
  let size := digits.length + exponent
  if digits.isEmpty || size < 309 then true
  else if 309 < size then false
  else
    let n := valueOf 10 digits
    if 0 ≤ exponent then n * Nat.pow 10 exponent.toNat < floatLimit
    else n < floatLimit * Nat.pow 10 (-exponent).toNat

/-- Whether a word spells a number that is no integer. -/
def isFloat (cs : List Char) : Bool :=
  (unsigned cs).2 = "inf".toList || (unsigned cs).2 = "nan".toList ||
    (scientificOf? (unsigned cs).2).any Scientific.isFinite

/-! ## Words -/

def ofWord? (cs : List Char) : Option Toml :=
  if cs = "true".toList then some (.bool true)
  else if cs = "false".toList then some (.bool false)
  else
    match intOf? cs, DateTime.ofChars? cs with
    | some i, _ => some (.int i)
    | none, some d => some (.dateTime d)
    | none, none => if isFloat cs then some .float else none

end Dialogue.Toml
