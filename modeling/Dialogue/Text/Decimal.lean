import Dialogue.Text.Digit

/-!
# Decimal integers

Integers are written in ASCII digits, with a sign in front where one is allowed.

* `digits?` reads a run of digits as a number.
* `signed?` reads digits with an optional minus: the form of addresses and packed targets.
* `int?` also takes a plus sign: the form of cells that hold a number.
* `int32?`, `uint32?` and `uint64?` are those readers bounded by a machine word.
* `ofInt` writes the shortest form, with a minus below zero.
-/

namespace Dialogue.Text.Decimal

/-- The value of a run of one or more ASCII digits. -/
def digits? (cs : List Char) : Option Nat :=
  if cs.isEmpty || !cs.all isAsciiDigit then none
  else some (cs.foldl (fun n c => n * 10 + digitValue c) 0)

/-- Digits with an optional minus sign. -/
def signed? : List Char → Option Int
  | '-' :: cs => (digits? cs).map fun n => -(n : Int)
  | cs => (digits? cs).map Int.ofNat

/-- Digits with an optional plus sign. -/
def nat? : List Char → Option Nat
  | '+' :: cs => digits? cs
  | cs => digits? cs

/-- Digits with an optional sign. -/
def int? : List Char → Option Int
  | '+' :: cs => (digits? cs).map Int.ofNat
  | cs => signed? cs

/-- The 32-bit word of a number, where one holds it. -/
def toInt32? (i : Int) : Option Int32 :=
  if -2147483648 ≤ i ∧ i ≤ 2147483647 then some (Int32.ofInt i) else none

/-- The unsigned 32-bit word of a number, where one holds it. -/
def toUInt32? (n : Nat) : Option UInt32 :=
  if n < UInt32.size then some (UInt32.ofNat n) else none

/-- A signed 32-bit number as a cell holds it. -/
def int32? (cs : List Char) : Option Int32 :=
  (int? cs).bind toInt32?

/-- A signed 32-bit number without a plus sign. -/
def signed32? (cs : List Char) : Option Int32 :=
  (signed? cs).bind toInt32?

/-- An unsigned 32-bit number as a cell holds it. -/
def uint32? (cs : List Char) : Option UInt32 :=
  (nat? cs).bind toUInt32?

/-- A count below `2 ^ 64` as a reader types it. -/
def uint64? (cs : List Char) : Option Nat :=
  (nat? cs).bind fun n => if n < UInt64.size then some n else none

/-- The digits of a number, without leading zeros. -/
def ofNat (n : Nat) : List Char :=
  Nat.toDigits 10 n

/-- The digits of a number, after a minus sign below zero. -/
def ofInt : Int → List Char
  | .ofNat n => ofNat n
  | .negSucc n => '-' :: ofNat (n + 1)

/-- The written form of a natural number. -/
def natText (n : Nat) : String :=
  String.ofList (ofNat n)

/-- The written form of a 32-bit number. -/
def text (i : Int32) : String :=
  String.ofList (ofInt i.toInt)

end Dialogue.Text.Decimal
