import Dialogue.Text.Decimal

/-!
# Dates and times

A moment as a settings file gives it: a date, a time of day, or both, and with both an offset from
universal time.

* `DateTime.ofChars?` reads the written forms: the letter between date and time may be small or a
  blank, seconds may be left out, and a fraction counts to nine places.
* `DateTime.text` writes one form: a big letter, always seconds, and a fraction without zeros at its
  end, where there is one.
-/

namespace Dialogue.Toml

open Text

/-- A day of the calendar. -/
structure Date where
  year : Nat
  month : Nat
  day : Nat
deriving DecidableEq, Repr

/-- A time of day. -/
structure Time where
  hour : Nat
  minute : Nat
  second : Nat := 0
  /-- The fraction of the second. -/
  billionths : Nat := 0
deriving DecidableEq, Repr

/-- How far a local time is from universal time. -/
inductive Offset where
  | utc
  /-- Ahead of universal time by minutes, or behind it by fewer than none. -/
  | shift (minutes : Int)
deriving DecidableEq, Repr

/-- A date, a time of day, or both. -/
inductive DateTime where
  | date (date : Date)
  | time (time : Time)
  | both (date : Date) (time : Time) (offset : Option Offset)
deriving DecidableEq, Repr

/-! ## Writing -/

/-- A number in `width` places, with zeros in front. -/
def padded (width n : Nat) : String :=
  let digits := Decimal.ofNat n
  String.ofList (List.replicate (width - digits.length) '0' ++ digits)

def Date.text (d : Date) : String :=
  padded 4 d.year ++ "-" ++ padded 2 d.month ++ "-" ++ padded 2 d.day

/-- A fraction in billionths behind a point, without zeros at the end. Without billionths there is
no point. -/
def fractionText (billionths : Nat) : String :=
  if billionths = 0 then ""
  else "." ++ String.ofList ((padded 9 billionths).toList.reverse.dropWhile (· = '0')).reverse

def Time.text (t : Time) : String :=
  padded 2 t.hour ++ ":" ++ padded 2 t.minute ++ ":" ++ padded 2 t.second ++
    fractionText t.billionths

/-- The letter of universal time, or the distance from it. -/
def Offset.text : Offset → String
  | utc => "Z"
  | shift minutes =>
    (if minutes < 0 then "-" else "+") ++ padded 2 (minutes.natAbs / 60) ++ ":" ++
      padded 2 (minutes.natAbs % 60)

def DateTime.text : DateTime → String
  | date d => d.text
  | time t => t.text
  | both d t offset => d.text ++ "T" ++ t.text ++ (offset.map Offset.text).getD ""

/-! ## Reading -/

/-- Reads a number of exactly `width` digits, and gives it with what is behind it. -/
def scanDigits (width : Nat) (cs : List Char) : Option (Nat × List Char) :=
  if (cs.take width).length = width then
    (Decimal.digits? (cs.take width)).map fun n => (n, cs.drop width)
  else none

/-- Reads a character that has to be there. -/
def scanMark (mark : Char) : List Char → Option (List Char)
  | [] => none
  | c :: cs => if c = mark then some cs else none

/-- Whether a year has a day more. -/
def isLeapYear (year : Nat) : Bool :=
  year % 4 = 0 && (year % 100 ≠ 0 || year % 400 = 0)

/-- The number of days of a month. -/
def daysInMonth (year month : Nat) : Nat :=
  if month = 2 then (if isLeapYear year then 29 else 28)
  else if [4, 6, 9, 11].contains month then 30
  else 31

def Date.isValid (d : Date) : Bool :=
  1 ≤ d.month && d.month ≤ 12 && 1 ≤ d.day && d.day ≤ daysInMonth d.year d.month

def Date.scan (cs : List Char) : Option (Date × List Char) := do
  let (year, cs) ← scanDigits 4 cs
  let (month, cs) ← scanDigits 2 (← scanMark '-' cs)
  let (day, cs) ← scanDigits 2 (← scanMark '-' cs)
  let d : Date := ⟨year, month, day⟩
  if d.isValid then some (d, cs) else none

/-- Reads the digits of a fraction, where one follows, as billionths. -/
def scanFraction : List Char → Option (Nat × List Char)
  | '.' :: cs => do
    let digits := cs.takeWhile isAsciiDigit
    let n ← Decimal.digits? (digits.take 9)
    return (n * Nat.pow 10 (9 - digits.length), cs.drop digits.length)
  | cs => some (0, cs)

/-- Reads a second and its billionths, where they follow. -/
def scanSecond : List Char → Option ((Nat × Nat) × List Char)
  | ':' :: cs => do
    let (second, cs) ← scanDigits 2 cs
    let (billionths, cs) ← scanFraction cs
    return ((second, billionths), cs)
  | cs => some ((0, 0), cs)

/-- Reads a time of day; a minute may have a leap second. -/
def Time.scan (cs : List Char) : Option (Time × List Char) := do
  let (hour, cs) ← scanDigits 2 cs
  let (minute, cs) ← scanDigits 2 (← scanMark ':' cs)
  let ((second, billionths), cs) ← scanSecond cs
  if hour ≤ 23 ∧ minute ≤ 59 ∧ second ≤ 60 then
    some (⟨hour, minute, second, billionths⟩, cs)
  else none

/-- Reads hours and minutes to the end, as minutes. -/
def distance? (cs : List Char) : Option Int := do
  let (hours, cs) ← scanDigits 2 cs
  let (minutes, cs) ← scanDigits 2 (← scanMark ':' cs)
  if hours ≤ 23 ∧ minutes ≤ 59 ∧ cs = [] then some (hours * 60 + minutes : Nat) else none

/-- Reads what is behind date and time. -/
def Offset.ofChars? : List Char → Option (Option Offset)
  | [] => some none
  | ['Z'] | ['z'] => some (some .utc)
  | '+' :: cs => (distance? cs).map fun d => some (.shift d)
  | '-' :: cs => (distance? cs).map fun d => some (.shift (-d))
  | _ => none

/-- Whether a character may stand between a date and a time. -/
def isDateEnd (c : Char) : Bool :=
  c = 'T' || c = 't' || c = ' '

/-- Reads a date, a time, or both, to the end. -/
def DateTime.ofChars? (cs : List Char) : Option DateTime :=
  match Date.scan cs with
  | some (d, []) => some (.date d)
  | some (d, c :: cs) =>
    if isDateEnd c then do
      let (t, cs) ← Time.scan cs
      return .both d t (← Offset.ofChars? cs)
    else none
  | none =>
    match Time.scan cs with
    | some (t, []) => some (.time t)
    | _ => none

end Dialogue.Toml
