import Dialogue.Json.Value
import Dialogue.Text.Digit
import Dialogue.Text.Utf8

/-!
# JSON tokens

The first reading of a JSON text: symbols are grouped into tokens, and blanks between them are
dropped.

* A text token ends at the first quote that no backslash stands in front of. Controls are refused
  in it, and so are escapes without a meaning.
* `\u` escapes give UTF-16 units. Units that pair up wrongly, and parts of a file that are no
  characters, leave the token without a text.
* A number token has the digits of an integer, and a fraction and an exponent if it has them; no
  digit follows a leading zero. An integer other than minus zero is kept.
-/

namespace Dialogue.Json

open Text

/-- A token of a JSON text. -/
inductive Token where
  | beginArr
  | endArr
  | beginObj
  | endObj
  | colon
  | comma
  /-- A text, or a token of the form of a text that spells none. -/
  | str (value : Option String)
  /-- A number, a truth value or null. -/
  | value (value : Json)
deriving Repr

/-! ## Texts -/

/-- What a text token spells so far, the last character first. -/
inductive Spelling where
  | text (chars : List Char)
  /-- The first unit of a pair is read, and the second one is due. -/
  | half (chars : List Char) (unit : Nat)
  /-- The token spells no text. -/
  | broken

namespace Spelling

def char (c : Char) : Spelling → Spelling
  | text cs => text (c :: cs)
  | _ => broken

def unit (n : Nat) : Spelling → Spelling
  | text cs =>
    if 0xD800 ≤ n ∧ n < 0xDC00 then half cs n
    else if 0xDC00 ≤ n ∧ n < 0xE000 then broken
    else text (Char.ofNat n :: cs)
  | half cs first =>
    if 0xDC00 ≤ n ∧ n < 0xE000 then
      text (Char.ofNat (0x10000 + (first - 0xD800) * 0x400 + (n - 0xDC00)) :: cs)
    else broken
  | broken => broken

def text? : Spelling → Option String
  | text cs => some (String.ofList cs.reverse)
  | _ => none

end Spelling

def hexUnit? (digits : List Symbol) : Option Nat :=
  digits.foldlM (fun n s => (s.bind hexDigit?).map (n * 16 + ·)) 0

/-- What a letter stands for behind a backslash. -/
def escapes : List (Char × Char) :=
  [('"', '"'), ('\\', '\\'), ('/', '/'), ('b', '\x08'), ('f', '\x0c'), ('n', '\n'), ('r', '\r'),
    ('t', '\t')]

/-- Reads the rest of a text token: what it spells, and the symbols behind the closing quote. -/
def scanText : Spelling → List Symbol → Option (Option String × List Symbol)
  | _, [] => none
  | sp, some '"' :: rest => some (sp.text?, rest)
  | sp, some '\\' :: some 'u' :: a :: b :: c :: d :: rest =>
    match hexUnit? [a, b, c, d] with
    | some n => scanText (sp.unit n) rest
    | none => none
  | sp, some '\\' :: some e :: rest =>
    match escapes.lookup e with
    | some c => scanText (sp.char c) rest
    | none => none
  | _, some '\\' :: _ => none
  | sp, some c :: rest => if c < ' ' then none else scanText (sp.char c) rest
  | _, none :: rest => scanText .broken rest

/-! ## Numbers -/

/-- The digits in front of the symbols, and what is behind them. -/
def scanDigits : List Symbol → List Char × List Symbol
  | some c :: rest =>
    if isAsciiDigit c then
      let (ds, rest) := scanDigits rest
      (c :: ds, rest)
    else ([], some c :: rest)
  | rest => ([], rest)

/-- The digits of a fraction, where one follows. -/
def scanFraction : List Symbol → Option (Bool × List Symbol)
  | some '.' :: rest =>
    match scanDigits rest with
    | ([], _) => none
    | (_, rest) => some (true, rest)
  | rest => some (false, rest)

/-- The symbols behind the sign of an exponent. -/
def skipSign : List Symbol → List Symbol
  | some '+' :: rest => rest
  | some '-' :: rest => rest
  | rest => rest

/-- The digits of an exponent, where one follows. -/
def scanExponent : List Symbol → Option (Bool × List Symbol)
  | some c :: rest =>
    if c = 'e' ∨ c = 'E' then
      match scanDigits (skipSign rest) with
      | ([], _) => none
      | (_, rest) => some (true, rest)
    else some (false, some c :: rest)
  | rest => some (false, rest)

/-- The value of a number token: its sign, its integer digits, and whether it has more. -/
def numberValue (negative : Bool) (digits : List Char) (more : Bool) : Json :=
  let n := digits.foldl (fun n c => n * 10 + digitValue c) 0
  if more || (negative && n == 0) then .other
  else .int (if negative then -(n : Int) else n)

def scanNumber (negative : Bool) (ss : List Symbol) : Option (Json × List Symbol) :=
  match scanDigits ss with
  | ([], _) => none
  | ('0' :: _ :: _, _) => none
  | (digits, rest) => do
    let (fraction, rest) ← scanFraction rest
    let (exponent, rest) ← scanExponent rest
    return (numberValue negative digits (fraction || exponent), rest)

/-! ## Tokens -/

def isSeparator (s : Symbol) : Bool :=
  s = some ' ' || s = some '\n' || s = some '\t' || s = some '\r'

def afterWord : List Char → List Symbol → Option (List Symbol)
  | [], ss => some ss
  | c :: word, some d :: ss => if c = d then afterWord word ss else none
  | _, _ => none

/-- Reads one token from symbols that start with it. -/
def scanToken : List Symbol → Option (Token × List Symbol)
  | some '[' :: rest => some (.beginArr, rest)
  | some ']' :: rest => some (.endArr, rest)
  | some '\x7b' :: rest => some (.beginObj, rest)
  | some '\x7d' :: rest => some (.endObj, rest)
  | some ':' :: rest => some (.colon, rest)
  | some ',' :: rest => some (.comma, rest)
  | some '"' :: rest => (scanText (.text []) rest).map fun r => (.str r.1, r.2)
  | some 'n' :: rest => (afterWord "ull".toList rest).map fun r => (.value .null, r)
  | some 't' :: rest => (afterWord "rue".toList rest).map fun r => (.value (.bool true), r)
  | some 'f' :: rest => (afterWord "alse".toList rest).map fun r => (.value (.bool false), r)
  | some '-' :: rest => (scanNumber true rest).map fun r => (.value r.1, r.2)
  | rest => (scanNumber false rest).map fun r => (.value r.1, r.2)

/-! ## Every token takes a symbol -/

theorem length_scanText_lt {sp : Spelling} {ss : List Symbol} {r : Option String × List Symbol}
    (h : scanText sp ss = some r) : r.2.length < ss.length := by
  fun_induction scanText sp ss with
  | case1 => simp at h
  | case2 sp rest => obtain rfl := Option.some.inj h; exact Nat.lt_succ_self _
  | case3 sp a b c d rest n hn ih => have := ih h; simp only [List.length_cons]; omega
  | case4 => simp at h
  | case5 sp e rest hne c hc ih => have := ih h; simp only [List.length_cons]; omega
  | case6 => simp at h
  | case7 => simp at h
  | case8 => simp at h
  | case9 sp c rest _ _ _ _ _ ih => have := ih h; simp only [List.length_cons]; omega
  | case10 sp rest ih => have := ih h; simp only [List.length_cons]; omega

theorem length_scanDigits_le (ss : List Symbol) : (scanDigits ss).2.length ≤ ss.length := by
  fun_induction scanDigits ss <;> simp_all
  omega

/-- With the digits goes as much of the symbols. -/
theorem length_scanDigits (ss : List Symbol) :
    (scanDigits ss).1.length + (scanDigits ss).2.length = ss.length := by
  fun_induction scanDigits ss <;> simp_all
  omega

theorem length_skipSign_le (ss : List Symbol) : (skipSign ss).length ≤ ss.length := by
  unfold skipSign
  split <;> simp

theorem length_scanFraction_le {ss : List Symbol} {r : Bool × List Symbol}
    (h : scanFraction ss = some r) : r.2.length ≤ ss.length := by
  unfold scanFraction at h
  split at h
  · rename_i rest
    have := length_scanDigits_le rest
    split at h
    · simp at h
    · rename_i heq
      rw [heq] at this
      obtain rfl := Option.some.inj h
      simp only [List.length_cons] at *
      omega
  · obtain rfl := Option.some.inj h
    exact Nat.le_refl _

theorem length_scanExponent_le {ss : List Symbol} {r : Bool × List Symbol}
    (h : scanExponent ss = some r) : r.2.length ≤ ss.length := by
  unfold scanExponent at h
  split at h
  · rename_i c rest
    have hdigits := length_scanDigits_le (skipSign rest)
    have hsign := length_skipSign_le rest
    split at h
    · split at h
      · simp at h
      · rename_i heq
        rw [heq] at hdigits
        obtain rfl := Option.some.inj h
        simp only [List.length_cons] at *
        omega
    · obtain rfl := Option.some.inj h
      exact Nat.le_refl _
  · obtain rfl := Option.some.inj h
    exact Nat.le_refl _

theorem length_scanNumber_lt {negative : Bool} {ss : List Symbol} {r : Json × List Symbol}
    (h : scanNumber negative ss = some r) : r.2.length < ss.length := by
  unfold scanNumber at h
  have hlen := length_scanDigits ss
  split at h
  · simp at h
  · simp at h
  · rename_i digits rest hne _ heq
    rw [heq] at hlen
    have hpos : 0 < digits.length := by
      cases digits with
      | nil => exact absurd rfl hne
      | cons => simp
    obtain ⟨⟨fraction, r1⟩, h1, h⟩ := Option.bind_eq_some_iff.1 h
    obtain ⟨⟨exponent, r2⟩, h2, h⟩ := Option.bind_eq_some_iff.1 h
    obtain rfl := Option.some.inj h
    have l1 := length_scanFraction_le h1
    have l2 := length_scanExponent_le h2
    simp only at *
    omega

theorem length_afterWord_le {word : List Char} {ss rest : List Symbol}
    (h : afterWord word ss = some rest) : rest.length ≤ ss.length := by
  fun_induction afterWord word ss with
  | case1 ss =>
    obtain rfl := Option.some.inj h
    exact Nat.le_refl _
  | case2 c word ss ih => exact Nat.le_succ_of_le (ih h)
  | case3 => simp at h
  | case4 => simp at h

theorem length_scanToken_lt {ss : List Symbol} {r : Token × List Symbol}
    (h : scanToken ss = some r) : r.2.length < ss.length := by
  unfold scanToken at h
  split at h
  case h_1 | h_2 | h_3 | h_4 | h_5 | h_6 => obtain rfl := Option.some.inj h; simp
  case h_7 =>
    obtain ⟨x, hx, rfl⟩ := Option.map_eq_some_iff.1 h
    have := length_scanText_lt hx
    simp only [List.length_cons]
    omega
  case h_8 | h_9 | h_10 =>
    obtain ⟨x, hx, rfl⟩ := Option.map_eq_some_iff.1 h
    have := length_afterWord_le hx
    simp only [List.length_cons]
    omega
  case h_11 =>
    obtain ⟨x, hx, rfl⟩ := Option.map_eq_some_iff.1 h
    have := length_scanNumber_lt hx
    simp only [List.length_cons]
    omega
  case h_12 =>
    obtain ⟨x, hx, rfl⟩ := Option.map_eq_some_iff.1 h
    exact length_scanNumber_lt hx

def tokens (ss : List Symbol) : Option (List Token) :=
  match ss with
  | [] => some []
  | s :: rest =>
    if isSeparator s then tokens rest
    else
      match h : scanToken (s :: rest) with
      | none => none
      | some (t, rest') =>
        have := length_scanToken_lt h
        (tokens rest').map (t :: ·)
termination_by ss.length
decreasing_by
  · exact Nat.lt_succ_self _
  · exact this

end Dialogue.Json
