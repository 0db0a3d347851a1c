import Dialogue.Json.Printer
import Dialogue.Json.Token
import Dialogue.Proofs.Text.Decimal
import Mathlib.Tactic.IntervalCases

/-!
# Tokens of written values

Each token of a JSON text is read back from the way it is printed, and what follows it is left.

* `scanText_quotedText`: a text is what its characters spell, each of them as it is or escaped.
* `scanNumber_ofNat` and `scanToken_ofInt`: an integer ends where no digit, fraction or exponent
  follows (`Stops`).
* `tokens_separator` and `tokens_of_scanToken` are the steps of the first reading.
-/

namespace Dialogue.Json

open Text

variable {sp : Spelling} {cs : List Char} {c : Char} {rest : List Symbol}

/-! ## Texts -/

theorem scanText_quote (sp : Spelling) (rest : List Symbol) :
    scanText sp (some '"' :: rest) = some (sp.text?, rest) := by
  rw [scanText]

theorem scanText_char (hquote : c ≠ '"') (hslash : c ≠ '\\') (hcontrol : ¬ c < ' ') :
    scanText sp (some c :: rest) = scanText (sp.char c) rest := by
  rw [scanText.eq_def]
  split <;> simp_all

theorem scanText_escape {e : Char} (hu : e ≠ 'u') (he : escapes.lookup e = some c) :
    scanText sp (some '\\' :: some e :: rest) = scanText (sp.char c) rest := by
  rw [scanText, he]
  intro _ _ _ _ _ _ hunit
  exact hu hunit

theorem scanText_unit {a b c d : Symbol} {n : Nat} (hn : hexUnit? [a, b, c, d] = some n) :
    scanText sp (some '\\' :: some 'u' :: a :: b :: c :: d :: rest) = scanText (sp.unit n) rest := by
  rw [scanText, hn]

theorem hexDigit?_digitChar {n : Nat} (h : n < 16) : hexDigit? (Nat.digitChar n) = some n := by
  interval_cases n <;> rfl

/-- The escape of a control spells its code point. -/
theorem hexUnit?_escape {n : Nat} (h : n < 256) :
    hexUnit? [some '0', some '0', some (Nat.digitChar (n / 16)), some (Nat.digitChar (n % 16))] =
      some n := by
  have hhigh := hexDigit?_digitChar (show n / 16 < 16 by omega)
  have hlow := hexDigit?_digitChar (show n % 16 < 16 by omega)
  have hzero : hexDigit? '0' = some 0 := rfl
  simp only [hexUnit?, List.foldlM_cons, List.foldlM_nil, Option.bind_some, Option.map_some,
    hhigh, hlow, hzero, Option.bind_eq_bind, Option.pure_def]
  congr 1
  omega

/-- A character is read as itself, escaped or not. -/
theorem scanText_escaped (cs : List Char) (c : Char) (rest : List Symbol) :
    scanText (.text cs) ((escaped c).map some ++ rest) = scanText (.text (c :: cs)) rest := by
  unfold escaped
  split
  case h_8 hquote hslash _ _ _ _ _ =>
    split
    · rename_i hcontrol
      have hlt : c.toNat < 32 := by
        simpa [Char.lt_def, UInt32.lt_iff_toNat_lt] using hcontrol
      have hunit : Spelling.unit c.toNat (.text cs) = .text (c :: cs) := by
        have hlow : ¬ (0xD800 ≤ c.toNat ∧ c.toNat < 0xDC00) := by omega
        have hhigh : ¬ (0xDC00 ≤ c.toNat ∧ c.toNat < 0xE000) := by omega
        rw [Spelling.unit, if_neg hlow, if_neg hhigh, Char.ofNat_toNat]
      rw [← hunit]
      exact scanText_unit (hexUnit?_escape (by omega))
    · rename_i hcontrol
      exact scanText_char hquote hslash hcontrol
  all_goals exact scanText_escape (by decide) rfl

theorem scanText_flatMap_escaped (s : List Char) (cs : List Char) (rest : List Symbol) :
    scanText (.text cs) ((s.flatMap escaped).map some ++ rest) =
      scanText (.text (s.reverse ++ cs)) rest := by
  induction s generalizing cs with
  | nil => rfl
  | cons c s ih =>
    rw [List.flatMap_cons, List.map_append, List.append_assoc, scanText_escaped, ih]
    simp

/-- The symbols behind the first quote of a text. -/
theorem scanText_quotedText (s : String) (rest : List Symbol) :
    scanText (.text []) ((s.toList.flatMap escaped ++ ['"']).map some ++ rest) =
      some (some s, rest) := by
  rw [List.map_append, List.append_assoc, scanText_flatMap_escaped]
  show scanText _ (some '"' :: rest) = _
  rw [scanText_quote, Spelling.text?]
  simp

/-! ## Numbers -/

/-- No number that ends here goes on in these symbols. -/
def Stops (ss : List Symbol) : Prop :=
  ∀ c, ss.head? = some (some c) → isAsciiDigit c = false ∧ c ≠ '.' ∧ c ≠ 'e' ∧ c ≠ 'E'

theorem stops_nil : Stops [] := by
  intro c h
  cases h

theorem stops_cons (h : isAsciiDigit c = false ∧ c ≠ '.' ∧ c ≠ 'e' ∧ c ≠ 'E')
    (rest : List Symbol) : Stops (some c :: rest) := by
  intro c' hc'
  cases hc'
  exact h

theorem scanDigits_append (ds : List Char) (hds : ∀ d ∈ ds, isAsciiDigit d = true)
    (hrest : Stops rest) : scanDigits (ds.map some ++ rest) = (ds, rest) := by
  induction ds with
  | nil =>
    cases rest with
    | nil => rfl
    | cons s rest =>
      cases s with
      | none => rfl
      | some c =>
        have hc := (hrest c rfl).1
        show scanDigits (some c :: rest) = _
        simp [scanDigits, hc]
  | cons d ds ih =>
    obtain ⟨hd, hds⟩ := List.forall_mem_cons.1 hds
    show scanDigits (some d :: (ds.map some ++ rest)) = _
    simp [scanDigits, hd, ih hds]

theorem scanFraction_stops (hrest : Stops rest) : scanFraction rest = some (false, rest) := by
  unfold scanFraction
  split
  · exact absurd rfl (hrest '.' rfl).2.1
  · rfl

theorem scanExponent_stops (hrest : Stops rest) : scanExponent rest = some (false, rest) := by
  unfold scanExponent
  split
  · rename_i c rest
    obtain ⟨_, _, he, hE⟩ := hrest c rfl
    rw [if_neg (by simp [he, hE])]
  · rfl

/-- No digits but those of zero begin with a zero. -/
theorem head?_ofNat_ne_zero {n : Nat} (hn : n ≠ 0) : (Decimal.ofNat n).head? ≠ some '0' := by
  induction n using Nat.strong_induction_on with
  | _ n ih =>
    rw [Decimal.ofNat, Nat.toDigits_eq_if (by decide)]
    split
    · simpa [Nat.digitChar_eq_zero] using hn
    · have hhigher := ih (n / 10) (by omega) (by omega)
      rw [List.head?_append]
      rw [Decimal.ofNat] at hhigher
      cases hdigits : Nat.toDigits 10 (n / 10) with
      | nil => exact absurd hdigits Nat.toDigits_ne_nil
      | cons d ds =>
        rw [hdigits] at hhigher
        exact hhigher

theorem ofNat_ne_zero_cons (n : Nat) (d : Char) (ds : List Char) :
    Decimal.ofNat n ≠ '0' :: d :: ds := by
  intro h
  by_cases hn : n = 0
  · subst hn
    cases h
  · exact head?_ofNat_ne_zero hn (by rw [h]; rfl)

/-- The digits of a number are read as that number, with the sign in front of them. -/
theorem scanNumber_ofNat (negative : Bool) (n : Nat) (hrest : Stops rest) :
    scanNumber negative ((Decimal.ofNat n).map some ++ rest) =
      some (numberValue negative (Decimal.ofNat n) false, rest) := by
  have hdigits := scanDigits_append (Decimal.ofNat n)
    (fun d hd => Decimal.isAsciiDigit_of_mem_ofNat hd) hrest
  unfold scanNumber
  rw [hdigits]
  split
  · rename_i heq
    exact absurd (congrArg Prod.fst heq) (Decimal.ofNat_ne_nil n)
  · rename_i heq
    exact absurd (congrArg Prod.fst heq) (ofNat_ne_zero_cons n _ _)
  · rename_i digits rest' _ _ heq
    cases heq
    simp [scanFraction_stops hrest, scanExponent_stops hrest]

theorem numberValue_ofNat (n : Nat) : numberValue false (Decimal.ofNat n) false = .int n := by
  simp [numberValue, Decimal.foldl_ofNat]

theorem numberValue_negSucc (n : Nat) :
    numberValue true (Decimal.ofNat (n + 1)) false = .int (.negSucc n) := by
  simp [numberValue, Decimal.foldl_ofNat, Int.negSucc_eq]

/-! ## Tokens -/

theorem scanToken_digit (hc : isAsciiDigit c = true) (rest : List Symbol) :
    scanToken (some c :: rest) =
      (scanNumber false (some c :: rest)).map fun r => (.value r.1, r.2) := by
  unfold scanToken
  split
  case h_12 => rfl
  all_goals
    rename_i heq
    cases heq
    exact absurd hc (by decide)

/-- An integer that stops is read as itself. -/
theorem scanToken_ofInt (i : Int) (hrest : Stops rest) :
    scanToken ((Decimal.ofInt i).map some ++ rest) = some (.value (.int i), rest) := by
  cases i with
  | ofNat n =>
    obtain ⟨c, cs, hcons, _⟩ := Decimal.exists_ofNat_eq_cons n
    have hdigit : isAsciiDigit c = true :=
      Decimal.isAsciiDigit_of_mem_ofNat (hcons ▸ List.mem_cons_self)
    have hread := scanNumber_ofNat false n hrest
    rw [numberValue_ofNat, hcons] at hread
    show scanToken ((Decimal.ofNat n).map some ++ rest) = _
    rw [hcons]
    show scanToken (some c :: (cs.map some ++ rest)) = _
    rw [scanToken_digit hdigit]
    exact congrArg _ hread
  | negSucc n =>
    have hread := scanNumber_ofNat true (n + 1) hrest
    rw [numberValue_negSucc] at hread
    show scanToken (some '-' :: ((Decimal.ofNat (n + 1)).map some ++ rest)) = _
    rw [scanToken, hread]
    rfl

theorem scanToken_quotedText (s : String) (rest : List Symbol) :
    scanToken ((quotedText s).map some ++ rest) = some (.str (some s), rest) := by
  show scanToken (some '"' :: ((s.toList.flatMap escaped ++ ['"']).map some ++ rest)) = _
  rw [scanToken, scanText_quotedText]
  rfl

/-- A separator between tokens is passed over. -/
theorem tokens_separator {s : Symbol} (hs : isSeparator s = true) (rest : List Symbol) :
    tokens (s :: rest) = tokens rest := by
  rw [tokens, if_pos hs]

theorem tokens_newLine (depth : Nat) (rest : List Symbol) :
    tokens ((newLine depth).map some ++ rest) = tokens rest := by
  have hblanks : ∀ k, tokens ((List.replicate k ' ').map some ++ rest) = tokens rest := by
    intro k
    induction k with
    | zero => rfl
    | succ k ih => exact (tokens_separator rfl _).trans ih
  exact (tokens_separator rfl _).trans (hblanks _)

/-- A token is read from the symbols that it takes. -/
theorem tokens_of_scanToken {s : Symbol} {ss : List Symbol} {t : Token}
    (hs : isSeparator s = false) (h : scanToken (s :: ss) = some (t, rest)) :
    tokens (s :: ss) = (tokens rest).map (t :: ·) := by
  rw [tokens, if_neg (by simp [hs])]
  split
  · rename_i hnone
    rw [h] at hnone
    cases hnone
  · rename_i t' rest' hsome
    rw [h] at hsome
    cases hsome
    rfl

end Dialogue.Json
