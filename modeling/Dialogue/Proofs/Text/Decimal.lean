import Dialogue.Proofs.Text.Blank
import Dialogue.Text.Decimal

/-!
# Decimal integers read back

A number that is written is read as itself, by every reader that takes its form.

* `digits?_ofNat`, `signed?_ofInt` and `int?_ofInt` are the unbounded readers; `int32?_ofInt`,
  `signed32?_ofInt` and `uint32?_ofNat` are those of machine words, for every word.
* `isAsciiDigit_of_mem_ofNat` and `mem_ofInt`: nothing but digits is written, with a minus at most.
* `trim_ofNat` and `trim_ofInt`: what is written has no blanks at its ends.
* `digits?_eq_some_iff`, `signed?_eq_some_iff` and `signed32?_eq_some_iff`: what is taken for a number,
  and for which one.
-/

namespace Dialogue.Text.Decimal

theorem isAsciiDigit_eq_isDigit (c : Char) : isAsciiDigit c = c.isDigit := rfl

theorem isAsciiDigit_of_mem_ofNat {n : Nat} {c : Char} (h : c ∈ ofNat n) :
    isAsciiDigit c = true := by
  rw [isAsciiDigit_eq_isDigit]
  exact Nat.isDigit_of_mem_toDigits (by decide) (by decide) h

theorem ofNat_ne_nil (n : Nat) : ofNat n ≠ [] :=
  Nat.toDigits_ne_nil

theorem all_isAsciiDigit_ofNat (n : Nat) : (ofNat n).all isAsciiDigit = true :=
  List.all_eq_true.2 fun _ => isAsciiDigit_of_mem_ofNat

/-- The value of the digits of a number. -/
theorem foldl_ofNat (n : Nat) : (ofNat n).foldl (fun n c => n * 10 + digitValue c) 0 = n := by
  have hfold := Nat.ofDigitChars_ten_toDigits (n := n)
  simpa only [Nat.ofDigitChars, Nat.mul_comm 10, ofNat, digitValue] using hfold

theorem digits?_ofNat (n : Nat) : digits? (ofNat n) = some n := by
  rw [digits?, all_isAsciiDigit_ofNat, foldl_ofNat]
  simp [ofNat_ne_nil]

/-! ## Signs -/

theorem ne_of_isAsciiDigit {c sign : Char} (h : isAsciiDigit c = true)
    (hsign : isAsciiDigit sign = false) : c ≠ sign := by
  rintro rfl
  rw [h] at hsign
  cases hsign

/-- A reader that looks for a sign in front finds none in front of digits. -/
theorem exists_ofNat_eq_cons (n : Nat) :
    ∃ c cs, ofNat n = c :: cs ∧ c ≠ '-' ∧ c ≠ '+' := by
  cases h : ofNat n with
  | nil => exact absurd h (ofNat_ne_nil n)
  | cons c cs =>
    have hdigit : isAsciiDigit c = true := isAsciiDigit_of_mem_ofNat (h ▸ List.mem_cons_self)
    exact ⟨c, cs, rfl, ne_of_isAsciiDigit hdigit rfl, ne_of_isAsciiDigit hdigit rfl⟩

theorem signed?_ofNat (n : Nat) : signed? (ofNat n) = some (n : Int) := by
  obtain ⟨c, cs, hcons, hminus, _⟩ := exists_ofNat_eq_cons n
  have hread := digits?_ofNat n
  rw [hcons] at hread ⊢
  unfold signed?
  split
  · rename_i heq
    exact absurd (List.cons.inj heq).1 hminus
  · rw [hread]
    rfl

theorem signed?_ofInt (i : Int) : signed? (ofInt i) = some i := by
  cases i with
  | ofNat n => exact signed?_ofNat n
  | negSucc n =>
    show (digits? (ofNat (n + 1))).map (fun n => -(n : Int)) = some (.negSucc n)
    rw [digits?_ofNat]
    rfl

theorem nat?_ofNat (n : Nat) : nat? (ofNat n) = some n := by
  obtain ⟨c, cs, hcons, _, hplus⟩ := exists_ofNat_eq_cons n
  have hread := digits?_ofNat n
  rw [hcons] at hread ⊢
  unfold nat?
  split
  · rename_i heq
    exact absurd (List.cons.inj heq).1 hplus
  · exact hread

theorem head?_ofInt_ne_plus (i : Int) : (ofInt i).head? ≠ some '+' := by
  cases i with
  | ofNat n =>
    obtain ⟨c, cs, hcons, _, hplus⟩ := exists_ofNat_eq_cons n
    show (ofNat n).head? ≠ some '+'
    simpa [hcons] using hplus
  | negSucc n => simp [ofInt]

theorem int?_ofInt (i : Int) : int? (ofInt i) = some i := by
  unfold int?
  split
  · rename_i heq
    have hplus := head?_ofInt_ne_plus i
    rw [heq] at hplus
    exact absurd rfl hplus
  · exact signed?_ofInt i

/-! ## Machine words -/

theorem toInt32?_toInt (i : Int32) : toInt32? i.toInt = some i := by
  have hlow := i.le_toInt
  have hhigh := i.toInt_lt
  have hrange : -2147483648 ≤ i.toInt ∧ i.toInt ≤ 2147483647 := by omega
  rw [toInt32?, if_pos hrange, Int32.ofInt_toInt]

theorem toUInt32?_toNat (n : UInt32) : toUInt32? n.toNat = some n := by
  rw [toUInt32?, if_pos n.toNat_lt_size, UInt32.ofNat_toNat]

theorem int32?_ofInt (i : Int32) : int32? (ofInt i.toInt) = some i := by
  rw [int32?, int?_ofInt, Option.bind_some, toInt32?_toInt]

theorem signed32?_ofInt (i : Int32) : signed32? (ofInt i.toInt) = some i := by
  rw [signed32?, signed?_ofInt, Option.bind_some, toInt32?_toInt]

theorem uint32?_ofNat (n : UInt32) : uint32? (ofNat n.toNat) = some n := by
  rw [uint32?, nat?_ofNat, Option.bind_some, toUInt32?_toNat]

theorem int32?_text (i : Int32) : int32? (text i).toList = some i := by
  rw [text, String.toList_ofList, int32?_ofInt]

theorem uint32?_natText (n : UInt32) : uint32? (natText n.toNat).toList = some n := by
  rw [natText, String.toList_ofList, uint32?_ofNat]

/-! ## What is written -/

theorem mem_ofInt {i : Int} {c : Char} (h : c ∈ ofInt i) : c = '-' ∨ isAsciiDigit c = true := by
  cases i with
  | ofNat n => exact Or.inr (isAsciiDigit_of_mem_ofNat h)
  | negSucc n =>
    rcases List.mem_cons.1 h with rfl | h
    · exact Or.inl rfl
    · exact Or.inr (isAsciiDigit_of_mem_ofNat h)

theorem ofInt_ne_nil (i : Int) : ofInt i ≠ [] := by
  cases i with
  | ofNat n => exact ofNat_ne_nil n
  | negSucc n => exact List.cons_ne_nil _ _

theorem text_ne_empty (i : Int32) : text i ≠ "" := by
  intro h
  have htoList := congrArg String.toList h
  rw [text, String.toList_ofList] at htoList
  exact ofInt_ne_nil _ htoList

theorem natText_ne_empty (n : Nat) : natText n ≠ "" := by
  intro h
  have htoList := congrArg String.toList h
  rw [natText, String.toList_ofList] at htoList
  exact ofNat_ne_nil _ htoList

theorem natText_inj {m n : Nat} : natText m = natText n ↔ m = n := by
  constructor
  · intro h
    have htoList := congrArg String.toList h
    rw [natText, natText, String.toList_ofList, String.toList_ofList] at htoList
    have hread := digits?_ofNat m
    rw [htoList, digits?_ofNat] at hread
    exact (Option.some.inj hread).symm
  · rintro rfl
    rfl

theorem toNat_of_isAsciiDigit {c : Char} (h : isAsciiDigit c = true) :
    48 ≤ c.toNat ∧ c.toNat ≤ 57 := by
  simpa [isAsciiDigit, Char.le_def, UInt32.le_iff_toNat_le] using h

theorem isDecimalDigit_of_isAsciiDigit {c : Char} (h : isAsciiDigit c = true) :
    isDecimalDigit c = true := by
  have hrange := toNat_of_isAsciiDigit h
  have hzero : 0x30 ∈ decimalZeros := by decide
  have hany : decimalZeros.any (fun z => z ≤ c.toNat && c.toNat ≤ z + 9) = true := by
    refine List.any_eq_true.2 ⟨0x30, hzero, ?_⟩
    simp only [Bool.and_eq_true, decide_eq_true_eq]
    omega
  rw [isDecimalDigit, hany, Bool.true_or]

/-- No digit of any script is a blank. -/
theorem isBlank_of_isDecimalDigit {c : Char} (h : isDecimalDigit c = true) : isBlank c = false := by
  have hzeros : ∀ r ∈ blankRanges, (∀ z ∈ decimalZeros, r.2 < z ∨ z + 9 < r.1) ∧ r.2 < 0x1D7CE := by
    decide
  rw [isBlank, List.any_eq_false]
  intro r hr hmem
  obtain ⟨hrun, hlast⟩ := hzeros r hr
  simp only [Bool.and_eq_true, decide_eq_true_eq] at hmem
  rw [isDecimalDigit, Bool.or_eq_true, List.any_eq_true] at h
  rcases h with ⟨z, hz, hrange⟩ | hrange
  · have := hrun z hz
    simp only [Bool.and_eq_true, decide_eq_true_eq] at hrange
    omega
  · simp only [Bool.and_eq_true, decide_eq_true_eq] at hrange
    omega

theorem isBlank_of_isAsciiDigit {c : Char} (h : isAsciiDigit c = true) : isBlank c = false :=
  isBlank_of_isDecimalDigit (isDecimalDigit_of_isAsciiDigit h)

theorem trim_of_not_blank {cs : List Char} (h : ∀ c ∈ cs, isBlank c = false) : trim cs = cs :=
  trim_eq_self (fun c hc => h c (List.mem_of_head? hc)) fun c hc => h c (List.mem_of_getLast? hc)

theorem trim_ofNat (n : Nat) : trim (ofNat n) = ofNat n :=
  trim_of_not_blank fun _ hc => isBlank_of_isAsciiDigit (isAsciiDigit_of_mem_ofNat hc)

theorem trim_ofInt (i : Int) : trim (ofInt i) = ofInt i := by
  refine trim_of_not_blank fun c hc => ?_
  rcases mem_ofInt hc with rfl | hdigit
  · decide
  · exact isBlank_of_isAsciiDigit hdigit

/-! ## What is read -/

/-- A run of digits is read as the number that they are the digits of. -/
theorem digits?_eq_some_iff {cs : List Char} {n : Nat} : digits? cs = some n ↔
    cs ≠ [] ∧ cs.all isAsciiDigit = true ∧ Nat.ofDigitChars 10 cs 0 = n := by
  have hvalue : cs.foldl (fun n c => n * 10 + digitValue c) 0 = Nat.ofDigitChars 10 cs 0 := by
    simp only [Nat.ofDigitChars, Nat.mul_comm 10, digitValue]
  rw [digits?, hvalue]
  by_cases hne : cs = []
  · subst hne
    simp
  · cases cs.all isAsciiDigit <;> simp [hne]

/-- Digits with a minus at most, and the number that they denote. -/
inductive Denotes : List Char → Int → Prop
  | digits {ds : List Char} (hne : ds ≠ []) (hall : ds.all isAsciiDigit = true) :
    Denotes ds (Nat.ofDigitChars 10 ds 0)
  | minus {ds : List Char} (hne : ds ≠ []) (hall : ds.all isAsciiDigit = true) :
    Denotes ('-' :: ds) (-(Nat.ofDigitChars 10 ds 0 : Nat))

theorem signed?_minus (ds : List Char) :
    signed? ('-' :: ds) = (digits? ds).map fun n : Nat => -(n : Int) := by
  rw [signed?]
  cases digits? ds <;> rfl

theorem signed?_eq_some_iff {cs : List Char} {i : Int} : signed? cs = some i ↔ Denotes cs i := by
  constructor
  · intro h
    unfold signed? at h
    split at h
    · rename_i ds
      obtain ⟨n, hn, rfl⟩ := Option.map_eq_some_iff.1 ((signed?_minus ds).symm.trans h)
      obtain ⟨hne, hall, rfl⟩ := digits?_eq_some_iff.1 hn
      exact .minus hne hall
    · obtain ⟨n, hn, rfl⟩ := Option.map_eq_some_iff.1 h
      obtain ⟨hne, hall, rfl⟩ := digits?_eq_some_iff.1 hn
      exact .digits hne hall
  · intro h
    cases h with
    | digits hne hall =>
      unfold signed?
      split
      · exact absurd (List.all_eq_true.1 hall '-' List.mem_cons_self) (by decide)
      · rw [digits?_eq_some_iff.2 ⟨hne, hall, rfl⟩]
        rfl
    | minus hne hall =>
      rw [signed?_minus, digits?_eq_some_iff.2 ⟨hne, hall, rfl⟩]
      rfl

theorem toInt32?_eq_some_iff {i : Int} {word : Int32} :
    toInt32? i = some word ↔ word.toInt = i := by
  constructor
  · intro h
    unfold toInt32? at h
    split at h
    · rename_i hrange
      cases h
      exact Int32.toInt_ofInt_of_le hrange.1 (by omega)
    · cases h
  · rintro rfl
    exact toInt32?_toInt word

/-- The reader of packed targets takes the digits of a 32-bit number, with a minus at most. -/
theorem signed32?_eq_some_iff {cs : List Char} {word : Int32} :
    signed32? cs = some word ↔ Denotes cs word.toInt := by
  rw [signed32?, Option.bind_eq_some_iff]
  constructor
  · rintro ⟨i, hi, hword⟩
    rw [toInt32?_eq_some_iff.1 hword]
    exact signed?_eq_some_iff.1 hi
  · intro h
    exact ⟨word.toInt, signed?_eq_some_iff.2 h, toInt32?_toInt word⟩

theorem Denotes.exists_digits {cs : List Char} {i : Int} (h : Denotes cs i) :
    ∃ ds, (cs = ds ∨ cs = '-' :: ds) ∧ ds ≠ [] ∧ ds.all isAsciiDigit = true := by
  cases h with
  | digits hne hall => exact ⟨_, Or.inl rfl, hne, hall⟩
  | minus hne hall => exact ⟨_, Or.inr rfl, hne, hall⟩

theorem signed32?_eq_some {cs : List Char} {i : Int32} (h : signed32? cs = some i) :
    ∃ ds, (cs = ds ∨ cs = '-' :: ds) ∧ ds ≠ [] ∧ ds.all isAsciiDigit = true :=
  (signed32?_eq_some_iff.1 h).exists_digits

end Dialogue.Text.Decimal
