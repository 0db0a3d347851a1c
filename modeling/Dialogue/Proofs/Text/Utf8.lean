import Dialogue.Text.Utf8
import Mathlib.Tactic.IntervalCases

/-!
# Characters of written bytes

The bytes of a text are read as its characters, one by one, and no other symbol is read.

* `firstByte_one` to `firstByte_four` are the first bytes of characters of each length, with the
  bounds that they put on the second byte; `nextByte_more` and `nextByte_last` are the bytes behind.
* `symbolsFrom_char` is one character, `symbols_bytesOf` a text.
-/

namespace Dialogue.Text

/-! ## Single bytes -/

theorem toNat_ofNat_of_lt {n : Nat} (h : n < 256) : (UInt8.ofNat n).toNat = n := by
  rw [UInt8.toNat_ofNat']
  exact Nat.mod_eq_of_lt h

theorem firstByte_one {n : Nat} (h : n < 0x80) :
    firstByte (.ofNat n) = ([some (Char.ofNat n)], .between) := by
  have hbyte := toNat_ofNat_of_lt (show n < 256 by omega)
  have hlow : UInt8.ofNat n < 0x80 := by
    rw [UInt8.lt_iff_toNat_lt, hbyte]
    exact h
  rw [firstByte, if_pos hlow, hbyte]

theorem firstByte_two {k : Nat} (hlow : 2 ≤ k) (hhigh : k < 0x20) :
    firstByte (.ofNat (k + 0xC0)) = ([], .due 0 0x80 0xBF k) := by
  interval_cases k <;> rfl

theorem firstByte_three {k : Nat} (hhigh : k < 0x10) :
    firstByte (.ofNat (k + 0xE0)) =
      ([], .due 1 (if k = 0 then 0xA0 else 0x80) (if k = 0xD then 0x9F else 0xBF) k) := by
  interval_cases k <;> rfl

theorem firstByte_four {k : Nat} (hhigh : k < 5) :
    firstByte (.ofNat (k + 0xF0)) =
      ([], .due 2 (if k = 0 then 0x90 else 0x80) (if k = 4 then 0x8F else 0xBF) k) := by
  interval_cases k <;> rfl

/-- A byte between the bounds, after which more are due. -/
theorem nextByte_more {n more bits : Nat} {low high : UInt8} (hlow : low.toNat ≤ n + 0x80)
    (hhigh : n + 0x80 ≤ high.toNat) :
    nextByte (.ofNat (n + 0x80)) (.due (more + 1) low high bits) =
      ([], .due more 0x80 0xBF (bits * 64 + n)) := by
  have hbyte := toNat_ofNat_of_lt (show n + 0x80 < 256 from Nat.lt_of_le_of_lt hhigh high.toNat_lt)
  have hrange : low ≤ .ofNat (n + 0x80) ∧ UInt8.ofNat (n + 0x80) ≤ high := by
    rw [UInt8.le_iff_toNat_le, UInt8.le_iff_toNat_le, hbyte]
    exact ⟨hlow, hhigh⟩
  rw [nextByte, if_pos hrange, hbyte, Nat.add_sub_cancel]

/-- The last byte of a character. -/
theorem nextByte_last {n bits : Nat} {low high : UInt8} (hlow : low.toNat ≤ n + 0x80)
    (hhigh : n + 0x80 ≤ high.toNat) :
    nextByte (.ofNat (n + 0x80)) (.due 0 low high bits) =
      ([some (Char.ofNat (bits * 64 + n))], .between) := by
  have hbyte := toNat_ofNat_of_lt (show n + 0x80 < 256 from Nat.lt_of_le_of_lt hhigh high.toNat_lt)
  have hrange : low ≤ .ofNat (n + 0x80) ∧ UInt8.ofNat (n + 0x80) ≤ high := by
    rw [UInt8.le_iff_toNat_le, UInt8.le_iff_toNat_le, hbyte]
    exact ⟨hlow, hhigh⟩
  rw [nextByte, if_pos hrange, hbyte, Nat.add_sub_cancel]

/-! ## Characters -/

variable {k l m n : Nat}

theorem symbolsFrom_cons (b : UInt8) (bs : Bytes) (due : Partial) :
    symbolsFrom due (b :: bs) = (nextByte b due).1 ++ symbolsFrom (nextByte b due).2 bs := by
  cases due <;> rfl

theorem symbolsFrom_one (hn : n < 0x80) (bs : Bytes) :
    symbolsFrom .between (.ofNat n :: bs) = some (Char.ofNat n) :: symbolsFrom .between bs := by
  rw [symbolsFrom_cons, nextByte, firstByte_one hn]
  rfl

/-- Any byte of a tail is between the bounds that no first byte narrows. -/
theorem tail_bounds (hn : n < 64) :
    (0x80 : UInt8).toNat ≤ n + 0x80 ∧ n + 0x80 ≤ (0xBF : UInt8).toNat := by
  show 0x80 ≤ n + 0x80 ∧ n + 0x80 ≤ 0xBF
  omega

/-- Some first bytes narrow the bounds of the second byte. -/
theorem narrowed_bounds (hn : n < 64) {p q : Prop} [Decidable p] [Decidable q] {low high : UInt8}
    (hlow : p → low.toNat ≤ n + 0x80) (hhigh : q → n + 0x80 ≤ high.toNat) :
    (if p then low else 0x80).toNat ≤ n + 0x80 ∧ n + 0x80 ≤ (if q then high else 0xBF).toNat := by
  constructor
  · split
    · rename_i hp
      exact hlow hp
    · exact (tail_bounds hn).1
  · split
    · rename_i hq
      exact hhigh hq
    · exact (tail_bounds hn).2

theorem symbolsFrom_two (hlow : 2 ≤ k) (hhigh : k < 0x20) (hn : n < 64) (bs : Bytes) :
    symbolsFrom .between (.ofNat (k + 0xC0) :: .ofNat (n + 0x80) :: bs) =
      some (Char.ofNat (k * 64 + n)) :: symbolsFrom .between bs := by
  obtain ⟨hn0, hn1⟩ := tail_bounds hn
  rw [symbolsFrom_cons, nextByte, firstByte_two hlow hhigh, symbolsFrom_cons,
    nextByte_last hn0 hn1]
  rfl

theorem symbolsFrom_three (hk : k < 0x10) (hm : m < 64) (hlow : k = 0 → 0x20 ≤ m)
    (hhigh : k = 0xD → m < 0x20) (hn : n < 64) (bs : Bytes) :
    symbolsFrom .between (.ofNat (k + 0xE0) :: .ofNat (m + 0x80) :: .ofNat (n + 0x80) :: bs) =
      some (Char.ofNat ((k * 64 + m) * 64 + n)) :: symbolsFrom .between bs := by
  have hlow : k = 0 → (0xA0 : UInt8).toNat ≤ m + 0x80 := fun h => Nat.add_le_add_right (hlow h) 0x80
  have hhigh : k = 0xD → m + 0x80 ≤ (0x9F : UInt8).toNat := fun h =>
    Nat.add_le_add_right (Nat.le_of_lt_succ (hhigh h)) 0x80
  obtain ⟨hm0, hm1⟩ := narrowed_bounds hm hlow hhigh
  obtain ⟨hn0, hn1⟩ := tail_bounds hn
  rw [symbolsFrom_cons, nextByte, firstByte_three hk, symbolsFrom_cons, nextByte_more hm0 hm1,
    symbolsFrom_cons, nextByte_last hn0 hn1]
  rfl

theorem symbolsFrom_four (hk : k < 5) (hl : l < 64) (hlow : k = 0 → 0x10 ≤ l)
    (hhigh : k = 4 → l < 0x10) (hm : m < 64) (hn : n < 64) (bs : Bytes) :
    symbolsFrom .between (.ofNat (k + 0xF0) :: .ofNat (l + 0x80) :: .ofNat (m + 0x80) ::
        .ofNat (n + 0x80) :: bs) =
      some (Char.ofNat (((k * 64 + l) * 64 + m) * 64 + n)) :: symbolsFrom .between bs := by
  have hlow : k = 0 → (0x90 : UInt8).toNat ≤ l + 0x80 := fun h => Nat.add_le_add_right (hlow h) 0x80
  have hhigh : k = 4 → l + 0x80 ≤ (0x8F : UInt8).toNat := fun h =>
    Nat.add_le_add_right (Nat.le_of_lt_succ (hhigh h)) 0x80
  obtain ⟨hl0, hl1⟩ := narrowed_bounds hl hlow hhigh
  obtain ⟨hm0, hm1⟩ := tail_bounds hm
  obtain ⟨hn0, hn1⟩ := tail_bounds hn
  rw [symbolsFrom_cons, nextByte, firstByte_four hk, symbolsFrom_cons, nextByte_more hl0 hl1,
    symbolsFrom_cons, nextByte_more hm0 hm1, symbolsFrom_cons, nextByte_last hn0 hn1]
  rfl

theorem toNat_valid (c : Char) :
    c.toNat < 0xD800 ∨ 0xDFFF < c.toNat ∧ c.toNat < 0x110000 :=
  c.valid

/-- The bytes of a character are read as that character. -/
theorem symbolsFrom_char (c : Char) (bs : Bytes) :
    symbolsFrom .between (String.utf8EncodeChar c ++ bs) = some c :: symbolsFrom .between bs := by
  have hvalid := toNat_valid c
  have hchar : Char.ofNat c.toNat = c := Char.ofNat_toNat c
  have hval : c.val.toNat = c.toNat := rfl
  unfold String.utf8EncodeChar
  rw [hval]
  generalize c.toNat = v at *
  dsimp only
  split
  · exact (symbolsFrom_one (by omega) bs).trans (by rw [hchar])
  split
  · have hsum : v / 64 % 32 * 64 + v % 64 = v := by omega
    have hread := symbolsFrom_two (k := v / 64 % 32) (n := v % 64) (by omega) (by omega) (by omega) bs
    rwa [hsum, hchar] at hread
  split
  · have hsum : (v / 4096 % 16 * 64 + v / 64 % 64) * 64 + v % 64 = v := by omega
    have hread := symbolsFrom_three (k := v / 4096 % 16) (m := v / 64 % 64) (n := v % 64)
      (by omega) (by omega) (by omega) (by omega) (by omega) bs
    rwa [hsum, hchar] at hread
  · have hsum : ((v / 262144 % 8 * 64 + v / 4096 % 64) * 64 + v / 64 % 64) * 64 + v % 64 = v := by
      omega
    have hread := symbolsFrom_four (k := v / 262144 % 8) (l := v / 4096 % 64) (m := v / 64 % 64)
      (n := v % 64) (by omega) (by omega) (by omega) (by omega) (by omega) (by omega) bs
    rwa [hsum, hchar] at hread

/-- The bytes of a text are read as its characters. -/
theorem symbols_bytesOf (s : String) : symbols (bytesOf s) = s.toList.map some := by
  have hread : ∀ cs : List Char,
      symbolsFrom .between (cs.flatMap String.utf8EncodeChar) = cs.map some := by
    intro cs
    induction cs with
    | nil => rfl
    | cons c cs ih => rw [List.flatMap_cons, symbolsFrom_char, ih, List.map_cons]
  exact hread s.toList

end Dialogue.Text
