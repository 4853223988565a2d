/-
Machine words and their bytes.

Joining bytes into a 64-bit word with shifts and disjunctions is positional
notation in base 256, and masking a byte position and shifting it down reads one
digit of it.
-/

import Mathlib.Tactic.Ring

namespace Averyws.Library.Words

theorem shift_toNat (byte : UInt8) (bits : UInt64) (small : bits.toNat ≤ 56) :
    (byte.toUInt64 <<< bits).toNat = 2 ^ bits.toNat * byte.toNat := by
  have bound : byte.toNat < 2 ^ 8 := byte.toNat_lt
  have fits : byte.toNat * 2 ^ bits.toNat < 2 ^ 64 := by
    calc byte.toNat * 2 ^ bits.toNat < 2 ^ 8 * 2 ^ bits.toNat :=
          Nat.mul_lt_mul_of_pos_right bound (Nat.two_pow_pos _)
      _ = 2 ^ (8 + bits.toNat) := (Nat.pow_add 2 8 bits.toNat).symm
      _ ≤ 2 ^ 64 := Nat.pow_le_pow_right (by decide) (by omega)
  rw [UInt64.toNat_shiftLeft, UInt8.toNat_toUInt64, Nat.mod_eq_of_lt (by omega : bits.toNat < 64),
    Nat.shiftLeft_eq, Nat.mod_eq_of_lt fits, Nat.mul_comm]

/-- A byte placed below a word whose lower bytes are clear. -/
theorem or_shift (word : UInt64) (byte : UInt8) (bits : UInt64) (number : Nat)
    (small : bits.toNat ≤ 56) (high : word.toNat = 2 ^ (bits.toNat + 8) * number) :
    (word ||| (byte.toUInt64 <<< bits)).toNat = 2 ^ bits.toNat * (2 ^ 8 * number + byte.toNat) := by
  have bound : byte.toNat < 2 ^ 8 := byte.toNat_lt
  have low : 2 ^ bits.toNat * byte.toNat < 2 ^ (bits.toNat + 8) := by
    rw [Nat.pow_add]
    exact Nat.mul_lt_mul_of_pos_left bound (Nat.two_pow_pos _)
  rw [UInt64.toNat_or, shift_toNat byte bits small, high, ← Nat.two_pow_add_eq_or_of_lt low,
    Nat.pow_add]
  ring

theorem join_two (first second : UInt8) :
    ((first.toUInt64 <<< 8) ||| (second.toUInt64 <<< 0)).toNat =
      2 ^ 8 * first.toNat + second.toNat := by
  have start := shift_toNat first 8 (by decide)
  have joined := or_shift _ second 0 first.toNat (by decide) start
  rw [joined]
  exact Nat.one_mul _

theorem join_eight (a b c d e f g h : UInt8) :
    ((a.toUInt64 <<< 56) ||| (b.toUInt64 <<< 48) ||| (c.toUInt64 <<< 40)
      ||| (d.toUInt64 <<< 32) ||| (e.toUInt64 <<< 24) ||| (f.toUInt64 <<< 16)
      ||| (g.toUInt64 <<< 8) ||| (h.toUInt64 <<< 0)).toNat =
    2 ^ 8 * (2 ^ 8 * (2 ^ 8 * (2 ^ 8 * (2 ^ 8 * (2 ^ 8 * (2 ^ 8 * a.toNat + b.toNat) + c.toNat)
      + d.toNat) + e.toNat) + f.toNat) + g.toNat) + h.toNat := by
  have first := shift_toNat a 56 (by decide)
  have second := or_shift _ b 48 _ (by decide) first
  have third := or_shift _ c 40 _ (by decide) second
  have fourth := or_shift _ d 32 _ (by decide) third
  have fifth := or_shift _ e 24 _ (by decide) fourth
  have sixth := or_shift _ f 16 _ (by decide) fifth
  have seventh := or_shift _ g 8 _ (by decide) sixth
  have eighth := or_shift _ h 0 _ (by decide) seventh
  rw [eighth]
  exact Nat.one_mul _

theorem digit_step (number bits : Nat) :
    2 ^ 8 * (number / 2 ^ (bits + 8)) + number / 2 ^ bits % 2 ^ 8 = number / 2 ^ bits := by
  rw [Nat.pow_add, ← Nat.div_div_eq_div_mul]
  omega

theorem join_digits_two (number : Nat) (small : number < 2 ^ 16) :
    2 ^ 8 * (UInt8.ofNat (number / 2 ^ 8)).toNat + (UInt8.ofNat number).toNat = number := by
  rw [UInt8.toNat_ofNat_of_lt' (by omega : number / 2 ^ 8 < 2 ^ 8), UInt8.toNat_ofNat']
  omega

theorem join_digits_eight (number : Nat) (small : number < 2 ^ 64) :
    2 ^ 8 * (2 ^ 8 * (2 ^ 8 * (2 ^ 8 * (2 ^ 8 * (2 ^ 8 * (2 ^ 8 *
      (UInt8.ofNat (number / 2 ^ 56)).toNat + (UInt8.ofNat (number / 2 ^ 48)).toNat)
      + (UInt8.ofNat (number / 2 ^ 40)).toNat) + (UInt8.ofNat (number / 2 ^ 32)).toNat)
      + (UInt8.ofNat (number / 2 ^ 24)).toNat) + (UInt8.ofNat (number / 2 ^ 16)).toNat)
      + (UInt8.ofNat (number / 2 ^ 8)).toNat) + (UInt8.ofNat number).toNat = number := by
  rw [UInt8.toNat_ofNat_of_lt' (by omega : number / 2 ^ 56 < 2 ^ 8)]
  simp only [UInt8.toNat_ofNat']
  rw [digit_step number 48, digit_step number 40, digit_step number 32, digit_step number 24,
    digit_step number 16, digit_step number 8]
  omega

theorem masked_digit (word mask bits : UInt64) (small : bits.toNat < 64)
    (position : mask.toNat >>> bits.toNat = 2 ^ 8 - 1) :
    ((word &&& mask) >>> bits).toUInt8 = UInt8.ofNat (word.toNat / 2 ^ bits.toNat) := by
  apply UInt8.toNat_inj.mp
  rw [UInt64.toNat_toUInt8, UInt64.toNat_shiftRight, UInt64.toNat_and,
    Nat.mod_eq_of_lt small, Nat.shiftRight_and_distrib, position,
    Nat.and_two_pow_sub_one_eq_mod, Nat.mod_mod, UInt8.toNat_ofNat', Nat.shiftRight_eq_div_pow]

end Averyws.Library.Words
