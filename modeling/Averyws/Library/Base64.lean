/-
Base64: bytes as digits of six bits.

Three bytes are four sextets; one or two bytes left over are filled up with zero
bits, and the text with padding.  The second half is the accumulator that
regroups the bits of a stream: its low bits are those still pending, and what
lies above them does not matter.
-/

import Mathlib.Algebra.Group.Nat.Defs
import Mathlib.Tactic.Ring

namespace Averyws.Library.Base64

def sextets : List UInt8 → List Nat
  | [] => []
  | [a] => [a.toNat / 4, a.toNat % 4 * 16]
  | [a, b] => [a.toNat / 4, a.toNat % 4 * 16 + b.toNat / 16, b.toNat % 16 * 4]
  | a :: b :: c :: rest =>
      a.toNat / 4 :: (a.toNat % 4 * 16 + b.toNat / 16) :: (b.toNat % 16 * 4 + c.toNat / 64)
        :: c.toNat % 64 :: sextets rest

/-- The bytes of a sequence of sextets; bits that fill no byte are dropped. -/
def joined : List Nat → List UInt8
  | [] => []
  | [_] => []
  | [s, t] => [UInt8.ofNat (s * 4 + t / 16)]
  | [s, t, u] => [UInt8.ofNat (s * 4 + t / 16), UInt8.ofNat (t % 16 * 16 + u / 4)]
  | s :: t :: u :: v :: rest =>
      UInt8.ofNat (s * 4 + t / 16) :: UInt8.ofNat (t % 16 * 16 + u / 4)
        :: UInt8.ofNat (u % 4 * 64 + v) :: joined rest

theorem length_sextets (bytes : List UInt8) :
    (sextets bytes).length = (4 * bytes.length + 2) / 3 := by
  induction bytes using sextets.induct with
  | case1 => rfl
  | case2 a => simp only [sextets, List.length_cons, List.length_nil]
  | case3 a b => simp only [sextets, List.length_cons, List.length_nil]
  | case4 a b c rest ih =>
      simp only [sextets, List.length_cons, ih]
      omega

theorem sextets_lt (bytes : List UInt8) : ∀ sextet ∈ sextets bytes, sextet < 64 := by
  induction bytes using sextets.induct with
  | case1 => exact fun _ member => absurd member List.not_mem_nil
  | case2 a =>
      have := a.toNat_lt
      simp only [sextets, List.forall_mem_cons]
      refine ⟨?_, ?_, fun _ member => absurd member List.not_mem_nil⟩ <;> omega
  | case3 a b =>
      have := a.toNat_lt
      have := b.toNat_lt
      simp only [sextets, List.forall_mem_cons]
      refine ⟨?_, ?_, ?_, fun _ member => absurd member List.not_mem_nil⟩ <;> omega
  | case4 a b c rest ih =>
      have := a.toNat_lt
      have := b.toNat_lt
      have := c.toNat_lt
      simp only [sextets, List.forall_mem_cons]
      refine ⟨?_, ?_, ?_, ?_, ih⟩ <;> omega

private theorem byte_eq (byte : UInt8) (number : Nat) (same : number = byte.toNat) :
    UInt8.ofNat number = byte := by
  rw [same, UInt8.ofNat_toNat]

theorem joined_sextets (bytes : List UInt8) : joined (sextets bytes) = bytes := by
  induction bytes using sextets.induct with
  | case1 => rfl
  | case2 a =>
      simp only [sextets, joined]
      rw [byte_eq a _ (by omega)]
  | case3 a b =>
      have := b.toNat_lt
      simp only [sextets, joined]
      rw [byte_eq a _ (by omega), byte_eq b _ (by omega)]
  | case4 a b c rest ih =>
      have := b.toNat_lt
      have := c.toNat_lt
      simp only [sextets, joined, ih]
      rw [byte_eq a _ (by omega), byte_eq b _ (by omega), byte_eq c _ (by omega)]

def symbol (sextet : Nat) : UInt8 :=
  if sextet < 26 then UInt8.ofNat (0x41 + sextet)
  else if sextet < 52 then UInt8.ofNat (0x61 + (sextet - 26))
  else if sextet < 62 then UInt8.ofNat (0x30 + (sextet - 52))
  else if sextet = 62 then 0x2B
  else 0x2F

/-- How many symbols are missing behind `length` bytes. -/
def padding (length : Nat) : Nat :=
  (3 - length % 3) % 3

def encode (bytes : List UInt8) : List UInt8 :=
  (sextets bytes).map symbol ++ List.replicate (padding bytes.length) 0x3D

theorem length_encode (bytes : List UInt8) :
    (encode bytes).length = 4 * ((bytes.length + 2) / 3) := by
  unfold encode padding
  rw [List.length_append, List.length_map, List.length_replicate, length_sextets]
  omega

def Pending (accumulator : UInt32) (count value : Nat) : Prop :=
  accumulator.toNat % 2 ^ count = value

theorem Pending.lt {accumulator : UInt32} {count value : Nat}
    (pending : Pending accumulator count value) : value < 2 ^ count := by
  rw [← pending]
  exact Nat.mod_lt _ (Nat.two_pow_pos count)

theorem Pending.shift {accumulator : UInt32} {count value : Nat}
    (pending : Pending accumulator count value) (width : UInt32)
    (room : width.toNat + count ≤ 32) (short : width.toNat < 32) :
    Pending (accumulator <<< width) (width.toNat + count) (2 ^ width.toNat * value) := by
  unfold Pending
  rw [UInt32.toNat_shiftLeft, Nat.mod_eq_of_lt short, Nat.shiftLeft_eq,
    Nat.mod_mod_of_dvd _ (Nat.pow_dvd_pow 2 room), Nat.pow_add, Nat.mul_comm, Nat.mul_mod_mul_left]
  exact congrArg (2 ^ width.toNat * ·) pending

theorem Pending.push {accumulator : UInt32} {count value : Nat}
    (pending : Pending accumulator count value) (width digit : UInt32)
    (room : width.toNat + count ≤ 32) (short : width.toNat < 32)
    (small : digit.toNat < 2 ^ width.toNat) :
    Pending ((accumulator <<< width) ||| digit) (width.toNat + count)
      (2 ^ width.toNat * value + digit.toNat) := by
  have shifted := pending.shift width room short
  have clear : (accumulator <<< width).toNat % 2 ^ width.toNat = 0 := by
    rw [UInt32.toNat_shiftLeft, Nat.mod_eq_of_lt short, Nat.shiftLeft_eq,
      Nat.mod_mod_of_dvd _ (Nat.pow_dvd_pow 2 (Nat.le_of_lt short)), Nat.mul_mod_left]
  obtain ⟨high, aligned⟩ := Nat.dvd_of_mod_eq_zero clear
  have below : digit.toNat < 2 ^ (width.toNat + count) :=
    Nat.lt_of_lt_of_le small (Nat.pow_le_pow_right (by decide) (Nat.le_add_right _ _))
  have fits : 2 ^ width.toNat * value + digit.toNat < 2 ^ (width.toNat + count) := by
    rw [Nat.pow_add]
    have inner := Nat.mul_le_mul_left (2 ^ width.toNat) (Nat.succ_le_of_lt pending.lt)
    rw [Nat.mul_succ] at inner
    omega
  unfold Pending at *
  rw [UInt32.toNat_or, aligned, ← Nat.two_pow_add_eq_or_of_lt small, ← aligned, Nat.add_mod,
    shifted, Nat.mod_eq_of_lt below, Nat.mod_eq_of_lt fits]

/-- The bits above the lowest `bits` are read off and stay behind as garbage. -/
theorem Pending.pop {accumulator : UInt32} {bits value : Nat} (width : Nat)
    (pending : Pending accumulator (bits + width) value) (short : bits < 32) :
    (accumulator >>> UInt32.ofNat bits).toNat % 2 ^ width = value / 2 ^ bits ∧
      Pending accumulator bits (value % 2 ^ bits) := by
  have shifted : (UInt32.ofNat bits).toNat % 32 = bits := by
    rw [UInt32.toNat_ofNat_of_lt' (Nat.lt_trans short (by decide)), Nat.mod_eq_of_lt short]
  unfold Pending at *
  constructor
  · rw [UInt32.toNat_shiftRight, shifted, Nat.shiftRight_eq_div_pow, ← pending, Nat.pow_add,
      Nat.mod_mul_right_div_self]
  · rw [← pending, Nat.mod_mod_of_dvd _ (Nat.pow_dvd_pow 2 (Nat.le_add_right _ _))]

end Averyws.Library.Base64
