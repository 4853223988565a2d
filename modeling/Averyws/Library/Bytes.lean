/-
Byte regions and repeating masks.

`overwrite` is a write of several cells into a memory region.  `xorMask` is the
exclusive or of a byte string with a four-byte mask repeated from some phase;
two masks positions are the same phase when they read the same bytes onwards.
-/

import Mathlib.Data.List.TakeDrop

namespace Averyws.Library.Bytes

/-- Write `values` over the cells from `start` on. -/
def overwrite {α : Type} (memory : List α) (start : Nat) (values : List α) : List α :=
  memory.take start ++ values ++ memory.drop (start + values.length)

def slice {α : Type} (memory : List α) (start count : Nat) : List α :=
  (memory.drop start).take count

variable {α : Type}

theorem length_overwrite (memory : List α) (start : Nat) (values : List α)
    (inside : start + values.length ≤ memory.length) :
    (overwrite memory start values).length = memory.length := by
  simp only [overwrite, List.length_append, List.length_take, List.length_drop]
  omega

theorem take_overwrite (memory : List α) (start : Nat) (values : List α)
    (inside : start ≤ memory.length) :
    (overwrite memory start values).take start = memory.take start := by
  have size : (memory.take start).length = start := by
    rw [List.length_take, Nat.min_eq_left inside]
  rw [overwrite, List.append_assoc, List.take_append_of_le_length (Nat.le_of_eq size.symm),
    List.take_take, Nat.min_self]

theorem take_overwrite_add (memory : List α) (start : Nat) (values : List α)
    (inside : start ≤ memory.length) :
    (overwrite memory start values).take (start + values.length) =
      memory.take start ++ values := by
  have size : (memory.take start ++ values).length = start + values.length := by
    rw [List.length_append, List.length_take, Nat.min_eq_left inside]
  rw [overwrite, List.take_append_of_le_length (Nat.le_of_eq size.symm), ← size,
    List.take_length]

theorem slice_overwrite (memory : List α) (start : Nat) (values : List α)
    (inside : start ≤ memory.length) :
    slice (overwrite memory start values) start values.length = values := by
  have size : (memory.take start).length = start := by
    rw [List.length_take, Nat.min_eq_left inside]
  unfold slice overwrite
  rw [List.append_assoc, List.drop_append_of_le_length (Nat.le_of_eq size.symm),
    List.drop_of_length_le (Nat.le_of_eq size), List.nil_append,
    List.take_append_of_le_length (Nat.le_refl _), List.take_length]

/-- A region inside the front of a memory does not see the back. -/
theorem slice_append (front back : List α) (start count : Nat)
    (inside : start + count ≤ front.length) :
    slice (front ++ back) start count = slice front start count := by
  unfold slice
  rw [List.drop_append_of_le_length (by omega), List.take_append_of_le_length]
  rw [List.length_drop]
  omega

theorem overwrite_overwrite (memory : List α) (start : Nat) (first second : List α)
    (same : first.length = second.length) (inside : start ≤ memory.length) :
    overwrite (overwrite memory start first) start second = overwrite memory start second := by
  have size : (memory.take start).length = start := by
    rw [List.length_take, Nat.min_eq_left inside]
  have drop : (overwrite memory start first).drop (start + second.length) =
      memory.drop (start + second.length) := by
    have whole : (memory.take start ++ first).length = start + second.length := by
      rw [List.length_append, size, same]
    rw [overwrite, ← whole, List.drop_append_of_le_length (Nat.le_refl _), List.drop_length,
      List.nil_append, whole, same]
  rw [overwrite, take_overwrite memory start first inside, drop, overwrite]

abbrev Mask := Vector UInt8 4

def Mask.byte (mask : Mask) (index : Nat) : UInt8 :=
  mask.get (Fin.ofNat 4 index)

def xorMask (mask : Mask) : Nat → List UInt8 → List UInt8
  | _, [] => []
  | phase, byte :: rest => (byte ^^^ mask.byte phase) :: xorMask mask (phase + 1) rest

/-- Two positions of the repeated mask read the same bytes onwards. -/
def Mask.SamePhase (mask : Mask) (left right : Nat) : Prop :=
  ∀ index, mask.byte (left + index) = mask.byte (right + index)

theorem Mask.byte_congr (mask : Mask) (left right : Nat) (same : left % 4 = right % 4) :
    mask.byte left = mask.byte right := by
  unfold byte
  congr 1
  exact Fin.ext same

theorem Mask.samePhase_refl (mask : Mask) (phase : Nat) : mask.SamePhase phase phase :=
  fun _ => rfl

theorem Mask.samePhase_of_mod (mask : Mask) (left right : Nat) (same : left % 4 = right % 4) :
    mask.SamePhase left right := by
  intro index
  apply byte_congr
  omega

theorem Mask.SamePhase.add {mask : Mask} {left right : Nat}
    (same : mask.SamePhase left right) (count : Nat) :
    mask.SamePhase (left + count) (right + count) := by
  intro index
  rw [Nat.add_assoc, Nat.add_assoc]
  exact same (count + index)

theorem Mask.SamePhase.trans {mask : Mask} {left middle right : Nat}
    (first : mask.SamePhase left middle) (second : mask.SamePhase middle right) :
    mask.SamePhase left right :=
  fun index => (first index).trans (second index)

@[simp] theorem length_xorMask (mask : Mask) (phase : Nat) (bytes : List UInt8) :
    (xorMask mask phase bytes).length = bytes.length := by
  induction bytes generalizing phase with
  | nil => rfl
  | cons byte rest ih => simp only [xorMask, List.length_cons, ih]

theorem getElem?_xorMask (mask : Mask) (phase index : Nat) (bytes : List UInt8) :
    (xorMask mask phase bytes)[index]? =
      bytes[index]?.map fun byte => byte ^^^ mask.byte (phase + index) := by
  induction bytes generalizing phase index with
  | nil => rfl
  | cons byte rest ih =>
      cases index with
      | zero => rfl
      | succ index =>
          rw [xorMask, List.getElem?_cons_succ, List.getElem?_cons_succ, ih,
            Nat.add_assoc, Nat.add_comm 1 index]

theorem xorMask_append (mask : Mask) (phase : Nat) (first second : List UInt8) :
    xorMask mask phase (first ++ second) =
      xorMask mask phase first ++ xorMask mask (phase + first.length) second := by
  induction first generalizing phase with
  | nil => rfl
  | cons byte rest ih =>
      simp only [List.cons_append, xorMask, ih, List.length_cons]
      rw [Nat.add_assoc, Nat.add_comm 1 rest.length]

theorem xorMask_congr (mask : Mask) (left right : Nat) (bytes : List UInt8)
    (same : mask.SamePhase left right) :
    xorMask mask left bytes = xorMask mask right bytes := by
  induction bytes generalizing left right with
  | nil => rfl
  | cons byte rest ih =>
      simp only [xorMask]
      rw [ih (left + 1) (right + 1) (same.add 1)]
      congr 2
      exact same 0

theorem xorMask_xorMask (mask : Mask) (phase : Nat) (bytes : List UInt8) :
    xorMask mask phase (xorMask mask phase bytes) = bytes := by
  induction bytes generalizing phase with
  | nil => rfl
  | cons byte rest ih =>
      simp only [xorMask, ih]
      rw [UInt8.xor_assoc, UInt8.xor_self, UInt8.xor_zero]

theorem xorMask_zero (mask : Mask) (phase : Nat) (bytes : List UInt8)
    (zero : ∀ index, mask.byte index = 0) : xorMask mask phase bytes = bytes := by
  induction bytes generalizing phase with
  | nil => rfl
  | cons byte rest ih =>
      simp only [xorMask, zero, UInt8.xor_zero, ih]

end Averyws.Library.Bytes
