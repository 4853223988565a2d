/-
Shared cells: a store whose cells are allocated, read and overwritten through
references, and fixed-size byte blocks to keep in them.

A reference copied by two owners names one cell, so a write through one owner
is seen by the other; a freshly allocated cell is named by no older reference.
-/

import Averyws.Library.Bytes

namespace Averyws.Library.Cells

/-- Every cell ever allocated, in order of allocation. -/
structure Store (α : Type) where
  cells : List α
  deriving DecidableEq

variable {α : Type}

def Store.empty : Store α := ⟨[]⟩

def Store.alloc (store : Store α) (value : α) : Nat × Store α :=
  (store.cells.length, ⟨store.cells ++ [value]⟩)

def Store.load [Inhabited α] (store : Store α) (ref : Nat) : α :=
  store.cells.getD ref default

def Store.save (store : Store α) (ref : Nat) (value : α) : Store α :=
  ⟨store.cells.set ref value⟩

def Store.Live (store : Store α) (ref : Nat) : Prop :=
  ref < store.cells.length

instance (store : Store α) (ref : Nat) : Decidable (store.Live ref) :=
  inferInstanceAs (Decidable (ref < store.cells.length))

@[simp] theorem Store.load_alloc_self [Inhabited α] (store : Store α) (value : α) :
    (store.alloc value).2.load (store.alloc value).1 = value := by
  simp [load, alloc]

theorem Store.load_alloc_of_live [Inhabited α] (store : Store α) (value : α) (ref : Nat)
    (live : store.Live ref) : (store.alloc value).2.load ref = store.load ref := by
  have within : ref < store.cells.length := live
  simp [load, alloc, List.getElem?_append_left within]

theorem Store.live_alloc_self (store : Store α) (value : α) :
    (store.alloc value).2.Live (store.alloc value).1 := by
  simp [Live, alloc]

theorem Store.live_alloc_of_live (store : Store α) (value : α) (ref : Nat)
    (live : store.Live ref) : (store.alloc value).2.Live ref := by
  have within : ref < store.cells.length := live
  simp only [Live, alloc, List.length_append, List.length_cons, List.length_nil]
  omega

theorem Store.alloc_ne_of_live (store : Store α) (value : α) (ref : Nat)
    (live : store.Live ref) : ref ≠ (store.alloc value).1 :=
  Nat.ne_of_lt live

@[simp] theorem Store.live_save_iff (store : Store α) (saved ref : Nat) (value : α) :
    (store.save saved value).Live ref ↔ store.Live ref := by
  simp [Live, save]

theorem Store.load_save_self [Inhabited α] (store : Store α) (ref : Nat) (value : α)
    (live : store.Live ref) : (store.save ref value).load ref = value := by
  have within : ref < store.cells.length := live
  simp [load, save, within]

/-- A write through one reference leaves every other cell alone. -/
theorem Store.load_save_of_ne [Inhabited α] (store : Store α) (saved ref : Nat) (value : α)
    (distinct : ref ≠ saved) : (store.save saved value).load ref = store.load ref := by
  simp [load, save, Ne.symm distinct]

/-! ### Byte blocks of a fixed size -/

abbrev Block (size : Nat) := Vector UInt8 size

variable {size : Nat}

def Block.zero (size : Nat) : Block size :=
  Vector.replicate size 0

/-- The byte at an index, zero past the end. -/
def Block.byte (block : Block size) (index : Nat) : UInt8 :=
  if inside : index < size then block[index] else 0

/-- Write `values` from `start` on; nothing is written past the end. -/
def Block.write (block : Block size) (start : Nat) (values : List UInt8) : Block size :=
  Vector.ofFn fun index =>
    if start ≤ index.val then (values[index.val - start]?).getD block[index.val]
    else block[index.val]

/-- `write` where the values fit. -/
def Block.put (block : Block size) (start : Nat) (values : List UInt8)
    (_ : start + values.length ≤ size) : Block size :=
  block.write start values

def Block.read (block : Block size) (start count : Nat) : List UInt8 :=
  (List.range count).map fun index => block.byte (start + index)

theorem Block.byte_write_before (block : Block size) (start index : Nat)
    (values : List UInt8) (before : index < start) :
    (block.write start values).byte index = block.byte index := by
  unfold byte
  split
  · rw [write, Vector.getElem_ofFn, if_neg (Nat.not_le.mpr before)]
  · rfl

theorem Block.byte_write_after (block : Block size) (start index : Nat)
    (values : List UInt8) (after : start + values.length ≤ index) :
    (block.write start values).byte index = block.byte index := by
  have low : start ≤ index := Nat.le_trans (Nat.le_add_right _ _) after
  have none : values[index - start]? = none := List.getElem?_eq_none (by omega)
  unfold byte
  split
  · rw [write, Vector.getElem_ofFn, if_pos low, none, Option.getD_none]
  · rfl

theorem Block.byte_write_inside (block : Block size) (start index : Nat)
    (values : List UInt8) (low : start ≤ index) (within : index < size)
    (high : index - start < values.length) :
    (block.write start values).byte index = values[index - start] := by
  unfold byte
  rw [dif_pos within, write, Vector.getElem_ofFn, if_pos low,
    List.getElem?_eq_getElem high, Option.getD_some]

@[simp] theorem Block.length_read (block : Block size) (start count : Nat) :
    (block.read start count).length = count := by
  simp only [read, List.length_map, List.length_range]

theorem Block.read_write (block : Block size) (start : Nat) (values : List UInt8)
    (inside : start + values.length ≤ size) :
    (block.write start values).read start values.length = values := by
  apply List.ext_getElem
  · rw [length_read]
  · intro index left right
    rw [length_read] at left
    simp only [read, List.getElem_map, List.getElem_range]
    rw [byte_write_inside block start _ values (Nat.le_add_right _ _) (by omega) (by omega)]
    simp only [Nat.add_sub_cancel_left]

theorem Block.read_add (block : Block size) (start first second : Nat) :
    block.read start (first + second) =
      block.read start first ++ block.read (start + first) second := by
  unfold read
  rw [List.range_add, List.map_append, List.map_map]
  congr 1
  apply List.map_congr_left
  intro index _
  simp only [Function.comp, Nat.add_assoc]

theorem Block.read_write_before (block : Block size) (start count written : Nat)
    (values : List UInt8) (before : written + values.length ≤ start) :
    (block.write written values).read start count = block.read start count := by
  apply List.map_congr_left
  intro index _
  exact byte_write_after block written _ values (by omega)

end Averyws.Library.Cells
