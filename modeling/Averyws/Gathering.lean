/-
The gatherer on the bytes of a message.

`Filled` and `Holds` are the state between two reads, `Awaits` and `Planned` the
state while a read is outstanding: the first of each counts the bytes, for chunks
of any size, the second says which bytes they are.  A delivery turns an
outstanding read into the state between two reads with the unmasked bytes
appended, whatever the alignment of frames, chunks and characters.
-/

import Averyws.Gather
import Averyws.HeaderReader

namespace Averyws

open Library.Bytes Library.Cells
open Utilities

/-! ### Chunks of any size -/

/-- The chunks reach behind the bytes consumed, by less than one chunk. -/
structure Gather.Filled (gather : Gather) (buffer : ChunkVector) (consumed : Nat) : Prop where
  opened : buffer.open_ = true
  full : buffer.Full
  counted : gather.total_consumed_.toNat = consumed
  low : consumed ≤ buffer.bytes.length
  high : buffer.bytes.length < consumed + buffer.chunk_size_.toNat

structure Gather.Awaits (gather : Gather) (buffer : ChunkVector) (consumed count : Nat) :
    Prop where
  opened : buffer.open_ = true
  full : buffer.Full
  counted : gather.total_consumed_.toNat = consumed
  positive : 0 < count
  inside : consumed + count ≤ buffer.bytes.length
  high : buffer.bytes.length ≤ consumed + buffer.chunk_size_.toNat
  position : gather.buffer_position_ = some (buffer.position consumed)
  next : gather.next_consume_.toNat = count

section Counting

variable {gather : Gather} {buffer : ChunkVector} {consumed count : Nat}

theorem Gather.Filled.grow_cases (filled : gather.Filled buffer consumed)
    (width : buffer.bytes.length < 2 ^ 64) :
    (∃ grown, gather.grow buffer = some grown ∧ grown.open_ = true ∧ grown.Full ∧
        grown.chunk_size_ = buffer.chunk_size_ ∧
        grown.bytes.take consumed = buffer.bytes.take consumed ∧
        consumed < grown.bytes.length ∧
        grown.bytes.length ≤ consumed + buffer.chunk_size_.toNat ∧
        grown.bytes.length < 2 ^ 64) ∨
      (gather.grow buffer = none ∧ 2 ^ 64 ≤ consumed + buffer.chunk_size_.toNat) := by
  have size := filled.full.size_toNat width
  have positive := filled.full.1
  have low := filled.low
  have high := filled.high
  unfold Gather.grow
  by_cases used : gather.total_consumed_ = buffer.size
  · have length : buffer.bytes.length = consumed := by
      rw [← size, ← used, filled.counted]
    rw [if_pos used]
    by_cases room : buffer.bytes.length + buffer.chunk_size_.toNat < 2 ^ 64
    · left
      obtain ⟨grown, last, result, full, opened, same, -, bytes⟩ :=
        filled.full.new_chunk_eq filled.opened room
      have longer : grown.bytes.length = consumed + buffer.chunk_size_.toNat := by
        rw [bytes, List.length_append, List.length_replicate, length]
      rw [result]
      refine ⟨grown, rfl, opened, full, same, ?_, by omega, by omega, by omega⟩
      rw [bytes, List.take_append_of_le_length low]
    · right
      refine ⟨?_, by omega⟩
      unfold ChunkVector.new_chunk
      rw [if_neg (by rw [filled.opened]; exact Bool.noConfusion),
        if_pos (Nat.not_lt.mp room)]
      rfl
  · left
    have short : consumed ≠ buffer.bytes.length := by
      intro equal
      apply used
      rw [← UInt64.toNat_inj, filled.counted, size, equal]
    rw [if_neg used]
    exact ⟨buffer, rfl, filled.opened, filled.full, rfl, rfl, by omega, by omega, width⟩

theorem Gather.Awaits.next_ne_zero (awaits : gather.Awaits buffer consumed count) :
    gather.next_consume_ ≠ 0 := by
  intro zero
  have none := awaits.next
  rw [zero] at none
  exact absurd awaits.positive (by rw [← none]; exact Nat.lt_irrefl 0)

/-- The read that `next` plans in the chunks `grown`; nothing else changes. -/
structure Gather.Plans (gather next : Gather) (buffer grown : ChunkVector)
    (consumed count : Nat) : Prop where
  awaits : next.Awaits grown consumed count
  last : consumed + count = min gather.total_size_.toNat grown.bytes.length
  kept : grown.bytes.take consumed = buffer.bytes.take consumed
  chunk_size : grown.chunk_size_ = buffer.chunk_size_
  width : grown.bytes.length < 2 ^ 64
  utf8 : next.utf8_ = gather.utf8_
  phase : next.mask_offset_ = gather.mask_offset_
  total : next.total_size_ = gather.total_size_
  counted : next.total_consumed_ = gather.total_consumed_

/-- An unfinished frame asks for a part of itself that is not empty; the part ends
with the last chunk or with the frame. -/
theorem Gather.Filled.plan_cases (filled : gather.Filled buffer consumed)
    (width : buffer.bytes.length < 2 ^ 64) (new_request : Bool)
    (unfinished : consumed < gather.total_size_.toNat) :
    (∃ next grown count, gather.plan buffer new_request = some (0, next, grown) ∧
        gather.Plans next buffer grown consumed count) ∨
      (gather.plan buffer new_request = none ∧
        2 ^ 64 ≤ consumed + buffer.chunk_size_.toNat) := by
  have distinct : gather.total_size_ ≠ gather.total_consumed_ := by
    intro equal
    rw [equal, filled.counted] at unfinished
    exact Nat.lt_irrefl _ unfinished
  unfold Gather.plan
  rw [if_neg distinct]
  rcases filled.grow_cases width with
    ⟨grown, result, opened, full, same, kept, inside, high, width⟩ | ⟨result, crowded⟩
  · left
    have size := full.size_toNat width
    have place : grown.at_ gather.total_consumed_ = some (grown.position consumed) := by
      rw [full.at_eq gather.total_consumed_ (by rw [filled.counted]; exact inside),
        filled.counted]
    have consume : (if gather.total_size_ > grown.size then grown.size - gather.total_consumed_
        else gather.total_size_ - gather.total_consumed_).toNat =
          min gather.total_size_.toNat grown.bytes.length - consumed := by
      by_cases large : gather.total_size_ > grown.size
      · have bound := UInt64.lt_iff_toNat_lt.mp large
        rw [if_pos large, UInt64.toNat_sub_of_le _ _ (by
          rw [UInt64.le_iff_toNat_le, size, filled.counted]; omega), size, filled.counted]
        omega
      · have bound := mt UInt64.lt_iff_toNat_lt.mpr large
        rw [if_neg large, UInt64.toNat_sub_of_le _ _ (by
          rw [UInt64.le_iff_toNat_le, filled.counted]; omega), filled.counted]
        omega
    simp only [result, Option.bind_eq_bind, Option.bind_some, place]
    refine ⟨_, grown, _, rfl, ⟨opened, full, filled.counted, ?_, ?_, ?_, rfl, consume⟩, ?_,
      kept, same, width, rfl, rfl, rfl, rfl⟩
    · omega
    · omega
    · rw [same]
      exact high
    · omega
  · right
    simp only [result, Option.bind_eq_bind, Option.bind_none]
    exact ⟨trivial, crowded⟩

theorem Gather.Awaits.unmask_eq (awaits : gather.Awaits buffer consumed count)
    {header : Header} {heap : Heap} {key : Mask} (mask : header.mask heap = some key)
    (valid : gather.utf8_.valid = true) (data : List UInt8) (size : data.length = count)
    (fits : consumed + count < 2 ^ 64) :
    let masked := Websocket.applyMask data key gather.mask_offset_ (!header.is_binary)
      gather.utf8_
    let next : Gather :=
      { gather with mask_offset_ := masked.mask_offset, utf8_ := masked.utf8 }
    ∃ stored after, buffer.store (buffer.position consumed) data = some stored ∧
      gather.unmask header heap stored gather.next_consume_ = some (next, after) ∧
      after.chunk_size_ = buffer.chunk_size_ ∧
      after.bytes = overwrite buffer.bytes consumed masked.data ∧
      Gather.Filled { next with total_consumed_ := next.total_consumed_ + gather.next_consume_ }
        after (consumed + count) := by
  intro masked next
  have inside := awaits.inside
  have positive := awaits.positive
  have high := awaits.high
  have within : consumed < buffer.bytes.length := by omega
  have one : consumed % buffer.chunk_size_.toNat + count ≤ buffer.chunk_size_.toNat := by
    have length := awaits.full.length_bytes
    obtain ⟨chunks, many⟩ : ∃ chunks, buffer.chunk_vector_.length = chunks + 1 := by
      apply Nat.exists_eq_succ_of_ne_zero
      intro none
      rw [none, Nat.zero_mul] at length
      omega
    rw [many, Nat.succ_mul] at length
    obtain ⟨offset, rfl⟩ := Nat.exists_eq_add_of_le
      (show chunks * buffer.chunk_size_.toNat ≤ consumed by omega)
    rw [Nat.mul_add_mod_self_right, Nat.mod_eq_of_lt (by omega)]
    omega
  obtain ⟨stored, storing, full, opened, same, -, bytes⟩ :=
    awaits.full.store_eq consumed data within (by rw [size]; exact one)
  have place : stored.position consumed = buffer.position consumed := by
    unfold ChunkVector.position
    rw [same]
  have whole : stored.bytes.length = buffer.bytes.length := by
    rw [bytes, length_overwrite _ _ _ (by omega)]
  have loading : stored.load (buffer.position consumed) gather.next_consume_.toNat =
      some data := by
    rw [← place, awaits.next, full.load_eq consumed count (by omega) (by rw [same]; exact one),
      bytes, ← size, slice_overwrite _ _ _ (by omega)]
  have unmasked : masked.data.length = data.length :=
    (Websocket.applyMask_unmasks data key gather.mask_offset_ (!header.is_binary) gather.utf8_
      valid).size
  obtain ⟨after, restoring, full', opened', same', -, bytes'⟩ :=
    full.store_eq consumed masked.data (by omega) (by rw [same, unmasked, size]; exact one)
  rw [place] at restoring
  have final : after.bytes = overwrite buffer.bytes consumed masked.data := by
    rw [bytes', bytes, overwrite_overwrite _ _ _ _ unmasked.symm (by omega)]
  have length' : after.bytes.length = buffer.bytes.length := by
    rw [bytes', length_overwrite _ _ _ (by omega), whole]
  refine ⟨stored, after, storing, ?_, same'.trans same, final, ?_⟩
  · unfold Gather.unmask
    rw [awaits.position, mask]
    simp only [Option.bind_eq_bind, Option.bind_some, loading]
    rw [restoring, ← awaits.position]
    rfl
  · refine ⟨opened'.trans (opened.trans awaits.opened), full', ?_, ?_, ?_⟩
    · change (gather.total_consumed_ + gather.next_consume_).toNat = _
      rw [UInt64.toNat_add, awaits.counted, awaits.next, Nat.mod_eq_of_lt fits]
    · rw [length']
      exact inside
    · rw [length', same', same]
      omega

end Counting

/-! ### The bytes in the chunks -/

/-- The chunks hold `plain` and at most the rest of one chunk. -/
structure Gather.Holds (gather : Gather) (buffer : ChunkVector) (plain : List UInt8) : Prop where
  chunk_size : buffer.chunk_size_ = CHUNK_VECTOR_DEFAULT_SIZE
  opened : buffer.open_ = true
  full : buffer.Full
  consumed : gather.total_consumed_.toNat = plain.length
  kept : buffer.bytes.take plain.length = plain
  low : plain.length ≤ buffer.bytes.length
  high : buffer.bytes.length < plain.length + 1024
  width : buffer.bytes.length < 2 ^ 64

/-- A read of `count` bytes behind `plain` is outstanding; it ends with the last
chunk or with the message. -/
structure Gather.Planned (gather : Gather) (buffer : ChunkVector) (plain : List UInt8)
    (count : Nat) : Prop where
  chunk_size : buffer.chunk_size_ = CHUNK_VECTOR_DEFAULT_SIZE
  opened : buffer.open_ = true
  full : buffer.Full
  consumed : gather.total_consumed_.toNat = plain.length
  kept : buffer.bytes.take plain.length = plain
  positive : 0 < count
  inside : plain.length + count ≤ buffer.bytes.length
  high : buffer.bytes.length ≤ plain.length + 1024
  last : plain.length + count = min gather.total_size_.toNat buffer.bytes.length
  width : buffer.bytes.length < 2 ^ 64
  position : gather.buffer_position_ = some (buffer.position plain.length)
  next : gather.next_consume_.toNat = count

theorem Gather.holds_new (gather : Gather) (fresh : gather.total_consumed_ = 0) :
    gather.Holds (ChunkVector.new CHUNK_VECTOR_DEFAULT_SIZE) [] where
  chunk_size := rfl
  opened := rfl
  full := ChunkVector.full_new _ (by decide)
  consumed := by rw [fresh]; rfl
  kept := rfl
  low := Nat.le_refl _
  high := by decide
  width := by decide

section Plan

variable {gather : Gather} {buffer : ChunkVector} {plain : List UInt8}

private structure Grown (grown : ChunkVector) (plain : List UInt8) : Prop where
  chunk_size : grown.chunk_size_ = CHUNK_VECTOR_DEFAULT_SIZE
  opened : grown.open_ = true
  full : grown.Full
  kept : grown.bytes.take plain.length = plain
  inside : plain.length < grown.bytes.length
  high : grown.bytes.length ≤ plain.length + 1024
  width : grown.bytes.length < 2 ^ 64

theorem Gather.Holds.filled (holds : gather.Holds buffer plain) :
    gather.Filled buffer plain.length where
  opened := holds.opened
  full := holds.full
  counted := holds.consumed
  low := holds.low
  high := by
    rw [holds.chunk_size]
    exact holds.high

private theorem Gather.Holds.grow (holds : gather.Holds buffer plain) :
    (∃ grown, gather.grow buffer = some grown ∧ Grown grown plain) ∨
      (gather.grow buffer = none ∧ 2 ^ 64 ≤ plain.length + 1024) := by
  have chunk : buffer.chunk_size_.toNat = 1024 := by rw [holds.chunk_size]; rfl
  have growing := holds.filled.grow_cases holds.width
  rw [chunk] at growing
  rcases growing with ⟨grown, result, opened, full, same, kept, inside, high, width⟩ | crowded
  · left
    exact ⟨grown, result, same.trans holds.chunk_size, opened, full, kept.trans holds.kept,
      inside, high, width⟩
  · exact Or.inr crowded

theorem Gather.Holds.plan_next (holds : gather.Holds buffer plain) (new_request : Bool)
    (unfinished : plain.length < gather.total_size_.toNat) :
    (∃ next grown count, gather.plan buffer new_request = some (0, next, grown) ∧
        next.Planned grown plain count ∧ next.utf8_ = gather.utf8_ ∧
        next.mask_offset_ = gather.mask_offset_ ∧ next.total_size_ = gather.total_size_ ∧
        next.total_consumed_ = gather.total_consumed_) ∨
      (gather.plan buffer new_request = none ∧ 2 ^ 64 ≤ plain.length + 1024) := by
  have chunk : buffer.chunk_size_ = CHUNK_VECTOR_DEFAULT_SIZE := holds.chunk_size
  have planning := holds.filled.plan_cases holds.width new_request unfinished
  rw [chunk] at planning
  rcases planning with ⟨next, grown, count, result, plans⟩ | crowded
  · left
    have awaits := plans.awaits
    have high := awaits.high
    have last := plans.last
    rw [plans.chunk_size, chunk] at high
    rw [← plans.total] at last
    exact ⟨next, grown, count, result, ⟨plans.chunk_size.trans chunk, awaits.opened, awaits.full,
      awaits.counted, plans.kept.trans holds.kept, awaits.positive, awaits.inside, high, last,
      plans.width, awaits.position, awaits.next⟩, plans.utf8, plans.phase, plans.total,
      plans.counted⟩
  · exact Or.inr crowded

/-- When the counter of the message has wrapped, no read that is planned fits
its chunk. -/
theorem Gather.Holds.plan_wrapped (holds : gather.Holds buffer plain) (new_request : Bool)
    (wrapped : gather.total_size_.toNat < plain.length) :
    gather.plan buffer new_request = none ∨
      ∃ next grown, gather.plan buffer new_request = some (0, next, grown) ∧
        next.total_size_ = gather.total_size_ ∧ next.total_consumed_ = gather.total_consumed_ ∧
        next.buffer_position_ = some (grown.position plain.length) ∧
        ∀ data, data.length = next.next_consume_.toNat →
          grown.store (grown.position plain.length) data = none := by
  have distinct : gather.total_size_ ≠ gather.total_consumed_ := by
    intro equal
    rw [equal, holds.consumed] at wrapped
    exact Nat.lt_irrefl _ wrapped
  unfold Gather.plan
  rw [if_neg distinct]
  rcases holds.grow with ⟨grown, result, state⟩ | ⟨result, -⟩
  · right
    have size := state.full.size_toNat state.width
    have chunk : grown.chunk_size_.toNat = 1024 := by rw [state.chunk_size]; rfl
    have length := state.full.length_bytes
    rw [chunk] at length
    have width := state.width
    have inside := state.inside
    have place : grown.at_ gather.total_consumed_ = some (grown.position plain.length) := by
      rw [state.full.at_eq gather.total_consumed_ (by rw [holds.consumed]; exact inside),
        holds.consumed]
    have small : ¬gather.total_size_ > grown.size := by
      intro large
      have bound := UInt64.lt_iff_toNat_lt.mp large
      omega
    simp only [result, Option.bind_eq_bind, Option.bind_some, place, if_neg small]
    refine ⟨_, grown, rfl, rfl, rfl, rfl, fun data size => ?_⟩
    obtain ⟨whole, found, fits⟩ := state.full.chunk_exists plain.length inside
    have large : 1024 < data.length := by
      rw [size]
      change 1024 < (gather.total_size_ - gather.total_consumed_).toNat
      rw [UInt64.toNat_sub, holds.consumed]
      omega
    unfold ChunkVector.store ChunkVector.position
    simp only [found]
    rw [if_neg (by omega)]
  · left
    simp only [result, Option.bind_eq_bind, Option.bind_none]

theorem Gather.plan_continue (finished : gather.total_size_ = gather.total_consumed_) :
    gather.plan buffer false = some (0, { gather with next_consume_ := 0 }, buffer) := by
  unfold Gather.plan
  rw [if_pos finished]
  rfl

theorem Gather.plan_incomplete (finished : gather.total_size_ = gather.total_consumed_)
    (incomplete : gather.utf8_.complete = false) :
    gather.plan buffer true = some (1007, gather, buffer) := by
  unfold Gather.plan
  rw [if_pos finished, if_pos rfl, if_pos incomplete]

theorem Gather.Holds.plan_complete (holds : gather.Holds buffer plain)
    (finished : gather.total_size_ = gather.total_consumed_)
    (complete : gather.utf8_.complete = true) :
    ∃ closed, gather.plan buffer true =
        some (0, { gather with next_consume_ := 0 }, closed) ∧ closed.bytes = plain := by
  have chunk : buffer.chunk_size_.toNat = 1024 := by rw [holds.chunk_size]; rfl
  have total : gather.total_size_.toNat = plain.length := by rw [finished, holds.consumed]
  have low := holds.low
  have high := holds.high
  unfold Gather.plan
  rw [if_pos finished, if_pos rfl, if_neg (by rw [complete]; exact Bool.noConfusion)]
  refine ⟨_, rfl, ?_⟩
  rcases Nat.eq_zero_or_pos plain.length with none | some
  · have size := holds.full.length_bytes
    have empty : buffer.chunk_vector_ = [] := by
      apply List.eq_nil_of_length_eq_zero
      rw [chunk] at size
      omega
    unfold ChunkVector.close_last_chunk ChunkVector.bytes
    simp only [empty, List.getLast?_nil, List.flatten_nil]
    exact (List.eq_nil_of_length_eq_zero none).symm
  · rw [holds.full.bytes_close_last_chunk plain.length _ low (by omega) some ?_, holds.kept]
    have bound := gather.total_size_.toNat_lt
    rw [chunk, ChunkVector.chunk_size, holds.chunk_size, UInt64.toNat_add, UInt64.toNat_mod,
      UInt64.toNat_sub, UInt64.toNat_add, total]
    simp only [CHUNK_VECTOR_DEFAULT_SIZE, UInt64.reduceToNat]
    omega

end Plan

section Delivery

variable {gather : Gather} {buffer : ChunkVector} {plain : List UInt8} {count : Nat}
  {header : Header} {heap : Heap} {frame : FrameHeader}

structure Gather.Delivers (gather next : Gather) (after : ChunkVector) (plain : List UInt8)
    (frame : FrameHeader) (phase : Nat) (data : List UInt8) : Prop where
  utf8 : next.utf8_ =
    if frame.first &&& 0x02 == 0x02 then gather.utf8_
    else gather.utf8_.feed (xorMask frame.key phase data)
  total : next.total_size_ = gather.total_size_
  holds : next.utf8_.valid = true →
    Gather.Holds { next with total_consumed_ := next.total_consumed_ + gather.next_consume_ }
      after (plain ++ xorMask frame.key phase data)
  phase : next.utf8_.valid = true →
    frame.key.SamePhase next.mask_offset_.toNat (phase + data.length)

theorem Gather.Planned.awaits (planned : gather.Planned buffer plain count) :
    gather.Awaits buffer plain.length count where
  opened := planned.opened
  full := planned.full
  counted := planned.consumed
  positive := planned.positive
  inside := planned.inside
  high := by
    rw [planned.chunk_size]
    exact planned.high
  position := planned.position
  next := planned.next

theorem Gather.Planned.deliver (planned : gather.Planned buffer plain count)
    (described : header.Describes heap frame) (phase : Nat)
    (aligned : frame.key.SamePhase gather.mask_offset_.toNat phase)
    (valid : gather.utf8_.valid = true) (data : List UInt8) (size : data.length = count) :
    ∃ stored next after,
      buffer.store (buffer.position plain.length) data = some stored ∧
      gather.unmask header heap stored gather.next_consume_ = some (next, after) ∧
      gather.Delivers next after plain frame phase data := by
  have inside := planned.inside
  have width := planned.width
  have unmasks := Websocket.applyMask_unmasks data frame.key gather.mask_offset_
    (!header.is_binary) gather.utf8_ valid
  have reference : xorMask frame.key gather.mask_offset_.toNat data =
      xorMask frame.key phase data := xorMask_congr _ _ _ data aligned
  obtain ⟨stored, after, storing, unmasked, same, bytes, filled⟩ :=
    planned.awaits.unmask_eq described.mask valid data size (by omega)
  refine ⟨stored, _, after, storing, unmasked, ?_, rfl, ?_, ?_⟩
  · change (Websocket.applyMask data frame.key gather.mask_offset_ (!header.is_binary)
      gather.utf8_).utf8 = _
    rw [unmasks.validator, reference, Header.is_binary, described.binary]
    cases frame.first &&& 0x02 == 0x02 <;> rfl
  · intro accepted
    rw [unmasks.plain accepted, reference] at bytes
    have length : after.bytes.length = buffer.bytes.length := by
      rw [bytes, length_overwrite _ _ _ (by rw [length_xorMask]; omega)]
    have grown : (plain ++ xorMask frame.key phase data).length = plain.length + count := by
      rw [List.length_append, length_xorMask, size]
    have taken := take_overwrite_add buffer.bytes plain.length (xorMask frame.key phase data)
      (by omega)
    have high := filled.high
    rw [same, planned.chunk_size] at high
    refine ⟨same.trans planned.chunk_size, filled.opened, filled.full, ?_, ?_, ?_, ?_, ?_⟩
    · rw [grown]
      exact filled.counted
    · rw [bytes, List.length_append, taken, planned.kept]
    · rw [grown]
      exact filled.low
    · rw [grown]
      exact high
    · rw [length]
      exact width
  · intro accepted
    exact (unmasks.offset accepted).trans (aligned.add data.length)

end Delivery

end Averyws
