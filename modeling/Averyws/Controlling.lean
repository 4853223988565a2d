/-
The control processor on the payload of a control frame.
-/

import Averyws.Control
import Averyws.HeaderReader

namespace Averyws

open Library.Bytes Library.Cells Library.Utf8
open Utilities

namespace Control

section Processing

variable {control : Control} {header : Header} {heap : Heap} {frame : FrameHeader}
  {data : List UInt8}

/-- The payload of the frame lies behind the room for the reply header. -/
structure Arrived (control : Control) (frame : FrameHeader) (data : List UInt8) : Prop where
  size : data.length = frame.length
  payload : control.buffer_.read payload_begin frame.length = data

theorem arrived_write (control : Control) (frame : FrameHeader) (data : List UInt8)
    (size : data.length = frame.length) (short : frame.length ≤ 125) :
    Arrived { control with buffer_ := control.buffer_.write payload_begin data } frame data where
  size := size
  payload := by
    change (control.buffer_.write payload_begin data).read payload_begin frame.length = data
    rw [← size]
    exact Block.read_write _ _ _ (by rw [size, payload_begin]; omega)

def reason (frame : FrameHeader) (data : List UInt8) : List UInt8 :=
  xorMask frame.key 2 (data.drop 2)

private theorem read_copied (arrived : Arrived control frame data) (first second : UInt8) :
    (control.buffer_.write 0 [first, second]).read payload_begin frame.length = data := by
  rw [Block.read_write_before _ _ _ _ _ (Nat.le_refl 2), arrived.payload]

theorem read_parts (arrived : Arrived control frame data) (first second : UInt8)
    (two : 2 ≤ frame.length) :
    (control.buffer_.write 0 [first, second]).read 2 2 = data.take 2 ∧
      (control.buffer_.write 0 [first, second]).read 4 (frame.length - 2) = data.drop 2 := by
  have whole := read_copied arrived first second
  have split := Block.read_add (control.buffer_.write 0 [first, second]) 2 2 (frame.length - 2)
  rw [Nat.add_sub_cancel' two] at split
  have parts := split.symm.trans whole
  have count : ((control.buffer_.write 0 [first, second]).read 2 2).length = 2 :=
    Block.length_read _ _ _
  constructor
  · rw [← parts, List.take_append_of_le_length (Nat.le_of_eq count.symm),
      List.take_of_length_le (Nat.le_of_eq count)]
  · rw [← parts, List.drop_append, count, List.drop_of_length_le (Nat.le_of_eq count),
      List.nil_append]
    rfl

theorem byte_copied (control : Control) (first second : UInt8) :
    (control.buffer_.write 0 [first, second]).byte 0 = first :=
  Block.byte_write_inside _ 0 0 [first, second] (Nat.le_refl 0) (by decide) (Nat.zero_lt_succ _)

theorem utf8_unvalidated (buffer : Block 129) (start count : Nat) (mask : Mask)
    (mask_offset : UInt8) :
    (applyMask buffer start count mask mask_offset false Utf8.Byte.init).2.2 = Utf8.Byte.init :=
  (Websocket.applyMask_unmasks (buffer.read start count) mask mask_offset false Utf8.Byte.init
    rfl).validator

/-- Unmasking the status code leaves the reason behind it as it arrived, in the phase
of the third byte. -/
theorem unmask_status (arrived : Arrived control frame data) (two : 2 ≤ frame.length)
    (first second : UInt8) :
    let buffer := control.buffer_.write 0 [first, second]
    let status := applyMask buffer 2 2 frame.key 0 false Utf8.Byte.init
    status.2.2 = Utf8.Byte.init ∧ frame.key.SamePhase status.2.1.toNat 2 ∧
      status.1.read 4 (frame.length - 2) = data.drop 2 := by
  obtain ⟨begins, ends⟩ := read_parts arrived first second two
  intro buffer status
  have head := Websocket.applyMask_unmasks (buffer.read 2 2) frame.key 0 false Utf8.Byte.init rfl
  have moved := head.offset (by rw [head.validator]; rfl)
  rw [Block.length_read] at moved
  refine ⟨utf8_unvalidated buffer 2 2 frame.key 0, moved, ?_⟩
  rw [← ends]
  exact Block.read_write_before _ _ _ _ _ (by rw [head.size, Block.length_read])

/-- The validator after both parts of a close payload is that of the reason. -/
theorem utf8_close (arrived : Arrived control frame data) (two : 2 ≤ frame.length)
    (first second : UInt8) :
    let buffer := control.buffer_.write 0 [first, second]
    let status := applyMask buffer 2 2 frame.key 0 false Utf8.Byte.init
    (applyMask status.1 4 (frame.length - 2) frame.key status.2.1 true status.2.2).2.2 =
      Utf8.Byte.init.feed (reason frame data) := by
  intro buffer status
  obtain ⟨fresh, moved, kept⟩ : status.2.2 = Utf8.Byte.init ∧
      frame.key.SamePhase status.2.1.toNat 2 ∧
      status.1.read 4 (frame.length - 2) = data.drop 2 := unmask_status arrived two first second
  rw [fresh]
  have tail := Websocket.applyMask_unmasks (status.1.read 4 (frame.length - 2)) frame.key
    status.2.1 true Utf8.Byte.init rfl
  rw [kept] at tail
  unfold applyMask
  simp only [kept, tail.validator, if_true]
  rw [xorMask_congr _ _ _ _ moved]
  rfl

theorem process_ping (described : header.Describes heap frame) (opcode : frame.opcode = 0x09) :
    ∃ next, control.process header heap = some (0, next) ∧ next.state_ = .PING := by
  have first : frame.first &&& 0x0F = 0x09 := opcode
  unfold process
  simp only [described.first, described.second, byte_copied, first, described.mask,
    Option.bind_eq_bind, Option.bind_some]
  rw [if_neg (by decide), if_pos trivial, utf8_unvalidated]
  exact ⟨_, rfl, rfl⟩

theorem process_pong (described : header.Describes heap frame) (opcode : frame.opcode = 0x0A) :
    ∃ next, control.process header heap = some (0, next) ∧ next.state_ = .PONG := by
  have first : frame.first &&& 0x0F = 0x0A := opcode
  unfold process
  simp only [described.first, described.second, byte_copied, first]
  exact ⟨_, rfl, rfl⟩

theorem process_close (described : header.Describes heap frame) (opcode : frame.opcode = 0x08)
    (arrived : Arrived control frame data) :
    ∃ next, control.process header heap = some
        (if 2 ≤ frame.length ∧ ¬WellFormed (reason frame data) then 1007 else 0, next) ∧
      (¬(2 ≤ frame.length ∧ ¬WellFormed (reason frame data)) → next.state_ = .KILL) := by
  have first : frame.first &&& 0x0F = 0x08 := opcode
  unfold process
  have length : header.payload_size ≥ 2 ↔ 2 ≤ frame.length := by
    rw [← described.payload]
    exact UInt64.le_iff_toNat_le
  simp only [described.first, described.second, byte_copied, first, described.mask,
    Option.bind_eq_bind, Option.bind_some, length, if_true]
  by_cases two : 2 ≤ frame.length
  · have rest : (header.payload_size - 2).toNat = frame.length - 2 := by
      rw [UInt64.toNat_sub_of_le _ _ (length.mpr two)]
      exact congrArg (· - 2) described.payload
    have validator := utf8_close arrived two frame.first frame.second
    have complete := Utf8.Byte.feed_init_complete_iff (reason frame data)
    simp only [two, rest, if_true, true_and]
    simp only at validator
    rw [validator]
    cases whole : (Utf8.Byte.init.feed (reason frame data)).complete with
    | true =>
        rw [whole] at complete
        rw [if_neg (not_not.mpr (complete.mp rfl))]
        exact ⟨_, rfl, fun _ => rfl⟩
    | false =>
        rw [whole] at complete
        have broken : ¬WellFormed (reason frame data) := fun formed =>
          Bool.noConfusion (complete.mpr formed)
        rw [if_pos broken]
        exact ⟨_, rfl, fun formed => absurd broken formed⟩
  · simp only [two, if_false, false_and]
    exact ⟨_, rfl, fun _ => rfl⟩

end Processing

end Control

end Averyws
