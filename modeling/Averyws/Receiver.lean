/-
The receiver of whole frames.

What the read chain amounts to when a frame is taken as one step: the state
between two frames and the verdict on the next one.  Reads, chunks, masks and
the phases of the header are gone; that the read chain of a session does exactly
this is `Ready.run_frame` in the module on the read chain.
-/

import Averyws.Frame
import Averyws.HeaderReader
import Averyws.Utilities.Utf8

namespace Averyws

open Library.Bytes Library.Utf8
open Utilities

/-- The type bit of the header, which is clear on every continuation frame. -/
def FrameHeader.is_binary (header : FrameHeader) : Bool :=
  header.first &&& 0x02 == 0x02

def Frame.is_binary (frame : Frame) : Bool :=
  frame.header.is_binary

structure Receiver where
  new_request : Bool
  /-- the type bit of the last data frame -/
  is_binary : Bool
  utf8 : Utf8.Byte
  payload : List UInt8

inductive Verdict
  /-- the receiver goes on, with the message the frame has completed -/
  | next (receiver : Receiver) (message : Option (List UInt8))
  | fail (code : UInt16)
  | close

namespace Receiver

def opening (receiver : Receiver) : List UInt8 × Utf8.Byte :=
  if receiver.new_request then ([], Utf8.Byte.init) else (receiver.payload, receiver.utf8)

def validated (receiver : Receiver) (is_binary : Bool) (plain : List UInt8) : Utf8.Byte :=
  if is_binary then receiver.opening.2 else receiver.opening.2.feed plain

def after (receiver : Receiver) (header : FrameHeader) (plain : List UInt8) : Receiver :=
  { new_request := header.fin
    is_binary := header.is_binary
    utf8 := receiver.validated header.is_binary plain
    payload := receiver.opening.1 ++ plain }

def data (receiver : Receiver) (frame : Frame) : Verdict :=
  let utf8 := receiver.validated frame.is_binary frame.payload
  if utf8.valid = false then .fail 1007
  else if frame.fin = true ∧ utf8.complete = false then .fail 1007
  else
    .next (receiver.after frame.header frame.payload)
      (if frame.fin then some (receiver.opening.1 ++ frame.payload) else none)

def control (receiver : Receiver) (frame : Frame) : Verdict :=
  if frame.opcode = 0x08 then
    if 2 ≤ frame.payload.length ∧ ¬WellFormed (frame.payload.drop 2) then .fail 1007
    else .close
  else .next receiver none

def frame (receiver : Receiver) (frame : Frame) : Verdict :=
  if frame.rsv ≠ 0 ∨ ¬KnownOpcode frame.opcode then .fail 1002
  else if frame.header.second_verdict receiver.new_request ≠ 0 then
    .fail (UInt16.ofNat (frame.header.second_verdict receiver.new_request))
  else if ControlOpcode frame.opcode then receiver.control frame
  else receiver.data frame

def frames (receiver : Receiver) : List Frame → Verdict × List (List UInt8)
  | [] => (.next receiver none, [])
  | frame :: rest =>
      match receiver.frame frame with
      | .next next message =>
          let (verdict, messages) := next.frames rest
          (verdict, message.toList ++ messages)
      | verdict => (verdict, [])

theorem frames_next {receiver next : Receiver} {frame : Frame} {message : Option (List UInt8)}
    (step : receiver.frame frame = .next next message) (rest : List Frame) :
    receiver.frames (frame :: rest) =
      ((next.frames rest).1, message.toList ++ (next.frames rest).2) := by
  rw [frames, step]

theorem frames_fail {receiver : Receiver} {frame : Frame} {code : UInt16}
    (step : receiver.frame frame = .fail code) (rest : List Frame) :
    receiver.frames (frame :: rest) = (.fail code, []) := by
  rw [frames, step]

theorem frames_close {receiver : Receiver} {frame : Frame} (step : receiver.frame frame = .close)
    (rest : List Frame) : receiver.frames (frame :: rest) = (.close, []) := by
  rw [frames, step]

structure Accepts (receiver : Receiver) (frame : Frame) : Prop where
  rsv : frame.rsv = 0
  known : KnownOpcode frame.opcode
  control : ControlOpcode frame.opcode → frame.fin = true ∧ frame.payload.length ≤ 125
  data : ¬ControlOpcode frame.opcode → (frame.opcode = 0 ↔ receiver.new_request = false)

/-- A frame that fails a check of the header, with the code of the check. -/
inductive Refuses (receiver : Receiver) (frame : Frame) : UInt16 → Prop
  | rsv (wrong : frame.rsv ≠ 0) : Refuses receiver frame 1002
  | opcode (reserved : ¬KnownOpcode frame.opcode) : Refuses receiver frame 1002
  | fin (rsv : frame.rsv = 0) (control : ControlOpcode frame.opcode)
      (unfinished : frame.fin = false) : Refuses receiver frame 1007
  | long (control : ControlOpcode frame.opcode) (fin : frame.fin = true)
      (large : frame.payload.length > 125) : Refuses receiver frame 1002
  | order (known : KnownOpcode frame.opcode) (data : ¬ControlOpcode frame.opcode)
      (mixed : ¬(frame.opcode = 0 ↔ receiver.new_request = false)) :
      Refuses receiver frame 1002

theorem accepts_or_refuses (receiver : Receiver) (frame : Frame) :
    (receiver.Accepts frame ∧ receiver.frame frame =
      if ControlOpcode frame.opcode then receiver.control frame else receiver.data frame) ∨
      ∃ code, receiver.Refuses frame code ∧ receiver.frame frame = .fail code := by
  unfold Receiver.frame
  by_cases wrong : frame.rsv ≠ 0 ∨ ¬KnownOpcode frame.opcode
  · right
    rw [if_pos wrong]
    rcases wrong with rsv | reserved
    · exact ⟨1002, .rsv rsv, rfl⟩
    · exact ⟨1002, .opcode reserved, rfl⟩
  · obtain ⟨rsv, known⟩ := not_or.mp wrong
    rw [not_not] at rsv known
    rw [if_neg wrong]
    by_cases control : ControlOpcode frame.header.opcode
    · cases fin : frame.header.fin with
      | false =>
          have verdict : frame.header.second_verdict receiver.new_request = 1007 := by
            unfold FrameHeader.second_verdict
            rw [if_pos control, if_pos fin]
          right
          rw [verdict]
          exact ⟨1007, .fin rsv control fin, rfl⟩
      | true =>
          by_cases long : frame.header.length > 125
          · have verdict : frame.header.second_verdict receiver.new_request = 1002 := by
              unfold FrameHeader.second_verdict
              rw [if_pos control, if_neg (by rw [fin]; exact Bool.noConfusion), if_pos long]
            right
            rw [verdict]
            exact ⟨1002, .long control fin long, rfl⟩
          · have short := Nat.not_lt.mp long
            left
            rw [if_neg (not_not.mpr
              (frame.header.second_verdict_control receiver.new_request control fin short))]
            exact ⟨⟨rsv, known, fun _ => ⟨fin, short⟩, fun data => absurd control data⟩, rfl⟩
    · by_cases order : frame.header.opcode = 0 ↔ receiver.new_request = false
      · left
        rw [if_neg (not_not.mpr
          (frame.header.second_verdict_data receiver.new_request control order))]
        exact ⟨⟨rsv, known, fun wrong => absurd wrong control, fun _ => order⟩, rfl⟩
      · have verdict : frame.header.second_verdict receiver.new_request = 1002 := by
          unfold FrameHeader.second_verdict
          rw [if_neg control]
          have mixed : (receiver.new_request = true ∧ frame.header.opcode = 0) ∨
              (receiver.new_request = false ∧ frame.header.opcode ≠ 0) := by
            cases between : receiver.new_request <;>
              by_cases zero : frame.header.opcode = 0 <;> simp_all
          rcases mixed with start | continuation
          · rw [if_pos start]
          · rw [if_neg (fun start => continuation.2 start.2), if_pos continuation]
        right
        rw [verdict]
        exact ⟨1002, .order known control order, rfl⟩

theorem data_cases (receiver : Receiver) (frame : Frame) :
    let utf8 := receiver.validated frame.is_binary frame.payload
    (receiver.data frame = .fail 1007 ∧
        (utf8.valid = false ∨ frame.fin = true ∧ utf8.complete = false)) ∨
      (utf8.valid = true ∧ (frame.fin = true → utf8.complete = true) ∧
        receiver.data frame = .next (receiver.after frame.header frame.payload)
          (if frame.fin then some (receiver.opening.1 ++ frame.payload) else none)) := by
  intro utf8
  unfold data
  cases valid : utf8.valid with
  | false =>
      left
      exact ⟨if_pos valid, Or.inl rfl⟩
  | true =>
      by_cases incomplete : frame.fin = true ∧ utf8.complete = false
      · left
        refine ⟨?_, Or.inr incomplete⟩
        rw [if_neg (by rw [valid]; exact Bool.noConfusion), if_pos incomplete]
      · right
        refine ⟨rfl, fun fin => ?_, ?_⟩
        · rw [← Bool.not_eq_false]
          exact fun broken => incomplete ⟨fin, broken⟩
        · rw [if_neg (by rw [valid]; exact Bool.noConfusion), if_neg incomplete]

end Receiver

end Averyws
