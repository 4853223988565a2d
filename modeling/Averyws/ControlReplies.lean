/-
The replies to a ping and to a close frame.

Both reuse the buffer of the frame they answer.  The pong keeps the length byte
of the ping, so only the seven-bit form of a length survives the reply; the close
reply has its status code patched, also when there is no room for one.
-/

import Averyws.Replies

namespace Averyws

open Library.Bytes Library.Cells Library.Utf8
open Utilities

namespace Control

private theorem byte_single {size : Nat} (block : Block size) (index : Nat) (value : UInt8)
    (within : index < size) : (block.write index [value]).byte index = value := by
  rw [Block.byte_write_inside block index index [value] (Nat.le_refl _) within
    (by rw [Nat.sub_self]; exact Nat.one_pos)]
  simp only [Nat.sub_self, List.getElem_cons_zero]

private theorem read_single {size : Nat} (block : Block size) (index start count : Nat)
    (value : UInt8) (before : index < start) :
    (block.write index [value]).read start count = block.read start count :=
  Block.read_write_before block start count index [value] before

private theorem byte_beyond {size : Nat} (block : Block size) (index other : Nat)
    (value : UInt8) (beyond : index < other) :
    (block.write index [value]).byte other = block.byte other :=
  Block.byte_write_after block index other [value] beyond

private theorem read_two {size : Nat} (block : Block size) :
    block.read 0 2 = [block.byte 0, block.byte 1] := rfl

private theorem read_reply (buffer : Block 129) (count : Nat) :
    buffer.read 0 (count + 2) = [buffer.byte 0, buffer.byte 1] ++ buffer.read 2 count := by
  rw [Nat.add_comm, Block.read_add, read_two]

section Processing

variable {control : Control} {header : Header} {heap : Heap} {frame : FrameHeader}
  {data : List UInt8}

private theorem reply_size (described : header.Describes heap frame)
    (short : frame.length ≤ 125) : (header.payload_size + 2).toUInt8.toNat = frame.length + 2 := by
  have size : header.payload_size.toNat = frame.length := described.payload
  rw [UInt64.toNat_toUInt8, UInt64.toNat_add, size]
  simp only [UInt64.reduceToNat]
  omega

/-- Unmasking a region leaves the plain bytes there, unless the validator has
rejected one. -/
private theorem applyMask_plain (buffer : Block 129) (start count : Nat) (mask : Mask)
    (mask_offset : UInt8) (is_utf8 : Bool) (inside : start + count ≤ 129)
    (accepted : (applyMask buffer start count mask mask_offset is_utf8 Utf8.Byte.init).2.2.valid =
      true) :
    (applyMask buffer start count mask mask_offset is_utf8 Utf8.Byte.init).1.read start count =
      xorMask mask mask_offset.toNat (buffer.read start count) := by
  have unmasks := Websocket.applyMask_unmasks (buffer.read start count) mask mask_offset is_utf8
    Utf8.Byte.init rfl
  have plain := unmasks.plain accepted
  have size := unmasks.size
  rw [Block.length_read] at size
  have back := Block.read_write buffer start (Websocket.applyMask (buffer.read start count) mask
    mask_offset is_utf8 Utf8.Byte.init).data (by rw [size]; exact inside)
  rw [size, plain] at back
  unfold applyMask
  dsimp only
  rw [plain]
  exact back

private theorem applyMask_before (buffer : Block 129) (start count index : Nat) (mask : Mask)
    (mask_offset : UInt8) (is_utf8 : Bool) (utf8 : Utf8.Byte) (before : index < start) :
    (applyMask buffer start count mask mask_offset is_utf8 utf8).1.byte index = buffer.byte index :=
  Block.byte_write_before buffer start index _ before

private theorem bytes_copied (control : Control) (first second : UInt8) :
    (control.buffer_.write 0 [first, second]).byte 1 = second :=
  Block.byte_write_inside _ 0 1 [first, second] (Nat.zero_le 1) (by decide) (Nat.lt_succ_self _)

private theorem payload_copied (arrived : Arrived control frame data) (first second : UInt8) :
    (control.buffer_.write 0 [first, second]).read 2 frame.length = data := by
  rw [Block.read_write_before _ _ _ _ _ (Nat.le_refl 2)]
  exact arrived.payload

theorem process_ping_reply (described : header.Describes heap frame)
    (opcode : frame.opcode = 0x09) (arrived : Arrived control frame data)
    (short : frame.length ≤ 125) :
    ∃ next, control.process header heap = some (0, next) ∧ next.state_ = .PING ∧
      next.reply = [(frame.first &&& 0xF0) ||| 0x0A, frame.second &&& 0x7F] ++
        xorMask frame.key 0 data := by
  have first : frame.first &&& 0x0F = 0x09 := opcode
  have size := reply_size described short
  have count : header.payload_size.toNat = frame.length := described.payload
  have copied := byte_copied control frame.first frame.second
  have length := bytes_copied control frame.first frame.second
  have payload := payload_copied arrived frame.first frame.second
  unfold process
  simp only [described.first, described.second, copied, first, described.mask,
    Option.bind_eq_bind, Option.bind_some]
  rw [if_neg (by decide), if_pos trivial, utf8_unvalidated]
  refine ⟨_, rfl, rfl, ?_⟩
  unfold reply
  dsimp only
  rw [size, count, read_reply]
  generalize control.buffer_.write 0 [frame.first, frame.second] = buffer at copied length payload
  have plain := applyMask_plain buffer 2 frame.length frame.key 0 false (by omega)
    (by rw [utf8_unvalidated]; rfl)
  have kept (index : Nat) (before : index < 2) :=
    applyMask_before buffer 2 frame.length index frame.key 0 false Utf8.Byte.init before
  generalize (applyMask buffer 2 frame.length frame.key 0 false Utf8.Byte.init).1 = masked
    at plain kept
  rw [payload] at plain
  have zeroth : masked.byte 0 = frame.first := (kept 0 (by decide)).trans copied
  have second : masked.byte 1 = frame.second := (kept 1 (by decide)).trans length
  rw [read_single _ 1 2 _ _ (by decide), read_single _ 0 2 _ _ (by decide), plain,
    Block.byte_write_before _ 1 0 _ (by decide), byte_single _ 0 _ (by decide),
    byte_single _ 1 _ (by decide), byte_beyond _ 0 1 _ (by decide), zeroth, second]
  rfl

end Processing

/-- The control frame whose header has been read, with its payload behind it. -/
def answering (control : Control) (payload : List UInt8) : Control :=
  { control.new_buffer with
    buffer_ := control.new_buffer.buffer_.write payload_begin payload }

end Control

section Accepted

variable {reader : Header} {heap : Heap} {new_request : Bool} {frame : Frame}

private theorem wire_eq (frame : Frame) :
    frame.wire = frame.header.wire ++ xorMask frame.header.key 0 frame.payload := rfl

theorem Frame.accepted_control
    (accepted : (reader.read_stream heap new_request frame.wire).codes = [0, 0])
    (control : ControlOpcode frame.opcode) :
    frame.rsv = reader.rsvc_ ∧ frame.fin = true ∧ frame.payload.length ≤ 125 := by
  have acceptable := (reader.read_stream_accepts heap new_request frame.wire).1.mp accepted
  rw [wire_eq, acceptable_wire_iff] at acceptable
  obtain ⟨rsv, -, verdict⟩ := acceptable
  obtain ⟨fin, short⟩ := frame.header.control_of_verdict new_request control verdict
  exact ⟨rsv, fin, short⟩

theorem Frame.accepted_describes
    (accepted : (reader.read_stream heap new_request frame.wire).codes = [0, 0]) :
    (reader.read_stream heap new_request frame.wire).header.Describes
        (reader.read_stream heap new_request frame.wire).heap frame.header ∧
      (reader.read_stream heap new_request frame.wire).rest =
        xorMask frame.header.key 0 frame.payload := by
  rw [wire_eq] at accepted ⊢
  exact reader.read_stream_describes heap new_request frame.header _ accepted

end Accepted

/-! ### The pong -/

private theorem pong_bits : ∀ first : UInt8,
    ((first &&& 0xF0) ||| 0x0A) &&& 0x70 = first &&& 0x70 ∧
      ((first &&& 0xF0) ||| 0x0A) &&& 0x0F = 0x0A ∧
      ((((first &&& 0xF0) ||| 0x0A) &&& 0x80 != 0) = (first &&& 0x80 != 0)) := by
  decide +kernel

private theorem length_bits : ∀ second : UInt8,
    (second &&& 0x7F) &&& 0x7F = second &&& 0x7F ∧ (second &&& 0x7F) &&& 0x80 = 0 := by
  decide +kernel

def Decoded.pong (payload : List UInt8) : Decoded :=
  { fin := true, opcode := 0x0A, masked := false, payload := payload, rest := [] }

private theorem decode_pong (frame : Frame) (fin : frame.fin = true) (new_request : Bool)
    (short : frame.payload.length ≤ 125) (form : frame.form = .seven) :
    decode frame.rsv new_request ([(frame.first &&& 0xF0) ||| 0x0A, frame.header.second &&& 0x7F]
      ++ frame.payload) = some (Decoded.pong frame.payload) := by
  obtain ⟨rsv, opcode, last⟩ := pong_bits frame.first
  let pong := Frame.short ((frame.first &&& 0xF0) ||| 0x0A) none frame.payload short
  have second : frame.header.second &&& 0x7F = pong.header.second := by
    rw [frame.header.second_code]
    change frame.form.code frame.payload.length = 0x00 ||| UInt8.ofNat frame.payload.length
    rw [form, UInt8.zero_or]
    rfl
  have wire : [(frame.first &&& 0xF0) ||| 0x0A, frame.header.second &&& 0x7F] ++ frame.payload =
      pong.wire ++ [] := by
    have plain : xorMask pong.header.key 0 frame.payload = frame.payload := by
      apply xorMask_zero
      intro index
      exact Vector.getElem_replicate _
    rw [second, List.append_nil]
    change _ = [(frame.first &&& 0xF0) ||| 0x0A, pong.header.second] ++
      xorMask pong.header.key 0 frame.payload
    rw [plain]
  have kind : pong.opcode = 0x0A := opcode
  have control : ControlOpcode pong.opcode := Or.inr (Or.inr kind)
  have known : KnownOpcode pong.opcode := by
    rw [kind]
    decide
  have ends : pong.fin = true := last.trans fin
  rw [wire, decode_wire frame.rsv new_request pong [] rsv known
    (pong.header.second_verdict_control new_request control ends short), kind, ends]
  rfl

private theorem decode_pong_ne (frame : Frame) (rsvc : UInt8) (new_request : Bool)
    (form : frame.form ≠ .seven) :
    decode rsvc new_request ([(frame.first &&& 0xF0) ||| 0x0A, frame.header.second &&& 0x7F]
      ++ frame.payload) ≠ some (Decoded.pong frame.payload) := by
  intro decoded
  have total := decode_length decoded
  have size : 4 ≤ HeaderBytes.size ([(frame.first &&& 0xF0) ||| 0x0A,
      frame.header.second &&& 0x7F] ++ frame.payload) := by
    have extension : 2 ≤ HeaderBytes.extension ([(frame.first &&& 0xF0) ||| 0x0A,
        frame.header.second &&& 0x7F] ++ frame.payload) := by
      unfold HeaderBytes.extension
      change 2 ≤ if (frame.header.second &&& 0x7F) &&& 0x7F = 126 then 2
        else if (frame.header.second &&& 0x7F) &&& 0x7F = 127 then 8 else 0
      rw [(length_bits frame.header.second).1, frame.header.second_code]
      change 2 ≤ if frame.form.code frame.payload.length = 126 then 2
        else if frame.form.code frame.payload.length = 127 then 8 else 0
      cases kind : frame.form with
      | seven => exact absurd kind form
      | sixteen => exact Nat.le_refl 2
      | sixtyFour => exact (by decide : 2 ≤ 8)
    unfold HeaderBytes.size
    omega
  simp only [Decoded.pong, List.length_append, List.length_cons, List.length_nil] at total
  omega

/-- A ping is answered with a pong of the same payload exactly when its length
came in the seven-bit form. -/
theorem pong_decodes_iff (reader : Header) (heap : Heap) (new_request : Bool) (control : Control)
    (frame : Frame) (ping : frame.opcode = 0x09)
    (accepted : (reader.read_stream heap new_request frame.wire).codes = [0, 0]) (later : Bool) :
    let read := reader.read_stream heap new_request frame.wire
    ∃ next, (control.answering read.rest).process read.header read.heap = some (0, next) ∧
      next.state_ = .PING ∧
      (decode reader.rsvc_ later next.reply = some (Decoded.pong frame.payload) ↔
        frame.form = .seven) := by
  intro read
  obtain ⟨rsv, fin, short⟩ := Frame.accepted_control accepted (Or.inr (Or.inl ping))
  obtain ⟨described, rest⟩ := Frame.accepted_describes accepted
  have size : (xorMask frame.header.key 0 frame.payload).length = frame.header.length :=
    length_xorMask _ _ _
  have arrived := Control.arrived_write control.new_buffer frame.header _ size short
  obtain ⟨next, result, state, reply⟩ :=
    Control.process_ping_reply described ping arrived short
  rw [xorMask_xorMask] at reply
  have answered : control.answering read.rest =
      control.answering (xorMask frame.header.key 0 frame.payload) := congrArg _ rest
  refine ⟨next, ?_, state, ?_⟩
  · rw [answered]
    exact result
  · rw [reply, ← rsv]
    constructor
    · intro decoded
      by_contra long
      exact decode_pong_ne frame _ _ long decoded
    · exact decode_pong frame fin later short

def longPing : Frame :=
  { first := 0x89, form := .sixteen, mask := some #v[1, 2, 3, 4], payload := [0x78]
    fits := by decide }

def shortPing : Frame :=
  Frame.short 0x89 (some #v[1, 2, 3, 4]) [0x78, 0x79] (by decide)

theorem pong_decodes_short :
    ∃ next,
      (Control.init.answering
          (Header.init.read_stream Store.empty true shortPing.wire).rest).process
        (Header.init.read_stream Store.empty true shortPing.wire).header
        (Header.init.read_stream Store.empty true shortPing.wire).heap = some (0, next) ∧
      next.state_ = .PING ∧ decode 0 true next.reply = some (Decoded.pong [0x78, 0x79]) := by
  obtain ⟨next, result, state, decodes⟩ := pong_decodes_iff Header.init Store.empty true
    Control.init shortPing (by decide) (by decide +kernel) true
  exact ⟨next, result, state, decodes.mpr rfl⟩

/-- The reply to the long ping announces two length bytes and breaks off. -/
theorem pong_undecodable :
    ¬∀ (reader : Header) (heap : Heap) (new_request : Bool) (control : Control) (frame : Frame),
      frame.opcode = 0x09 → (reader.read_stream heap new_request frame.wire).codes = [0, 0] →
      ∃ next, (control.answering (reader.read_stream heap new_request frame.wire).rest).process
          (reader.read_stream heap new_request frame.wire).header
          (reader.read_stream heap new_request frame.wire).heap = some (0, next) ∧
        next.state_ = .PING ∧
        decode reader.rsvc_ new_request next.reply = some (Decoded.pong frame.payload) := by
  intro answers
  obtain ⟨next, result, -, decoded⟩ := answers Header.init Store.empty true Control.init longPing
    (by decide) (by decide +kernel)
  have reply :
      ((Control.init.answering
          (Header.init.read_stream Store.empty true longPing.wire).rest).process
        (Header.init.read_stream Store.empty true longPing.wire).header
        (Header.init.read_stream Store.empty true longPing.wire).heap).map
          (fun done => done.2.reply) = some [0x8A, 0x7E, 0x78] := by
    decide +kernel
  rw [result] at reply
  have bytes : next.reply = [0x8A, 0x7E, 0x78] := Option.some.inj reply
  rw [bytes] at decoded
  have broken : decode Header.init.rsvc_ true [0x8A, 0x7E, 0x78] = none := by decide +kernel
  rw [broken] at decoded
  cases decoded

/-! ### The close reply -/

def Sendable (code : Nat) : Prop :=
  (1000 ≤ code ∧ code ≤ 1003) ∨ (1007 ≤ code ∧ code ≤ 1011) ∨ (3000 ≤ code ∧ code ≤ 4999)

/-- A payload for the answer to a close frame with the given payload: nothing,
or a status code with the reason received. -/
def Answers (received payload : List UInt8) : Prop :=
  payload = [] ∨
    ∃ high low : UInt8, payload = high :: low :: received.drop 2 ∧
      Sendable (2 ^ 8 * high.toNat + low.toNat) ∧ WellFormed (received.drop 2)

namespace Control

private theorem sendable_of_known (code : UInt16) (known : known_code code = true) :
    Sendable code.toNat := by
  simp [known_code, UInt16.lt_iff_toNat_lt, ← UInt16.toNat_inj] at known
  unfold Sendable
  omega

private theorem join_status (high low : UInt8) :
    ((high.toUInt16 <<< 8) ||| (low.toUInt16 <<< 0)).toNat = 2 ^ 8 * high.toNat + low.toNat := by
  have upper : (high.toUInt16 <<< 8).toNat = 2 ^ 8 * high.toNat := by
    have bound := high.toNat_lt
    rw [UInt16.toNat_shiftLeft, UInt8.toNat_toUInt16, Nat.shiftLeft_eq]
    simp only [UInt16.reduceToNat, Nat.reduceMod, Nat.reducePow]
    omega
  have lower : (low.toUInt16 <<< 0).toNat = low.toNat := by
    have bound := low.toNat_lt
    rw [UInt16.toNat_shiftLeft, UInt8.toNat_toUInt16, Nat.shiftLeft_eq]
    simp only [UInt16.reduceToNat, Nat.reduceMod, Nat.reducePow]
    omega
  rw [UInt16.toNat_or, upper, lower, ← Nat.two_pow_add_eq_or_of_lt low.toNat_lt]

private theorem kill_payload (control : Control) (buffer : Block 129) (count : Nat)
    (size : control.size_.toNat = count + 2) :
    ((control.kill buffer).reply.drop 2).length = count ∧
      ∀ rest, count = rest + 2 → ∃ high low : UInt8,
        (control.kill buffer).reply.drop 2 = high :: low :: buffer.read 4 rest ∧
          Sendable (2 ^ 8 * high.toNat + low.toNat) := by
  unfold kill reply
  dsimp only
  rw [size, byte_beyond buffer 1 2 _ (by decide), byte_beyond buffer 1 3 _ (by decide),
    read_reply]
  refine ⟨Block.length_read _ _ _, fun rest whole => ?_⟩
  rw [whole, Nat.add_comm rest 2, Block.read_add]
  by_cases known :
      known_code (((buffer.byte 2).toUInt16 <<< 8) ||| ((buffer.byte 3).toUInt16 <<< 0)) = true
  · rw [if_pos known]
    have sendable := sendable_of_known _ known
    rw [join_status] at sendable
    refine ⟨buffer.byte 2, buffer.byte 3, ?_, sendable⟩
    rw [read_single buffer 1 4 rest _ (by decide), ← byte_beyond buffer 1 2 _ (by decide),
      ← byte_beyond buffer 1 3 _ (by decide)]
    rfl
  · rw [if_neg known]
    refine ⟨0x03, 0xEA, ?_, by unfold Sendable; decide⟩
    have kept : ((buffer.write 1 [buffer.byte 1 &&& 0x7F]).write 2 [0x03, 0xEA]).read (2 + 2) rest =
        buffer.read 4 rest := by
      rw [Block.read_write_before _ 4 rest 2 [0x03, 0xEA] (Nat.le_refl 4),
        read_single buffer 1 4 rest _ (by decide)]
    have code : ((buffer.write 1 [buffer.byte 1 &&& 0x7F]).write 2 [0x03, 0xEA]).read 2 2 =
        [0x03, 0xEA] := Block.read_write _ 2 [0x03, 0xEA] (by decide)
    rw [kept, code]
    rfl

section Closing

variable {control : Control} {header : Header} {heap : Heap} {frame : FrameHeader}
  {data : List UInt8}

private theorem buffer_close (arrived : Arrived control frame data) (two : 2 ≤ frame.length)
    (small : frame.length ≤ 125) (first second : UInt8)
    (formed : WellFormed (reason frame data)) :
    let buffer := control.buffer_.write 0 [first, second]
    let status := applyMask buffer 2 2 frame.key 0 false Utf8.Byte.init
    (applyMask status.1 4 (frame.length - 2) frame.key status.2.1 true status.2.2).1.read 4
      (frame.length - 2) = reason frame data := by
  have validator := utf8_close arrived two first second
  intro buffer status
  obtain ⟨fresh, moved, kept⟩ : status.2.2 = Utf8.Byte.init ∧
      frame.key.SamePhase status.2.1.toNat 2 ∧
      status.1.read 4 (frame.length - 2) = data.drop 2 := unmask_status arrived two first second
  have complete := (Utf8.Byte.feed_init_complete_iff _).mpr formed
  have accepted : (applyMask status.1 4 (frame.length - 2) frame.key status.2.1 true
      Utf8.Byte.init).2.2.valid = true := by
    rw [← fresh, validator]
    exact Utf8.Byte.valid_of_complete _ complete
  rw [fresh, applyMask_plain status.1 4 (frame.length - 2) frame.key status.2.1 true (by omega)
    accepted, kept]
  exact xorMask_congr _ _ _ _ moved

theorem process_close_reply (described : header.Describes heap frame)
    (opcode : frame.opcode = 0x08) (arrived : Arrived control frame data)
    (short : frame.length ≤ 125) (formed : 2 ≤ frame.length → WellFormed (reason frame data)) :
    ∃ next, control.process header heap = some (0, next) ∧ next.state_ = .KILL ∧
      (next.reply.drop 2).length = frame.length ∧
      (2 ≤ frame.length → ∃ high low : UInt8,
        next.reply.drop 2 = high :: low :: reason frame data ∧
          Sendable (2 ^ 8 * high.toNat + low.toNat)) := by
  have first : frame.first &&& 0x0F = 0x08 := opcode
  have size := reply_size described short
  have length : header.payload_size ≥ 2 ↔ 2 ≤ frame.length := by
    rw [← described.payload]
    exact UInt64.le_iff_toNat_le
  unfold process
  simp only [described.first, described.second, byte_copied, first, described.mask,
    Option.bind_eq_bind, Option.bind_some, length, if_true]
  by_cases two : 2 ≤ frame.length
  · have rest : (header.payload_size - 2).toNat = frame.length - 2 := by
      rw [UInt64.toNat_sub_of_le _ _ (length.mpr two)]
      exact congrArg (· - 2) described.payload
    have validator := utf8_close arrived two frame.first frame.second
    have plain := buffer_close arrived two short frame.first frame.second (formed two)
    have complete := (Utf8.Byte.feed_init_complete_iff (reason frame data)).mpr (formed two)
    simp only [two, rest, if_true]
    simp only at validator plain
    rw [validator, complete, if_neg Bool.noConfusion]
    refine ⟨_, rfl, rfl, ?_⟩
    obtain ⟨whole, patched⟩ := kill_payload
      { control with size_ := (header.payload_size + 2).toUInt8 } _ frame.length size
    refine ⟨whole, fun _ => ?_⟩
    obtain ⟨high, low, payload, sendable⟩ := patched (frame.length - 2) (by omega)
    refine ⟨high, low, ?_, sendable⟩
    rw [← plain]
    exact payload
  · simp only [two, if_false]
    refine ⟨_, rfl, rfl, ?_⟩
    exact ⟨(kill_payload { control with size_ := (header.payload_size + 2).toUInt8 } _ frame.length
      size).1, False.elim⟩

end Closing

end Control

private theorem formed_of_short {payload : List UInt8} (short : payload.length < 2) :
    WellFormed (payload.drop 2) := by
  rw [List.drop_of_length_le (Nat.le_of_lt short)]
  exact ⟨[], rfl⟩

private theorem answers_iff {received payload : List UInt8}
    (formed : WellFormed (received.drop 2)) (size : payload.length = received.length)
    (code : 2 ≤ received.length → ∃ high low : UInt8,
      payload = high :: low :: received.drop 2 ∧ Sendable (2 ^ 8 * high.toNat + low.toNat)) :
    Answers received payload ↔ received.length ≠ 1 := by
  constructor
  · rintro (rfl | ⟨high, low, rfl, -⟩) one
    · rw [one] at size
      cases size
    · rw [one, List.length_cons, List.length_cons] at size
      omega
  · intro other
    by_cases two : 2 ≤ received.length
    · obtain ⟨high, low, same, sendable⟩ := code two
      exact Or.inr ⟨high, low, same, sendable, formed⟩
    · have empty : payload.length = 0 := by omega
      exact Or.inl (List.eq_nil_of_length_eq_zero empty)

/-- A close frame is refused for its reason alone, and unless its payload is one
byte long the answer carries nothing or a status code with the reason. -/
theorem close_answers_iff (reader : Header) (heap : Heap) (new_request : Bool) (control : Control)
    (frame : Frame) (close : frame.opcode = 0x08)
    (accepted : (reader.read_stream heap new_request frame.wire).codes = [0, 0]) :
    let read := reader.read_stream heap new_request frame.wire
    ∃ rcode next, (control.answering read.rest).process read.header read.heap =
        some (rcode, next) ∧
      (((rcode = 1007 ↔ ¬WellFormed (frame.payload.drop 2)) ∧
          (rcode ≠ 1007 → rcode = 0 ∧ Answers frame.payload (next.reply.drop 2))) ↔
        frame.payload.length ≠ 1) := by
  intro read
  obtain ⟨-, -, short⟩ := Frame.accepted_control accepted (Or.inl close)
  obtain ⟨described, rest⟩ := Frame.accepted_describes accepted
  have size : (xorMask frame.header.key 0 frame.payload).length = frame.header.length :=
    length_xorMask _ _ _
  have arrived := Control.arrived_write control.new_buffer frame.header _ size short
  have answered : control.answering read.rest =
      control.answering (xorMask frame.header.key 0 frame.payload) := congrArg _ rest
  rw [answered]
  by_cases formed : WellFormed (frame.payload.drop 2)
  · obtain ⟨next, result, -, whole, code⟩ := Control.process_close_reply described close arrived
      short (fun two => by rw [Control.reason_wire frame two]; exact formed)
    have patched (two : 2 ≤ frame.payload.length) : ∃ high low : UInt8,
        next.reply.drop 2 = high :: low :: frame.payload.drop 2 ∧
          Sendable (2 ^ 8 * high.toNat + low.toNat) := by
      have reply := code two
      rw [Control.reason_wire frame two] at reply
      exact reply
    refine ⟨0, next, result, ?_⟩
    rw [← answers_iff formed whole patched]
    constructor
    · intro good
      exact (good.2 (by decide)).2
    · intro answers
      exact ⟨⟨fun wrong => absurd wrong (by decide), fun broken => absurd formed broken⟩,
        fun _ => ⟨rfl, answers⟩⟩
  · have two : 2 ≤ frame.payload.length := by
      by_contra few
      exact formed (formed_of_short (Nat.lt_of_not_le few))
    obtain ⟨next, result, -⟩ := Control.process_close described close arrived
    rw [Control.reason_wire frame two, if_pos ⟨two, formed⟩] at result
    refine ⟨1007, next, result, ?_⟩
    constructor
    · intro _ one
      omega
    · intro _
      exact ⟨⟨fun _ => formed, fun _ => rfl⟩, fun wrong => absurd rfl wrong⟩

def closeWithReason : Frame :=
  Frame.short 0x88 (some #v[1, 2, 3, 4]) [0x03, 0xE8, 0x6F, 0x6B] (by decide)

def closeOfOneByte : Frame :=
  Frame.short 0x88 (some #v[1, 2, 3, 4]) [0x03] (by decide)

theorem close_answers_reason :
    ∃ rcode next,
      (Control.init.answering
          (Header.init.read_stream Store.empty true closeWithReason.wire).rest).process
        (Header.init.read_stream Store.empty true closeWithReason.wire).header
        (Header.init.read_stream Store.empty true closeWithReason.wire).heap = some (rcode, next) ∧
      (rcode = 1007 ↔ ¬WellFormed [0x6F, 0x6B]) ∧
      (rcode ≠ 1007 →
        rcode = 0 ∧ Answers [0x03, 0xE8, 0x6F, 0x6B] (next.reply.drop 2)) := by
  obtain ⟨rcode, next, result, answers⟩ := close_answers_iff Header.init Store.empty true
    Control.init closeWithReason (by decide) (by decide +kernel)
  exact ⟨rcode, next, result, answers.mpr (by decide)⟩

/-- A close frame with one byte is answered with one byte, which is no status code. -/
theorem close_answers_one_byte :
    ¬∀ (reader : Header) (heap : Heap) (new_request : Bool) (control : Control) (frame : Frame),
      frame.opcode = 0x08 → (reader.read_stream heap new_request frame.wire).codes = [0, 0] →
      ∃ rcode next,
        (control.answering (reader.read_stream heap new_request frame.wire).rest).process
          (reader.read_stream heap new_request frame.wire).header
          (reader.read_stream heap new_request frame.wire).heap = some (rcode, next) ∧
        (rcode = 1007 ↔ ¬WellFormed (frame.payload.drop 2)) ∧
        (rcode ≠ 1007 → rcode = 0 ∧ Answers frame.payload (next.reply.drop 2)) := by
  intro answers
  obtain ⟨rcode, next, result, -, good⟩ := answers Header.init Store.empty true Control.init
    closeOfOneByte (by decide) (by decide +kernel)
  have reply :
      ((Control.init.answering
          (Header.init.read_stream Store.empty true closeOfOneByte.wire).rest).process
        (Header.init.read_stream Store.empty true closeOfOneByte.wire).header
        (Header.init.read_stream Store.empty true closeOfOneByte.wire).heap).map
          (fun done => (done.1, done.2.reply)) = some (0, [0x88, 0x01, 0x03]) := by
    decide +kernel
  rw [result] at reply
  have same : rcode = 0 ∧ next.reply = [0x88, 0x01, 0x03] := Prod.mk.inj (Option.some.inj reply)
  have wrong := (good (by rw [same.1]; decide)).2
  rw [same.2] at wrong
  rcases wrong with empty | ⟨high, low, whole, -⟩
  · cases empty
  · cases whole

end Averyws
