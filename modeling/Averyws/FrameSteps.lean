/-
The reads of a session against the frames they belong to.

`At` is where a session stands when it has read some bytes of a frame.  Whatever
the outstanding read delivers, the session goes on inside the frame, is done with
it as the receiver of whole frames is, or ends the chain: then that receiver fails
or closes on every frame with these bytes at the front.
-/

import Averyws.ControlReplies
import Averyws.FrameCode
import Averyws.Stages

namespace Averyws

open Library.Bytes Library.Cells Library.Run Library.Utf8
open Utilities

/-! ### What the receiver answers -/

/-- The reply to a ping: its header bytes with another opcode and no mask bit. -/
def Frame.pong (frame : Frame) : List UInt8 :=
  [(frame.first &&& 0xF0) ||| 0x0A, frame.header.second &&& 0x7F] ++ frame.payload

inductive Answer
  | pong (ping : Frame)
  | cancel (code : UInt16)
  | close (received : Frame)

def Answer.Carries (op : WriteOp) : Answer → Prop
  | .pong ping => op = { handler := .ping, bytes := ping.pong }
  | .cancel code => op = { handler := .cancel code, bytes := [0x88, 0x00] ++ status code }
  | .close received =>
      op.handler = .kill ∧ (op.bytes.drop 2).length = received.payload.length ∧
        (2 ≤ received.payload.length → ∃ high low : UInt8,
          op.bytes.drop 2 = high :: low :: received.payload.drop 2 ∧
            Sendable (2 ^ 8 * high.toNat + low.toNat))

namespace Receiver

def answer (receiver : Receiver) (frame : Frame) : Option Answer :=
  match receiver.frame frame with
  | .next _ _ => if frame.opcode = 0x09 then some (.pong frame) else none
  | .fail code => some (.cancel code)
  | .close => some (.close frame)

/-- The answers to a sequence of frames, up to the one the receiver ends with. -/
def answers (receiver : Receiver) : List Frame → List Answer
  | [] => []
  | frame :: rest =>
      (receiver.answer frame).toList ++
        match receiver.frame frame with
        | .next next _ => next.answers rest
        | _ => []

def EndsWith (receiver : Receiver) (frame : Frame) : Answer → Prop
  | .pong _ => False
  | .cancel code => receiver.frame frame = .fail code
  | .close received => receiver.frame frame = .close ∧ received = frame

structure Passes (receiver : Receiver) (header : FrameHeader) : Prop where
  rsv : header.rsv = 0
  known : KnownOpcode header.opcode
  favourable : header.second_verdict receiver.new_request = 0

variable {receiver : Receiver} {frame : Frame}

theorem Passes.frame_eq (passes : receiver.Passes frame.header) :
    receiver.frame frame =
      if ControlOpcode frame.opcode then receiver.control frame else receiver.data frame := by
  unfold Receiver.frame
  have good : ¬(frame.rsv ≠ 0 ∨ ¬KnownOpcode frame.opcode) :=
    not_or.mpr ⟨not_not.mpr passes.rsv, not_not.mpr passes.known⟩
  rw [if_neg good, if_neg (not_not.mpr passes.favourable)]

theorem frame_of_first (wrong : frame.rsv ≠ 0 ∨ ¬KnownOpcode frame.opcode) :
    receiver.frame frame = .fail 1002 :=
  if_pos wrong

theorem frame_of_second (rsv : frame.rsv = 0) (known : KnownOpcode frame.opcode)
    (refused : frame.header.second_verdict receiver.new_request ≠ 0) :
    receiver.frame frame =
      .fail (UInt16.ofNat (frame.header.second_verdict receiver.new_request)) := by
  unfold Receiver.frame
  rw [if_neg (not_or.mpr ⟨not_not.mpr rsv, not_not.mpr known⟩), if_pos refused]

end Receiver

/-! ### Where a session stands -/

/-- The reads of a frame: its first two bytes, the rest of its header, its payload. -/
def ReadOp.phase (op : ReadOp) : Nat :=
  match op.handler, op.target with
  | .handle_read_header, some (.header pointer) => if pointer.offset = 0 then 0 else 1
  | .handle_read_header, _ => 0
  | _, _ => 2

/-- The session has read `part` of a frame, and `op` is its outstanding read. -/
inductive Session.At (receiver : Receiver) (session : Session) : List UInt8 → ReadOp → Prop
  | between (state : session.Between receiver) : At receiver session [] (session.headerRead 0 2)
  | begun (header : FrameHeader) (state : session.Begun receiver header)
      (rsv : header.rsv = 0) (known : KnownOpcode header.opcode) :
      At receiver session [header.first, header.second]
        (session.headerRead 2 header.tail.length)
  | known (header : FrameHeader) (state : session.Known receiver header)
      (passes : receiver.Passes header) (control : ControlOpcode header.opcode)
      (short : header.length ≤ 125) (count : session.controlRead.count = header.length) :
      At receiver session header.wire session.controlRead
  | reading (header : FrameHeader) (data : List UInt8) (count : Nat)
      (state : session.Reading receiver header data count) (passes : receiver.Passes header)
      (payload : ¬ControlOpcode header.opcode)
      (narrow : receiver.opening.1.length + header.length < 2 ^ 64)
      (within : data.length + count ≤ header.length) :
      At receiver session (header.wire ++ data) session.chunkRead

theorem Session.At.begins {receiver : Receiver} {session : Session} {part : List UInt8}
    {op : ReadOp} (stands : session.At receiver part op) :
    ∃ frame : Frame, part <+: frame.wire := by
  cases stands with
  | between state => exact ⟨Frame.short 0 none [] (Nat.zero_le _), List.nil_prefix⟩
  | begun header state rsv known => exact header.begins_two
  | known header state passes control short count =>
      have part := header.begins [] (Nat.zero_le _)
      rw [List.append_nil] at part
      exact part
  | reading header data count state passes payload narrow within =>
      exact header.begins data (Nat.le_trans (Nat.le_add_right _ _) within)

/-- The session has read a header whose length wraps the counter of the message. -/
def Session.Wedged (receiver : Receiver) (session : Session) (part : List UInt8) (op : ReadOp) :
    Prop :=
  session.Stalled op ∧ ∃ header : FrameHeader, part = header.wire ∧
    2 ^ 64 ≤ receiver.opening.1.length + header.length

/-- What a delivery does to a session that has now read `part` of a frame. -/
inductive Session.Moves (receiver : Receiver) (op : ReadOp) (part : List UInt8)
    (next : Session) : List Action → Prop
  | on (later : ReadOp) (stands : next.At receiver part later ∨ next.Wedged receiver part later)
      (ahead : op.phase < later.phase ∨ op.phase = later.phase ∧ 0 < op.count) :
      Moves receiver op part next [.async_read later]
  | done (frame : Frame) (after : Receiver) (message : Option (List UInt8))
      (replies : List WriteOp) (requests : List ChunkVector) (later : ReadOp)
      (whole : part = frame.wire) (verdict : receiver.frame frame = .next after message)
      (answers : List.Forall₂ (fun answer op => Answer.Carries op answer)
        (receiver.answer frame).toList replies)
      (messages : requests.map ChunkVector.bytes = message.toList)
      (stands : next.At after [] later) :
      Moves receiver op part next
        (replies.map Action.async_write ++ requests.map Action.post ++ [.async_read later])
  | failed (code : UInt16) (begins : ∃ frame : Frame, part <+: frame.wire)
      (judged : ∀ frame : Frame, part <+: frame.wire → receiver.frame frame = .fail code) :
      Moves receiver op part next (next.cancel_socket code)
  | closed (frame : Frame) (reply : WriteOp) (whole : part = frame.wire)
      (verdict : receiver.frame frame = .close) (answers : (Answer.close frame).Carries reply) :
      Moves receiver op part next [.async_write reply]

section Delivery

variable {receiver : Receiver} {session next : Session} {header : FrameHeader}
  {data : List UInt8} {op : ReadOp} {actions : List Action}

private theorem moves_of_some {part : List UInt8} {result other : Session × List Action}
    (received : some result = some other) (moves : result.1.Moves receiver op part result.2) :
    other.1.Moves receiver op part other.2 := by
  cases received
  exact moves

theorem Session.Between.moves (between : session.Between receiver) (bytes : List UInt8)
    (size : bytes.length = 2)
    (received : session.receive (session.headerRead 0 2) bytes = some (next, actions)) :
    next.Moves receiver (session.headerRead 0 2) bytes actions := by
  obtain ⟨first, second, rfl⟩ := List.length_eq_two.mp size
  obtain ⟨header, rfl, rfl⟩ := FrameHeader.exists_of_two first second
  obtain ⟨rejected, accepted⟩ := between.receive_first header
  by_cases wrong : header.rsv ≠ 0 ∨ ¬KnownOpcode header.opcode
  · obtain ⟨last, result⟩ := rejected wrong
    rw [result] at received
    refine moves_of_some received (.failed 1002 header.begins_two fun frame begins => ?_)
    obtain ⟨later, whole⟩ := begins
    have first : frame.first = header.first := (List.cons.inj whole).1.symm
    apply Receiver.frame_of_first
    change frame.first &&& 0x70 ≠ 0 ∨ ¬KnownOpcode (frame.first &&& 0x0F)
    rw [first]
    exact wrong
  · have rsv := not_not.mp (not_or.mp wrong).1
    have known := not_not.mp (not_or.mp wrong).2
    obtain ⟨last, result, begun⟩ := accepted rsv known
    rw [result] at received
    exact moves_of_some received
      (.on _ (Or.inl (.begun header begun rsv known)) (Or.inl Nat.zero_lt_one))

private theorem Session.Loading.moves_finished (loading : session.Loading receiver header data)
    (passes : receiver.Passes header) (payload : ¬ControlOpcode header.opcode)
    (done : data.length = header.length)
    (handled : session.read_chunk 0 false = some (next, actions)) :
    next.Moves receiver op (header.wire ++ data) actions := by
  have within := Nat.le_of_eq done
  let frame := header.frame data done
  have headers : frame.header = header := header.header_frame data done
  have whole : header.wire ++ data = frame.wire := (header.wire_frame data done).symm
  have plain : frame.payload = xorMask header.key 0 data := rfl
  have verdict : receiver.frame frame = receiver.data frame := by
    have passed : receiver.Passes frame.header := by rw [headers]; exact passes
    have judged := passed.frame_eq
    have kind : frame.opcode = header.opcode := congrArg FrameHeader.opcode headers
    rw [kind, if_neg payload] at judged
    exact judged
  have binary : frame.is_binary = header.is_binary := congrArg FrameHeader.is_binary headers
  have ends : frame.fin = header.fin := congrArg FrameHeader.fin headers
  have valid := loading.valid
  rw [loading.utf8] at valid
  have silent : (receiver.answer frame).toList = [] ∨
      ∃ code, receiver.frame frame = .fail code := by
    unfold Receiver.answer
    have kind : frame.opcode = header.opcode := congrArg FrameHeader.opcode headers
    rcases receiver.data_cases frame with ⟨failed, -⟩ | ⟨-, -, going⟩
    · exact Or.inr ⟨1007, verdict.trans failed⟩
    · left
      rw [verdict, going, kind]
      dsimp only
      rw [if_neg fun ping => payload (Or.inr (Or.inl ping))]
      rfl
  cases fin : header.fin with
  | false =>
      obtain ⟨last, result, between⟩ := loading.finished_continue done fin
      have settled : (receiver.validated frame.is_binary frame.payload).valid = true := by
        rw [binary, plain]
        exact valid
      have going := verdict.trans (Receiver.data_continue (ends.trans fin) settled)
      rw [headers, plain] at going
      rw [result] at handled
      refine moves_of_some handled (.done frame _ none [] [] _ whole going ?_ rfl
        (.between between))
      rcases silent with nothing | ⟨code, failed⟩
      · rw [nothing]
        exact .nil
      · rw [failed] at going
        cases going
  | true =>
      cases complete : (receiver.validated header.is_binary
          (xorMask header.key 0 data)).complete with
      | false =>
          obtain ⟨last, result⟩ := loading.finished_incomplete done fin complete
          rw [← binary, ← plain] at complete
          have broken := verdict.trans (Receiver.data_incomplete (ends.trans fin) complete)
          rw [result] at handled
          refine moves_of_some handled
            (.failed 1007 (header.begins data within) fun other begins => ?_)
          rw [whole] at begins
          rw [← Frame.prefix_free frame other begins]
          exact broken
      | true =>
          obtain ⟨last, request, result, bytes, between⟩ :=
            loading.finished_complete done fin complete
          rw [← binary, ← plain] at complete
          have going := verdict.trans (Receiver.data_complete (ends.trans fin) complete)
          rw [headers, plain] at going
          rw [result] at handled
          refine moves_of_some handled (.done frame _ _ [] [request] _ whole going ?_
            (congrArg (fun text => [text]) bytes) (.between between))
          rcases silent with nothing | ⟨code, failed⟩
          · rw [nothing]
            exact .nil
          · rw [failed] at going
            cases going

theorem Session.Loading.moves (loading : session.Loading receiver header data)
    (passes : receiver.Passes header) (payload : ¬ControlOpcode header.opcode)
    (within : data.length ≤ header.length)
    (narrow : receiver.opening.1.length + header.length < 2 ^ 64)
    (ahead : op.phase < 2 ∨ op.phase = 2 ∧ 0 < op.count)
    (handled : session.read_chunk 0 false = some (next, actions)) :
    next.Moves receiver op (header.wire ++ data) actions := by
  rcases Nat.lt_or_eq_of_le within with more | done
  · rcases loading.unfinished more narrow with ⟨last, count, result, reading, inside⟩ | ⟨result, -⟩
    · rw [result] at handled
      exact moves_of_some handled
        (.on _ (Or.inl (.reading header data count reading passes payload narrow inside)) ahead)
    · rw [result] at handled
      cases handled
  · exact loading.moves_finished passes payload done handled

theorem Session.Begun.moves (begun : session.Begun receiver header) (rsv : header.rsv = 0)
    (known : KnownOpcode header.opcode) (bytes : List UInt8)
    (size : bytes.length = header.tail.length)
    (received : session.receive (session.headerRead 2 header.tail.length) bytes =
      some (next, actions)) :
    next.Moves receiver (session.headerRead 2 header.tail.length)
      ([header.first, header.second] ++ bytes) actions := by
  -- the first two bytes do not tell the header apart from the one that has arrived
  obtain ⟨other, alike, tail⟩ := header.exists_of_tail bytes size
  have begun : session.Begun receiver other := ⟨begun.toTracks, begun.started.alike alike⟩
  have wire : [header.first, header.second] ++ bytes = other.wire := by
    unfold FrameHeader.wire
    rw [alike.first, alike.second, tail]
  have rsv : other.rsv = 0 := by
    unfold FrameHeader.rsv at rsv ⊢
    rw [← alike.first, rsv]
  have known : KnownOpcode other.opcode := by
    unfold FrameHeader.opcode at known ⊢
    rw [← alike.first]
    exact known
  rw [wire]
  subst tail
  rw [← size] at received ⊢
  by_cases refused : other.second_verdict receiver.new_request ≠ 0
  · obtain ⟨last, result⟩ := begun.receive_rejected refused
    rw [result] at received
    have part := other.begins [] (Nat.zero_le _)
    rw [List.append_nil] at part
    refine moves_of_some received (.failed _ part fun frame begins => ?_)
    rw [← List.append_nil other.wire] at begins
    obtain ⟨rfl, -⟩ := Frame.payload_of_wire begins
    exact Receiver.frame_of_second rsv known refused
  · have passes : receiver.Passes other := ⟨rsv, known, not_not.mp refused⟩
    by_cases control : ControlOpcode other.opcode
    · obtain ⟨last, result, state, count⟩ := begun.receive_control control passes.favourable
      have short := (other.control_of_verdict _ control passes.favourable).2
      rw [result] at received
      exact moves_of_some received (.on _ (Or.inl (.known other state passes control short count))
        (Or.inl Nat.one_lt_two))
    · obtain ⟨last, result, loading⟩ := begun.receive_data control passes.favourable
      rw [result] at received
      by_cases narrow : receiver.opening.1.length + other.length < 2 ^ 64
      · have ahead : (session.headerRead 2 other.tail.length).phase < 2 := Nat.one_lt_two
        have moves := loading.moves passes control (Nat.zero_le _) narrow (Or.inl ahead) received
        rw [List.append_nil] at moves
        exact moves
      · have wide := Nat.not_lt.mp narrow
        rcases loading.wrapped wide with none | ⟨final, planned, stuck⟩
        · rw [none] at received
          cases received
        · rw [planned] at received
          exact moves_of_some received
            (.on _ (Or.inr ⟨⟨rfl, stuck⟩, other, rfl, wide⟩) (Or.inl Nat.one_lt_two))

def Control.filled (control : Control) (bytes : List UInt8) : Control :=
  { control with buffer_ := control.buffer_.write Control.payload_begin bytes }

/-- A session after a control frame that `Control::process` accepts. -/
def Session.processed (session : Session) (control : Control) : Session × List Action :=
  let self := { session with control_ := control }
  match control.state_ with
  | .KILL => (self, [.async_write { handler := .kill, bytes := control.reply }])
  | .PONG => self.read_header
  | .PING => (self.read_header.1,
      .async_write { handler := .ping, bytes := control.reply } :: self.read_header.2)
  | .INVALID => (self, [.remove])

private theorem Session.receive_control {session : Session} {bytes : List UInt8}
    {control : Control}
    (result : (session.control_.filled bytes).process session.temp_header_ session.heap =
      some (0, control)) :
    session.receive session.controlRead bytes = some (session.processed control) := by
  let loaded : Session := { session with control_ := session.control_.filled bytes }
  have arrived : session.receive session.controlRead bytes = loaded.handle_control_read false :=
    rfl
  change loaded.control_.process loaded.temp_header_ loaded.heap = _ at result
  rw [arrived]
  unfold handle_control_read processed
  simp only [result, Option.bind_eq_bind, Option.bind_some]
  rw [if_neg Bool.noConfusion, if_neg (not_not.mpr rfl)]
  cases control.state_ <;> rfl

private theorem Session.Known.tracks (known : session.Known receiver header)
    (control : Control) : { session with control_ := control }.Tracks receiver :=
  ⟨known.rsvc, known.new_request, known.is_binary, known.valid, known.utf8, known.holds,
    known.total⟩

private theorem Session.Known.receive_ping (known : session.Known receiver header)
    (bytes : List UInt8) (size : bytes.length = header.length) (short : header.length ≤ 125)
    (opcode : header.opcode = 0x09) :
    ∃ next : Session, session.receive session.controlRead bytes =
        some (next, [.async_write
          { handler := .ping
            bytes := [(header.first &&& 0xF0) ||| 0x0A, header.second &&& 0x7F] ++
              xorMask header.key 0 bytes },
          .async_read (next.headerRead 0 2)]) ∧
      next.Between receiver := by
  obtain ⟨control, result, state, reply⟩ := Control.process_ping_reply known.described opcode
    (Control.arrived_write session.control_ header bytes size short) short
  obtain ⟨between, actions⟩ := (known.tracks control).read_header
  refine ⟨{ session with control_ := control }.read_header.1, ?_, between⟩
  rw [Session.receive_control result]
  unfold Session.processed
  simp only [state, actions, reply]

private theorem Session.Known.receive_pong (known : session.Known receiver header)
    (bytes : List UInt8) (opcode : header.opcode = 0x0A) :
    ∃ next : Session, session.receive session.controlRead bytes =
        some (next, [.async_read (next.headerRead 0 2)]) ∧
      next.Between receiver := by
  obtain ⟨control, result, state⟩ : ∃ control,
      (session.control_.filled bytes).process session.temp_header_ session.heap =
        some (0, control) ∧ control.state_ = .PONG := Control.process_pong known.described opcode
  obtain ⟨between, actions⟩ := (known.tracks control).read_header
  refine ⟨{ session with control_ := control }.read_header.1, ?_, between⟩
  rw [Session.receive_control result]
  unfold Session.processed
  simp only [state, ← actions]

private theorem Session.Known.receive_closing (known : session.Known receiver header)
    (bytes : List UInt8) (size : bytes.length = header.length) (short : header.length ≤ 125)
    (opcode : header.opcode = 0x08)
    (formed : 2 ≤ header.length → WellFormed (Control.reason header bytes)) :
    ∃ (next : Session) (reply : List UInt8), session.receive session.controlRead bytes =
        some (next, [.async_write { handler := .kill, bytes := reply }]) ∧
      (reply.drop 2).length = header.length ∧
      (2 ≤ header.length → ∃ high low : UInt8,
        reply.drop 2 = high :: low :: Control.reason header bytes ∧
          Sendable (2 ^ 8 * high.toNat + low.toNat)) := by
  obtain ⟨control, result, state, whole, patched⟩ := Control.process_close_reply known.described
    opcode (Control.arrived_write session.control_ header bytes size short) short formed
  refine ⟨{ session with control_ := control }, control.reply, ?_, whole, patched⟩
  rw [Session.receive_control result]
  unfold Session.processed
  simp only [state]

theorem Session.Known.moves (known : session.Known receiver header)
    (passes : receiver.Passes header) (control : ControlOpcode header.opcode)
    (short : header.length ≤ 125) (bytes : List UInt8) (size : bytes.length = header.length)
    (received : session.receive session.controlRead bytes = some (next, actions)) :
    next.Moves receiver op (header.wire ++ bytes) actions := by
  let frame := header.frame bytes size
  have headers : frame.header = header := header.header_frame bytes size
  have whole : header.wire ++ bytes = frame.wire := (header.wire_frame bytes size).symm
  have kind : frame.opcode = header.opcode := congrArg FrameHeader.opcode headers
  have plain : frame.payload = xorMask header.key 0 bytes := rfl
  have length : frame.payload.length = header.length := by rw [plain, length_xorMask, size]
  have verdict : receiver.frame frame = receiver.control frame := by
    have passed : receiver.Passes frame.header := by rw [headers]; exact passes
    have judged := passed.frame_eq
    rw [kind, if_pos control] at judged
    exact judged
  unfold Receiver.control at verdict
  rw [kind] at verdict
  rcases control with closing | ping | pong
  · rw [if_pos closing] at verdict
    have reason (two : 2 ≤ header.length) :
        Control.reason header bytes = frame.payload.drop 2 := by
      have wire := Control.reason_wire frame (by rw [length]; exact two)
      rw [headers, plain, xorMask_xorMask] at wire
      exact wire
    by_cases wrong : 2 ≤ frame.payload.length ∧ ¬WellFormed (frame.payload.drop 2)
    · rw [if_pos wrong] at verdict
      obtain ⟨last, broken, -⟩ := known.receive_close bytes size short closing
      have two : 2 ≤ header.length := by rw [← length]; exact wrong.1
      rw [broken ⟨two, by rw [reason two]; exact wrong.2⟩] at received
      refine moves_of_some received
        (.failed 1007 (header.begins bytes (Nat.le_of_eq size)) fun other begins => ?_)
      rw [whole] at begins
      rw [← Frame.prefix_free frame other begins]
      exact verdict
    · rw [if_neg wrong] at verdict
      have formed (two : 2 ≤ header.length) : WellFormed (Control.reason header bytes) := by
        rw [reason two]
        by_contra broken
        exact wrong ⟨by rw [length]; exact two, broken⟩
      obtain ⟨last, reply, result, sized, patched⟩ :=
        known.receive_closing bytes size short closing formed
      rw [result] at received
      refine moves_of_some received (.closed frame _ whole verdict ⟨rfl, ?_, fun two => ?_⟩)
      · rw [length]
        exact sized
      · rw [length] at two
        rw [← reason two]
        exact patched two
  · rw [if_neg (by rw [ping]; decide)] at verdict
    obtain ⟨last, result, between⟩ := known.receive_ping bytes size short ping
    rw [result] at received
    have answer : (receiver.answer frame).toList = [.pong frame] := by
      unfold Receiver.answer
      rw [verdict, kind, ping]
      rfl
    have pong : frame.pong = [(header.first &&& 0xF0) ||| 0x0A, header.second &&& 0x7F] ++
        xorMask header.key 0 bytes := by
      unfold Frame.pong
      rw [headers]
      rfl
    refine moves_of_some received
      (.done frame receiver none [_] [] _ whole verdict ?_ rfl (.between between))
    rw [answer]
    refine .cons ?_ .nil
    change _ = WriteOp.mk .ping frame.pong
    rw [pong]
  · rw [if_neg (by rw [pong]; decide)] at verdict
    obtain ⟨last, result, between⟩ := known.receive_pong bytes pong
    rw [result] at received
    have answer : (receiver.answer frame).toList = [] := by
      unfold Receiver.answer
      rw [verdict, kind, pong]
      rfl
    refine moves_of_some received
      (.done frame receiver none [] [] _ whole verdict ?_ rfl (.between between))
    rw [answer]
    exact .nil

theorem Session.Reading.moves {count : Nat}
    (reading : session.Reading receiver header data count) (passes : receiver.Passes header)
    (payload : ¬ControlOpcode header.opcode)
    (narrow : receiver.opening.1.length + header.length < 2 ^ 64)
    (within : data.length + count ≤ header.length) (bytes : List UInt8)
    (size : bytes.length = count)
    (received : session.receive session.chunkRead bytes = some (next, actions)) :
    next.Moves receiver session.chunkRead (header.wire ++ (data ++ bytes)) actions := by
  have positive : 0 < session.chunkRead.count := by
    rw [reading.count_chunkRead]
    exact reading.planned.positive
  rcases reading.receive bytes size with ⟨last, result, loading⟩ | ⟨last, result, invalid⟩
  · rw [result] at received
    exact loading.moves passes payload (by rw [List.length_append, size]; exact within) narrow
      (Or.inr ⟨rfl, positive⟩) received
  · rw [result] at received
    have part := header.begins (data ++ bytes) (by rw [List.length_append, size]; exact within)
    refine moves_of_some received (.failed 1007 part fun frame begins => ?_)
    obtain ⟨rfl, later, plain⟩ := Frame.payload_of_wire begins
    have judged : receiver.frame frame = _ := passes.frame_eq
    change ¬ControlOpcode frame.opcode at payload
    rw [if_neg payload] at judged
    rw [judged]
    apply Receiver.data_invalid
    rw [plain, xorMask_append]
    exact Receiver.validated_of_prefix _ _ _ reading.opened invalid

/-- Every delivery the session takes moves it as the receiver of whole frames says. -/
theorem Session.At.moves {part : List UInt8} (stands : session.At receiver part op)
    (bytes : List UInt8) (size : bytes.length = op.count)
    (received : session.receive op bytes = some (next, actions)) :
    next.Moves receiver op (part ++ bytes) actions := by
  cases stands with
  | between state => exact state.moves bytes size received
  | begun header state rsv known => exact state.moves rsv known bytes size received
  | known header state passes control short count =>
      exact state.moves passes control short bytes (size.trans count) received
  | reading header data count state passes payload narrow within =>
      rw [List.append_assoc]
      exact state.moves passes payload narrow within bytes (size.trans state.count_chunkRead)
        received

end Delivery

end Averyws
