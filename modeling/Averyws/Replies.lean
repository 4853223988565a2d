/-
The frames the read side of a session answers with.

The replies are built by hand beside the header encoder.  They are decoded here
with the session's own header reader: the pong repeats the length byte of the
ping, the close reply is patched in place, and the frame of `cancel_socket`
declares no payload.
-/

import Averyws.Controlling
import Averyws.HeaderDecoder
import Averyws.SessionRun

namespace Averyws

open Library.Bytes Library.Cells Library.Run Library.Utf8
open Utilities

structure Decoded where
  fin : Bool
  opcode : UInt8
  masked : Bool
  /-- the payload, unmasked -/
  payload : List UInt8
  /-- the bytes left over -/
  rest : List UInt8
  deriving DecidableEq

def HeaderRead.frame (result : HeaderRead) (bytes : List UInt8) : Option Decoded :=
  if result.codes = [0, 0] ∧ result.header.payload_size.toNat ≤ result.rest.length then
    (result.header.mask result.heap).map fun mask =>
      { fin := HeaderBytes.fin bytes
        opcode := HeaderBytes.opcode bytes
        masked := HeaderBytes.masked bytes
        payload := xorMask mask 0 (result.rest.take result.header.payload_size.toNat)
        rest := result.rest.drop result.header.payload_size.toNat }
  else none

/-- The frame at the front of `bytes`, as the header reader takes it. -/
def decode (rsvc : UInt8) (new_request : Bool) (bytes : List UInt8) : Option Decoded :=
  (Header.read_stream { Header.init with rsvc_ := rsvc } Store.empty new_request bytes).frame bytes

private theorem HeaderRead.Decodes.frame {result : HeaderRead} {frame : Frame}
    {rest : List UInt8} (decodes : result.Decodes (frame.wire ++ rest))
    (codes : result.codes = [0, 0]) :
    result.frame (frame.wire ++ rest) =
      some { fin := frame.fin, opcode := frame.opcode, masked := frame.mask.isSome
             payload := frame.payload, rest := rest } := by
  have wire : frame.wire ++ rest =
      frame.header.wire ++ (xorMask frame.header.key 0 frame.payload ++ rest) := by
    unfold Frame.wire
    rw [List.append_assoc]
  have size : result.header.payload_size.toNat =
      (xorMask frame.header.key 0 frame.payload).length := by
    rw [decodes.payload_size, wire, frame.header.length_wire, length_xorMask]
    rfl
  have consumed : result.rest = xorMask frame.header.key 0 frame.payload ++ rest := by
    rw [decodes.consumed, wire, frame.header.size_wire, List.drop_left]
  have masked : HeaderBytes.masked (frame.wire ++ rest) = frame.mask.isSome := by
    rw [wire, frame.header.masked_wire]
    rfl
  have masks := decodes.mask
  rw [wire, frame.header.mask_wire] at masks
  obtain ⟨mask, pointed, same⟩ := Option.map_eq_some_iff.mp masks
  have key : mask = frame.header.key := Vector.toList_inj.mp same
  have enough : result.header.payload_size.toNat ≤ result.rest.length := by
    rw [size, consumed, List.length_append]
    exact Nat.le_add_right _ _
  unfold HeaderRead.frame
  rw [if_pos ⟨codes, enough⟩, pointed, key, size, consumed, List.take_left, List.drop_left,
    Option.map_some, xorMask_xorMask, masked]
  rfl

theorem decode_wire (rsvc : UInt8) (new_request : Bool) (frame : Frame) (rest : List UInt8)
    (rsv : frame.rsv = rsvc) (known : KnownOpcode frame.opcode)
    (accepted : frame.header.second_verdict new_request = 0) :
    decode rsvc new_request (frame.wire ++ rest) =
      some { fin := frame.fin, opcode := frame.opcode, masked := frame.mask.isSome
             payload := frame.payload, rest := rest } := by
  have acceptable : Acceptable rsvc new_request (frame.wire ++ rest) := by
    unfold Frame.wire
    rw [List.append_assoc, acceptable_wire_iff]
    exact ⟨rsv, known, accepted⟩
  obtain ⟨verdict, decodes⟩ := Header.read_stream_accepts { Header.init with rsvc_ := rsvc }
    Store.empty new_request (frame.wire ++ rest)
  have codes := verdict.mpr acceptable
  exact (decodes codes).frame codes

private theorem HeaderRead.length_frame {result : HeaderRead} {bytes : List UInt8}
    {frame : Decoded} (consumed : result.rest = bytes.drop (HeaderBytes.size bytes))
    (whole : HeaderBytes.size bytes ≤ bytes.length) (decoded : result.frame bytes = some frame) :
    bytes.length = HeaderBytes.size bytes + frame.payload.length + frame.rest.length := by
  unfold HeaderRead.frame at decoded
  split at decoded
  next ready =>
    have enough := ready.2
    have left := congrArg List.length consumed
    obtain ⟨mask, -, rfl⟩ := Option.map_eq_some_iff.mp decoded
    rw [List.length_drop] at left
    rw [length_xorMask, List.length_take, List.length_drop]
    omega
  next => cases decoded

theorem decode_length {rsvc : UInt8} {new_request : Bool} {bytes : List UInt8} {frame : Decoded}
    (decoded : decode rsvc new_request bytes = some frame) :
    bytes.length = HeaderBytes.size bytes + frame.payload.length + frame.rest.length := by
  obtain ⟨verdict, decodes⟩ := Header.read_stream_accepts { Header.init with rsvc_ := rsvc }
    Store.empty new_request bytes
  have codes : (Header.read_stream { Header.init with rsvc_ := rsvc } Store.empty new_request
      bytes).codes = [0, 0] := by
    unfold decode HeaderRead.frame at decoded
    split at decoded
    next ready => exact ready.1
    next => cases decoded
  exact HeaderRead.length_frame (decodes codes).consumed (verdict.mp codes).whole decoded

/-! ### The frame of `cancel_socket` -/

def status (code : UInt16) : List UInt8 :=
  [((code &&& 0xff00) >>> 8).toUInt8, ((code &&& 0x00ff) >>> 0).toUInt8]

structure Session.Cancels (session : Session) (result : Session × List Action) : Prop where
  rsvc : result.1.rsvc_ = session.rsvc_
  bytes : ∀ op, Action.async_write op ∈ result.2 → ∀ code, op.handler = .cancel code →
    op.bytes = [0x88 ||| session.rsvc_, 0x00] ++ status code

namespace Session

variable {session next : Session} {actions : List Action}

private theorem cancels_none (rsvc : next.rsvc_ = session.rsvc_)
    (others : ∀ op, Action.async_write op ∈ actions → ∀ code, op.handler ≠ .cancel code) :
    session.Cancels (next, actions) :=
  ⟨rsvc, fun op member code cancel => absurd cancel (others op member code)⟩

private theorem cancels_cancel (rsvc : next.rsvc_ = session.rsvc_) (code : UInt16) :
    session.Cancels (next, next.cancel_socket code) := by
  refine ⟨rsvc, fun op member other same => ?_⟩
  unfold cancel_socket at member
  cases List.mem_singleton.mp member
  cases same
  rw [rsvc]
  rfl

private theorem cancels_read (op : ReadOp) (rsvc : next.rsvc_ = session.rsvc_) :
    session.Cancels (next, [.async_read op]) :=
  cancels_none rsvc fun _ member => nomatch List.mem_singleton.mp member

theorem after_gather_cancels (rsvc : next.rsvc_ = session.rsvc_) (rcode : Nat) :
    session.Cancels (next.after_gather rcode) := by
  unfold after_gather
  split_ifs with failed more ended
  · exact cancels_cancel rsvc _
  · exact cancels_read _ rsvc
  · refine cancels_none rsvc fun op member => ?_
    rcases List.mem_cons.mp member with posted | read
    · cases posted
    · exact nomatch List.mem_singleton.mp read
  · exact cancels_read _ rsvc

theorem read_chunk_cancels {previous_read : UInt64} {error : Bool} {result : Session × List Action}
    (same : next.rsvc_ = session.rsvc_)
    (done : next.read_chunk previous_read error = some result) : session.Cancels result := by
  unfold read_chunk at done
  split at done
  · cases done
    exact cancels_none same fun _ member => nomatch List.mem_singleton.mp member
  · obtain ⟨⟨rcode, gather, buffer⟩, -, done⟩ := Option.bind_eq_some_iff.mp done
    cases done
    refine after_gather_cancels ?_ _
    exact same

theorem handle_read_header_cancels {error : Bool} {result : Session × List Action}
    (same : next.rsvc_ = session.rsvc_)
    (done : next.handle_read_header error = some result) : session.Cancels result := by
  unfold handle_read_header at done
  split at done
  · cases done
    exact cancels_none same fun _ member => nomatch List.mem_singleton.mp member
  · generalize next.temp_header_.process next.heap next.new_request_ = outcome at done
    obtain ⟨rcode, temp_header, heap⟩ := outcome
    dsimp only at done
    by_cases failed : rcode ≠ 0
    · rw [if_pos failed] at done
      cases done
      refine cancels_cancel ?_ _
      exact same
    · rw [if_neg failed] at done
      split at done
      · split at done
        · cases done
          refine cancels_cancel ?_ _
          exact same
        · cases done
          exact cancels_read _ same
      · refine read_chunk_cancels ?_ done
        dsimp only
        split <;> exact same
      · cases done
        exact cancels_read _ same

theorem handle_control_read_cancels {error : Bool} {result : Session × List Action}
    (same : next.rsvc_ = session.rsvc_)
    (done : next.handle_control_read error = some result) : session.Cancels result := by
  unfold handle_control_read at done
  split at done
  · cases done
    exact cancels_none same fun _ member => nomatch List.mem_singleton.mp member
  · obtain ⟨⟨rcode, control⟩, -, done⟩ := Option.bind_eq_some_iff.mp done
    dsimp only at done
    split_ifs at done with failed
    · cases done
      refine cancels_cancel ?_ _
      exact same
    · split at done
      · cases done
        refine cancels_none same fun op member code => ?_
        cases List.mem_singleton.mp member
        exact WriteHandler.noConfusion
      · cases done
        exact cancels_read _ same
      · cases done
        refine cancels_none same fun op member code => ?_
        rcases List.mem_cons.mp member with pong | read
        · cases pong
          exact WriteHandler.noConfusion
        · exact nomatch List.mem_singleton.mp read
      · cases done
        exact cancels_none same fun _ member => nomatch List.mem_singleton.mp member

theorem store_rsvc {target : Option Target} {bytes : List UInt8}
    (stored : session.store target bytes = some next) : next.rsvc_ = session.rsvc_ := by
  unfold store at stored
  split at stored
  · cases stored
  · cases stored
    rfl
  · cases stored
    rfl
  · obtain ⟨buffer, -, same⟩ := Option.bind_eq_some_iff.mp stored
    cases same
    rfl

/-- Whatever a read delivers, its handler cancels through `cancel_socket` only. -/
theorem receive_cancels {op : ReadOp} {bytes : List UInt8}
    (received : session.receive op bytes = some (next, actions)) :
    session.Cancels (next, actions) := by
  unfold receive at received
  obtain ⟨stored, arrived, received⟩ := Option.bind_eq_some_iff.mp received
  have same := store_rsvc arrived
  split at received
  · exact handle_read_header_cancels same received
  · exact handle_control_read_cancels same received
  · exact read_chunk_cancels same received

end Session

namespace Connection

variable {sha1 : List UInt8 → Digest} {before after : Connection} {actions : List Action}

structure CancelsOnly (connection : Connection) : Prop where
  rsvc : connection.session.rsvc_ = 0
  bytes : ∀ out ∈ connection.writes, ∀ code, out.op.handler = .cancel code →
    out.op.bytes = [0x88, 0x00] ++ status code

private theorem CancelsOnly.keep (cancels : before.CancelsOnly)
    (rsvc : after.session.rsvc_ = before.session.rsvc_)
    (writes : ∀ out ∈ after.writes, (∃ old ∈ before.writes, old.op = out.op) ∨
      ∀ code, out.op.handler ≠ .cancel code) : after.CancelsOnly := by
  refine ⟨rsvc.trans cancels.rsvc, fun out member code same => ?_⟩
  rcases writes out member with ⟨old, here, kept⟩ | other
  · rw [← kept] at same ⊢
    exact cancels.bytes old here code same
  · exact absurd same (other code)

private theorem mem_set_op {writes : List Outgoing} {index : Nat} {old new out : Outgoing}
    (found : writes[index]? = some old) (member : out ∈ writes.set index new)
    (same : new.op = old.op) : ∃ old ∈ writes, old.op = out.op := by
  rcases List.mem_or_eq_of_mem_set member with there | rfl
  · exact ⟨out, there, rfl⟩
  · exact ⟨old, List.mem_of_getElem? found, same.symm⟩

private theorem CancelsOnly.performs (cancels : before.CancelsOnly) {session : Session}
    (result : before.session.Cancels (session, actions))
    (changed : Connection) (same : changed.session = session)
    (writes : changed.writes = before.writes) : (changed.performs actions).CancelsOnly := by
  rw [performs_eq]
  refine ⟨?_, fun out member code cancel => ?_⟩
  · change changed.session.rsvc_ = 0
    rw [same]
    exact result.rsvc.trans cancels.rsvc
  · rcases List.mem_append.mp member with old | new
    · rw [writes] at old
      exact cancels.bytes out old code cancel
    · obtain ⟨op, started, rfl⟩ := List.mem_map.mp new
      obtain ⟨action, inside, written⟩ := List.mem_filterMap.mp started
      cases action with
      | async_write other =>
          cases written
          have bytes := result.bytes op inside code cancel
          rw [cancels.rsvc] at bytes
          exact bytes
      | async_read other => cases written
      | post request => cases written
      | remove => cases written

theorem CancelsOnly.respond (cancels : before.CancelsOnly) {stimulus : Stimulus}
    (done : before.respond sha1 stimulus = some (after, actions)) : after.CancelsOnly := by
  have old {out : Outgoing} (member : out ∈ before.writes) :
      (∃ old ∈ before.writes, old.op = out.op) ∨ ∀ code, out.op.handler ≠ .cancel code :=
    Or.inl ⟨out, member, rfl⟩
  cases stimulus with
  | write data is_binary =>
      cases done
      refine cancels.keep rfl fun out member => ?_
      rcases List.mem_append.mp member with there | new
      · exact old there
      · rw [List.mem_singleton.mp new]
        exact Or.inr fun code => WriteHandler.noConfusion
  | socket event =>
      cases event with
      | read_first count =>
          obtain ⟨-, -, -, -, session, received, rfl⟩ := complete_first_cases done
          rcases Session.receive_first_cases received with ⟨rfl, -, rsvc⟩ |
            ⟨reply, rfl, -, -, rsvc⟩
          · exact cancels.keep rsvc fun out member => old member
          · refine cancels.keep rsvc fun out member => ?_
            rcases List.mem_append.mp member with there | new
            · exact old there
            · rw [List.mem_singleton.mp new]
              exact Or.inr fun code => WriteHandler.noConfusion
      | fail_first =>
          obtain ⟨-, rfl, rfl⟩ := fail_first_cases done
          exact cancels.keep rfl fun out member => old member
      | read index =>
          obtain ⟨op, session, -, -, received, rfl⟩ := complete_read_cases done
          exact cancels.performs (Session.receive_cancels received) _ rfl rfl
      | fail_read index =>
          obtain ⟨-, rfl, rfl⟩ := fail_read_cases done
          exact cancels.keep rfl fun out member => old member
      | write_some index count =>
          obtain ⟨next, taken, same⟩ := Option.map_eq_some_iff.mp done
          cases same
          obtain ⟨out, found, -, -, -, rfl⟩ := write_some_cases taken
          exact cancels.keep rfl fun _ member => Or.inl (mem_set_op found member rfl)
      | written index error =>
          obtain ⟨out, found, -, -, outcome⟩ := complete_write_cases done
          rcases outcome with ⟨-, -, rfl, rfl⟩ | ⟨-, -, rfl⟩
          · exact cancels.keep rfl fun _ member => Or.inl (mem_set_op found member rfl)
          · exact cancels.keep rfl fun _ member => Or.inl (mem_set_op found member rfl)

theorem cancels_of_run {allowed : Connection → Stimulus → Prop} {input : List UInt8}
    {first final : Connection} (accepted : Connection.accept input = some first)
    (run : Reaches (next sha1) allowed first final) : final.CancelsOnly := by
  apply run.invariant CancelsOnly
  · intro before stimulus after cancels _ taken
    obtain ⟨⟨next, actions⟩, done, same⟩ := Option.map_eq_some_iff.mp taken
    cases same
    exact cancels.respond done
  · unfold accept at accepted
    obtain ⟨session, begun, same⟩ := Option.bind_eq_some_iff.mp accepted
    cases same
    refine ⟨?_, fun out member => nomatch member⟩
    unfold Session.start at begun
    obtain ⟨buffer, -, started⟩ := Option.bind_eq_some_iff.mp begun
    cases started
    rfl

end Connection

/-- The one close frame that is to be written. -/
def Decoded.close (code : UInt16) : Decoded :=
  { fin := true, opcode := 0x08, masked := false, payload := status code, rest := [] }

/-- An empty close frame with the status bytes behind it. -/
def Decoded.overrun (code : UInt16) : Decoded :=
  { fin := true, opcode := 0x08, masked := false, payload := [], rest := status code }

def Frame.emptyClose : Frame :=
  Frame.short 0x88 none [] (by decide)

theorem decode_cancel (new_request : Bool) (code : UInt16) :
    decode 0 new_request ([0x88, 0x00] ++ status code) = some (Decoded.overrun code) := by
  have verdict : Frame.emptyClose.header.second_verdict new_request = 0 :=
    FrameHeader.second_verdict_control _ new_request (by decide) (by decide) (by decide)
  exact decode_wire 0 new_request Frame.emptyClose (status code) (by decide) (by decide) verdict

theorem Decoded.overrun_ne (code : UInt16) : Decoded.overrun code ≠ Decoded.close code := by
  intro same
  have payload : [] = status code := congrArg Decoded.payload same
  have two : ([] : List UInt8).length = (status code).length := congrArg List.length payload
  cases two

/-- Whatever a session fails on, the frame it writes never carries its code: the
bytes are an empty close frame, and the code is left over. -/
theorem cancel_never_decodes (sha1 : List UInt8 → Digest) {input : List UInt8}
    {first final : Connection} (accepted : Connection.accept input = some first)
    (run : Reaches (Connection.next sha1) anyEvent first final) {out : Outgoing}
    (member : out ∈ final.writes) {code : UInt16} (cancels : out.op.handler = .cancel code)
    (new_request : Bool) :
    decode 0 new_request out.op.bytes = some (Decoded.overrun code) ∧
      decode 0 new_request out.op.bytes ≠ some (Decoded.close code) := by
  rw [(Connection.cancels_of_run accepted run).bytes out member code cancels, decode_cancel]
  exact ⟨rfl, fun same => Decoded.overrun_ne code (Option.some.inj same)⟩

private theorem reserved_opcode_cancels :
    ∃ first final out, Connection.accept (sampleRequest ++ [0x83, 0x00]) = some first ∧
      Reaches (Connection.next zeroDigest) anyEvent first final ∧ out ∈ final.writes ∧
      out.op.handler = .cancel 1002 := by
  obtain ⟨first, final, accepted, run, here⟩ := Reaches.of_trace_any (Connection.next zeroDigest)
    anyEvent (Connection.accept (sampleRequest ++ [0x83, 0x00]))
    (fun connection : Connection => connection.writes.any fun out =>
      decide (out.op.handler = .cancel 1002))
    (sampleHandshake ++ [.socket (.read 0)]) (by decide +kernel)
  obtain ⟨out, member, cancels⟩ := List.any_eq_true.mp here
  exact ⟨first, final, out, accepted, run, member, of_decide_eq_true cancels⟩

theorem cancel_never_decodes_reserved :
    ∃ first final out, Connection.accept (sampleRequest ++ [0x83, 0x00]) = some first ∧
      Reaches (Connection.next zeroDigest) anyEvent first final ∧ out ∈ final.writes ∧
      out.op.handler = .cancel 1002 ∧
      decode 0 true out.op.bytes = some (Decoded.overrun 1002) ∧
      decode 0 true out.op.bytes ≠ some (Decoded.close 1002) := by
  obtain ⟨first, final, out, accepted, run, member, cancels⟩ := reserved_opcode_cancels
  exact ⟨first, final, out, accepted, run, member, cancels,
    cancel_never_decodes zeroDigest accepted run member cancels true⟩

/-- The frame written for a reserved opcode has no payload and two bytes too many. -/
theorem cancel_undecodable :
    ¬∀ (sha1 : List UInt8 → Digest) (input : List UInt8) (first final : Connection)
      (out : Outgoing) (code : UInt16), Connection.accept input = some first →
      Reaches (Connection.next sha1) anyEvent first final → out ∈ final.writes →
      out.op.handler = .cancel code → decode 0 true out.op.bytes = some (Decoded.close code) := by
  intro decodes
  obtain ⟨first, final, out, accepted, run, member, cancels⟩ := reserved_opcode_cancels
  have close := decodes zeroDigest _ first final out 1002 accepted run member cancels
  rw [(Connection.cancels_of_run accepted run).bytes out member 1002 cancels, decode_cancel]
    at close
  exact Decoded.overrun_ne 1002 (Option.some.inj close)

end Averyws
