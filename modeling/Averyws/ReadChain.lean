/-
The handlers of a session on the reads of one frame.

Between two frames the session waits for two header bytes.  Each stage of a
frame has an invariant, and each read that can complete in it one lemma that
says which handler action follows and which stage holds then.
-/

import Averyws.Connection
import Averyws.Controlling
import Averyws.Gathering
import Averyws.Receiver

namespace Averyws

open Library.Bytes Library.Cells Library.Run Library.Utf8
open Utilities

def Session.headerRead (session : Session) (offset count : Nat) : ReadOp :=
  { handler := .handle_read_header
    target := some (.header { buffer := session.temp_header_.buffer_, offset := offset })
    count := count }

def Session.controlRead (session : Session) : ReadOp :=
  { handler := .handle_control_read
    target := some (.control Control.payload_begin)
    count := transfer_exactly Control.capacity.toUInt64 session.temp_header_.payload_size }

def Session.chunkRead (session : Session) : ReadOp :=
  { handler := .read_chunk session.gather_.next_consume_
    target := session.gather_.buffer_position_.map Target.chunk
    count := transfer_exactly session.gather_.next_consume_ session.gather_.next_consume_ }

/-! ### The session between two frames -/

/-- The session has processed whole frames as the receiver has. -/
structure Session.Tracks (receiver : Receiver) (session : Session) : Prop where
  rsvc : session.temp_header_.rsvc_ = 0
  new_request : session.new_request_ = receiver.new_request
  is_binary : session.header_.is_binary_ = receiver.is_binary
  valid : receiver.new_request = false → receiver.utf8.valid = true
  utf8 : receiver.new_request = false → session.gather_.utf8_ = receiver.utf8
  holds : receiver.new_request = false →
    session.gather_.Holds session.buffer_ receiver.payload
  total : receiver.new_request = false →
    session.gather_.total_size_ = session.gather_.total_consumed_

structure Session.Between (receiver : Receiver) (session : Session) : Prop extends
    session.Tracks receiver where
  fresh : session.temp_header_.Fresh session.heap

theorem Session.Tracks.read_header {receiver : Receiver} {session : Session}
    (tracks : session.Tracks receiver) :
    session.read_header.1.Between receiver ∧
      session.read_header.2 = [.async_read (session.read_header.1.headerRead 0 2)] := by
  refine ⟨⟨⟨tracks.rsvc, tracks.new_request, tracks.is_binary, tracks.valid, tracks.utf8,
    tracks.holds, tracks.total⟩, ?_⟩, ?_⟩
  · exact Header.fresh_new_buffer session.temp_header_ session.heap
  · rfl

structure Session.Begun (receiver : Receiver) (session : Session) (header : FrameHeader) :
    Prop extends session.Tracks receiver where
  started : session.temp_header_.Started session.heap header

structure Session.Known (receiver : Receiver) (session : Session) (header : FrameHeader) :
    Prop extends session.Tracks receiver where
  described : session.temp_header_.Describes session.heap header

section Stages

variable {receiver : Receiver} {session : Session}

theorem Session.Tracks.reheader (tracks : session.Tracks receiver) (next : Header) (heap : Heap)
    (rsvc : next.rsvc_ = session.temp_header_.rsvc_) :
    { session with temp_header_ := next, heap := heap }.Tracks receiver :=
  { rsvc := rsvc.trans tracks.rsvc
    new_request := tracks.new_request
    is_binary := tracks.is_binary
    valid := tracks.valid
    utf8 := tracks.utf8
    holds := tracks.holds
    total := tracks.total }

theorem Session.Between.receive_first (between : session.Between receiver)
    (header : FrameHeader) :
    (header.rsv ≠ 0 ∨ ¬KnownOpcode header.opcode →
      ∃ next, session.receive (session.headerRead 0 2) [header.first, header.second] =
        some (next, next.cancel_socket 1002)) ∧
    (header.rsv = 0 → KnownOpcode header.opcode →
      ∃ next, session.receive (session.headerRead 0 2) [header.first, header.second] =
          some (next, [.async_read (next.headerRead 2 header.tail.length)]) ∧
        next.Begun receiver header) := by
  have arrived : session.receive (session.headerRead 0 2) [header.first, header.second] =
      { session with heap := session.temp_header_.opened session.heap header }.handle_read_header
        false := rfl
  rw [arrived]
  constructor
  · intro wrong
    have rejected := between.fresh.rejected header session.new_request_
      (by rw [between.rsvc]; exact wrong)
    unfold handle_read_header
    simp only [rejected]
    exact ⟨_, rfl⟩
  · intro rsv known
    obtain ⟨next, after, result, started, kept, same, -, -⟩ :=
      between.fresh.accepted header session.new_request_ (by rw [between.rsvc]; exact rsv) known
    refine ⟨{ session with temp_header_ := next, heap := after }, ?_,
      between.toTracks.reheader next after kept, started⟩
    have position : next.current_position = some { buffer := next.buffer_, offset := 2 } := by
      unfold Header.current_position
      rw [started.state]
    have count : transfer_exactly next.size_left next.next_read_size = header.tail.length := by
      have bound := header.length_tail_le
      unfold transfer_exactly Header.size_left
      rw [started.state, Header.next_read_size, started.size]
      change min 12 header.tail.length = header.tail.length
      omega
    unfold handle_read_header
    simp only [result, Header.state, started.state]
    unfold async_read_header headerRead
    simp only [position, count]
    rfl

theorem Session.Begun.receive_rejected {header : FrameHeader}
    (begun : session.Begun receiver header)
    (wrong : header.second_verdict receiver.new_request ≠ 0) :
    ∃ next, session.receive (session.headerRead 2 header.tail.length) header.tail =
      some (next, next.cancel_socket
        (UInt16.ofNat (header.second_verdict receiver.new_request))) := by
  have arrived : session.receive (session.headerRead 2 header.tail.length) header.tail =
      { session with heap := session.temp_header_.filled session.heap header }.handle_read_header
        false := rfl
  obtain ⟨next, result, -⟩ := Header.process_second begun.started session.new_request_
  rw [begun.new_request] at result
  rw [arrived]
  unfold handle_read_header
  simp only [begun.new_request, result]
  rw [if_neg Bool.noConfusion, if_pos wrong]
  exact ⟨_, rfl⟩

theorem Session.Begun.process_tail {header : FrameHeader} (begun : session.Begun receiver header)
    (accepted : header.second_verdict receiver.new_request = 0) :
    ∃ next, session.temp_header_.process (session.temp_header_.filled session.heap header)
        receiver.new_request = (0, next, session.temp_header_.filled session.heap header) ∧
      next.rsvc_ = session.temp_header_.rsvc_ ∧
      next.Describes (session.temp_header_.filled session.heap header) header ∧
      next.state_ = if ControlOpcode header.opcode then .CONTROL else .DATA := by
  obtain ⟨next, result, kept, -, settled⟩ :=
    Header.process_second begun.started receiver.new_request
  rw [accepted] at result
  exact ⟨next, result, kept, settled accepted⟩

theorem Session.Begun.receive_control {header : FrameHeader}
    (begun : session.Begun receiver header) (control : ControlOpcode header.opcode)
    (accepted : header.second_verdict receiver.new_request = 0) :
    ∃ next, session.receive (session.headerRead 2 header.tail.length) header.tail =
        some (next, [.async_read next.controlRead]) ∧
      next.Known receiver header ∧ next.controlRead.count = header.length := by
  have arrived : session.receive (session.headerRead 2 header.tail.length) header.tail =
      { session with heap := session.temp_header_.filled session.heap header }.handle_read_header
        false := rfl
  obtain ⟨next, result, kept, described, state⟩ := begun.process_tail accepted
  rw [if_pos control] at state
  obtain ⟨fin, short⟩ := header.control_of_verdict receiver.new_request control accepted
  have final : next.is_fin (session.temp_header_.filled session.heap header) = true := by
    rw [Header.is_fin_eq, described.first]
    exact fin
  refine ⟨{ session with
    heap := session.temp_header_.filled session.heap header
    temp_header_ := next
    control_ := session.control_.new_buffer }, ?_, ?_, ?_⟩
  · rw [arrived]
    unfold handle_read_header
    simp only [begun.new_request, result, Header.state, state, final]
    rfl
  · have tracks := begun.toTracks.reheader next
      (session.temp_header_.filled session.heap header) kept
    exact ⟨⟨tracks.rsvc, tracks.new_request, tracks.is_binary, tracks.valid, tracks.utf8,
      tracks.holds, tracks.total⟩, described⟩
  · change transfer_exactly 129 next.payload_size_ = _
    unfold transfer_exactly
    rw [described.payload]
    change min 129 header.length = header.length
    omega

/-- A data frame is under way: `data` is what has been read of its payload. -/
structure Session.Loading (receiver : Receiver) (session : Session) (header : FrameHeader)
    (data : List UInt8) : Prop where
  rsvc : session.temp_header_.rsvc_ = 0
  opened : receiver.opening.2.valid = true
  described : session.header_.Describes session.heap header
  holds : session.gather_.Holds session.buffer_
    (receiver.opening.1 ++ xorMask header.key 0 data)
  utf8 : session.gather_.utf8_ =
    receiver.validated header.is_binary (xorMask header.key 0 data)
  valid : session.gather_.utf8_.valid = true
  aligned : header.key.SamePhase session.gather_.mask_offset_.toNat data.length
  total : session.gather_.total_size_ =
    UInt64.ofNat (receiver.opening.1.length + header.length)

private theorem toNat_eq (word : UInt64) (number : Nat) (same : word.toNat = number) :
    word = UInt64.ofNat number := by
  rw [← same, UInt64.ofNat_toNat]

theorem Session.Begun.receive_data {header : FrameHeader}
    (begun : session.Begun receiver header) (data : ¬ControlOpcode header.opcode)
    (accepted : header.second_verdict receiver.new_request = 0) :
    ∃ next : Session, session.receive (session.headerRead 2 header.tail.length) header.tail =
        next.read_chunk 0 false ∧ next.Loading receiver header [] := by
  have arrived : session.receive (session.headerRead 2 header.tail.length) header.tail =
      { session with heap := session.temp_header_.filled session.heap header }.handle_read_header
        false := rfl
  obtain ⟨next, result, kept, described, state⟩ := begun.process_tail accepted
  rw [if_neg data] at state
  have length : next.payload_size_ = UInt64.ofNat header.length :=
    toNat_eq _ _ described.payload
  have transferred : (session.header_.transfer next).Describes
      (session.temp_header_.filled session.heap header) header :=
    ⟨described.live, described.first, described.second, described.payload, described.mask,
      described.owner, described.binary⟩
  rw [arrived]
  unfold handle_read_header
  simp only [begun.new_request, result, Header.state, state]
  rw [if_neg Bool.noConfusion, if_neg (not_not.mpr rfl)]
  refine ⟨_, rfl, ?_⟩
  cases between : receiver.new_request with
  | true =>
      have opening : receiver.opening = ([], Utf8.Byte.init) := by
        unfold Receiver.opening
        rw [between]
        rfl
      refine ⟨kept.trans begun.rsvc, ?_, transferred, ?_, ?_, rfl, Mask.samePhase_refl _ _, ?_⟩
      · rw [opening]
        rfl
      · rw [opening]
        exact Gather.holds_new _ rfl
      · unfold Receiver.validated
        rw [opening, xorMask]
        cases header.is_binary <;> rfl
      · rw [opening]
        change 0 + next.payload_size_ = UInt64.ofNat (0 + header.length)
        rw [length, UInt64.zero_add, Nat.zero_add]
  | false =>
      have opening : receiver.opening = (receiver.payload, receiver.utf8) := by
        unfold Receiver.opening
        rw [between]
        rfl
      have holds := begun.holds between
      refine ⟨kept.trans begun.rsvc, ?_, transferred, ?_, ?_, ?_, Mask.samePhase_refl _ _, ?_⟩
      · rw [opening]
        exact begun.valid between
      · rw [opening]
        simp only [xorMask, List.append_nil]
        exact ⟨holds.chunk_size, holds.opened, holds.full, holds.consumed, holds.kept, holds.low,
          holds.high, holds.width⟩
      · change session.gather_.utf8_ = _
        unfold Receiver.validated
        rw [opening, xorMask, begun.utf8 between]
        cases header.is_binary <;> rfl
      · change session.gather_.utf8_.valid = true
        rw [begun.utf8 between, begun.valid between]
      · rw [opening]
        change session.gather_.total_size_ + next.payload_size_ = _
        rw [begun.total between, toNat_eq _ _ holds.consumed, length, UInt64.ofNat_add]

/-! ### The payload of a data frame -/

structure Session.Reading (receiver : Receiver) (session : Session) (header : FrameHeader)
    (data : List UInt8) (count : Nat) : Prop where
  rsvc : session.temp_header_.rsvc_ = 0
  opened : receiver.opening.2.valid = true
  described : session.header_.Describes session.heap header
  planned : session.gather_.Planned session.buffer_
    (receiver.opening.1 ++ xorMask header.key 0 data) count
  utf8 : session.gather_.utf8_ =
    receiver.validated header.is_binary (xorMask header.key 0 data)
  valid : session.gather_.utf8_.valid = true
  aligned : header.key.SamePhase session.gather_.mask_offset_.toNat data.length
  total : session.gather_.total_size_ =
    UInt64.ofNat (receiver.opening.1.length + header.length)

variable {header : FrameHeader} {data : List UInt8}

private theorem length_plain (receiver : Receiver) (header : FrameHeader) (data : List UInt8) :
    (receiver.opening.1 ++ xorMask header.key 0 data).length =
      receiver.opening.1.length + data.length := by
  rw [List.length_append, length_xorMask]

theorem Session.read_chunk_zero (session : Session) (result : Nat × Gather × ChunkVector)
    (planned : session.gather_.plan session.buffer_ (session.header_.is_fin session.heap) =
      some result) :
    session.read_chunk 0 false =
      some ({ session with
        new_request_ := session.header_.is_fin session.heap
        gather_ := result.2.1
        buffer_ := result.2.2 }.after_gather result.1) := by
  unfold read_chunk Gather.read_chunk
  simp only [planned]
  rfl

private theorem Session.read_chunk_zero_none (session : Session)
    (planned : session.gather_.plan session.buffer_ (session.header_.is_fin session.heap) = none) :
    session.read_chunk 0 false = none := by
  unfold read_chunk Gather.read_chunk
  simp only [planned]
  rfl

theorem Session.Loading.unfinished (loading : session.Loading receiver header data)
    (more : data.length < header.length)
    (narrow : receiver.opening.1.length + header.length < 2 ^ 64) :
    (∃ next count, session.read_chunk 0 false = some (next, [.async_read next.chunkRead]) ∧
        next.Reading receiver header data count ∧ data.length + count ≤ header.length) ∨
      (session.read_chunk 0 false = none ∧
        2 ^ 64 ≤ receiver.opening.1.length + header.length + 1024) := by
  have length := length_plain receiver header data
  have total : session.gather_.total_size_.toNat =
      receiver.opening.1.length + header.length := by
    rw [loading.total, UInt64.toNat_ofNat_of_lt' narrow]
  rcases loading.holds.plan_next (session.header_.is_fin session.heap) (by omega) with
    ⟨next, grown, count, result, planned, utf8, phase, size, consumed⟩ | ⟨result, crowded⟩
  · left
    have last := planned.last
    rw [size] at last
    have positive := planned.positive
    refine ⟨{ session with
      new_request_ := session.header_.is_fin session.heap
      gather_ := next
      buffer_ := grown }, count, ?_, ?_, ?_⟩
    · have distinct : next.total_consumed_ ≠ next.total_size_ := by
        intro equal
        have same := congrArg UInt64.toNat equal
        rw [planned.consumed, size] at same
        omega
      rw [session.read_chunk_zero _ result]
      unfold after_gather
      rw [if_neg (not_not.mpr rfl), if_pos distinct]
      rfl
    · exact ⟨loading.rsvc, loading.opened, loading.described, planned, utf8.trans loading.utf8,
        utf8 ▸ loading.valid, phase ▸ loading.aligned, size.trans loading.total⟩
    · omega
  · right
    exact ⟨session.read_chunk_zero_none result, by omega⟩

theorem Session.Reading.count_chunkRead {count : Nat}
    (reading : session.Reading receiver header data count) : session.chunkRead.count = count := by
  change min session.gather_.next_consume_.toNat session.gather_.next_consume_.toNat = count
  rw [Nat.min_self, reading.planned.next]

private theorem validated_append (receiver : Receiver) (header : FrameHeader)
    (data bytes : List UInt8) (opened : receiver.opening.2.valid = true)
    (valid : (receiver.validated header.is_binary (xorMask header.key 0 data)).valid = true) :
    receiver.validated header.is_binary (xorMask header.key 0 (data ++ bytes)) =
      if header.is_binary then
        receiver.validated header.is_binary (xorMask header.key 0 data)
      else
        (receiver.validated header.is_binary (xorMask header.key 0 data)).feed
          (xorMask header.key data.length bytes) := by
  rw [xorMask_append, Nat.zero_add]
  unfold Receiver.validated at valid ⊢
  cases binary : header.is_binary with
  | true => rfl
  | false =>
      rw [binary] at valid
      exact Utf8.Byte.feed_append _ opened _ _ valid

theorem Session.read_chunk_delivered (session : Session) (amount : UInt64)
    (next : Gather) (after : ChunkVector) (positive : amount ≠ 0)
    (unmasked : session.gather_.unmask session.header_ session.heap session.buffer_ amount =
      some (next, after)) (accepted : next.utf8_.valid = true) :
    session.read_chunk amount false =
      { session with
        gather_ := { next with total_consumed_ := next.total_consumed_ + amount }
        buffer_ := after }.read_chunk 0 false := by
  unfold read_chunk Gather.read_chunk
  simp only [if_pos positive, unmasked, Option.bind_eq_bind, Option.bind_some, accepted]
  rfl

theorem Session.read_chunk_rejected (session : Session) (amount : UInt64)
    (next : Gather) (after : ChunkVector) (positive : amount ≠ 0)
    (unmasked : session.gather_.unmask session.header_ session.heap session.buffer_ amount =
      some (next, after)) (rejected : next.utf8_.valid = false) :
    ∃ last : Session, session.read_chunk amount false = some (last, last.cancel_socket 1007) := by
  unfold read_chunk Gather.read_chunk
  simp only [if_pos positive, unmasked, Option.bind_eq_bind, Option.bind_some, rejected]
  exact ⟨_, rfl⟩

theorem Session.Reading.receive {count : Nat}
    (reading : session.Reading receiver header data count) (bytes : List UInt8)
    (size : bytes.length = count) :
    (∃ next : Session, session.receive session.chunkRead bytes =
        next.read_chunk 0 false ∧ next.Loading receiver header (data ++ bytes)) ∨
      (∃ next : Session, session.receive session.chunkRead bytes =
          some (next, next.cancel_socket 1007) ∧
        (receiver.validated header.is_binary
          (xorMask header.key 0 (data ++ bytes))).valid = false) := by
  obtain ⟨stored, next, after, storing, unmasked, delivers⟩ :=
    reading.planned.deliver reading.described data.length reading.aligned reading.valid bytes size
  have positive := reading.planned.awaits.next_ne_zero
  have arrived : session.receive session.chunkRead bytes =
      { session with buffer_ := stored }.read_chunk session.gather_.next_consume_ false := by
    unfold Session.receive chunkRead store
    simp only [reading.planned.position, Option.map_some, storing, Option.bind_eq_bind,
      Option.bind_some]
    rfl
  have validator : next.utf8_ =
      receiver.validated header.is_binary (xorMask header.key 0 (data ++ bytes)) := by
    have valid := reading.valid
    rw [reading.utf8] at valid
    rw [delivers.utf8, validated_append receiver header data bytes reading.opened valid,
      reading.utf8]
    rfl
  rw [arrived]
  cases accepted : next.utf8_.valid with
  | true =>
      left
      refine ⟨_, Session.read_chunk_delivered { session with buffer_ := stored } _ next after
        positive unmasked accepted, ?_⟩
      refine ⟨reading.rsvc, reading.opened, reading.described, ?_, validator, accepted, ?_, ?_⟩
      · rw [xorMask_append, Nat.zero_add, ← List.append_assoc]
        exact delivers.holds accepted
      · rw [List.length_append]
        exact delivers.phase accepted
      · exact delivers.total.trans reading.total
  | false =>
      right
      obtain ⟨last, result⟩ := Session.read_chunk_rejected { session with buffer_ := stored } _
        next after positive unmasked accepted
      exact ⟨last, result, by rw [← validator, accepted]⟩

private theorem Session.Loading.settled (loading : session.Loading receiver header data)
    (done : data.length = header.length) :
    session.gather_.total_size_ = session.gather_.total_consumed_ := by
  rw [loading.total, toNat_eq _ _ loading.holds.consumed, length_plain, done]

private theorem Session.Loading.fin_eq (loading : session.Loading receiver header data) :
    session.header_.is_fin session.heap = header.fin := by
  have first := loading.described.first
  rw [Header.is_fin_eq, first]
  rfl

private theorem Session.after_gather_settled (session : Session)
    (settled : session.gather_.total_size_ = session.gather_.total_consumed_)
    (tracks : session.Tracks receiver) :
    ∃ next, session.after_gather 0 =
        (next, (if session.new_request_ then [Action.post session.buffer_] else []) ++
          [.async_read (next.headerRead 0 2)]) ∧
      next.Between receiver := by
  obtain ⟨between, actions⟩ := tracks.read_header
  refine ⟨session.read_header.1, ?_, between⟩
  unfold after_gather
  rw [if_neg (not_not.mpr rfl), if_neg (not_not.mpr settled.symm)]
  simp only [actions]

theorem Session.Loading.finished_incomplete (loading : session.Loading receiver header data)
    (done : data.length = header.length) (fin : header.fin = true)
    (incomplete : (receiver.validated header.is_binary
      (xorMask header.key 0 data)).complete = false) :
    ∃ next : Session, session.read_chunk 0 false = some (next, next.cancel_socket 1007) := by
  have planned : session.gather_.plan session.buffer_ true =
      some (1007, session.gather_, session.buffer_) :=
    Gather.plan_incomplete (loading.settled done) (by rw [loading.utf8, incomplete])
  rw [← fin, ← loading.fin_eq] at planned
  rw [session.read_chunk_zero _ planned]
  exact ⟨_, rfl⟩

theorem Session.Loading.finished_continue (loading : session.Loading receiver header data)
    (done : data.length = header.length) (fin : header.fin = false) :
    ∃ next : Session, session.read_chunk 0 false =
        some (next, [.async_read (next.headerRead 0 2)]) ∧
      next.Between (receiver.after header (xorMask header.key 0 data)) := by
  have settled := loading.settled done
  have planned : session.gather_.plan session.buffer_ false =
      some (0, { session.gather_ with next_consume_ := 0 }, session.buffer_) :=
    Gather.plan_continue settled
  have holds := loading.holds
  rw [← fin, ← loading.fin_eq] at planned
  let last : Session := { session with
    new_request_ := session.header_.is_fin session.heap
    gather_ := { session.gather_ with next_consume_ := 0 } }
  have tracks : last.Tracks (receiver.after header (xorMask header.key 0 data)) :=
    { rsvc := loading.rsvc
      new_request := loading.fin_eq
      is_binary := loading.described.binary
      valid := fun _ => by
        change (receiver.validated header.is_binary (xorMask header.key 0 data)).valid = true
        rw [← loading.utf8, loading.valid]
      utf8 := fun _ => loading.utf8
      holds := fun _ => ⟨holds.chunk_size, holds.opened, holds.full, holds.consumed, holds.kept,
        holds.low, holds.high, holds.width⟩
      total := fun _ => settled }
  obtain ⟨next, result, between⟩ := last.after_gather_settled settled tracks
  have open_ : last.new_request_ = false := loading.fin_eq.trans fin
  rw [open_] at result
  refine ⟨next, ?_, between⟩
  rw [session.read_chunk_zero _ planned]
  exact congrArg some result

theorem Session.Loading.finished_complete (loading : session.Loading receiver header data)
    (done : data.length = header.length) (fin : header.fin = true)
    (complete : (receiver.validated header.is_binary
      (xorMask header.key 0 data)).complete = true) :
    ∃ (next : Session) (request : ChunkVector), session.read_chunk 0 false =
        some (next, [.post request, .async_read (next.headerRead 0 2)]) ∧
      request.bytes = receiver.opening.1 ++ xorMask header.key 0 data ∧
      next.Between (receiver.after header (xorMask header.key 0 data)) := by
  have settled := loading.settled done
  obtain ⟨closed, planned, bytes⟩ :=
    loading.holds.plan_complete settled (by rw [loading.utf8, complete])
  rw [← fin, ← loading.fin_eq] at planned
  let last : Session := { session with
    new_request_ := session.header_.is_fin session.heap
    gather_ := { session.gather_ with next_consume_ := 0 }
    buffer_ := closed }
  have ended : (receiver.after header (xorMask header.key 0 data)).new_request ≠ false := by
    change header.fin ≠ false
    rw [fin]
    exact Bool.noConfusion
  have tracks : last.Tracks (receiver.after header (xorMask header.key 0 data)) :=
    { rsvc := loading.rsvc
      new_request := loading.fin_eq
      is_binary := loading.described.binary
      valid := fun inside => absurd inside ended
      utf8 := fun inside => absurd inside ended
      holds := fun inside => absurd inside ended
      total := fun inside => absurd inside ended }
  obtain ⟨next, result, between⟩ := last.after_gather_settled settled tracks
  have closing : last.new_request_ = true := loading.fin_eq.trans fin
  rw [closing] at result
  refine ⟨next, closed, ?_, bytes, between⟩
  rw [session.read_chunk_zero _ planned]
  exact congrArg some result

/-- Once the counter of the message has wrapped, the session cannot go on: the
read it asks for does not fit the chunk. -/
theorem Session.Loading.wrapped (loading : session.Loading receiver header [])
    (wide : 2 ^ 64 ≤ receiver.opening.1.length + header.length) :
    session.read_chunk 0 false = none ∨
      ∃ next : Session, session.read_chunk 0 false =
          some (next, [.async_read next.chunkRead]) ∧
        ∀ bytes, bytes.length = next.chunkRead.count →
          next.receive next.chunkRead bytes = none := by
  have fits := header.length_lt
  have low := loading.holds.low
  have width := loading.holds.width
  have length := length_plain receiver header []
  rw [List.length_nil, Nat.add_zero] at length
  have total : session.gather_.total_size_.toNat =
      receiver.opening.1.length + header.length - 2 ^ 64 := by
    rw [loading.total, UInt64.toNat_ofNat']
    omega
  rcases loading.holds.plan_wrapped (session.header_.is_fin session.heap) (by omega) with
    result | ⟨next, grown, result, size, consumed, position, outside⟩
  · exact Or.inl (session.read_chunk_zero_none result)
  · right
    have distinct : next.total_consumed_ ≠ next.total_size_ := by
      intro equal
      have same := congrArg UInt64.toNat equal
      rw [consumed, loading.holds.consumed, size] at same
      omega
    refine ⟨{ session with
      new_request_ := session.header_.is_fin session.heap
      gather_ := next
      buffer_ := grown }, ?_, ?_⟩
    · rw [session.read_chunk_zero _ result]
      unfold after_gather
      rw [if_neg (not_not.mpr rfl), if_pos distinct]
      rfl
    · intro bytes count
      change bytes.length = min next.next_consume_.toNat next.next_consume_.toNat at count
      rw [Nat.min_self] at count
      unfold Session.receive chunkRead store
      simp only [position, Option.map_some, outside bytes count, Option.bind_eq_bind,
        Option.bind_none]

theorem Session.Known.receive_other (known : session.Known receiver header)
    (bytes : List UInt8) (opcode : header.opcode = 0x09 ∨ header.opcode = 0x0A) :
    ∃ (next : Session) (replies : List WriteOp),
      session.receive session.controlRead bytes =
        some (next, replies.map Action.async_write ++ [.async_read (next.headerRead 0 2)]) ∧
      replies.length ≤ 1 ∧ (∀ reply ∈ replies, reply.handler = .ping) ∧
      next.Between receiver := by
  let loaded : Session := { session with
    control_ := { session.control_ with
      buffer_ := session.control_.buffer_.write Control.payload_begin bytes } }
  have arrived : session.receive session.controlRead bytes = loaded.handle_control_read false :=
    rfl
  have tracks (control : Control) : { loaded with control_ := control }.Tracks receiver :=
    ⟨known.rsvc, known.new_request, known.is_binary, known.valid, known.utf8, known.holds,
      known.total⟩
  have described : loaded.temp_header_.Describes loaded.heap header := known.described
  rw [arrived]
  unfold handle_control_read
  rcases opcode with ping | pong
  · obtain ⟨control, result, state⟩ : ∃ control,
        loaded.control_.process loaded.temp_header_ loaded.heap = some (0, control) ∧
          control.state_ = .PING := Control.process_ping described ping
    obtain ⟨between, actions⟩ := (tracks control).read_header
    simp only [result, state, Option.bind_eq_bind, Option.bind_some]
    rw [if_neg Bool.noConfusion, if_neg (not_not.mpr rfl)]
    refine ⟨_, [{ handler := .ping, bytes := control.reply }], ?_, Nat.le_refl 1, ?_, between⟩
    · simp only [actions]
      rfl
    · intro reply member
      rw [List.mem_singleton.mp member]
  · obtain ⟨control, result, state⟩ : ∃ control,
        loaded.control_.process loaded.temp_header_ loaded.heap = some (0, control) ∧
          control.state_ = .PONG := Control.process_pong described pong
    obtain ⟨between, actions⟩ := (tracks control).read_header
    simp only [result, state, Option.bind_eq_bind, Option.bind_some]
    rw [if_neg Bool.noConfusion, if_neg (not_not.mpr rfl)]
    refine ⟨_, [], ?_, Nat.zero_le 1, ?_, between⟩
    · rw [← actions]
      rfl
    · intro reply member
      cases member

theorem Session.Known.receive_close (known : session.Known receiver header)
    (bytes : List UInt8) (size : bytes.length = header.length) (short : header.length ≤ 125)
    (opcode : header.opcode = 0x08) :
    ∃ next : Session,
      (2 ≤ header.length ∧ ¬WellFormed (Control.reason header bytes) →
        session.receive session.controlRead bytes = some (next, next.cancel_socket 1007)) ∧
      (¬(2 ≤ header.length ∧ ¬WellFormed (Control.reason header bytes)) →
        session.receive session.controlRead bytes =
          some (next, [.async_write { handler := .kill, bytes := next.control_.reply }])) := by
  let loaded : Session := { session with
    control_ := { session.control_ with
      buffer_ := session.control_.buffer_.write Control.payload_begin bytes } }
  have arrived : session.receive session.controlRead bytes = loaded.handle_control_read false :=
    rfl
  have described : loaded.temp_header_.Describes loaded.heap header := known.described
  obtain ⟨control, result, state⟩ := Control.process_close described opcode
    (Control.arrived_write session.control_ header bytes size short)
  change loaded.control_.process loaded.temp_header_ loaded.heap = _ at result
  refine ⟨{ loaded with control_ := control }, fun broken => ?_, fun whole => ?_⟩
  · rw [if_pos broken] at result
    rw [arrived]
    unfold handle_control_read
    simp only [result, Option.bind_eq_bind, Option.bind_some]
    rfl
  · rw [if_neg whole] at result
    rw [arrived]
    unfold handle_control_read
    simp only [result, Option.bind_eq_bind, Option.bind_some, state whole]
    rfl

end Stages

end Averyws
