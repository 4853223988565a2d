/-
The regions the payload reads fill.

As long as the lengths a message declares sum to less than the width of the
counter, every payload read stays inside the last chunk of the buffer.  A sum
that wraps leaves the counter behind what has been consumed, and the next read
is as long as the difference modulo the width.
-/

import Averyws.SessionRun

namespace Averyws

open Library.Bytes Library.Run
open Utilities

/-- A read that `read_chunk` has issued fills a region of the last chunk; the
difference is taken modulo the width of the counters. -/
def Session.ReadBounded (session : Session) (op : ReadOp) : Prop :=
  ∀ previous_read, op.handler = .read_chunk previous_read →
    0 < session.gather_.next_consume_ ∧
    session.gather_.next_consume_ ≤ session.buffer_.size - session.gather_.total_consumed_ ∧
    op.count = session.gather_.next_consume_.toNat ∧
    ∃ position, op.target = some (.chunk position) ∧
      position.chunk + 1 = session.buffer_.chunk_vector_.length ∧
      session.buffer_.Inside position op.count

section Planned

variable {gather : Gather} {buffer : ChunkVector} {plain : List UInt8} {count : Nat}

theorem Gather.Planned.next_consume_le (planned : gather.Planned buffer plain count) :
    gather.next_consume_ ≤ buffer.size - gather.total_consumed_ := by
  have size := planned.full.size_toNat planned.width
  have inside := planned.inside
  have behind : gather.total_consumed_ ≤ buffer.size := by
    rw [UInt64.le_iff_toNat_le, planned.consumed, size]
    omega
  rw [UInt64.le_iff_toNat_le, UInt64.toNat_sub_of_le _ _ behind, planned.next, planned.consumed,
    size]
  omega

theorem Gather.Planned.in_last_chunk (planned : gather.Planned buffer plain count) :
    (buffer.position plain.length).chunk + 1 = buffer.chunk_vector_.length ∧
      buffer.Inside (buffer.position plain.length) count := by
  have chunk : buffer.chunk_size_.toNat = 1024 := by rw [planned.chunk_size]; rfl
  have length := planned.full.length_bytes
  have positive := planned.positive
  have inside := planned.inside
  have high := planned.high
  rw [chunk] at length
  constructor
  · change plain.length / buffer.chunk_size_.toNat + 1 = _
    rw [chunk]
    omega
  · apply planned.full.inside_position _ _ (by omega)
    rw [chunk]
    omega

end Planned

theorem Session.Reading.bounded {receiver : Receiver} {session : Session} {header : FrameHeader}
    {data : List UInt8} {count : Nat} (reading : session.Reading receiver header data count) :
    session.ReadBounded session.chunkRead := by
  intro _ _
  have planned := reading.planned
  have size := reading.count_chunkRead
  obtain ⟨last, inside⟩ := planned.in_last_chunk
  refine ⟨?_, planned.next_consume_le, size.trans planned.next.symm, _, ?_, last, ?_⟩
  · rw [UInt64.lt_iff_toNat_lt, planned.next]
    exact planned.positive
  · unfold chunkRead
    rw [planned.position]
    rfl
  · rw [size]
    exact inside

theorem Session.Stage.bounded {session : Session} {op : ReadOp} (stage : session.Stage op) :
    session.ReadBounded op := by
  cases stage with
  | between receiver state here =>
      intro _ chunk
      rw [here] at chunk
      cases chunk
  | begun receiver header state here =>
      intro _ chunk
      rw [here] at chunk
      cases chunk
  | known receiver header state control short here count =>
      intro _ chunk
      rw [here] at chunk
      cases chunk
  | reading receiver header data count state narrow within here =>
      rw [here]
      exact state.bounded

instance (session : Session) (op : ReadOp) (bytes : List UInt8) :
    Decidable (session.Fits op bytes) :=
  match found : session.declared op bytes with
  | none => isTrue fun length here => by
      rw [found] at here
      cases here
  | some length =>
      if fits : session.declared_before + length < 2 ^ 64 then
        isTrue fun other here => by
          rw [found] at here
          cases here
          exact fits
      else isFalse fun all => fits (all length found)

/-- A read that completes a data header declares a length that fits. -/
def Connection.Declares (connection : Connection) : Stimulus → Prop
  | .socket (.read index) =>
      match connection.reads[index]? with
      | none => True
      | some op => connection.session.Fits op (connection.input.take op.count)
  | _ => True

instance (connection : Connection) (stimulus : Stimulus) :
    Decidable (connection.Declares stimulus) := by
  unfold Connection.Declares
  split
  · split <;> exact inferInstance
  · exact inferInstance

def Connection.Staged (connection : Connection) : Prop :=
  ∀ op ∈ connection.reads, connection.session.Stage op

namespace Connection

variable {sha1 : List UInt8 → Digest} {before after : Connection} {actions : List Action}

theorem Staged.of_idle (connection : Connection) (idle : connection.reads = []) :
    connection.Staged := by
  intro op member
  rw [idle] at member
  cases member

private theorem Staged.of_aftermath (before : Connection) {next : Session} {crowded : Prop}
    (aftermath : next.Aftermath crowded actions) (idle : before.reads = []) (roomy : ¬crowded) :
    ({ before with session := next }.performs actions).Staged := by
  rw [performs_eq]
  cases aftermath with
  | fail code => exact Staged.of_idle _ ((List.append_nil _).trans idle)
  | close => exact Staged.of_idle _ ((List.append_nil _).trans idle)
  | onward replies requests later few pings stage =>
      intro op member
      rw [onward_reads, idle] at member
      cases List.mem_singleton.mp member
      rcases stage with stage | stuck
      · exact stage
      · exact absurd stuck.1 roomy

private theorem Staged.complete_read (phase : before.Phase) (staged : before.Staged) {index : Nat}
    (declares : before.Declares (.socket (.read index)))
    (done : before.complete_read index = some (after, actions)) : after.Staged := by
  obtain ⟨op, session, found, enough, received, rfl⟩ := complete_read_cases done
  have size : (before.input.take op.count).length = op.count := List.length_take_of_le enough
  have stage := staged op (List.mem_of_getElem? found)
  obtain ⟨rfl, here, -⟩ := phase.of_read found
  unfold Declares at declares
  simp only [found] at declares
  refine Staged.of_aftermath { before with
    reads := before.reads.eraseIdx 0
    input := before.input.drop op.count } (stage.aftermath _ size received) ?_
    (not_not.mpr declares)
  rw [here.reads]
  rfl

theorem Staged.respond (phase : before.Phase) (staged : before.Staged) {stimulus : Stimulus}
    (declares : before.Declares stimulus)
    (done : before.respond sha1 stimulus = some (after, actions)) : after.Staged := by
  cases stimulus with
  | write data is_binary =>
      cases done
      exact staged
  | socket event =>
      cases event with
      | read_first count =>
          obtain ⟨starting, -, -, -, session, received, rfl⟩ := complete_first_cases done
          obtain ⟨here, -⟩ := phase.of_starting starting
          apply Staged.of_idle
          rw [performs_eq]
          rcases Session.receive_first_cases received with ⟨rfl, -⟩ | ⟨reply, rfl, -⟩
          · exact (List.append_nil _).trans here.reads
          · exact (List.append_nil _).trans here.reads
      | fail_first =>
          obtain ⟨starting, rfl, rfl⟩ := fail_first_cases done
          exact staged
      | read index => exact staged.complete_read phase declares done
      | fail_read index =>
          obtain ⟨-, rfl, rfl⟩ := fail_read_cases done
          intro op member
          exact staged op (List.mem_of_mem_eraseIdx member)
      | write_some index count =>
          obtain ⟨next, taken, same⟩ := Option.map_eq_some_iff.mp done
          cases same
          obtain ⟨out, -, -, -, -, rfl⟩ := write_some_cases taken
          exact staged
      | written index error =>
          obtain ⟨out, found, pending, -, outcome⟩ := complete_write_cases done
          rcases outcome with ⟨handshake, -, -, rfl⟩ | ⟨-, -, rfl⟩
          · obtain ⟨here, new_request, rsvc⟩ := phase.of_answers found
              (by simp [Outgoing.answers, handshake, pending])
            obtain ⟨between, -⟩ := (Session.tracks_rest new_request rsvc).read_header
            intro op member
            rw [here.reads] at member
            rw [List.mem_singleton.mp member]
            exact .between _ between rfl
          · exact staged

theorem staged_of_run {input : List UInt8} {first final : Connection}
    (accepted : Connection.accept input = some first)
    (run : Reaches (next sha1) Declares first final) : final.Phase ∧ final.Staged := by
  apply run.invariant fun connection => connection.Phase ∧ connection.Staged
  · intro before stimulus after holds declares taken
    obtain ⟨⟨next, actions⟩, done, same⟩ := Option.map_eq_some_iff.mp taken
    cases same
    exact ⟨holds.1.respond done, holds.2.respond holds.1 declares done⟩
  · have phase := phase_accept accepted
    refine ⟨phase, Staged.of_idle _ ?_⟩
    unfold accept at accepted
    obtain ⟨session, -, same⟩ := Option.bind_eq_some_iff.mp accepted
    cases same
    rfl

end Connection

/-- In every run in which each data header declares a length that keeps the
message below `2 ^ 64` bytes, every read of a payload stays inside the last chunk. -/
theorem chunk_reads_bounded (sha1 : List UInt8 → Digest) {input : List UInt8}
    {first final : Connection} (accepted : Connection.accept input = some first)
    (run : Reaches (Connection.next sha1) Connection.Declares first final) :
    ∀ op ∈ final.reads, final.session.ReadBounded op := by
  intro op member
  exact ((Connection.staged_of_run accepted run).2 op member).bounded

theorem chunk_reads_bounded_three :
    ∃ final : Connection, (∃ op ∈ final.reads, op.handler = .read_chunk 3) ∧
      ∀ op ∈ final.reads, final.session.ReadBounded op := by
  obtain ⟨first, final, accepted, run, waits⟩ := Reaches.of_trace_any
    (Connection.next zeroDigest) Connection.Declares
    (Connection.accept (sampleRequest ++ [0x82, 0x03, 0x01, 0x02, 0x03]))
    (fun final => decide (∃ op ∈ final.reads, op.handler = .read_chunk 3))
    (sampleHandshake ++ [.socket (.read 0), .socket (.read 0)]) (by decide +kernel)
  exact ⟨final, of_decide_eq_true waits, chunk_reads_bounded zeroDigest accepted run⟩

/-- A fragment of one byte, then one that declares `2 ^ 64 - 1` bytes: the sum is
zero, and the next read is of `2 ^ 64 - 1` bytes. -/
theorem chunk_read_leaves_chunk :
    ¬∀ (sha1 : List UInt8 → Digest) (input : List UInt8) (first final : Connection),
      Connection.accept input = some first →
      Reaches (Connection.next sha1) anyEvent first final →
      ∀ op ∈ final.reads, final.session.ReadBounded op := by
  intro bounded
  obtain ⟨first, final, accepted, run, leaves⟩ := Reaches.of_trace_any
    (Connection.next zeroDigest) anyEvent
    (Connection.accept (sampleRequest ++
      [0x02, 0x01, 0x78, 0x80, 0x7F, 0xFF, 0xFF, 0xFF, 0xFF, 0xFF, 0xFF, 0xFF, 0xFF]))
    (fun final => decide (∃ op ∈ final.reads, op.handler = .read_chunk (2 ^ 64 - 1) ∧
      ¬final.session.gather_.next_consume_ ≤
        final.session.buffer_.size - final.session.gather_.total_consumed_))
    (sampleHandshake ++ List.replicate 5 (.socket (.read 0))) (by decide +kernel)
  obtain ⟨op, member, chunk, large⟩ := of_decide_eq_true leaves
  exact large (bounded zeroDigest _ first final accepted run op member _ chunk).2.1

end Averyws
