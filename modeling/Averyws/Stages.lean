/-
The stages of a session in every state it can reach.

While a read is outstanding the session is in one of the stages of a frame, and
whatever bytes arrive its handler fails, closes, or asks for exactly one further
read in such a stage.  There is one exception: a frame whose declared length
makes the counter of its message wrap.
-/

import Averyws.HeaderBytes
import Averyws.ReadChain

namespace Averyws

open Library.Bytes Library.Cells Library.Run Library.Utf8
open Utilities

inductive Session.Stage (session : Session) (op : ReadOp) : Prop
  | between (receiver : Receiver) (state : session.Between receiver)
      (here : op = session.headerRead 0 2)
  | begun (receiver : Receiver) (header : FrameHeader) (state : session.Begun receiver header)
      (here : op = session.headerRead 2 header.tail.length)
  | known (receiver : Receiver) (header : FrameHeader) (state : session.Known receiver header)
      (control : ControlOpcode header.opcode) (short : header.length ≤ 125)
      (here : op = session.controlRead) (count : session.controlRead.count = header.length)
  | reading (receiver : Receiver) (header : FrameHeader) (data : List UInt8) (count : Nat)
      (state : session.Reading receiver header data count)
      (narrow : receiver.opening.1.length + header.length < 2 ^ 64)
      (within : data.length + count ≤ header.length) (here : op = session.chunkRead)

/-- A read of a payload that no delivery can complete. -/
def Session.Stalled (session : Session) (op : ReadOp) : Prop :=
  op = session.chunkRead ∧
    ∀ bytes, bytes.length = op.count → session.receive op bytes = none

/-- What a handler has started when it returns. -/
inductive Session.Aftermath (crowded : Prop) (next : Session) : List Action → Prop
  | fail (code : UInt16) : Aftermath crowded next (next.cancel_socket code)
  | close : Aftermath crowded next
      [.async_write { handler := .kill, bytes := next.control_.reply }]
  | onward (replies : List WriteOp) (requests : List ChunkVector) (later : ReadOp)
      (few : replies.length ≤ 1) (pings : ∀ reply ∈ replies, reply.handler = .ping)
      (stage : next.Stage later ∨ crowded ∧ next.Stalled later) :
      Aftermath crowded next
        (replies.map Action.async_write ++ requests.map Action.post ++ [.async_read later])

theorem Session.Aftermath.read {crowded : Prop} {next : Session} (later : ReadOp)
    (stage : next.Stage later ∨ crowded ∧ next.Stalled later) :
    next.Aftermath crowded [.async_read later] :=
  .onward [] [] later (Nat.zero_le 1) (fun _ member => absurd member List.not_mem_nil) stage

section Onward

variable (replies : List WriteOp) (requests : List ChunkVector) (later : ReadOp)

theorem onward_reads : (replies.map Action.async_write ++ requests.map Action.post ++
    [Action.async_read later]).filterMap Action.read? = [later] := by
  simp [List.filterMap_append, List.filterMap_map, Function.comp_def, Action.read?]

theorem onward_writes : (replies.map Action.async_write ++ requests.map Action.post ++
    [Action.async_read later]).filterMap Action.write? = replies := by
  simp [List.filterMap_append, List.filterMap_map, Function.comp_def, Action.write?]

end Onward

theorem Session.Aftermath.writes {crowded : Prop} {next : Session} {actions : List Action}
    (aftermath : next.Aftermath crowded actions) :
    (actions.filterMap Action.write?).length ≤ 1 ∧
      ∀ op ∈ actions.filterMap Action.write?, op.handler ≠ .handshake ∧ op.handler ≠ .write := by
  cases aftermath with
  | fail code =>
      refine ⟨Nat.le_refl 1, fun op member => ?_⟩
      rw [List.mem_singleton.mp member]
      exact ⟨WriteHandler.noConfusion, WriteHandler.noConfusion⟩
  | close =>
      refine ⟨Nat.le_refl 1, fun op member => ?_⟩
      rw [List.mem_singleton.mp member]
      exact ⟨WriteHandler.noConfusion, WriteHandler.noConfusion⟩
  | onward replies requests later few pings stage =>
      rw [onward_writes]
      refine ⟨few, fun op member => ?_⟩
      rw [pings op member]
      exact ⟨WriteHandler.noConfusion, WriteHandler.noConfusion⟩

def Session.declared (session : Session) (op : ReadOp) (bytes : List UInt8) : Option Nat := do
  let session ← session.store op.target bytes
  match op.handler with
  | .handle_read_header =>
      let (rcode, header, _) := session.temp_header_.process session.heap session.new_request_
      if rcode = 0 ∧ header.state = .DATA then some header.payload_size.toNat else none
  | _ => none

def Session.declared_before (session : Session) : Nat :=
  if session.new_request_ then 0 else session.gather_.total_size_.toNat

/-- The declared length leaves the counter of the message below its width. -/
def Session.Fits (session : Session) (op : ReadOp) (bytes : List UInt8) : Prop :=
  ∀ length, session.declared op bytes = some length →
    session.declared_before + length < 2 ^ 64

section Receive

variable {session next : Session} {actions : List Action} {receiver : Receiver}
  {header : FrameHeader} {data : List UInt8}

private theorem eq_of_some {result other : Session × List Action} {crowded : Prop}
    (received : some result = some other) (aftermath : result.1.Aftermath crowded result.2) :
    other.1.Aftermath crowded other.2 := by
  cases received
  exact aftermath

theorem Session.Loading.aftermath (loading : session.Loading receiver header data)
    (within : data.length ≤ header.length)
    (narrow : receiver.opening.1.length + header.length < 2 ^ 64) (crowded : Prop)
    (handled : session.read_chunk 0 false = some (next, actions)) :
    next.Aftermath crowded actions := by
  rcases Nat.lt_or_eq_of_le within with more | done
  · rcases loading.unfinished more narrow with ⟨last, count, result, reading, inside⟩ | ⟨result, -⟩
    · rw [result] at handled
      exact eq_of_some handled (.read _ (Or.inl
        (.reading receiver header data count reading narrow inside rfl)))
    · rw [result] at handled
      cases handled
  · cases fin : header.fin with
    | false =>
        obtain ⟨last, result, between⟩ := loading.finished_continue done fin
        rw [result] at handled
        exact eq_of_some handled (.read _ (Or.inl (.between _ between rfl)))
    | true =>
        cases complete : (receiver.validated header.is_binary
            (xorMask header.key 0 data)).complete with
        | false =>
            obtain ⟨last, result⟩ := loading.finished_incomplete done fin complete
            rw [result] at handled
            exact eq_of_some handled (.fail 1007)
        | true =>
            obtain ⟨last, request, result, -, between⟩ :=
              loading.finished_complete done fin complete
            rw [result] at handled
            exact eq_of_some handled (.onward [] [request] _ (Nat.zero_le 1)
              (fun _ member => absurd member List.not_mem_nil) (Or.inl (.between _ between rfl)))

theorem Session.Between.aftermath (between : session.Between receiver) (crowded : Prop)
    (bytes : List UInt8) (size : bytes.length = 2)
    (received : session.receive (session.headerRead 0 2) bytes = some (next, actions)) :
    next.Aftermath crowded actions := by
  obtain ⟨first, second, rfl⟩ := List.length_eq_two.mp size
  obtain ⟨header, rfl, rfl⟩ := FrameHeader.exists_of_two first second
  obtain ⟨rejected, accepted⟩ := between.receive_first header
  by_cases wrong : header.rsv ≠ 0 ∨ ¬KnownOpcode header.opcode
  · obtain ⟨last, result⟩ := rejected wrong
    rw [result] at received
    exact eq_of_some received (.fail 1002)
  · obtain ⟨last, result, begun⟩ := accepted (not_not.mp (not_or.mp wrong).1)
      (not_not.mp (not_or.mp wrong).2)
    rw [result] at received
    exact eq_of_some received (.read _ (Or.inl (.begun receiver header begun rfl)))

theorem Session.Tracks.declared_before (tracks : session.Tracks receiver) :
    session.declared_before = receiver.opening.1.length := by
  unfold Session.declared_before Receiver.opening
  rw [tracks.new_request]
  cases inside : receiver.new_request with
  | true => rfl
  | false =>
      have total := congrArg UInt64.toNat (tracks.total inside)
      rw [(tracks.holds inside).consumed] at total
      exact total

theorem Session.Begun.declared (begun : session.Begun receiver header)
    (data : ¬ControlOpcode header.opcode)
    (accepted : header.second_verdict receiver.new_request = 0) :
    session.declared (session.headerRead 2 header.tail.length) header.tail =
      some header.length := by
  obtain ⟨next, result, -, described, state⟩ := begun.process_tail accepted
  rw [if_neg data] at state
  have arrived : session.declared (session.headerRead 2 header.tail.length) header.tail =
      let (rcode, reader, _) := session.temp_header_.process
        (session.temp_header_.filled session.heap header) session.new_request_
      if rcode = 0 ∧ reader.state = .DATA then some reader.payload_size.toNat else none := rfl
  rw [arrived, begun.new_request]
  simp only [result, Header.state, state, and_self, if_true, Header.payload_size,
    described.payload]

theorem Session.Begun.aftermath (begun : session.Begun receiver header)
    (bytes : List UInt8) (size : bytes.length = header.tail.length)
    (received : session.receive (session.headerRead 2 header.tail.length) bytes =
      some (next, actions)) :
    next.Aftermath (¬session.Fits (session.headerRead 2 header.tail.length) bytes) actions := by
  obtain ⟨other, alike, tail⟩ := header.exists_of_tail bytes size
  have begun : session.Begun receiver other := ⟨begun.toTracks, begun.started.alike alike⟩
  subst tail
  rw [← size] at received ⊢
  by_cases refused : other.second_verdict receiver.new_request ≠ 0
  · obtain ⟨last, result⟩ := begun.receive_rejected refused
    rw [result] at received
    exact eq_of_some received (.fail _)
  · have accepted := not_not.mp refused
    by_cases control : ControlOpcode other.opcode
    · obtain ⟨last, result, known, count⟩ := begun.receive_control control accepted
      have short := (other.control_of_verdict _ control accepted).2
      rw [result] at received
      exact eq_of_some received
        (.read _ (Or.inl (.known receiver other known control short rfl count)))
    · obtain ⟨last, result, loading⟩ := begun.receive_data control accepted
      rw [result] at received
      by_cases narrow : receiver.opening.1.length + other.length < 2 ^ 64
      · exact loading.aftermath (Nat.zero_le _) narrow _ received
      · have wide := Nat.not_lt.mp narrow
        have large : ¬session.Fits (session.headerRead 2 other.tail.length) other.tail := by
          intro fits
          have bound := fits _ (begun.declared control accepted)
          rw [begun.declared_before] at bound
          exact narrow bound
        rcases loading.wrapped wide with none | ⟨final, planned, stuck⟩
        · rw [none] at received
          cases received
        · rw [planned] at received
          exact eq_of_some received (.read _ (Or.inr ⟨large, rfl, stuck⟩))

theorem Session.Known.aftermath (known : session.Known receiver header)
    (control : ControlOpcode header.opcode) (short : header.length ≤ 125) (crowded : Prop)
    (bytes : List UInt8) (size : bytes.length = header.length)
    (received : session.receive session.controlRead bytes = some (next, actions)) :
    next.Aftermath crowded actions := by
  rcases control with closing | other
  · obtain ⟨last, broken, whole⟩ := known.receive_close bytes size short closing
    by_cases wrong : 2 ≤ header.length ∧ ¬WellFormed (Control.reason header bytes)
    · rw [broken wrong] at received
      exact eq_of_some received (.fail 1007)
    · rw [whole wrong] at received
      exact eq_of_some received .close
  · obtain ⟨last, replies, result, few, pings, between⟩ := known.receive_other bytes other
    rw [result] at received
    have onward : last.Aftermath crowded _ :=
      .onward replies [] _ few pings (Or.inl (.between _ between rfl))
    rw [List.map_nil, List.append_nil] at onward
    exact eq_of_some received onward

theorem Session.Reading.aftermath {count : Nat}
    (reading : session.Reading receiver header data count)
    (narrow : receiver.opening.1.length + header.length < 2 ^ 64)
    (within : data.length + count ≤ header.length) (crowded : Prop) (bytes : List UInt8)
    (size : bytes.length = count)
    (received : session.receive session.chunkRead bytes = some (next, actions)) :
    next.Aftermath crowded actions := by
  rcases reading.receive bytes size with ⟨last, result, loading⟩ | ⟨last, result, -⟩
  · rw [result] at received
    exact loading.aftermath (by rw [List.length_append, size]; exact within) narrow _ received
  · rw [result] at received
    exact eq_of_some received (.fail 1007)

/-- Whatever the outstanding read delivers, the session stays in the stages. -/
theorem Session.Stage.aftermath {op : ReadOp} (stage : session.Stage op) (bytes : List UInt8)
    (size : bytes.length = op.count) (received : session.receive op bytes = some (next, actions)) :
    next.Aftermath (¬session.Fits op bytes) actions := by
  cases stage with
  | between receiver state here =>
      subst here
      exact state.aftermath _ bytes size received
  | begun receiver header state here =>
      subst here
      exact state.aftermath bytes size received
  | known receiver header state control short here count =>
      subst here
      exact state.aftermath control short _ bytes (size.trans count) received
  | reading receiver header data count state narrow within here =>
      subst here
      exact state.aftermath narrow within _ bytes (size.trans state.count_chunkRead) received

end Receive

end Averyws
