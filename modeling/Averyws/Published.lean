/-
From the bytes of a client to the messages of the dealer.

Of a run of the server a session sees its own stimuli only, so what it reads of its
client is whole frames, whatever the other sessions and the threads do.  The request of
a message leaves as one message of several parts, and these parts hold its bytes.
-/

import Averyws.Dealer
import Averyws.Drain
import Averyws.Memory
import Averyws.Upstream

namespace Averyws

open Library.Chunks Library.Run Library.Code
open Utilities

def Event.client? : Event → Option (List UInt8)
  | .accept input => some input
  | _ => none

def Event.opened (session : Nat) : Event → Nat
  | .socket target (.read_first count) => if target = session then count else 0
  | _ => 0

namespace Server

variable {sha1 : List UInt8 → Digest} {before after : Server} {event : Event}

def clients (events : List Event) : List (List UInt8) :=
  events.filterMap Event.client?

def opened (session : Nat) (events : List Event) : Nat :=
  (events.map (Event.opened session)).sum

def gives (session : Nat) (self : Server) (event : Event) : List Stimulus :=
  match self.stimulus event with
  | none => []
  | some (target, stimulus) => if target = session then [stimulus] else []

def stimuli (sha1 : List UInt8 → Digest) (num_threads session : Nat) (events : List Event) :
    List Stimulus :=
  observed (step sha1) (gives session) (start num_threads) events

theorem gives_of_given {session : Nat} {stimulus : Stimulus}
    (given : before.stimulus event = some (session, stimulus)) :
    before.gives session event = [stimulus] := by
  unfold gives
  rw [given]
  exact if_pos rfl

theorem gives_of_other {session : Nat}
    (other : ∀ stimulus, before.stimulus event ≠ some (session, stimulus)) :
    before.gives session event = [] := by
  unfold gives
  cases given : before.stimulus event with
  | none => rfl
  | some pair =>
      obtain ⟨target, stimulus⟩ := pair
      refine if_neg ?_
      rintro rfl
      exact other stimulus given

theorem gives_opened (server : Server) (session : Nat) (event : Event) :
    ((server.gives session event).map Stimulus.opened).sum = event.opened session := by
  cases event with
  | socket target inner =>
      have given : server.gives session (.socket target inner) =
          if target = session then [.socket inner] else [] := rfl
      rw [given]
      split
      next same =>
        rw [List.map_singleton, List.sum_singleton]
        cases inner with
        | read_first count => exact (if_pos same).symm
        | fail_first => rfl
        | read index => rfl
        | fail_read index => rfl
        | write_some index count => rfl
        | written index error => rfl
      next apart =>
        cases inner with
        | read_first count => exact (if_neg apart).symm
        | fail_first => rfl
        | read index => rfl
        | fail_read index => rfl
        | write_some index count => rfl
        | written index error => rfl
  | dispatch thread =>
      unfold gives
      split
      next => rfl
      next target stimulus given =>
        cases stimulus with
        | socket inner => cases stimulus_socket given
        | write data is_binary => split <;> rfl
  | accept input => rfl
  | broadcast data is_binary => rfl
  | take thread => rfl
  | strand => rfl

theorem opened_of_run {num_threads : Nat} {events : List Event} {server : Server}
    (run : Runs (step sha1) (start num_threads) events server) (session : Nat) :
    Connection.opened (stimuli sha1 num_threads session events) = opened session events := by
  induction run with
  | start => rfl
  | @next events before after event run taken ih =>
      have here := before.gives_opened session event
      unfold Connection.opened stimuli opened at ih ⊢
      rw [run.observed_next _ taken, List.map_append, List.sum_append, List.map_append,
        List.sum_append, ih, here, List.map_singleton, List.sum_singleton]

theorem step_clients (taken : before.step sha1 event = some after) :
    after.connections.length = before.connections.length + (clients [event]).length := by
  cases event with
  | accept input =>
      obtain ⟨connection, -, rfl⟩ := accept_cases taken
      exact List.length_append
  | socket session inner =>
      obtain ⟨connection, next, actions, -, -, rfl⟩ := socket_cases taken
      exact List.length_set
  | broadcast data is_binary =>
      cases taken
      rfl
  | take thread =>
      obtain ⟨task, rest, -, -, -, rfl⟩ := take_cases taken
      rfl
  | dispatch thread =>
      rcases dispatch_cases taken with ⟨request, -, rfl⟩ | ⟨_, _, _, _, -, -, rfl⟩
      · rfl
      · exact List.length_set
  | strand =>
      obtain ⟨request, rest, connection, -, -, rfl⟩ := strand_cases taken
      rfl

theorem clients_length {num_threads : Nat} {events : List Event} {server : Server}
    (run : Runs (step sha1) (start num_threads) events server) :
    (clients events).length = server.connections.length := by
  induction run with
  | start => rfl
  | next event run taken ih =>
      have grown := step_clients taken
      unfold clients at ih grown ⊢
      rw [List.filterMap_append, List.length_append, ih, grown]

theorem stimuli_absent {num_threads : Nat} {events : List Event} {server : Server}
    (run : Runs (step sha1) (start num_threads) events server) {session : Nat}
    (absent : server.connections.length ≤ session) :
    stimuli sha1 num_threads session events = [] := by
  induction run with
  | start => rfl
  | @next events before after event run taken ih =>
      have shorter := step_length taken
      have none : before.gives session event = [] := by
        apply gives_of_other
        intro stimulus given
        have inside : session < before.connections.length := by
          cases stimulus with
          | socket inner =>
              obtain rfl := stimulus_socket given
              obtain ⟨connection, _, _, found, -, -⟩ := socket_cases taken
              exact (List.getElem?_eq_some_iff.mp found).1
          | write data is_binary =>
              obtain ⟨thread, rfl, held⟩ := stimulus_write given
              rcases dispatch_cases taken with ⟨request, other, -⟩ | ⟨_, _, _, _, other, found, -⟩
              · rw [held] at other
                cases other
              · rw [held] at other
                cases other
                exact (List.getElem?_eq_some_iff.mp found).1
        omega
      have earlier := ih (by omega)
      unfold stimuli at earlier ⊢
      rw [run.observed_next _ taken, earlier, none]
      rfl

/-- A session has its client's bytes and its own stimuli, and nothing else of the run. -/
theorem session_of_run {num_threads : Nat} {events : List Event} {server : Server}
    (run : Runs (step sha1) (start num_threads) events server) {session : Nat}
    {connection : Connection} (found : server.connections[session]? = some connection) :
    ∃ input first, (clients events)[session]? = some input ∧
      Connection.accept input = some first ∧
      Runs (Connection.next sha1) first (stimuli sha1 num_threads session events) connection := by
  induction run generalizing connection with
  | start => cases found
  | @next events before after event run taken ih =>
      have noted : stimuli sha1 num_threads session (events ++ [event]) =
          stimuli sha1 num_threads session events ++ before.gives session event :=
        run.observed_next _ taken
      have joined : clients (events ++ [event]) = clients events ++ clients [event] :=
        List.filterMap_append
      rcases step_connection taken found with ⟨input, rfl, place, accepted⟩ | ⟨old, here, sees⟩
      · refine ⟨input, connection, ?_, accepted, ?_⟩
        · rw [joined, place, ← clients_length run]
          exact List.getElem?_concat_length
        · have silent := stimuli_absent run (Nat.le_of_eq place.symm)
          rw [noted, silent]
          exact .start
      · obtain ⟨input, first, client, accepted, path⟩ := ih here
        refine ⟨input, first, ?_, accepted, ?_⟩
        · rw [joined, List.getElem?_append_left (List.getElem?_eq_some_iff.mp client).1]
          exact client
        · rw [noted]
          cases sees with
          | still other =>
              rw [gives_of_other other, List.append_nil]
              exact path
          | moved stimulus actions given responds =>
              rw [gives_of_given given]
              refine path.next stimulus ?_
              unfold Connection.next
              rw [responds]
              rfl

end Server

namespace Dealer

theorem performs_whole (publisher : Publisher) (idle : publisher.parts = []) (session : Session)
    (request : ChunkVector) :
    publisher.performs (session.request request) =
      { parts := [], messages := publisher.messages ++ [message session request] } := by
  by_cases chunks : request.chunk_vector_ = []
  · have empty : request.size = 0 := by
      unfold ChunkVector.size
      rw [chunks]
      rfl
    unfold Session.request message
    rw [if_pos empty, if_pos empty]
    change Publisher.send (Publisher.send publisher _ true) [] false = _
    unfold Publisher.send
    rw [if_pos rfl, if_neg Bool.noConfusion, idle]
    rfl
  · exact performs_request publisher idle session request chunks

end Dealer

/-- A request that occupies less than the address space has size zero only if it is
empty. -/
theorem Utilities.ChunkVector.Regular.bytes_of_size {request : ChunkVector}
    (regular : request.Regular) (narrow : request.chunk_vector_.length * 1024 < 2 ^ 64)
    (empty : request.size = 0) : request.bytes = [] := by
  unfold ChunkVector.size at empty
  cases last : request.chunk_vector_.getLast? with
  | none =>
      unfold ChunkVector.bytes
      rw [List.getLast?_eq_none_iff.mp last]
      rfl
  | some back =>
      obtain ⟨front, whole⟩ := List.getLast?_eq_some_iff.mp last
      have member : back ∈ request.chunk_vector_ := by
        rw [whole]
        exact List.mem_append_right _ List.mem_cons_self
      have small := regular.small back member
      have count : request.chunk_vector_.length = front.length + 1 := by
        rw [whole, List.length_append]
        rfl
      have size : (UInt64.ofNat request.chunk_vector_.length - 1) * request.chunk_size_ +
          UInt64.ofNat back.length = UInt64.ofNat (front.length * 1024 + back.length) := by
        rw [count, regular.chunk_size, UInt64.ofNat_add, UInt64.ofNat_add, UInt64.ofNat_mul]
        exact congrArg (fun many => many * CHUNK_VECTOR_DEFAULT_SIZE + _)
          (UInt64.add_sub_cancel _ _)
      simp only [last] at empty
      have none := congrArg UInt64.toNat (size.symm.trans empty)
      have fits : front.length * 1024 + back.length < 2 ^ 64 := by
        rw [count] at narrow
        omega
      rw [UInt64.toNat_ofNat_of_lt' fits, UInt64.toNat_zero] at none
      unfold ChunkVector.bytes
      rw [whole, List.eq_nil_of_length_eq_zero (show front.length = 0 by omega),
        List.eq_nil_of_length_eq_zero (show back.length = 0 by omega)]
      rfl

/-! ### What is published -/

/-- A message of the dealer with the request it was sent for: its type and then the
bytes of the request. -/
structure Sent.Published (sent : Sent) (message : List (List UInt8)) : Prop where
  type : message.head? = some [0x42] ∨ message.head? = some [0x55]
  payload : message.tail.flatten = sent.request.buffer.bytes

namespace Server

variable {sha1 : List UInt8 → Digest} {before after : Server} {event : Event}

def publisher (self : Server) : Dealer.Publisher :=
  Dealer.Publisher.performs { parts := [], messages := [] } (self.sent.flatMap Sent.calls)

def payloads (self : Server) (session : Nat) : List (List UInt8) :=
  ((self.sent.zip self.publisher.messages).filter fun pair =>
    pair.1.request.session == session).map fun pair => pair.2.tail.flatten

theorem sent_of_run {num_threads : Nat} {server : Server}
    (run : Reaches (step sha1) anyEvent (start num_threads) server) :
    ∀ sent ∈ server.sent, ∃ session : Session,
      sent.calls = session.request sent.request.buffer := by
  apply run.invariant fun server => ∀ sent ∈ server.sent, ∃ session : Session,
    sent.calls = session.request sent.request.buffer
  · intro before event after ih _ taken sent member
    rcases mem_sent_step taken member with old | ⟨connection, -, -, calls⟩
    · exact ih sent old
    · exact ⟨connection.session, calls⟩
  · intro sent member
    cases member

theorem sent_posted {num_threads : Nat} {server : Server}
    (run : Reaches (step sha1) anyEvent (start num_threads) server) {sent : Sent}
    (member : sent ∈ server.sent) :
    ∃ connection, server.connections[sent.request.session]? = some connection ∧
      sent.request.buffer ∈ connection.posted := by
  have flow : sent.request ∈ server.flow sent.request.session := by
    refine List.mem_filter.mpr ⟨?_, beq_self_eq_true _⟩
    exact List.mem_append_left _ (List.mem_append_left _ (List.mem_map_of_mem member))
  have posted := (flow_of_run run sent.request.session).subset flow
  cases found : server.connections[sent.request.session]? with
  | none =>
      rw [completed_none found] at posted
      cases posted
  | some connection =>
      rw [completed_eq found] at posted
      obtain ⟨numbered, inside, same⟩ := List.mem_map.mp posted
      rw [← same]
      exact ⟨connection, rfl, List.fst_mem_of_mem_zipIdx inside⟩

theorem sent_fits {num_threads : Nat} {events : List Event} {server : Server}
    (run : Runs (step sha1) (start num_threads) events server)
    (narrow : ∀ input ∈ clients events, input.length < 2 ^ 63) {sent : Sent}
    (member : sent ∈ server.sent) :
    sent.request.buffer.Regular ∧ sent.request.buffer.chunk_vector_.length * 1024 < 2 ^ 64 := by
  obtain ⟨connection, found, posted⟩ := sent_posted run.reaches member
  obtain ⟨input, first, client, accepted, path⟩ := session_of_run run found
  have short := narrow input (List.mem_of_getElem? client)
  obtain ⟨regular, fits⟩ := (Connection.thrifty_of_run accepted path.reaches).posted _ posted
  exact ⟨regular, by omega⟩

theorem performs_calls (publisher : Dealer.Publisher) (idle : publisher.parts = [])
    {all : List Sent}
    (called : ∀ sent ∈ all, ∃ session : Session, sent.calls = session.request sent.request.buffer)
    (fits : ∀ sent ∈ all, sent.request.buffer.Regular ∧
      sent.request.buffer.chunk_vector_.length * 1024 < 2 ^ 64) :
    ∃ messages, publisher.performs (all.flatMap Sent.calls) =
        { parts := [], messages := publisher.messages ++ messages } ∧
      List.Forall₂ Sent.Published all messages := by
  induction all generalizing publisher with
  | nil =>
      refine ⟨[], ?_, .nil⟩
      rw [List.append_nil, ← idle]
      rfl
  | cons sent rest ih =>
      obtain ⟨session, calls⟩ := called sent List.mem_cons_self
      obtain ⟨regular, narrow⟩ := fits sent List.mem_cons_self
      obtain ⟨messages, whole, published⟩ := ih
        { parts := [], messages := publisher.messages ++
          [Dealer.message session sent.request.buffer] } rfl
        (fun other member => called other (List.mem_cons_of_mem _ member))
        (fun other member => fits other (List.mem_cons_of_mem _ member))
      refine ⟨Dealer.message session sent.request.buffer :: messages, ?_, .cons ?_ published⟩
      · have first := Dealer.performs_whole publisher idle session sent.request.buffer
        rw [List.flatMap_cons, calls]
        unfold Dealer.Publisher.performs at first whole ⊢
        rw [List.foldl_append, first, whole, List.append_assoc]
        rfl
      · unfold Dealer.message
        constructor
        · cases session.header_.is_binary with
          | true => exact Or.inl rfl
          | false => exact Or.inr rfl
        · by_cases empty : sent.request.buffer.size = 0
          · rw [if_pos empty, regular.bytes_of_size narrow empty]
            rfl
          · rw [if_neg empty]
            rfl

theorem published_of_run {num_threads : Nat} {events : List Event} {server : Server}
    (run : Runs (step sha1) (start num_threads) events server)
    (narrow : ∀ input ∈ clients events, input.length < 2 ^ 63) :
    server.publisher.parts = [] ∧
      List.Forall₂ Sent.Published server.sent server.publisher.messages := by
  obtain ⟨messages, whole, published⟩ := performs_calls { parts := [], messages := [] } rfl
    (sent_of_run run.reaches) fun sent => sent_fits run narrow
  unfold publisher
  rw [whole]
  exact ⟨rfl, published⟩

private theorem payloads_zip {all : List Sent} {messages : List (List (List UInt8))}
    (published : List.Forall₂ Sent.Published all messages) (session : Nat) :
    ((all.zip messages).filter fun pair => pair.1.request.session == session).map
        (fun pair => pair.2.tail.flatten) =
      ((all.map Sent.request).filter fun request => request.session == session).map
        fun request => request.buffer.bytes := by
  induction published with
  | nil => rfl
  | @cons sent message all messages here _ ih =>
      rw [List.zip_cons_cons, List.map_cons, List.filter_cons, List.filter_cons]
      by_cases mine : (sent.request.session == session) = true
      · rw [if_pos mine, if_pos mine, List.map_cons, List.map_cons, ih, here.payload]
      · rw [if_neg mine, if_neg mine, ih]

theorem payloads_eq {server : Server}
    (published : List.Forall₂ Sent.Published server.sent server.publisher.messages)
    (session : Nat) :
    server.payloads session =
      (server.delivered session).map fun request => request.buffer.bytes :=
  payloads_zip published session

theorem requests_bytes (connection : Connection) (session : Nat) :
    ((connection.requests session).map fun request => request.buffer.bytes) =
      connection.posted.map ChunkVector.bytes := by
  unfold Connection.requests
  rw [List.map_map]
  change connection.posted.zipIdx.map (ChunkVector.bytes ∘ Prod.fst) = _
  rw [← List.map_map, List.zipIdx_map_fst]

end Server

/-- Whatever the clients, the threads and the schedule do, the dealer's messages for a
session are among the messages its client has sent, each once; one thread sends them
in order, and a server at rest has sent all that a starving session has received. -/
theorem client_bytes_published (sha1 : List UInt8 → Digest) {num_threads : Nat}
    {events : List Event} {server : Server}
    (run : Runs (Server.step sha1) (Server.start num_threads) events server)
    (narrow : ∀ input ∈ Server.clients events, input.length < 2 ^ 63) {session : Nat}
    {connection : Connection} (found : server.connections[session]? = some connection)
    {input : List UInt8} (client : (Server.clients events)[session]? = some input)
    {all : List Frame} {tail : List UInt8}
    (parse : input.drop (Server.opened session events) = Frame.stream all ++ tail)
    (unfinished : Frame.Unfinished tail) :
    (server.publisher.parts = [] ∧
        List.Forall₂ Sent.Published server.sent server.publisher.messages) ∧
      (server.payloads session).Subperm ((Receiver.rest false).frames all).2 ∧
      (num_threads ≤ 1 → server.payloads session <+: ((Receiver.rest false).frames all).2) ∧
      (server.Rests → ∀ op, connection.reads = [op] → connection.input.length < op.count →
        (server.payloads session).Perm ((Receiver.rest false).frames all).2) := by
  have published := Server.published_of_run run narrow
  have payloads := Server.payloads_eq published.2 session
  obtain ⟨other, first, same, accepted, path⟩ := Server.session_of_run run found
  rw [client] at same
  cases same
  have upstream := Connection.upstream_of_run accepted path
  rw [Server.opened_of_run run] at upstream
  have posted := upstream.posted_prefix parse unfinished
  have flow := Server.flow_of_run run.reaches session
  rw [Server.flow_eq, Server.completed_eq found] at flow
  have bytes := Server.requests_bytes connection session
  refine ⟨published, ?_, fun one => ?_, fun rests op reads starved => ?_⟩
  · rw [payloads]
    have some : (server.delivered session).Subperm (connection.requests session) :=
      (List.sublist_append_left _ _).subperm.trans flow.subperm
    obtain ⟨middle, same, among⟩ := some
    have messages := among.map fun request : Request => request.buffer.bytes
    rw [bytes] at messages
    exact ⟨_, same.map _, messages.trans posted.sublist⟩
  · have exact_flow := (Server.flows_of_run one run.reaches).sessions session connection found
    rw [Server.flow_eq] at exact_flow
    have front : server.delivered session <+: connection.requests session := by
      rw [← exact_flow]
      exact List.prefix_append _ _
    rw [payloads]
    have messages := front.map fun request : Request => request.buffer.bytes
    rw [bytes] at messages
    exact messages.trans posted
  · rw [rests.waiting, List.append_nil] at flow
    have short : (input.drop (Server.opened session events)).length < 2 ^ 63 := by
      have bound := narrow input (List.mem_of_getElem? client)
      rw [List.length_drop]
      omega
    obtain ⟨every, -⟩ := upstream.starved (Connection.phase_of_run accepted path.reaches) parse
      unfinished short reads starved
    rw [payloads, ← every, ← bytes]
    exact flow.map _

theorem client_bytes_published_sample :
    ∃ server : Server, server.payloads 0 = [[0x62], [0x61]] ∧
      (server.payloads 0).Perm ((Receiver.rest false).frames
        [.short 0x81 none [0x61] (by decide), .short 0x81 none [0x62] (by decide)]).2 := by
  obtain ⟨first, server, same, run, here⟩ := Runs.of_trace_any (Server.step zeroDigest)
    (some (Server.start 2)) (fun server : Server =>
      decide (server.payloads 0 = [[0x62], [0x61]] ∧ server.queue = [] ∧ server.held = [] ∧
        server.io_strand_ = []) &&
      server.connections[0]?.any fun connection : Connection =>
        connection.reads.any fun op =>
          decide (connection.reads = [op] ∧ connection.input.length < op.count))
    Server.overtaking (by decide +kernel)
  cases same
  rw [Bool.and_eq_true] at here
  obtain ⟨published, queue, held, strand⟩ := of_decide_eq_true here.1
  obtain ⟨connection, found, waits⟩ := (Option.any_eq_true _ _).mp here.2
  obtain ⟨op, -, starves⟩ := List.any_eq_true.mp waits
  obtain ⟨reads, starved⟩ := of_decide_eq_true starves
  have unfinished : Frame.Unfinished [] := PrefixCode.unfinished_nil Frame.code
  obtain ⟨-, -, -, every⟩ := client_bytes_published zeroDigest run (by decide +kernel) found rfl
    (show _ = Frame.stream [.short 0x81 none [0x61] (by decide),
      .short 0x81 none [0x62] (by decide)] ++ [] by decide +kernel) unfinished
  exact ⟨server, published, every ⟨queue, held, strand⟩ op reads starved⟩

end Averyws
