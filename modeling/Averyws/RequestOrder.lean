/-
The order in which requests reach the dealer.

A request passes the queue of `io_service_`, a thread and the strand.  With one
thread these are one queue.  With two, a thread that holds a request can be
overtaken by one that has taken a later request of the same session.
-/

import Averyws.ServerRun

namespace Averyws

open Library.Run
open Utilities

def Connection.requests (self : Connection) (session : Nat) : List Request :=
  self.posted.zipIdx.map fun numbered =>
    { session := session, ordinal := numbered.2, buffer := numbered.1 }

def Task.request? : Task → Option Request
  | .request bound => some bound
  | .write _ _ _ => none

namespace Server

def delivered (self : Server) (session : Nat) : List Request :=
  (self.sent.map Sent.request).filter fun request => request.session == session

/-- The dealer has seen requests of each session in the order of its messages. -/
def InOrder (self : Server) : Prop :=
  ∀ (session : Nat) (connection : Connection), self.connections[session]? = some connection →
    (self.delivered session).Sublist (connection.requests session)

/-! ### One thread -/

/-- The requests on their way, from the dealer back to the queue. -/
def pipeline (self : Server) : List Request :=
  self.sent.map Sent.request ++ self.io_strand_ ++ self.tasks.filterMap Task.request?

def flow (self : Server) (session : Nat) : List Request :=
  self.pipeline.filter fun request => request.session == session

variable {sha1 : List UInt8 → Digest} {before after : Server}

def numbered (session first : Nat) (actions : List Action) : List Request :=
  ((actions.filterMap Action.request?).zipIdx first).map fun numbered =>
    { session := session, ordinal := numbered.2, buffer := numbered.1 }

theorem requests_requests (session first : Nat) (actions : List Action) :
    (requests session first actions).filterMap Task.request? = numbered session first actions := by
  unfold requests numbered
  rw [List.filterMap_map, ← List.filterMap_eq_map]
  rfl

theorem pipeline_post (server : Server) (session first : Nat) (actions : List Action) :
    { server with queue := server.queue ++ requests session first actions }.pipeline =
      server.pipeline ++ numbered session first actions := by
  unfold pipeline tasks
  rw [← requests_requests]
  simp only [List.filterMap_append, List.append_assoc]

def arrivals (sha1 : List UInt8 → Digest) (self : Server) : Event → List Request
  | .socket session event =>
      match self.connections[session]? with
      | none => []
      | some connection =>
          match connection.react sha1 event with
          | none => []
          | some (_, actions) => numbered session connection.posted.length actions
  | _ => []

theorem arrivals_socket {session : Nat} {event : SocketEvent} {connection next : Connection}
    {actions : List Action} (found : before.connections[session]? = some connection)
    (reacted : connection.react sha1 event = some (next, actions)) :
    before.arrivals sha1 (.socket session event) =
      numbered session connection.posted.length actions := by
  unfold arrivals
  simp only [found, reacted]

/-- As long as one task at most is held, requests go through the pipeline in order. -/
theorem pipeline_step (alone : before.held.length ≤ 1) {event : Event}
    (taken : before.step sha1 event = some after) :
    after.pipeline = before.pipeline ++ before.arrivals sha1 event := by
  cases event with
  | accept input =>
      obtain ⟨connection, -, rfl⟩ := accept_cases taken
      exact (List.append_nil _).symm
  | socket session event =>
      obtain ⟨connection, next, actions, found, reacted, rfl⟩ := socket_cases taken
      rw [arrivals_socket found reacted]
      exact before.pipeline_post session connection.posted.length actions
  | broadcast data is_binary =>
      cases taken
      have none : (before.session_manager_.unauthed_.map
          fun session => Task.write session data is_binary).filterMap Task.request? = [] := by
        rw [List.filterMap_map, List.filterMap_eq_nil_iff]
        exact fun _ _ => rfl
      unfold pipeline tasks broadcast
      simp only [List.filterMap_append, none, arrivals, List.append_nil]
  | take thread =>
      obtain ⟨task, rest, queued, -, -, rfl⟩ := take_cases taken
      unfold pipeline tasks
      rw [queued]
      simp [arrivals]
  | dispatch thread =>
      rcases dispatch_cases taken with ⟨request, held, rfl⟩ |
        ⟨session, data, is_binary, connection, held, -, rfl⟩
      · obtain ⟨earlier, later, split, erased⟩ := held_split held
        rw [split, List.length_append, List.length_cons] at alone
        -- the request is the only task taken, so nothing is between it and the strand
        have first : earlier = [] := List.eq_nil_of_length_eq_zero (by omega)
        have last : later = [] := List.eq_nil_of_length_eq_zero (by omega)
        subst first
        subst last
        unfold pipeline tasks
        rw [erased, split]
        simp [arrivals, Task.request?]
      · obtain ⟨earlier, later, split, erased⟩ := held_split held
        unfold pipeline tasks
        rw [erased, split]
        simp [arrivals, Task.request?, List.filterMap_cons]
  | strand =>
      obtain ⟨request, rest, connection, queued, -, rfl⟩ := strand_cases taken
      unfold pipeline
      rw [queued]
      simp [arrivals, tasks]

/-- What has been posted is what is on its way, session by session. -/
structure Flows (server : Server) : Prop where
  narrow : server.num_threads_ ≤ 1
  threads : ∀ taken ∈ server.held, taken.1 < server.num_threads_
  alone : server.held.length ≤ 1
  sessions : ∀ (session : Nat) (connection : Connection),
    server.connections[session]? = some connection →
    server.flow session = connection.requests session
  others : ∀ session, server.connections.length ≤ session → server.flow session = []

theorem filter_numbered_self (session first : Nat) (actions : List Action) :
    (numbered session first actions).filter (fun request => request.session == session) =
      numbered session first actions := by
  apply List.filter_eq_self.mpr
  intro request member
  obtain ⟨_, -, rfl⟩ := List.mem_map.mp member
  exact beq_self_eq_true session

theorem filter_numbered_other {session other : Nat} (distinct : session ≠ other) (first : Nat)
    (actions : List Action) :
    (numbered session first actions).filter (fun request => request.session == other) = [] := by
  apply List.filter_eq_nil_iff.mpr
  intro request member same
  obtain ⟨_, -, rfl⟩ := List.mem_map.mp member
  exact distinct (eq_of_beq same)

theorem requests_respond {connection next : Connection} {stimulus : Stimulus}
    {actions : List Action} (session : Nat)
    (responds : connection.respond sha1 stimulus = some (next, actions)) :
    next.requests session =
      connection.requests session ++ numbered session connection.posted.length actions := by
  unfold Connection.requests numbered
  rw [Connection.respond_posted responds, List.zipIdx_append, List.map_append, Nat.zero_add]

private theorem Flows.held (flows : before.Flows) {event : Event}
    (taken : before.step sha1 event = some after) :
    after.num_threads_ = before.num_threads_ ∧
      (∀ taken ∈ after.held, taken.1 < after.num_threads_) ∧ after.held.length ≤ 1 := by
  cases event with
  | accept input =>
      obtain ⟨connection, -, rfl⟩ := accept_cases taken
      exact ⟨rfl, flows.threads, flows.alone⟩
  | socket session event =>
      obtain ⟨connection, next, actions, -, -, rfl⟩ := socket_cases taken
      exact ⟨rfl, flows.threads, flows.alone⟩
  | broadcast data is_binary =>
      cases taken
      exact ⟨rfl, flows.threads, flows.alone⟩
  | take thread =>
      obtain ⟨task, rest, -, inside, free, rfl⟩ := take_cases taken
      have narrow := flows.narrow
      have empty : before.held = [] := by
        apply List.eq_nil_iff_forall_not_mem.mpr
        intro pair member
        have other := flows.threads pair member
        have same : thread = pair.1 := by omega
        have apart := List.lookup_eq_none_iff.mp free pair member
        rw [same] at apart
        simp at apart
      refine ⟨rfl, fun pair member => ?_, ?_⟩
      · rw [empty] at member
        rw [List.mem_singleton.mp member]
        exact inside
      · rw [empty]
        exact Nat.le_refl 1
  | dispatch thread =>
      have fewer : (before.held.eraseP fun taken => taken.1 == thread).length ≤ 1 :=
        Nat.le_trans List.length_eraseP_le flows.alone
      rcases dispatch_cases taken with ⟨request, -, rfl⟩ |
        ⟨session, data, is_binary, connection, -, -, rfl⟩
      · exact ⟨rfl, fun pair member => flows.threads pair (List.mem_of_mem_eraseP member), fewer⟩
      · exact ⟨rfl, fun pair member => flows.threads pair (List.mem_of_mem_eraseP member), fewer⟩
  | strand =>
      obtain ⟨request, rest, connection, -, -, rfl⟩ := strand_cases taken
      exact ⟨rfl, flows.threads, flows.alone⟩

theorem arrivals_other {event : Event} {session : Nat}
    (other : ∀ inner, event ≠ .socket session inner) :
    (before.arrivals sha1 event).filter (fun request => request.session == session) = [] := by
  cases event with
  | socket place inner =>
      have distinct : place ≠ session := by
        intro same
        exact other inner (by rw [same])
      unfold arrivals
      dsimp only
      split
      · rfl
      · split
        · rfl
        · exact filter_numbered_other distinct _ _
  | accept input => rfl
  | broadcast data is_binary => rfl
  | take thread => rfl
  | dispatch thread => rfl
  | strand => rfl

private theorem Flows.session (flows : before.Flows) {event : Event} {session : Nat}
    {connection next : Connection} (here : before.connections[session]? = some connection)
    (sees : Sees sha1 before event session connection next) :
    before.flow session ++
        (before.arrivals sha1 event).filter (fun request => request.session == session) =
      next.requests session := by
  rw [flows.sessions session connection here]
  cases sees with
  | still other =>
      rw [arrivals_other, List.append_nil]
      intro inner same
      subst same
      exact other _ rfl
  | moved stimulus actions given responds =>
      rw [requests_respond session responds]
      cases stimulus with
      | socket inner =>
          have mine := stimulus_socket given
          subst mine
          change connection.react sha1 inner = _ at responds
          rw [arrivals_socket here responds, filter_numbered_self]
      | write data is_binary =>
          obtain ⟨thread, rfl, -⟩ := stimulus_write given
          cases responds
          rfl

theorem Flows.step (flows : before.Flows) {event : Event}
    (taken : before.step sha1 event = some after) : after.Flows := by
  obtain ⟨same, threads, alone⟩ := flows.held taken
  have pipeline := pipeline_step flows.alone taken
  have flow (session : Nat) : after.flow session = before.flow session ++
      (before.arrivals sha1 event).filter (fun request => request.session == session) := by
    unfold Server.flow
    rw [pipeline, List.filter_append]
  have length := step_length taken
  refine ⟨by rw [same]; exact flows.narrow, threads, alone, ?_, ?_⟩
  · intro session next found
    rw [flow]
    rcases step_connection taken found with ⟨input, rfl, place, accepted⟩ | ⟨connection, here, sees⟩
    · rw [flows.others session (Nat.le_of_eq place.symm)]
      unfold Connection.accept at accepted
      obtain ⟨_, -, same⟩ := Option.bind_eq_some_iff.mp accepted
      cases same
      rfl
    · exact flows.session here sees
  · intro session outside
    rw [flow, flows.others session (Nat.le_trans length outside), List.nil_append]
    apply arrivals_other
    rintro inner rfl
    obtain ⟨connection, next, actions, found, -, -⟩ := socket_cases taken
    have inside := (List.getElem?_eq_some_iff.mp found).1
    omega

theorem Flows.in_order {server : Server} (flows : server.Flows) : server.InOrder := by
  intro session connection found
  rw [← flows.sessions session connection found]
  unfold delivered flow pipeline
  apply List.Sublist.filter
  rw [List.append_assoc]
  exact List.sublist_append_left _ _

theorem in_order_of_narrow {num_threads : Nat} (narrow : num_threads ≤ 1) {server : Server}
    (run : Reaches (step sha1) anyEvent (start num_threads) server) : server.InOrder := by
  have flows : server.Flows := by
    apply run.invariant Flows
    · intro before event after flows _ taken
      exact flows.step taken
    · refine ⟨narrow, ?_, Nat.zero_le 1, ?_, fun session _ => rfl⟩
      · intro taken member
        cases member
      · intro session connection found
        cases found
  exact flows.in_order

/-! ### More threads -/

def withThreads (self : Server) (num_threads : Nat) : Server :=
  { self with num_threads_ := num_threads }

theorem idle_withThreads {num_threads : Nat} (more : before.num_threads_ ≤ num_threads)
    (idle : before.idle = true) : (before.withThreads num_threads).idle = true := by
  have room : before.held.length < before.num_threads_ := of_decide_eq_true idle
  exact decide_eq_true (Nat.lt_of_lt_of_le room more)

theorem step_withThreads {num_threads : Nat} (more : before.num_threads_ ≤ num_threads)
    {event : Event} (taken : before.step sha1 event = some after) :
    (before.withThreads num_threads).step sha1 event = some (after.withThreads num_threads) ∧
      after.num_threads_ = before.num_threads_ := by
  cases event with
  | accept input =>
      have idle : before.idle = true := by
        by_contra busy
        change (if before.idle then before.handle_accept input else none) = _ at taken
        rw [if_neg busy] at taken
        cases taken
      obtain ⟨connection, accepted, rfl⟩ := accept_cases taken
      refine ⟨?_, rfl⟩
      change (if (before.withThreads num_threads).idle then _ else none) = _
      rw [if_pos (idle_withThreads more idle)]
      unfold handle_accept
      rw [accepted]
      rfl
  | socket session inner =>
      have idle : before.idle = true := by
        by_contra busy
        change (if before.idle then before.socket sha1 session inner else none) = _ at taken
        rw [if_neg busy] at taken
        cases taken
      obtain ⟨connection, next, actions, found, reacted, rfl⟩ := socket_cases taken
      have here : (before.withThreads num_threads).connections[session]? = some connection := found
      refine ⟨?_, rfl⟩
      change (if (before.withThreads num_threads).idle then _ else none) = _
      rw [if_pos (idle_withThreads more idle)]
      unfold Server.socket
      simp only [here, reacted, Option.bind_eq_bind, Option.bind_some]
      rfl
  | broadcast data is_binary =>
      cases taken
      exact ⟨rfl, rfl⟩
  | take thread =>
      obtain ⟨task, rest, queued, inside, free, rfl⟩ := take_cases taken
      have here : (before.withThreads num_threads).queue = task :: rest := queued
      have room : thread < (before.withThreads num_threads).num_threads_ ∧
          (before.withThreads num_threads).held.lookup thread = none :=
        ⟨Nat.lt_of_lt_of_le inside more, free⟩
      refine ⟨?_, rfl⟩
      change (before.withThreads num_threads).take thread = _
      unfold take
      simp only [here, if_pos room]
      rfl
  | dispatch thread =>
      rcases dispatch_cases taken with ⟨request, held, rfl⟩ |
        ⟨session, data, is_binary, connection, held, found, rfl⟩
      · have here : (before.withThreads num_threads).held.lookup thread =
            some (.request request) := held
        refine ⟨?_, rfl⟩
        change (before.withThreads num_threads).dispatch thread = _
        unfold dispatch
        simp only [here, Option.bind_eq_bind, Option.bind_some]
        rfl
      · have here : (before.withThreads num_threads).held.lookup thread =
            some (.write session data is_binary) := held
        have there : (before.withThreads num_threads).connections[session]? = some connection :=
          found
        refine ⟨?_, rfl⟩
        change (before.withThreads num_threads).dispatch thread = _
        unfold dispatch
        simp only [here, there, Option.bind_eq_bind, Option.bind_some]
        rfl
  | strand =>
      obtain ⟨request, rest, connection, queued, found, rfl⟩ := strand_cases taken
      have here : (before.withThreads num_threads).io_strand_ = request :: rest := queued
      have there : (before.withThreads num_threads).connections[request.session]? =
          some connection := found
      refine ⟨?_, rfl⟩
      change (before.withThreads num_threads).strand = _
      unfold strand
      simp only [here, there, Option.bind_eq_bind, Option.bind_some]
      rfl

theorem run_withThreads {few many : Nat} (more : few ≤ many)
    (run : Reaches (step sha1) anyEvent (start few) after) :
    Reaches (step sha1) anyEvent (start many) (after.withThreads many) ∧
      after.num_threads_ = few := by
  induction run with
  | start => exact ⟨.start, rfl⟩
  | next event reached permitted taken ih =>
      obtain ⟨path, count⟩ := ih
      obtain ⟨lifted, same⟩ := step_withThreads (Nat.le_trans (Nat.le_of_eq count) more) taken
      exact ⟨.next event path trivial lifted, same.trans count⟩

/-- Two threads take the requests of two messages and dispatch the second first. -/
def overtaking : List Event :=
  [.accept (sampleRequest ++ [0x81, 0x01, 0x61, 0x81, 0x01, 0x62]),
    .socket 0 (.read_first 63), .socket 0 (.write_some 0 129), .socket 0 (.written 0 false),
    .socket 0 (.read 0), .socket 0 (.read 0), .socket 0 (.read 0),
    .take 0, .socket 0 (.read 0), .socket 0 (.read 0), .socket 0 (.read 0), .take 1,
    .dispatch 1, .strand, .dispatch 0, .strand]

theorem not_in_order_of_wide {num_threads : Nat} (wide : 2 ≤ num_threads) :
    ∃ server, Reaches (step zeroDigest) anyEvent (start num_threads) server ∧ ¬server.InOrder := by
  obtain ⟨first, server, same, run, here⟩ := Reaches.of_trace_any (step zeroDigest) anyEvent
    (some (start 2))
    (fun server => server.connections[0]?.any fun connection : Connection =>
      decide (¬(server.delivered 0).Sublist (connection.requests 0))) overtaking (by decide +kernel)
  cases same
  obtain ⟨connection, found, broken⟩ := (Option.any_eq_true _ _).mp here
  obtain ⟨path, -⟩ := run_withThreads wide run
  exact ⟨_, path, fun ordered => of_decide_eq_true broken (ordered 0 connection found)⟩

end Server

/-- Requests reach the dealer in the order of their messages, whatever the schedule,
exactly when there is at most one thread. -/
theorem requests_in_order_iff (num_threads : Nat) :
    (∀ (sha1 : List UInt8 → Digest) (server : Server),
      Reaches (Server.step sha1) anyEvent (Server.start num_threads) server → server.InOrder) ↔
    num_threads ≤ 1 := by
  constructor
  · intro ordered
    by_contra wide
    obtain ⟨server, run, broken⟩ := Server.not_in_order_of_wide (Nat.lt_of_not_le wide)
    exact broken (ordered _ server run)
  · intro narrow sha1 server run
    exact Server.in_order_of_narrow narrow run

theorem requests_overtake :
    ¬∀ (num_threads : Nat) (sha1 : List UInt8 → Digest) (server : Server), 1 ≤ num_threads →
      Reaches (Server.step sha1) anyEvent (Server.start num_threads) server → server.InOrder := by
  intro ordered
  obtain ⟨server, run, broken⟩ := Server.not_in_order_of_wide (Nat.le_refl 2)
  exact broken (ordered 2 _ server (by decide) run)

end Averyws
