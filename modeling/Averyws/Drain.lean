/-
The pool comes to rest.

Taking a task, running it and running the strand post nothing new, so the pool stops
by itself once nothing happens from outside.  It stops only when nothing is left: no
message is then missing at the dealer and no frame of a broadcast unwritten.
-/

import Averyws.Delivery

namespace Averyws

open Library.Run
open Utilities

/-- What the pool does by itself: it takes tasks, runs them and runs the strand. -/
def Event.internal : Event → Bool
  | .take _ => true
  | .dispatch _ => true
  | .strand => true
  | _ => false

namespace Server

variable {sha1 : List UInt8 → Digest} {before after : Server} {event : Event}

/-- The steps the pool has before it: a request is taken, run and run on the strand. -/
def backlog (self : Server) : Nat :=
  3 * self.queue.length + 2 * self.held.length + self.io_strand_.length

theorem backlog_step (taken : before.step sha1 event = some after)
    (internal : event.internal = true) : 1 + after.backlog ≤ before.backlog := by
  cases event with
  | accept input => cases internal
  | socket session inner => cases internal
  | broadcast data is_binary => cases internal
  | take thread =>
      obtain ⟨task, rest, queued, -, -, rfl⟩ := take_cases taken
      unfold backlog
      rw [queued]
      change 1 + (3 * rest.length + 2 * (before.held ++ [(thread, task)]).length +
        before.io_strand_.length) ≤ _
      rw [List.length_append, List.length_singleton, List.length_cons]
      omega
  | dispatch thread =>
      obtain ⟨task, held, erased, queue⟩ := dispatch_held taken
      obtain ⟨earlier, later, split, without⟩ := held_split held
      have strand : after.io_strand_.length ≤ before.io_strand_.length + 1 := by
        rcases dispatch_cases taken with ⟨request, -, rfl⟩ | ⟨_, _, _, _, -, -, rfl⟩
        · rw [List.length_append]
          exact Nat.le_refl _
        · exact Nat.le_succ _
      unfold backlog
      rw [erased, without, queue, split, List.length_append, List.length_append, List.length_cons]
      omega
  | strand =>
      obtain ⟨request, rest, connection, queued, -, rfl⟩ := strand_cases taken
      unfold backlog
      rw [queued, List.length_cons]
      change 1 + (3 * before.queue.length + 2 * before.held.length + rest.length) ≤ _
      omega

structure Rests (server : Server) : Prop where
  queue : server.queue = []
  held : server.held = []
  strand : server.io_strand_ = []

theorem Rests.waiting {server : Server} (rests : server.Rests) (session : Nat) :
    server.waiting session = [] := by
  unfold Server.waiting underway tasks
  rw [rests.strand, rests.held, rests.queue]
  rfl

theorem Rests.pending {server : Server} (rests : server.Rests) (session : Nat) :
    server.pending session = [] := by
  unfold Server.pending tasks
  rw [rests.held, rests.queue]
  rfl

theorem Rests.stopped {server : Server} (rests : server.Rests)
    (internal : event.internal = true) : server.step sha1 event = none := by
  cases event with
  | accept input => cases internal
  | socket session inner => cases internal
  | broadcast data is_binary => cases internal
  | take thread =>
      change server.take thread = none
      unfold take
      rw [rests.queue]
  | dispatch thread =>
      change server.dispatch thread = none
      unfold dispatch
      rw [rests.held]
      rfl
  | strand =>
      change server.strand = none
      unfold Server.strand
      rw [rests.strand]

structure Housed (server : Server) : Prop where
  registered : ∀ session ∈ server.session_manager_.unauthed_, session < server.connections.length
  called : ∀ session data is_binary, Task.write session data is_binary ∈ server.tasks →
    session < server.connections.length

theorem unauthed_step (taken : before.step sha1 event = some after) {session : Nat}
    (member : session ∈ after.session_manager_.unauthed_) :
    session ∈ before.session_manager_.unauthed_ ∨
      session = before.connections.length ∧ session < after.connections.length := by
  cases event with
  | accept input =>
      obtain ⟨connection, -, rfl⟩ := accept_cases taken
      rcases (SessionManager.mem_add_unauthed _ _ _).mp member with rfl | old
      · right
        rw [List.length_append]
        exact ⟨rfl, Nat.lt_succ_self _⟩
      · exact Or.inl old
  | socket place inner =>
      left
      obtain ⟨connection, next, actions, -, -, rfl⟩ := socket_cases taken
      dsimp only at member
      split at member
      · unfold SessionManager.remove at member
        split at member
        · exact member
        · exact List.mem_of_mem_erase member
      · exact member
  | broadcast data is_binary =>
      cases taken
      exact Or.inl member
  | take thread =>
      obtain ⟨task, rest, -, -, -, rfl⟩ := take_cases taken
      exact Or.inl member
  | dispatch thread =>
      rcases dispatch_cases taken with ⟨request, -, rfl⟩ | ⟨_, _, _, _, -, -, rfl⟩
      · exact Or.inl member
      · exact Or.inl member
  | strand =>
      obtain ⟨request, rest, connection, -, -, rfl⟩ := strand_cases taken
      exact Or.inl member

theorem housed_of_run {num_threads : Nat} {server : Server}
    (run : Reaches (step sha1) anyEvent (start num_threads) server) : server.Housed := by
  apply run.invariant Housed
  · intro before event after housed _ taken
    have longer := step_length taken
    constructor
    · intro session member
      rcases unauthed_step taken member with old | ⟨-, inside⟩
      · exact Nat.lt_of_lt_of_le (housed.registered session old) longer
      · exact inside
    · intro session data is_binary member
      rcases step_tasks taken member with old | ⟨_, _, target, rfl, inside, same⟩ | ⟨request, same⟩
      · exact Nat.lt_of_lt_of_le (housed.called session data is_binary old) longer
      · cases same
        exact Nat.lt_of_lt_of_le (housed.registered session inside) longer
      · cases same
  · refine ⟨fun session member => ?_, fun session data is_binary member => ?_⟩
    · cases member
    · cases member

theorem strand_housed {num_threads : Nat} {server : Server}
    (run : Reaches (step sha1) anyEvent (start num_threads) server) {request : Request}
    (member : request ∈ server.io_strand_) :
    ∃ connection, server.connections[request.session]? = some connection := by
  have flow : request ∈ server.flow request.session := by
    refine List.mem_filter.mpr ⟨?_, beq_self_eq_true _⟩
    exact List.mem_append_left _ (List.mem_append_right _ member)
  have posted := (flow_of_run run request.session).subset flow
  cases found : server.connections[request.session]? with
  | none =>
      rw [completed_none found] at posted
      cases posted
  | some connection => exact ⟨connection, rfl⟩

/-- As long as a thread is there, the pool does not stop before its tasks are done. -/
theorem rests_of_stopped {num_threads : Nat} (threads : 0 < num_threads) {server : Server}
    (run : Reaches (step sha1) anyEvent (start num_threads) server)
    (count : server.num_threads_ = num_threads)
    (stopped : ∀ event, event.internal = true → server.step sha1 event = none) :
    server.Rests := by
  have held : server.held = [] := by
    cases taken : server.held with
    | nil => rfl
    | cons pair rest =>
        obtain ⟨thread, task⟩ := pair
        have halted := stopped (.dispatch thread) rfl
        have here : server.held.lookup thread = some task := by
          rw [taken]
          exact List.lookup_cons_self
        change server.dispatch thread = none at halted
        unfold dispatch at halted
        cases task with
        | request request =>
            simp only [here, Option.bind_eq_bind, Option.bind_some] at halted
            cases halted
        | write session data is_binary =>
            have inside := (housed_of_run run).called session data is_binary
              (mem_tasks_of_lookup here)
            have found := List.getElem?_eq_getElem inside
            simp only [here, found, Option.bind_eq_bind, Option.bind_some] at halted
            cases halted
  have strand : server.io_strand_ = [] := by
    cases queued : server.io_strand_ with
    | nil => rfl
    | cons request rest =>
        have halted := stopped .strand rfl
        obtain ⟨connection, found⟩ := strand_housed run (by rw [queued]; exact List.mem_cons_self)
        change server.strand = none at halted
        unfold Server.strand at halted
        simp only [queued, found, Option.bind_eq_bind, Option.bind_some] at halted
        cases halted
  have queue : server.queue = [] := by
    cases queued : server.queue with
    | nil => rfl
    | cons task rest =>
        have halted := stopped (.take 0) rfl
        change server.take 0 = none at halted
        unfold take at halted
        simp only [queued, held] at halted
        rw [if_pos ⟨by rw [count]; exact threads, rfl⟩] at halted
        cases halted
  exact ⟨queue, held, strand⟩

theorem threads_of_run {num_threads : Nat} {server : Server}
    (run : Reaches (step sha1) anyEvent (start num_threads) server) :
    server.num_threads_ = num_threads :=
  (run_withThreads (Nat.le_refl num_threads) run).2

theorem internal_run {internal : List Event} (only : ∀ event ∈ internal, event.internal = true)
    (rest : Runs (step sha1) before internal after) (session : Nat) :
    internal.length + after.backlog ≤ before.backlog ∧
      observed (step sha1) (hears session) before internal = [] := by
  induction rest with
  | start => exact ⟨Nat.le_of_eq (Nat.zero_add _), rfl⟩
  | @next earlier middle after event path taken ih =>
      obtain ⟨bounded, silent⟩ := ih fun other member => only other (List.mem_append_left _ member)
      have last : event.internal = true :=
        only event (List.mem_append_right _ List.mem_cons_self)
      have less := backlog_step taken last
      constructor
      · rw [List.length_append, List.length_singleton]
        omega
      · rw [path.observed_next _ taken, silent]
        cases event with
        | broadcast data is_binary => cases last
        | accept input => rfl
        | socket session inner => rfl
        | take thread => rfl
        | dispatch thread => rfl
        | strand => rfl

end Server

/-- However the pool schedules its tasks, it stops within its backlog, and when it has
stopped every message completed has reached the dealer once and every broadcast has
been written once by each session that was registered for it. -/
theorem drained_exactly_once (sha1 : List UInt8 → Digest) {num_threads : Nat}
    (threads : 0 < num_threads) {events internal : List Event} {server final : Server}
    (run : Runs (Server.step sha1) (Server.start num_threads) events server)
    (only : ∀ event ∈ internal, event.internal = true)
    (rest : Runs (Server.step sha1) server internal final) :
    internal.length ≤ server.backlog ∧
      ((∀ event, event.internal = true → final.step sha1 event = none) →
        ∀ (session : Nat) (connection : Connection),
          final.connections[session]? = some connection →
          (final.delivered session).Perm (connection.requests session) ∧
          connection.written.Perm (Server.broadcasts sha1 num_threads session events)) := by
  have whole := run.trans rest
  constructor
  · have bounded := (Server.internal_run only rest 0).1
    exact Nat.le_trans (Nat.le_add_right _ _) bounded
  · intro stopped session connection found
    have rests := Server.rests_of_stopped threads whole.reaches
      (Server.threads_of_run whole.reaches) stopped
    constructor
    · have flow := Server.flow_of_run whole.reaches session
      rw [Server.flow_eq, Server.completed_eq found, rests.waiting, List.append_nil] at flow
      exact flow
    · have written := Server.written_of_run whole session
      unfold Server.broadcasts at written ⊢
      rw [Server.written_eq found, rests.pending, List.append_nil, run.observed_append,
        (Server.internal_run only rest session).2, List.append_nil] at written
      exact written

theorem drained_exactly_once_sample :
    ∃ (final : Server) (connection : Connection),
      (final.delivered 0).map Request.ordinal = [1, 0] ∧
      (final.delivered 0).Perm (connection.requests 0) ∧
      connection.written.Perm [Session.write [0x63] true] := by
  obtain ⟨first, server, same, run, here⟩ := Runs.of_trace_any (Server.step zeroDigest)
    (some (Server.start 2)) (fun server : Server =>
      (trace (Server.step zeroDigest) anyEvent server
        [.dispatch 1, .strand, .dispatch 0, .strand, .take 1, .dispatch 1]).any
        fun final : Server => decide ((final.delivered 0).map Request.ordinal = [1, 0] ∧
          final.queue = [] ∧ final.held = [] ∧ final.io_strand_ = []) &&
          final.connections[0]?.isSome)
    (Server.overtaking.take 12 ++ [.broadcast [0x63] true]) (by decide +kernel)
  cases same
  obtain ⟨final, traced, checked⟩ := (Option.any_eq_true _ _).mp here
  rw [Bool.and_eq_true] at checked
  obtain ⟨delivered, queue, held, strand⟩ := of_decide_eq_true checked.1
  obtain ⟨connection, found⟩ := Option.isSome_iff_exists.mp checked.2
  obtain ⟨-, drained⟩ := drained_exactly_once zeroDigest (by decide) run (by decide)
    (.of_trace _ traced)
  have rests : final.Rests := ⟨queue, held, strand⟩
  obtain ⟨requests, written⟩ := drained (fun _ => rests.stopped) 0 connection found
  refine ⟨final, connection, delivered, requests, written.trans (List.Perm.of_eq ?_)⟩
  decide +kernel

end Averyws
