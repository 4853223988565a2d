/-
Nothing is lost and nothing is done twice.

A task waits in the queue and then with a thread, until the thread runs it.  The
threads may overtake one another, but each request of a session reaches the dealer
once, and a session writes each broadcast it was registered for once.
-/

import Averyws.Broadcast
import Averyws.Library.Events
import Averyws.RequestType

namespace Averyws

open Library.Run
open Utilities

namespace Connection

variable {sha1 : List UInt8 → Digest} {before after : Connection} {actions : List Action}

def written (self : Connection) : List WriteOp :=
  (self.writes.map Outgoing.op).filter fun op => op.handler = .write

theorem accept_idle {input : List UInt8} {first : Connection}
    (accepted : Connection.accept input = some first) : first.posted = [] ∧ first.writes = [] := by
  unfold accept at accepted
  obtain ⟨session, -, same⟩ := Option.bind_eq_some_iff.mp accepted
  cases same
  exact ⟨rfl, rfl⟩

theorem Phase.respond_ops (phase : before.Phase) {stimulus : Stimulus}
    (done : before.respond sha1 stimulus = some (after, actions)) :
    after.writes.map Outgoing.op =
      before.writes.map Outgoing.op ++ actions.filterMap Action.write? := by
  rcases phase.respond_quiet done with quiet | ⟨index, count, rfl, rfl, taken⟩
  · have ops (connection : Connection) : connection.writes.map Outgoing.op =
        connection.parcels.map fun parcel => ⟨parcel.label, parcel.content⟩ := by
      unfold parcels
      rw [List.map_map]
      rfl
    rw [ops, ops, quiet.parcels, List.map_append, List.map_map]
    exact congrArg _ (List.map_id _)
  · obtain ⟨out, found, -, -, -, rfl⟩ := write_some_cases taken
    rw [List.filterMap_nil, List.append_nil]
    exact map_set_of_eq Outgoing.op found rfl

theorem Phase.react_written (phase : before.Phase) {event : SocketEvent}
    (done : before.react sha1 event = some (after, actions)) : after.written = before.written := by
  have responded : before.respond sha1 (.socket event) = some (after, actions) := done
  have ops := phase.respond_ops responded
  have others : (actions.filterMap Action.write?).filter (fun op => op.handler = .write) = [] := by
    apply List.filter_eq_nil_iff.mpr
    intro op member same
    exact phase.react_queues done op member (of_decide_eq_true same)
  unfold written
  rw [ops, List.filter_append, others, List.append_nil]

theorem written_write (connection : Connection) (data : List UInt8) (is_binary : Bool) :
    (connection.write data is_binary).written =
      connection.written ++ [Session.write data is_binary] := by
  unfold written Connection.write perform
  rw [List.map_append, List.filter_append]
  rfl

end Connection

namespace Server

variable {sha1 : List UInt8 → Digest} {before after : Server} {event : Event}

theorem fresh_accepted (taken : before.step sha1 event = some after) {session : Nat}
    (absent : before.connections[session]? = none) {next : Connection}
    (found : after.connections[session]? = some next) :
    ∃ input, Connection.accept input = some next := by
  rcases step_connection taken found with ⟨input, -, -, accepted⟩ | ⟨old, there, -⟩
  · exact ⟨input, accepted⟩
  · rw [absent] at there
    cases there

def callbacks (self : Server) : Event → List Task
  | .broadcast data is_binary =>
      self.session_manager_.unauthed_.map fun session => .write session data is_binary
  | _ => []

def posts (sha1 : List UInt8 → Digest) (self : Server) (event : Event) : List Task :=
  (self.arrivals sha1 event).map Task.request ++ self.callbacks event

def ran (self : Server) : Event → List Task
  | .dispatch thread => (self.held.lookup thread).toList
  | _ => []

theorem ran_dispatch {server : Server} {thread : Nat} {task : Task}
    (held : server.held.lookup thread = some task) : server.ran (.dispatch thread) = [task] :=
  congrArg Option.toList held

theorem requests_eq (session first : Nat) (actions : List Action) :
    requests session first actions = (numbered session first actions).map Task.request := by
  unfold requests numbered
  rw [List.map_map]
  rfl

theorem dispatch_held {thread : Nat} (taken : before.step sha1 (.dispatch thread) = some after) :
    ∃ task, before.held.lookup thread = some task ∧
      after.held = before.held.eraseP (fun taken => taken.1 == thread) ∧
      after.queue = before.queue := by
  rcases dispatch_cases taken with ⟨request, held, rfl⟩ | ⟨_, _, _, _, held, -, rfl⟩
  · exact ⟨_, held, rfl, rfl⟩
  · exact ⟨_, held, rfl, rfl⟩

/-- A step takes the task it runs out of the others; a lone task is the first. -/
theorem tasks_cases (taken : before.step sha1 event = some after) :
    ∃ ahead behind, before.tasks ++ before.posts sha1 event = ahead ++ before.ran event ++ behind ∧
      after.tasks = ahead ++ behind ∧ (before.held.length ≤ 1 → ahead = []) := by
  cases event with
  | accept input =>
      obtain ⟨connection, -, rfl⟩ := accept_cases taken
      exact ⟨[], before.tasks, List.append_nil _, rfl, fun _ => rfl⟩
  | socket session inner =>
      obtain ⟨connection, next, actions, found, reacted, rfl⟩ := socket_cases taken
      refine ⟨[], _, rfl, ?_, fun _ => rfl⟩
      unfold posts
      rw [arrivals_socket found reacted, ← requests_eq]
      change before.held.map Prod.snd ++ (before.queue ++ _) = before.tasks ++ (_ ++ [])
      rw [List.append_nil, ← List.append_assoc]
      rfl
  | broadcast data is_binary =>
      cases taken
      exact ⟨[], _, rfl, (List.append_assoc _ _ _).symm, fun _ => rfl⟩
  | take thread =>
      obtain ⟨task, rest, queued, -, -, rfl⟩ := take_cases taken
      refine ⟨[], _, rfl, ?_, fun _ => rfl⟩
      unfold tasks
      rw [queued, List.map_append, List.append_assoc]
      exact (List.append_nil _).symm
  | dispatch thread =>
      obtain ⟨task, held, erased, queue⟩ := dispatch_held taken
      obtain ⟨earlier, later, split, without⟩ := held_split held
      refine ⟨earlier.map Prod.snd, later.map Prod.snd ++ before.queue, ?_, ?_, fun alone => ?_⟩
      · rw [ran_dispatch held]
        unfold tasks
        rw [split]
        simp [posts, arrivals, callbacks]
      · unfold tasks
        rw [erased, queue, without, List.map_append, List.append_assoc]
      · rw [split, List.length_append, List.length_cons] at alone
        rw [List.eq_nil_of_length_eq_zero (show earlier.length = 0 by omega)]
        rfl
  | strand =>
      obtain ⟨request, rest, connection, -, -, rfl⟩ := strand_cases taken
      exact ⟨[], before.tasks, List.append_nil _, rfl, fun _ => rfl⟩

theorem tasks_perm (taken : before.step sha1 event = some after) :
    (before.ran event ++ after.tasks).Perm (before.tasks ++ before.posts sha1 event) := by
  obtain ⟨ahead, behind, whole, rest, -⟩ := tasks_cases taken
  rw [whole, rest, ← List.append_assoc]
  exact List.perm_append_comm.append_right behind

theorem tasks_eq (taken : before.step sha1 event = some after) (alone : before.held.length ≤ 1) :
    before.ran event ++ after.tasks = before.tasks ++ before.posts sha1 event := by
  obtain ⟨ahead, behind, whole, rest, first⟩ := tasks_cases taken
  rw [whole, rest, first alone]
  rfl

/-! ### Requests -/

def left (self : Server) : List Request :=
  self.sent.map Sent.request ++ self.io_strand_

theorem left_step (taken : before.step sha1 event = some after) :
    after.left = before.left ++ (before.ran event).filterMap Task.request? := by
  cases event with
  | accept input =>
      obtain ⟨connection, -, rfl⟩ := accept_cases taken
      exact (List.append_nil _).symm
  | socket session inner =>
      obtain ⟨connection, next, actions, -, -, rfl⟩ := socket_cases taken
      exact (List.append_nil _).symm
  | broadcast data is_binary =>
      cases taken
      exact (List.append_nil _).symm
  | take thread =>
      obtain ⟨task, rest, -, -, -, rfl⟩ := take_cases taken
      exact (List.append_nil _).symm
  | dispatch thread =>
      rcases dispatch_cases taken with ⟨request, held, rfl⟩ | ⟨_, _, _, _, held, -, rfl⟩
      · rw [ran_dispatch held]
        exact (List.append_assoc _ _ _).symm
      · rw [ran_dispatch held]
        exact (List.append_nil _).symm
  | strand =>
      obtain ⟨request, rest, connection, queued, -, rfl⟩ := strand_cases taken
      unfold left
      rw [queued, List.map_append, List.append_assoc]
      exact (List.append_nil _).symm

theorem posts_requests (server : Server) (event : Event) :
    (server.posts sha1 event).filterMap Task.request? = server.arrivals sha1 event := by
  have none : (server.callbacks event).filterMap Task.request? = [] := by
    cases event with
    | broadcast data is_binary =>
        change (List.map _ _).filterMap _ = []
        rw [List.filterMap_map]
        exact List.filterMap_eq_nil_iff.mpr fun _ _ => rfl
    | accept input => rfl
    | socket session inner => rfl
    | take thread => rfl
    | dispatch thread => rfl
    | strand => rfl
  unfold posts
  rw [List.filterMap_append, none, List.append_nil, List.filterMap_map]
  exact List.filterMap_some

/-- Whatever the threads do, no request leaves the pipeline and none enters it
twice. -/
theorem pipeline_perm (taken : before.step sha1 event = some after) :
    after.pipeline.Perm (before.pipeline ++ before.arrivals sha1 event) := by
  have moved := (tasks_perm taken).filterMap Task.request?
  rw [List.filterMap_append, List.filterMap_append, posts_requests] at moved
  have split (server : Server) : server.pipeline =
      server.left ++ server.tasks.filterMap Task.request? := rfl
  rw [split, split, left_step taken, List.append_assoc, List.append_assoc]
  exact moved.append_left _

def completed (self : Server) (session : Nat) : List Request :=
  match self.connections[session]? with
  | none => []
  | some connection => connection.requests session

theorem completed_eq {server : Server} {session : Nat} {connection : Connection}
    (found : server.connections[session]? = some connection) :
    server.completed session = connection.requests session := by
  unfold completed
  rw [found]

theorem completed_none {server : Server} {session : Nat}
    (absent : server.connections[session]? = none) : server.completed session = [] := by
  unfold completed
  rw [absent]

private theorem Sees.requests {session : Nat} {connection next : Connection}
    (here : before.connections[session]? = some connection)
    (sees : Sees sha1 before event session connection next) :
    next.requests session = connection.requests session ++
      (before.arrivals sha1 event).filter fun request => request.session == session := by
  cases sees with
  | still other =>
      rw [arrivals_other, List.append_nil]
      rintro inner rfl
      exact other _ rfl
  | moved stimulus actions given responds =>
      rw [requests_respond session responds]
      cases stimulus with
      | socket inner =>
          have mine := stimulus_socket given
          subst mine
          change connection.react sha1 inner = _ at responds
          rw [arrivals_socket here responds, filter_numbered_self]
      | write data is_binary =>
          obtain ⟨thread, rfl, -⟩ := stimulus_write given
          cases responds
          rfl

private theorem arrivals_absent {session : Nat} (taken : before.step sha1 event = some after)
    (absent : before.connections[session]? = none) :
    (before.arrivals sha1 event).filter (fun request => request.session == session) = [] := by
  apply arrivals_other
  rintro inner rfl
  obtain ⟨connection, next, actions, found, -, -⟩ := socket_cases taken
  rw [absent] at found
  cases found

theorem completed_step (taken : before.step sha1 event = some after) (session : Nat) :
    after.completed session = before.completed session ++
      (before.arrivals sha1 event).filter fun request => request.session == session := by
  cases here : before.connections[session]? with
  | some connection =>
      obtain ⟨next, found, sees⟩ := session_step taken here
      rw [completed_eq here, completed_eq found]
      exact sees.requests here
  | none =>
      rw [arrivals_absent taken here, completed_none here]
      cases found : after.connections[session]? with
      | none => exact completed_none found
      | some next =>
          obtain ⟨input, accepted⟩ := fresh_accepted taken here found
          rw [completed_eq found]
          unfold Connection.requests
          rw [(Connection.accept_idle accepted).1]
          rfl

theorem flow_of_run {num_threads : Nat} {server : Server}
    (run : Reaches (step sha1) anyEvent (start num_threads) server) (session : Nat) :
    (server.flow session).Perm (server.completed session) := by
  apply run.invariant fun server => (server.flow session).Perm (server.completed session)
  · intro before event after ih _ taken
    have moved := (pipeline_perm taken).filter fun request => request.session == session
    rw [List.filter_append] at moved
    rw [completed_step taken]
    exact moved.trans (ih.append_right _)
  · exact .nil

/-- The requests of a session that the dealer has still to see. -/
def waiting (self : Server) (session : Nat) : List Request :=
  self.underway.filter fun request => request.session == session

theorem flow_eq (server : Server) (session : Nat) :
    server.flow session = server.delivered session ++ server.waiting session := by
  unfold flow pipeline delivered waiting underway
  rw [List.append_assoc, List.filter_append]

theorem nodup_requests (connection : Connection) (session : Nat) :
    (connection.requests session).Nodup := by
  have ordinals : ((connection.requests session).map Request.ordinal) =
      List.range connection.posted.length := by
    unfold Connection.requests
    rw [List.map_map, List.zipIdx_eq_zip_range', List.map_congr_left (fun _ _ => rfl),
      List.range_eq_range']
    exact List.map_snd_zip (Nat.le_of_eq List.length_range')
  exact List.Nodup.of_map Request.ordinal (by rw [ordinals]; exact List.nodup_range)

end Server

/-! ### Broadcasts -/

def Task.write? (session : Nat) : Task → Option WriteOp
  | .request _ => none
  | .write target data is_binary =>
      if target = session then some (Session.write data is_binary) else none

namespace Server

variable {sha1 : List UInt8 → Digest} {before after : Server} {event : Event}

def pending (self : Server) (session : Nat) : List WriteOp :=
  self.tasks.filterMap (Task.write? session)

/-- What an event has a session write: a broadcast its frame, while the session is
registered. -/
def hears (session : Nat) (self : Server) : Event → List WriteOp
  | .broadcast data is_binary =>
      if session ∈ self.session_manager_.unauthed_ then [Session.write data is_binary] else []
  | _ => []

private theorem filterMap_registered {registered : List Nat} (distinct : registered.Nodup)
    (session : Nat) (data : List UInt8) (is_binary : Bool) :
    (registered.map fun target => Task.write target data is_binary).filterMap
        (Task.write? session) =
      if session ∈ registered then [Session.write data is_binary] else [] := by
  induction registered with
  | nil => rfl
  | cons target registered ih =>
      obtain ⟨fresh, distinct⟩ := List.nodup_cons.mp distinct
      rw [List.map_cons, List.filterMap_cons, ih distinct, Task.write?]
      by_cases same : target = session
      · subst same
        rw [if_pos rfl, if_neg fresh, if_pos List.mem_cons_self]
      · rw [if_neg same]
        simp only [List.mem_cons, Ne.symm same, false_or]

theorem posts_writes (session : Nat) (server : Server) (event : Event) :
    (server.posts sha1 event).filterMap (Task.write? session) = server.hears session event := by
  have none : ((server.arrivals sha1 event).map Task.request).filterMap (Task.write? session) =
      [] := by
    rw [List.filterMap_map]
    exact List.filterMap_eq_nil_iff.mpr fun _ _ => rfl
  unfold posts
  rw [List.filterMap_append, none, List.nil_append]
  cases event with
  | broadcast data is_binary =>
      exact filterMap_registered server.session_manager_.distinct session data is_binary
  | accept input => rfl
  | socket session inner => rfl
  | take thread => rfl
  | dispatch thread => rfl
  | strand => rfl

def written (self : Server) (session : Nat) : List WriteOp :=
  match self.connections[session]? with
  | none => []
  | some connection => connection.written

theorem written_eq {server : Server} {session : Nat} {connection : Connection}
    (found : server.connections[session]? = some connection) :
    server.written session = connection.written := by
  unfold written
  rw [found]

theorem written_none {server : Server} {session : Nat}
    (absent : server.connections[session]? = none) : server.written session = [] := by
  unfold written
  rw [absent]

private theorem Sees.written (phases : before.Every Connection.Phase) {session : Nat}
    {connection next : Connection} (taken : before.step sha1 event = some after)
    (here : before.connections[session]? = some connection)
    (sees : Sees sha1 before event session connection next) :
    next.written =
      connection.written ++ (before.ran event).filterMap (Task.write? session) := by
  cases sees with
  | still other =>
      have none : (before.ran event).filterMap (Task.write? session) = [] := by
        cases event with
        | dispatch thread =>
            obtain ⟨task, held, -, -⟩ := dispatch_held taken
            rw [ran_dispatch held]
            cases task with
            | request request => rfl
            | write target data is_binary =>
                have given : before.stimulus (.dispatch thread) =
                    some (target, .write data is_binary) := by
                  unfold stimulus
                  simp only [held]
                have apart : target ≠ session := by
                  rintro rfl
                  exact other _ given
                rw [List.filterMap_cons, Task.write?, if_neg apart]
                rfl
        | accept input => rfl
        | socket session inner => rfl
        | broadcast data is_binary => rfl
        | take thread => rfl
        | strand => rfl
      rw [none, List.append_nil]
  | moved stimulus actions given responds =>
      cases stimulus with
      | socket inner =>
          have mine := stimulus_socket given
          subst mine
          exact ((phases session connection here).react_written responds).trans
            (List.append_nil _).symm
      | write data is_binary =>
          obtain ⟨thread, rfl, held⟩ := stimulus_write given
          cases responds
          rw [ran_dispatch held, connection.written_write, List.filterMap_cons, Task.write?,
            if_pos rfl]
          rfl

private theorem ran_absent {session : Nat} (taken : before.step sha1 event = some after)
    (absent : before.connections[session]? = none) :
    (before.ran event).filterMap (Task.write? session) = [] := by
  cases event with
  | dispatch thread =>
      rcases dispatch_cases taken with ⟨request, held, -⟩ | ⟨target, _, _, _, held, found, -⟩
      · rw [ran_dispatch held]
        rfl
      · have apart : target ≠ session := by
          rintro rfl
          rw [absent] at found
          cases found
        rw [ran_dispatch held, List.filterMap_cons, Task.write?, if_neg apart]
        rfl
  | accept input => rfl
  | socket place inner => rfl
  | broadcast data is_binary => rfl
  | take thread => rfl
  | strand => rfl

theorem written_step (phases : before.Every Connection.Phase)
    (taken : before.step sha1 event = some after) (session : Nat) :
    after.written session =
      before.written session ++ (before.ran event).filterMap (Task.write? session) := by
  cases here : before.connections[session]? with
  | some connection =>
      obtain ⟨next, found, sees⟩ := session_step taken here
      rw [written_eq here, written_eq found]
      exact sees.written phases taken here
  | none =>
      rw [ran_absent taken here, written_none here]
      cases found : after.connections[session]? with
      | none => exact written_none found
      | some next =>
          obtain ⟨input, accepted⟩ := fresh_accepted taken here found
          rw [written_eq found]
          unfold Connection.written
          rw [(Connection.accept_idle accepted).2]
          rfl

/-- The broadcasts of a run that find the session registered, as frames. -/
def broadcasts (sha1 : List UInt8 → Digest) (num_threads session : Nat) (events : List Event) :
    List WriteOp :=
  observed (step sha1) (hears session) (start num_threads) events

theorem written_of_run {num_threads : Nat} {events : List Event} {server : Server}
    (run : Runs (step sha1) (start num_threads) events server) (session : Nat) :
    (server.written session ++ server.pending session).Perm
      (broadcasts sha1 num_threads session events) := by
  induction run with
  | start => exact .nil
  | @next events before after event run taken ih =>
      have moved := (tasks_perm taken).filterMap (Task.write? session)
      rw [List.filterMap_append, List.filterMap_append, posts_writes] at moved
      unfold broadcasts at ih ⊢
      rw [run.observed_next _ taken, written_step (run_phases run.reaches) taken, List.append_assoc]
      refine (moved.append_left _).trans ?_
      rw [← List.append_assoc]
      exact ih.append_right _

theorem flows_of_run {num_threads : Nat} (narrow : num_threads ≤ 1) {server : Server}
    (run : Reaches (step sha1) anyEvent (start num_threads) server) : server.Flows := by
  apply run.invariant Flows
  · intro before event after flows _ taken
    exact flows.step taken
  · refine ⟨narrow, ?_, Nat.zero_le 1, ?_, fun session _ => rfl⟩
    · intro taken member
      cases member
    · intro session connection found
      cases found

theorem written_in_order {num_threads : Nat} (narrow : num_threads ≤ 1) {events : List Event}
    {server : Server} (run : Runs (step sha1) (start num_threads) events server) (session : Nat) :
    server.written session ++ server.pending session =
      broadcasts sha1 num_threads session events := by
  induction run with
  | start => rfl
  | @next events before after event run taken ih =>
      have moved := congrArg (List.filterMap (Task.write? session))
        (tasks_eq taken (flows_of_run narrow run.reaches).alone)
      rw [List.filterMap_append, List.filterMap_append, posts_writes] at moved
      unfold broadcasts at ih ⊢
      rw [run.observed_next _ taken, written_step (run_phases run.reaches) taken, List.append_assoc]
      change _ ++ (_ ++ after.tasks.filterMap _) = _
      rw [moved, ← ih, List.append_assoc]
      rfl

end Server

/-- On any number of threads and under any schedule, what has reached the dealer of a
session and what is on its way are the requests of its messages, each once. -/
theorem requests_exactly_once (sha1 : List UInt8 → Digest) {num_threads : Nat} {server : Server}
    (run : Reaches (Server.step sha1) anyEvent (Server.start num_threads) server) {session : Nat}
    {connection : Connection} (found : server.connections[session]? = some connection) :
    (server.delivered session ++ server.waiting session).Perm (connection.requests session) ∧
      (server.delivered session ++ server.waiting session).Nodup := by
  have flow := Server.flow_of_run run session
  rw [Server.flow_eq, Server.completed_eq found] at flow
  exact ⟨flow, flow.nodup_iff.mpr (Server.nodup_requests connection session)⟩

theorem requests_exactly_once_sample :
    ∃ (server : Server) (connection : Connection),
      (server.delivered 0).map Request.ordinal = [1] ∧
      (server.delivered 0 ++ server.waiting 0).Perm (connection.requests 0) ∧
      (server.delivered 0 ++ server.waiting 0).Nodup := by
  obtain ⟨first, server, same, run, here⟩ := Reaches.of_trace_any (Server.step zeroDigest) anyEvent
    (some (Server.start 2))
    (fun server : Server => decide ((server.delivered 0).map Request.ordinal = [1]) &&
      server.connections[0]?.isSome)
    (Server.overtaking.take 14) (by decide +kernel)
  cases same
  rw [Bool.and_eq_true] at here
  obtain ⟨connection, found⟩ := Option.isSome_iff_exists.mp here.2
  exact ⟨server, connection, of_decide_eq_true here.1,
    requests_exactly_once zeroDigest run found⟩

/-- A session has written, or has waiting, a frame for each broadcast that found it
registered and for nothing else; with one thread they are in the order of the
broadcasts. -/
theorem broadcasts_exactly_once (sha1 : List UInt8 → Digest) {num_threads : Nat}
    {events : List Event} {server : Server}
    (run : Runs (Server.step sha1) (Server.start num_threads) events server) (session : Nat) :
    (server.written session ++ server.pending session).Perm
        (Server.broadcasts sha1 num_threads session events) ∧
      (num_threads ≤ 1 → server.written session ++ server.pending session =
        Server.broadcasts sha1 num_threads session events) :=
  ⟨Server.written_of_run run session, fun narrow => Server.written_in_order narrow run session⟩

theorem broadcasts_exactly_once_sample :
    ∃ server : Server, server.written 0 ++ server.pending 0 = [Session.write [0x62] false] := by
  obtain ⟨first, server, same, run, here⟩ := Runs.of_trace_any (Server.step zeroDigest)
    (some (Server.start 1)) (fun server : Server => server.connections.length == 1)
    [.broadcast [0x61] false, .accept [], .broadcast [0x62] false, .socket 0 .fail_first,
      .broadcast [0x63] false, .take 0] (by decide +kernel)
  cases same
  obtain ⟨-, ordered⟩ := broadcasts_exactly_once zeroDigest run 0
  exact ⟨server, (ordered (Nat.le_refl 1)).trans (by decide +kernel)⟩

end Averyws
