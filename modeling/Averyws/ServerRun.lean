/-
Runs of the server.

Every event has one lemma that says all it can do.  A step gives a stimulus to
one session at most, so a session of the server runs as a session alone does.
-/

import Averyws.Server
import Averyws.SessionRun

namespace Averyws

open Library.Run
open Utilities

namespace Server

variable {sha1 : List UInt8 → Digest} {before after : Server}

/-! ### What an event can do -/

theorem accept_cases {input : List UInt8} (taken : before.step sha1 (.accept input) = some after) :
    ∃ connection, Connection.accept input = some connection ∧
      after = { before with
        connections := before.connections ++ [connection]
        session_manager_ := before.session_manager_.add_unauthed before.connections.length } := by
  change (if before.idle then before.handle_accept input else none) = some after at taken
  split at taken
  next =>
    unfold handle_accept at taken
    obtain ⟨connection, accepted, same⟩ := Option.bind_eq_some_iff.mp taken
    cases same
    exact ⟨connection, accepted, rfl⟩
  next => cases taken

theorem socket_cases {session : Nat} {event : SocketEvent}
    (taken : before.step sha1 (.socket session event) = some after) :
    ∃ connection next actions, before.connections[session]? = some connection ∧
      connection.react sha1 event = some (next, actions) ∧
      after = { before with
        connections := before.connections.set session next
        session_manager_ :=
          if .remove ∈ actions then
            before.session_manager_.remove session next.session.authenticated_ next.session.sid_
          else before.session_manager_
        queue := before.queue ++ requests session connection.posted.length actions } := by
  change (if before.idle then before.socket sha1 session event else none) = some after at taken
  split at taken
  next =>
    unfold socket at taken
    obtain ⟨connection, found, rest⟩ := Option.bind_eq_some_iff.mp taken
    obtain ⟨⟨next, actions⟩, reacted, same⟩ := Option.bind_eq_some_iff.mp rest
    cases same
    exact ⟨connection, next, actions, found, reacted, rfl⟩
  next => cases taken

theorem take_cases {thread : Nat} (taken : before.step sha1 (.take thread) = some after) :
    ∃ task rest, before.queue = task :: rest ∧ thread < before.num_threads_ ∧
      before.held.lookup thread = none ∧
      after = { before with queue := rest, held := before.held ++ [(thread, task)] } := by
  change before.take thread = some after at taken
  unfold take at taken
  split at taken
  next => cases taken
  next task rest queued =>
    split at taken
    next ready =>
      cases taken
      exact ⟨task, rest, queued, ready.1, ready.2, rfl⟩
    next => cases taken

theorem dispatch_cases {thread : Nat} (taken : before.step sha1 (.dispatch thread) = some after) :
    (∃ request, before.held.lookup thread = some (.request request) ∧
      after = { before with
        held := before.held.eraseP fun taken => taken.1 == thread
        io_strand_ := before.io_strand_ ++ [request] }) ∨
      ∃ session data is_binary connection,
        before.held.lookup thread = some (.write session data is_binary) ∧
        before.connections[session]? = some connection ∧
        after = { before with
          held := before.held.eraseP fun taken => taken.1 == thread
          connections := before.connections.set session (connection.write data is_binary) } := by
  change before.dispatch thread = some after at taken
  unfold dispatch at taken
  obtain ⟨task, held, rest⟩ := Option.bind_eq_some_iff.mp taken
  cases task with
  | request request =>
      cases rest
      exact Or.inl ⟨request, held, rfl⟩
  | write session data is_binary =>
      obtain ⟨connection, found, same⟩ := Option.bind_eq_some_iff.mp rest
      cases same
      exact Or.inr ⟨session, data, is_binary, connection, held, found, rfl⟩

theorem strand_cases (taken : before.step sha1 .strand = some after) :
    ∃ request rest connection, before.io_strand_ = request :: rest ∧
      before.connections[request.session]? = some connection ∧
      after = { before with
        io_strand_ := rest
        sent := before.sent ++
          [{ request := request, calls := connection.session.request request.buffer }] } := by
  change before.strand = some after at taken
  unfold strand at taken
  split at taken
  next => cases taken
  next request rest queued =>
    obtain ⟨connection, found, same⟩ := Option.bind_eq_some_iff.mp taken
    cases same
    exact ⟨request, rest, connection, queued, found, rfl⟩

/-! ### What a session sees of a step -/

def stimulus (self : Server) : Event → Option (Nat × Stimulus)
  | .socket session event => some (session, .socket event)
  | .dispatch thread =>
      match self.held.lookup thread with
      | some (.write session data is_binary) => some (session, .write data is_binary)
      | _ => none
  | _ => none

theorem stimulus_socket {server : Server} {event : Event} {session : Nat} {inner : SocketEvent}
    (given : server.stimulus event = some (session, .socket inner)) :
    event = .socket session inner := by
  unfold stimulus at given
  split at given
  next =>
    cases given
    rfl
  next =>
    split at given
    next => cases given
    next => cases given
  next => cases given

theorem stimulus_write {server : Server} {event : Event} {session : Nat} {data : List UInt8}
    {is_binary : Bool}
    (given : server.stimulus event = some (session, .write data is_binary)) :
    ∃ thread, event = .dispatch thread ∧
      server.held.lookup thread = some (.write session data is_binary) := by
  unfold stimulus at given
  split at given
  next => cases given
  next thread =>
    split at given
    next held =>
      cases given
      exact ⟨thread, rfl, held⟩
    next => cases given
  next => cases given

/-- What a step does to a session: nothing when the stimulus is not its own. -/
inductive Sees (sha1 : List UInt8 → Digest) (before : Server) (event : Event) (session : Nat)
    (connection : Connection) : Connection → Prop
  | still (other : ∀ stimulus, before.stimulus event ≠ some (session, stimulus)) :
      Sees sha1 before event session connection connection
  | moved {next : Connection} (stimulus : Stimulus) (actions : List Action)
      (given : before.stimulus event = some (session, stimulus))
      (responds : connection.respond sha1 stimulus = some (next, actions)) :
      Sees sha1 before event session connection next

private theorem sees_set {event : Event} {session place : Nat} {next old new : Connection}
    {stimulus : Stimulus} {actions : List Action} (here : before.connections[place]? = some old)
    (given : before.stimulus event = some (place, stimulus))
    (responds : old.respond sha1 stimulus = some (new, actions))
    (found : (before.connections.set place new)[session]? = some next) :
    ∃ connection, before.connections[session]? = some connection ∧
      Sees sha1 before event session connection next := by
  by_cases same : place = session
  · subst same
    have inside := (List.getElem?_eq_some_iff.mp here).1
    rw [List.getElem?_set_self inside] at found
    cases found
    exact ⟨old, here, .moved stimulus actions given responds⟩
  · rw [List.getElem?_set_ne same] at found
    refine ⟨next, found, .still fun other wrong => ?_⟩
    rw [given] at wrong
    cases wrong
    exact same rfl

theorem step_connection {event : Event} (taken : before.step sha1 event = some after)
    {session : Nat} {next : Connection} (found : after.connections[session]? = some next) :
    (∃ input, event = .accept input ∧ session = before.connections.length ∧
        Connection.accept input = some next) ∨
      ∃ connection, before.connections[session]? = some connection ∧
        Sees sha1 before event session connection next := by
  cases event with
  | accept input =>
      obtain ⟨connection, accepted, rfl⟩ := accept_cases taken
      rcases Nat.lt_or_ge session before.connections.length with old | new
      · right
        rw [List.getElem?_append_left old] at found
        exact ⟨next, found, .still nofun⟩
      · left
        rw [List.getElem?_append_right new] at found
        obtain ⟨bound, same⟩ := List.getElem?_eq_some_iff.mp found
        have zero : session - before.connections.length = 0 := Nat.lt_one_iff.mp bound
        simp only [zero, List.getElem_cons_zero] at same
        exact ⟨input, rfl, by omega, by rw [← same]; exact accepted⟩
  | socket place event =>
      obtain ⟨old, new, actions, here, reacted, rfl⟩ := socket_cases taken
      exact Or.inr (sees_set here rfl reacted found)
  | broadcast data is_binary =>
      cases taken
      exact Or.inr ⟨next, found, .still nofun⟩
  | take thread =>
      obtain ⟨task, rest, -, -, -, rfl⟩ := take_cases taken
      exact Or.inr ⟨next, found, .still nofun⟩
  | dispatch thread =>
      rcases dispatch_cases taken with ⟨request, held, rfl⟩ |
        ⟨place, data, is_binary, old, held, here, rfl⟩
      · refine Or.inr ⟨next, found, .still fun stimulus given => ?_⟩
        unfold Server.stimulus at given
        simp only [held] at given
        cases given
      · have given : before.stimulus (.dispatch thread) =
            some (place, .write data is_binary) := by
          unfold Server.stimulus
          simp only [held]
        exact Or.inr (sees_set here given rfl found)
  | strand =>
      obtain ⟨request, rest, connection, -, -, rfl⟩ := strand_cases taken
      exact Or.inr ⟨next, found, .still nofun⟩

theorem step_length {event : Event} (taken : before.step sha1 event = some after) :
    before.connections.length ≤ after.connections.length := by
  cases event with
  | accept input =>
      obtain ⟨connection, -, rfl⟩ := accept_cases taken
      rw [List.length_append]
      exact Nat.le_add_right _ _
  | socket place event =>
      obtain ⟨old, new, actions, -, -, rfl⟩ := socket_cases taken
      exact Nat.le_of_eq List.length_set.symm
  | broadcast data is_binary =>
      cases taken
      exact Nat.le_refl _
  | take thread =>
      obtain ⟨task, rest, -, -, -, rfl⟩ := take_cases taken
      exact Nat.le_refl _
  | dispatch thread =>
      rcases dispatch_cases taken with ⟨request, -, rfl⟩ |
        ⟨place, data, is_binary, old, -, -, rfl⟩
      · exact Nat.le_refl _
      · exact Nat.le_of_eq List.length_set.symm
  | strand =>
      obtain ⟨request, rest, connection, -, -, rfl⟩ := strand_cases taken
      exact Nat.le_refl _

theorem session_step {event : Event} (taken : before.step sha1 event = some after) {session : Nat}
    {connection : Connection} (found : before.connections[session]? = some connection) :
    ∃ next, after.connections[session]? = some next ∧
      Sees sha1 before event session connection next := by
  have inside := (List.getElem?_eq_some_iff.mp found).1
  have still := List.getElem?_eq_getElem (Nat.lt_of_lt_of_le inside (step_length taken))
  rcases step_connection taken still with ⟨input, -, place, -⟩ | ⟨other, here, sees⟩
  · exact absurd place (Nat.ne_of_lt inside)
  · rw [found] at here
    cases here
    exact ⟨_, still, sees⟩

/-- A session of the server runs as a session alone does, under the stimuli the
allowed events give it. -/
theorem run_session {allowed : Server → Event → Prop}
    {permitted : Connection → Stimulus → Prop}
    (permits : ∀ (server : Server) event session stimulus connection, allowed server event →
      server.stimulus event = some (session, stimulus) →
      server.connections[session]? = some connection → permitted connection stimulus)
    {num_threads : Nat} {server : Server}
    (run : Reaches (step sha1) allowed (start num_threads) server) {session : Nat}
    {connection : Connection} (found : server.connections[session]? = some connection) :
    ∃ input first, Connection.accept input = some first ∧
      Reaches (Connection.next sha1) permitted first connection := by
  induction run generalizing session connection with
  | start => cases found
  | next event reached allows taken ih =>
      rcases step_connection taken found with ⟨input, -, -, accepted⟩ | ⟨old, here, sees⟩
      · exact ⟨input, connection, accepted, .start⟩
      · obtain ⟨input, first, accepted, run⟩ := ih here
        refine ⟨input, first, accepted, ?_⟩
        cases sees with
        | still => exact run
        | moved stimulus actions given responds =>
            apply Reaches.next stimulus run (permits _ event session stimulus old allows given here)
            unfold Connection.next
            rw [responds]
            rfl

def tasks (self : Server) : List Task :=
  self.held.map Prod.snd ++ self.queue

theorem held_split {held : List (Nat × Task)} {thread : Nat} {task : Task}
    (found : held.lookup thread = some task) :
    ∃ earlier later, held = earlier ++ (thread, task) :: later ∧
      held.eraseP (fun taken => taken.1 == thread) = earlier ++ later := by
  obtain ⟨earlier, later, split, others⟩ := List.lookup_eq_some_iff.mp found
  refine ⟨earlier, later, split, ?_⟩
  rw [split, List.eraseP_append_right, List.eraseP_cons_of_pos]
  · exact beq_self_eq_true thread
  · intro taken member same
    have other := others taken member
    rw [eq_of_beq same] at other
    simp at other

theorem mem_tasks_of_lookup {server : Server} {thread : Nat} {task : Task}
    (found : server.held.lookup thread = some task) : task ∈ server.tasks := by
  obtain ⟨earlier, later, split, -⟩ := held_split found
  unfold tasks
  rw [split]
  simp

private theorem mem_tasks_of_erase {held : List (Nat × Task)} {queue : List Task}
    {erased : Nat × Task → Bool} {task : Task}
    (member : task ∈ (held.eraseP erased).map Prod.snd ++ queue) :
    task ∈ held.map Prod.snd ++ queue := by
  rcases List.mem_append.mp member with taken | queued
  · obtain ⟨pair, inside, same⟩ := List.mem_map.mp taken
    exact List.mem_append_left _ (List.mem_map.mpr ⟨pair, List.mem_of_mem_eraseP inside, same⟩)
  · exact List.mem_append_right _ queued

theorem step_tasks {event : Event} (taken : before.step sha1 event = some after) {task : Task}
    (member : task ∈ after.tasks) :
    task ∈ before.tasks ∨
      (∃ data is_binary session, event = .broadcast data is_binary ∧
        session ∈ before.session_manager_.unauthed_ ∧ task = .write session data is_binary) ∨
      ∃ request, task = .request request := by
  cases event with
  | accept input =>
      obtain ⟨connection, -, rfl⟩ := accept_cases taken
      exact Or.inl member
  | socket place event =>
      obtain ⟨old, new, actions, -, -, rfl⟩ := socket_cases taken
      unfold tasks at member
      rw [← List.append_assoc] at member
      rcases List.mem_append.mp member with earlier | new
      · exact Or.inl earlier
      · right; right
        obtain ⟨numbered, -, same⟩ := List.mem_map.mp new
        exact ⟨_, same.symm⟩
  | broadcast data is_binary =>
      cases taken
      change task ∈ before.held.map Prod.snd ++ (before.queue ++ _) at member
      rw [← List.append_assoc] at member
      rcases List.mem_append.mp member with earlier | new
      · exact Or.inl earlier
      · right; left
        obtain ⟨session, inside, same⟩ := List.mem_map.mp new
        exact ⟨data, is_binary, session, rfl, inside, same.symm⟩
  | take thread =>
      obtain ⟨head, rest, queued, -, -, rfl⟩ := take_cases taken
      left
      unfold tasks at member ⊢
      rw [queued]
      simpa [or_assoc] using member
  | dispatch thread =>
      left
      rcases dispatch_cases taken with ⟨request, held, rfl⟩ |
        ⟨place, data, is_binary, old, held, -, rfl⟩
      · exact mem_tasks_of_erase member
      · exact mem_tasks_of_erase member
  | strand =>
      obtain ⟨request, rest, connection, -, -, rfl⟩ := strand_cases taken
      exact Or.inl member

def Every (self : Server) (holds : Connection → Prop) : Prop :=
  ∀ (session : Nat) (connection : Connection),
    self.connections[session]? = some connection → holds connection

theorem run_phases {allowed : Server → Event → Prop} {num_threads : Nat} {server : Server}
    (run : Reaches (step sha1) allowed (start num_threads) server) :
    server.Every Connection.Phase := by
  intro session connection found
  obtain ⟨input, first, accepted, path⟩ :
      ∃ input first, Connection.accept input = some first ∧
        Reaches (Connection.next sha1) anyEvent first connection :=
    run_session (fun _ _ _ _ _ _ _ _ => trivial) run found
  exact Connection.phase_of_run accepted path

end Server

end Averyws
