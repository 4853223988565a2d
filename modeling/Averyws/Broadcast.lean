/-
Broadcasts and the ends of a session.

A broadcast goes to every session of the registry, from before the handshake is
answered until the close frame has been written.  A data frame stays between the
response and the close frame when no broadcast meets a session outside of them,
and no close frame is queued while a broadcast is on its way.
-/

import Averyws.ServerRun
import Averyws.WireOrder

namespace Averyws

open Library.Run
open Utilities

def WriteHandler.closes : WriteHandler → Bool
  | .kill => true
  | .cancel _ => true
  | _ => false

namespace Connection

def queued (self : Connection) : List WriteHandler :=
  self.writes.map fun out => out.op.handler

variable {sha1 : List UInt8 → Digest} {before after : Connection} {actions : List Action}

theorem queued_eq (connection : Connection) :
    connection.queued = connection.parcels.map fun parcel => parcel.label := by
  unfold queued parcels
  rw [List.map_map]
  rfl

theorem Phase.respond_queued (phase : before.Phase) {stimulus : Stimulus}
    (done : before.respond sha1 stimulus = some (after, actions)) :
    after.queued =
      before.queued ++ (actions.filterMap Action.write?).map fun op => op.handler := by
  rcases phase.respond_quiet done with quiet | ⟨index, count, rfl, rfl, taken⟩
  · rw [queued_eq, queued_eq, quiet.parcels, List.map_append, List.map_map]
    rfl
  · obtain ⟨out, found, -, -, -, rfl⟩ := write_some_cases taken
    rw [List.filterMap_nil, List.map_nil, List.append_nil]
    exact map_set_of_eq (fun out : Outgoing => out.op.handler) found rfl

theorem react_writes {event : SocketEvent}
    (done : before.react sha1 event = some (after, actions)) :
    (∃ index, event = .read index) ∨
      ∀ op ∈ actions.filterMap Action.write?, op.handler = .handshake := by
  cases event with
  | read index => exact Or.inl ⟨index, rfl⟩
  | read_first count =>
      right
      obtain ⟨-, -, -, -, session, received, -⟩ := complete_first_cases done
      rcases Session.receive_first_cases received with ⟨rfl, -⟩ | ⟨reply, rfl, -⟩
      · exact fun op member => absurd member List.not_mem_nil
      · intro op member
        rw [List.mem_singleton.mp member]
  | fail_first =>
      right
      obtain ⟨-, rfl, -⟩ := fail_first_cases done
      exact fun op member => absurd member List.not_mem_nil
  | fail_read index =>
      right
      obtain ⟨-, rfl, -⟩ := fail_read_cases done
      exact fun op member => absurd member List.not_mem_nil
  | write_some index count =>
      right
      obtain ⟨next, taken, same⟩ := Option.map_eq_some_iff.mp done
      cases same
      exact fun op member => absurd member List.not_mem_nil
  | written index error =>
      right
      obtain ⟨out, -, -, -, outcome⟩ := complete_write_cases done
      rcases outcome with ⟨-, -, rfl, -⟩ | ⟨-, rfl | rfl, -⟩
      · exact fun op member => absurd member List.not_mem_nil
      · exact fun op member => absurd member List.not_mem_nil
      · exact fun op member => absurd member List.not_mem_nil

/-- Only `Session::write` starts a data frame. -/
theorem Phase.react_queues (phase : before.Phase) {event : SocketEvent}
    (done : before.react sha1 event = some (after, actions)) :
    ∀ op ∈ actions.filterMap Action.write?, op.handler ≠ .write := by
  rcases react_writes done with ⟨index, rfl⟩ | answers
  · obtain ⟨op, session, found, enough, received, -⟩ := complete_read_cases done
    have size : (before.input.take op.count).length = op.count := List.length_take_of_le enough
    obtain ⟨-, -, stage | stuck⟩ := phase.of_read found
    · intro op member
      exact ((stage.aftermath _ size received).writes.2 op member).2
    · rw [stuck.2 _ size] at received
      cases received
  · intro op member
    rw [answers op member]
    exact WriteHandler.noConfusion

theorem Phase.respond_answered (phase : before.Phase) {stimulus : Stimulus}
    (done : before.respond sha1 stimulus = some (after, actions))
    (answered : before.handshake_end.isSome = true) : after.handshake_end.isSome = true := by
  rcases phase.respond_quiet done with quiet | ⟨index, count, rfl, rfl, taken⟩
  · rw [quiet.handshake_end, answered]
  · obtain ⟨out, -, -, -, -, rfl⟩ := write_some_cases taken
    change (if _ then _ else _ : Option Nat).isSome = true
    split
    · rfl
    · exact answered

/-- Until the response is on the wire no data frame has been queued. -/
def AnswersFirst (connection : Connection) : Prop :=
  connection.handshake_end = none → WriteHandler.write ∉ connection.queued

/-- No data frame has been queued behind a close frame. -/
def CloseIsLast (connection : Connection) : Prop :=
  connection.queued.Pairwise fun earlier later => earlier.closes = true → later ≠ .write

def closed (self : Connection) : Bool :=
  self.queued.any WriteHandler.closes

theorem queued_accept {input : List UInt8} (accepted : Connection.accept input = some after) :
    after.queued = [] := by
  unfold accept at accepted
  obtain ⟨session, -, same⟩ := Option.bind_eq_some_iff.mp accepted
  cases same
  rfl

end Connection

namespace Server

variable {sha1 : List UInt8 → Digest} {num_threads : Nat} {server before after : Server}

/-! ### The response before any data frame -/

def answered (self : Server) (session : Nat) : Bool :=
  self.connections[session]?.any fun connection => connection.handshake_end.isSome

theorem answered_iff (server : Server) (session : Nat) :
    server.answered session = true ↔ ∃ connection, server.connections[session]? = some connection ∧
      connection.handshake_end.isSome = true :=
  Option.any_eq_true _ _

/-- A broadcast is taken only when every session of the registry has been answered. -/
def BroadcastsAnswered (self : Server) : Event → Prop
  | .broadcast _ _ => ∀ session ∈ self.session_manager_.unauthed_, self.answered session = true
  | _ => True

instance (server : Server) (event : Event) : Decidable (server.BroadcastsAnswered event) := by
  unfold BroadcastsAnswered
  split <;> exact inferInstance

theorem answered_step (phases : before.Every Connection.Phase) {event : Event}
    (taken : before.step sha1 event = some after) {session : Nat}
    (answered : before.answered session = true) : after.answered session = true := by
  obtain ⟨connection, found, done⟩ := (before.answered_iff session).mp answered
  obtain ⟨next, here, sees⟩ := session_step taken found
  refine (after.answered_iff session).mpr ⟨next, here, ?_⟩
  cases sees with
  | still => exact done
  | moved stimulus actions given responds =>
      exact (phases session connection found).respond_answered responds done

/-- Writes are posted to answered sessions, and only these have data frames queued. -/
structure Answering (server : Server) : Prop where
  posted : ∀ session data is_binary, .write session data is_binary ∈ server.tasks →
    server.answered session = true
  sessions : server.Every Connection.AnswersFirst

theorem Answering.step (phases : before.Every Connection.Phase) (answering : before.Answering)
    {event : Event} (permitted : before.BroadcastsAnswered event)
    (taken : before.step sha1 event = some after) : after.Answering := by
  constructor
  · intro session data is_binary member
    apply answered_step phases taken
    rcases step_tasks taken member with old | ⟨_, _, target, rfl, inside, same⟩ | ⟨request, same⟩
    · exact answering.posted session data is_binary old
    · cases same
      exact permitted session inside
    · cases same
  · intro session next found unanswered
    rcases step_connection taken found with ⟨input, -, -, accepted⟩ | ⟨connection, here, sees⟩
    · rw [Connection.queued_accept accepted]
      exact List.not_mem_nil
    · cases sees with
      | still => exact answering.sessions session _ here unanswered
      | moved stimulus actions given responds =>
          have phase := phases session connection here
          have early : connection.handshake_end = none := by
            cases ended : connection.handshake_end with
            | none => rfl
            | some stop =>
                have done := phase.respond_answered responds (by rw [ended]; rfl)
                rw [unanswered] at done
                cases done
          rw [phase.respond_queued responds]
          intro member
          rcases List.mem_append.mp member with old | new
          · exact answering.sessions session connection here early old
          · obtain ⟨op, started, same⟩ := List.mem_map.mp new
            cases stimulus with
            | socket inner => exact phase.react_queues responds op started same
            | write data is_binary =>
                obtain ⟨thread, -, held⟩ := stimulus_write given
                have posted := answering.posted session data is_binary (mem_tasks_of_lookup held)
                obtain ⟨other, there, done⟩ := (before.answered_iff session).mp posted
                rw [here] at there
                cases there
                rw [early] at done
                cases done

end Server

/-- In every run whose broadcasts meet answered sessions only, no session has a
data frame queued before its response is on the wire. -/
theorem response_before_data (sha1 : List UInt8 → Digest) {num_threads : Nat} {server : Server}
    (run : Reaches (Server.step sha1) Server.BroadcastsAnswered (Server.start num_threads)
      server) : server.Every Connection.AnswersFirst := by
  have answering : server.Answering := by
    induction run with
    | start =>
        constructor
        · intro session data is_binary member
          cases member
        · intro session connection found
          cases found
    | next event reached permitted taken ih =>
        exact ih.step (Server.run_phases reached) permitted taken
  exact answering.sessions

theorem response_before_data_sample :
    ∃ server : Server, server.connections.map Connection.queued = [[.handshake, .write]] ∧
      server.Every Connection.AnswersFirst := by
  obtain ⟨first, server, same, run, here⟩ := Reaches.of_trace_any (Server.step zeroDigest)
    Server.BroadcastsAnswered (some (Server.start 1))
    (fun server => decide (server.connections.map Connection.queued = [[.handshake, .write]]))
    [.accept sampleRequest, .socket 0 (.read_first 63), .socket 0 (.write_some 0 129),
      .broadcast [0x61] false, .take 0, .dispatch 0] (by decide +kernel)
  cases same
  exact ⟨server, of_decide_eq_true here, response_before_data zeroDigest run⟩

theorem data_before_response :
    ¬∀ (sha1 : List UInt8 → Digest) (num_threads : Nat) (server : Server),
      Reaches (Server.step sha1) anyEvent (Server.start num_threads) server →
      server.Every Connection.AnswersFirst := by
  intro all
  obtain ⟨first, server, same, run, here⟩ := Reaches.of_trace_any (Server.step zeroDigest)
    anyEvent (some (Server.start 1))
    (fun server => server.connections[0]?.any fun connection : Connection =>
      decide (connection.handshake_end = none ∧ WriteHandler.write ∈ connection.queued))
    [.accept sampleRequest, .broadcast [0x61] false, .take 0, .dispatch 0] (by decide +kernel)
  cases same
  obtain ⟨connection, found, early⟩ := (Option.any_eq_true _ _).mp here
  obtain ⟨unanswered, queued⟩ := of_decide_eq_true early
  exact all zeroDigest 1 server run 0 connection found unanswered queued

/-! ### No data frame behind the close frame -/

def Task.writesTo (session : Nat) : Task → Bool
  | .write other _ _ => other == session
  | .request _ => false

namespace Server

variable {sha1 : List UInt8 → Digest} {before after : Server} {connection next : Connection}
  {actions : List Action}

def writing (self : Server) (session : Nat) : Bool :=
  self.tasks.any (Task.writesTo session)

def closed (self : Server) (session : Nat) : Bool :=
  self.connections[session]?.any Connection.closed

def closing (sha1 : List UInt8 → Digest) (self : Server) (session : Nat) (event : SocketEvent) :
    Bool :=
  self.connections[session]?.any fun connection =>
    (connection.starts sha1 (.socket event)).any fun op => op.handler.closes

/-- A broadcast is taken only when no session of the registry has queued its close
frame, and a close frame is queued only when no write is on its way. -/
def ClosesApart (sha1 : List UInt8 → Digest) (self : Server) : Event → Prop
  | .broadcast _ _ => ∀ session ∈ self.session_manager_.unauthed_, self.closed session = false
  | .socket session event => self.closing sha1 session event = true → self.writing session = false
  | _ => True

instance (sha1 : List UInt8 → Digest) (server : Server) (event : Event) :
    Decidable (server.ClosesApart sha1 event) := by
  unfold ClosesApart
  split <;> exact inferInstance

theorem writing_step {event : Event} (taken : before.step sha1 event = some after)
    {session : Nat} (writing : after.writing session = true) :
    before.writing session = true ∨ (∃ data is_binary, event = .broadcast data is_binary ∧
      session ∈ before.session_manager_.unauthed_) := by
  obtain ⟨task, member, mine⟩ := List.any_eq_true.mp writing
  rcases step_tasks taken member with
    old | ⟨data, is_binary, target, rfl, inside, rfl⟩ | ⟨request, rfl⟩
  · exact Or.inl (List.any_eq_true.mpr ⟨task, old, mine⟩)
  · right
    rw [eq_of_beq mine] at inside
    exact ⟨data, is_binary, rfl, inside⟩
  · cases mine

structure Apart (server : Server) : Prop where
  last : server.Every Connection.CloseIsLast
  quiet : ∀ session, server.closed session = true → server.writing session = false

theorem closed_eq {server : Server} {session : Nat} {connection : Connection}
    (found : server.connections[session]? = some connection) :
    server.closed session = connection.closed := by
  unfold closed
  rw [found]
  rfl

private theorem Apart.respond (phase : connection.Phase) (apart : before.Apart) {event : Event}
    {session : Nat} (here : before.connections[session]? = some connection)
    (permitted : before.ClosesApart sha1 event) {stimulus : Stimulus}
    (given : before.stimulus event = some (session, stimulus))
    (responds : connection.respond sha1 stimulus = some (next, actions)) :
    next.CloseIsLast ∧ (next.closed = true → before.writing session = false) := by
  have last := apart.last session connection here
  have quiet := apart.quiet session
  rw [closed_eq here] at quiet
  unfold Connection.CloseIsLast Connection.closed at *
  rw [phase.respond_queued responds, List.pairwise_append, List.any_append, Bool.or_eq_true]
  cases stimulus with
  | socket inner =>
      have others := phase.react_queues responds
      have kinds : ∀ kind ∈ (actions.filterMap Action.write?).map (fun op => op.handler),
          kind ≠ .write := by
        intro kind member
        obtain ⟨op, started, rfl⟩ := List.mem_map.mp member
        exact others op started
      refine ⟨⟨last, ?_, fun _ _ later member _ => kinds later member⟩, ?_⟩
      · exact List.pairwise_of_forall_mem_list fun _ _ later member _ => kinds later member
      · rintro (old | new)
        · exact quiet old
        · have mine := stimulus_socket given
          subst mine
          apply permitted
          unfold closing
          rw [here, Option.any_some, Connection.starts_eq responds]
          rw [List.any_map] at new
          exact new
  | write data is_binary =>
      obtain ⟨thread, -, held⟩ := stimulus_write given
      cases responds
      have writing : before.writing session = true :=
        List.any_eq_true.mpr ⟨_, mem_tasks_of_lookup held, beq_self_eq_true session⟩
      have open_ : connection.queued.any WriteHandler.closes = false := by
        cases closed : connection.queued.any WriteHandler.closes with
        | false => rfl
        | true =>
            have wrong := quiet closed
            rw [writing] at wrong
            cases wrong
      refine ⟨⟨last, List.pairwise_singleton _ _, fun earlier member _ _ closes => ?_⟩, ?_⟩
      · exact absurd closes (List.any_eq_false.mp open_ earlier member)
      · rintro (old | new)
        · exact quiet old
        · cases new

theorem Apart.step (phases : before.Every Connection.Phase) (apart : before.Apart) {event : Event}
    (permitted : before.ClosesApart sha1 event) (taken : before.step sha1 event = some after) :
    after.Apart := by
  have both : ∀ session next, after.connections[session]? = some next →
      next.CloseIsLast ∧ (next.closed = true → before.writing session = false) := by
    intro session next found
    rcases step_connection taken found with ⟨input, -, -, accepted⟩ | ⟨connection, here, sees⟩
    · unfold Connection.CloseIsLast Connection.closed
      rw [Connection.queued_accept accepted]
      exact ⟨List.Pairwise.nil, Bool.noConfusion⟩
    · cases sees with
      | still =>
          refine ⟨apart.last session _ here, fun closed => ?_⟩
          rw [← closed_eq here] at closed
          exact apart.quiet session closed
      | moved stimulus actions given responds =>
          exact apart.respond (phases session connection here) here permitted given responds
  refine ⟨fun session next found => (both session next found).1, fun session closed => ?_⟩
  obtain ⟨next, found, done⟩ := (Option.any_eq_true _ _).mp closed
  have quiet := (both session next found).2 done
  cases writing : after.writing session with
  | false => rfl
  | true =>
      rcases writing_step taken writing with old | ⟨data, is_binary, rfl, inside⟩
      · rw [quiet] at old
        cases old
      · have open_ := permitted session inside
        cases taken
        rw [← closed]
        exact open_

end Server

/-- In every run that keeps close frames and broadcasts apart, no session queues a
data frame behind its close frame. -/
theorem no_data_after_close (sha1 : List UInt8 → Digest) {num_threads : Nat} {server : Server}
    (run : Reaches (Server.step sha1) (Server.ClosesApart sha1) (Server.start num_threads)
      server) : server.Every Connection.CloseIsLast := by
  have apart : server.Apart := by
    induction run with
    | start =>
        constructor
        · intro session connection found
          cases found
        · intro session closed
          cases closed
    | next event reached permitted taken ih =>
        exact ih.step (Server.run_phases reached) permitted taken
  exact apart.last

theorem no_data_after_close_sample :
    ∃ server : Server,
      server.connections.map Connection.queued = [[.handshake, .write, .kill]] ∧
      server.Every Connection.CloseIsLast := by
  obtain ⟨first, server, same, run, here⟩ := Reaches.of_trace_any (Server.step zeroDigest)
    (Server.ClosesApart zeroDigest) (some (Server.start 1))
    (fun server => decide
      (server.connections.map Connection.queued = [[.handshake, .write, .kill]]))
    [.accept (sampleRequest ++ [0x88, 0x00]), .socket 0 (.read_first 63),
      .socket 0 (.write_some 0 129), .socket 0 (.written 0 false), .broadcast [0x61] false,
      .take 0, .dispatch 0, .socket 0 (.read 0), .socket 0 (.read 0), .socket 0 (.read 0)]
    (by decide +kernel)
  cases same
  exact ⟨server, of_decide_eq_true here, no_data_after_close zeroDigest run⟩

/-- A broadcast to a session whose close frame is still being written. -/
theorem data_after_close :
    ¬∀ (sha1 : List UInt8 → Digest) (num_threads : Nat) (server : Server),
      Reaches (Server.step sha1) anyEvent (Server.start num_threads) server →
      server.Every Connection.CloseIsLast := by
  intro all
  obtain ⟨first, server, same, run, here⟩ := Reaches.of_trace_any (Server.step zeroDigest)
    anyEvent (some (Server.start 1))
    (fun server => server.connections[0]?.any fun connection : Connection =>
      decide (connection.queued = [.handshake, .kill, .write]))
    [.accept (sampleRequest ++ [0x88, 0x00]), .socket 0 (.read_first 63),
      .socket 0 (.write_some 0 129), .socket 0 (.written 0 false), .socket 0 (.read 0),
      .socket 0 (.read 0), .socket 0 (.read 0), .broadcast [0x61] false, .take 0, .dispatch 0]
    (by decide +kernel)
  cases same
  obtain ⟨connection, found, queued⟩ := (Option.any_eq_true _ _).mp here
  have ordered := all zeroDigest 1 server run 0 connection found
  unfold Connection.CloseIsLast at ordered
  rw [of_decide_eq_true queued] at ordered
  revert ordered
  decide

end Averyws
