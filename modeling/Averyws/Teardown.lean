/-
The end of a session.

A registered session always has an operation outstanding that decides about it: a read,
its handshake response or its close frame.  So when the connection is lost and its
operations fail, in whatever order, the session leaves the registry, and it never comes
back.
-/

import Averyws.Broadcast
import Averyws.Drain
import Averyws.Registry

namespace Averyws

open Library.Run
open Utilities

/-- A write that is outstanding and whose handler goes on with the session or removes
it. -/
def Outgoing.decides (out : Outgoing) : Bool :=
  !out.completed && (out.op.handler == .handshake || out.op.handler.closes)

def SocketEvent.fails : SocketEvent → Bool
  | .fail_first => true
  | .fail_read _ => true
  | .written _ error => error
  | _ => false

namespace Connection

variable {sha1 : List UInt8 → Digest} {before after : Connection} {actions : List Action}

def awaited (self : Connection) : Nat :=
  (if self.starting then 1 else 0) + self.reads.length +
    self.writes.countP fun out => !out.completed

/-- An operation that decides about the session is outstanding. -/
inductive Held (connection : Connection) : Prop
  | starting (begins : connection.starting = true)
  | reading (reads : connection.reads ≠ [])
  | writing (index : Nat) (out : Outgoing) (found : connection.writes[index]? = some out)
      (decides : out.decides = true)

theorem Held.awaited {connection : Connection} (held : connection.Held) :
    0 < connection.awaited := by
  unfold Connection.awaited
  cases held with
  | starting begins =>
      rw [begins]
      change 0 < 1 + _ + _
      omega
  | reading reads =>
      have some := List.length_pos_of_ne_nil reads
      omega
  | writing index out found decides =>
      have some : 0 < connection.writes.countP fun out => !out.completed := by
        refine List.countP_pos_iff.mpr ⟨out, List.mem_of_getElem? found, ?_⟩
        exact (Bool.and_eq_true_iff.mp decides).1
      omega

theorem Held.performs_read (connection : Connection) {op : ReadOp}
    (reads : actions.filterMap Action.read? = [op]) : (connection.performs actions).Held := by
  refine .reading ?_
  rw [performs_eq, reads]
  exact List.append_ne_nil_of_right_ne_nil _ (List.cons_ne_nil _ _)

theorem Held.performs_write (connection : Connection) {op : WriteOp}
    (decides : (fresh op).decides = true) : (connection.performs [.async_write op]).Held := by
  refine .writing connection.writes.length (fresh op) ?_ decides
  rw [performs_eq]
  exact List.getElem?_concat_length

theorem complete_write_decides {index : Nat} {error : Bool} {out : Outgoing}
    (found : before.writes[index]? = some out)
    (done : before.complete_write index error = some (after, actions))
    (decides : out.decides = true ∨ error = true) : after.Held ∨ .remove ∈ actions := by
  unfold complete_write at done
  rw [found] at done
  change (if _ then _ else _) = _ at done
  split at done
  next ready =>
    cases done
    cases handler : out.op.handler with
    | handshake =>
        cases error with
        | false => exact Or.inl (Held.performs_read _ rfl)
        | true => exact Or.inr (List.mem_singleton_self _)
    | kill => exact Or.inr (List.mem_singleton_self _)
    | cancel code => exact Or.inr (List.mem_singleton_self _)
    | ping =>
        cases error with
        | false =>
            rcases decides with decides | wrong
            · unfold Outgoing.decides at decides
              rw [handler, Bool.and_eq_true] at decides
              cases decides.2
            · cases wrong
        | true => exact Or.inr (List.mem_singleton_self _)
    | write =>
        cases error with
        | false =>
            rcases decides with decides | wrong
            · unfold Outgoing.decides at decides
              rw [handler, Bool.and_eq_true] at decides
              cases decides.2
            · cases wrong
        | true => exact Or.inr (List.mem_singleton_self _)
  next => cases done

/-- A step leaves an operation that decides about the session, or removes it. -/
theorem Phase.respond_held (phase : before.Phase) (held : before.Held) {stimulus : Stimulus}
    (done : before.respond sha1 stimulus = some (after, actions)) :
    after.Held ∨ .remove ∈ actions := by
  cases stimulus with
  | write data is_binary =>
      cases done
      left
      cases held with
      | starting begins => exact .starting begins
      | reading reads => exact .reading reads
      | writing index out found decides =>
          have inside := (List.getElem?_eq_some_iff.mp found).1
          exact .writing index out ((List.getElem?_append_left inside).trans found) decides
  | socket event =>
      cases event with
      | read_first count =>
          obtain ⟨-, -, -, -, session, received, rfl⟩ := complete_first_cases done
          rcases Session.receive_first_cases received with ⟨rfl, -⟩ | ⟨reply, rfl, -⟩
          · exact Or.inr List.mem_cons_self
          · exact Or.inl (Held.performs_write _ rfl)
      | fail_first =>
          obtain ⟨-, rfl, -⟩ := fail_first_cases done
          exact Or.inr List.mem_cons_self
      | read index =>
          obtain ⟨op, session, found, enough, received, rfl⟩ := complete_read_cases done
          have size : (before.input.take op.count).length = op.count :=
            List.length_take_of_le enough
          obtain ⟨-, -, stage | stuck⟩ := phase.of_read found
          · left
            cases stage.aftermath _ size received with
            | fail code => exact Held.performs_write _ rfl
            | close => exact Held.performs_write _ rfl
            | onward replies requests later =>
                exact Held.performs_read _ (onward_reads replies requests later)
          · rw [stuck.2 _ size] at received
            cases received
      | fail_read index =>
          obtain ⟨-, rfl, -⟩ := fail_read_cases done
          exact Or.inr List.mem_cons_self
      | write_some index count =>
          left
          obtain ⟨next, taken, same⟩ := Option.map_eq_some_iff.mp done
          cases same
          obtain ⟨out, found, pending, -, -, rfl⟩ := write_some_cases taken
          cases held with
          | starting begins => exact .starting begins
          | reading reads => exact .reading reads
          | writing place other here decides =>
              by_cases same : index = place
              · subst same
                rw [found] at here
                cases here
                refine .writing index { out with written := out.written + count } ?_ decides
                exact List.getElem?_set_self (List.getElem?_eq_some_iff.mp found).1
              · exact .writing place other ((List.getElem?_set_ne same).trans here) decides
      | written index error =>
          obtain ⟨out, found, -, -, outcome⟩ := complete_write_cases done
          cases held with
          | starting begins =>
              left
              rcases outcome with ⟨-, -, -, rfl⟩ | ⟨-, -, rfl⟩
              · exact .starting begins
              · exact .starting begins
          | reading reads =>
              left
              rcases outcome with ⟨-, -, -, rfl⟩ | ⟨-, -, rfl⟩
              · exact .reading (List.append_ne_nil_of_left_ne_nil reads _)
              · exact .reading reads
          | writing place other here decides =>
              by_cases same : index = place
              · subst same
                exact complete_write_decides here done (Or.inl decides)
              · left
                rcases outcome with ⟨-, -, -, rfl⟩ | ⟨-, -, rfl⟩
                · exact .writing place other ((List.getElem?_set_ne same).trans here) decides
                · exact .writing place other ((List.getElem?_set_ne same).trans here) decides

theorem fails_awaited {event : SocketEvent} (fails : event.fails = true)
    (done : before.react sha1 event = some (after, actions)) :
    after.awaited + 1 = before.awaited := by
  cases event with
  | read_first count => cases fails
  | read index => cases fails
  | write_some index count => cases fails
  | fail_first =>
      obtain ⟨starting, -, rfl⟩ := fail_first_cases done
      unfold awaited
      dsimp only
      rw [starting, if_pos rfl, if_neg Bool.noConfusion]
      omega
  | fail_read index =>
      obtain ⟨⟨op, found⟩, -, rfl⟩ := fail_read_cases done
      have inside := (List.getElem?_eq_some_iff.mp found).1
      unfold awaited
      dsimp only
      rw [List.length_eraseIdx_of_lt inside]
      omega
  | written index error =>
      have lost : error = true := fails
      subst lost
      obtain ⟨out, found, pending, -, outcome⟩ := complete_write_cases done
      rcases outcome with ⟨-, wrong, -⟩ | ⟨-, -, rfl⟩
      · cases wrong
      · obtain ⟨inside, here⟩ := List.getElem?_eq_some_iff.mp found
        have counted := List.boole_getElem_le_countP (p := fun out => !out.completed) inside
        unfold awaited
        dsimp only
        rw [List.countP_set inside]
        simp only [here, pending, Bool.not_false, Bool.not_true, if_true, if_false,
          Bool.false_eq_true] at counted ⊢
        omega

theorem fails_enabled (sha1 : List UInt8 → Digest) {connection : Connection}
    (some_left : 0 < connection.awaited) :
    ∃ event, SocketEvent.fails event = true ∧ connection.react sha1 event ≠ none := by
  by_cases begins : connection.starting = true
  · refine ⟨.fail_first, rfl, ?_⟩
    change connection.fail_first sha1 ≠ none
    unfold fail_first
    rw [if_pos begins]
    exact Option.some_ne_none _
  · cases reads : connection.reads with
    | cons op rest =>
        refine ⟨.fail_read 0, rfl, ?_⟩
        change connection.fail_read 0 ≠ none
        unfold fail_read
        rw [reads, List.getElem?_cons_zero, Option.bind_eq_bind, Option.bind_some,
          Session.receive_error_eq]
        exact Option.some_ne_none _
    | nil =>
        unfold awaited at some_left
        rw [if_neg begins, reads] at some_left
        have waits : 0 < connection.writes.countP fun out => !out.completed := by
          rw [List.length_nil] at some_left
          omega
        obtain ⟨out, member, open_⟩ := List.countP_pos_iff.mp waits
        obtain ⟨index, inside, here⟩ := List.getElem_of_mem member
        have found : connection.writes[index]? = some out :=
          List.getElem?_eq_some_iff.mpr ⟨inside, here⟩
        have pending : out.completed = false := Bool.not_eq_true' _ ▸ open_
        refine ⟨.written index true, rfl, ?_⟩
        change connection.complete_write index true ≠ none
        unfold complete_write
        rw [found, Option.bind_eq_bind, Option.bind_some, if_pos ⟨pending, Or.inl rfl⟩]
        exact Option.some_ne_none _

end Connection

/-! ### The registry -/

def Event.fails (session : Nat) : Event → Bool
  | .socket target inner => target == session && inner.fails
  | _ => false

namespace Server

variable {sha1 : List UInt8 → Digest} {before after : Server} {event : Event}

theorem identities_of_run {num_threads : Nat} {server : Server}
    (run : Reaches (step sha1) anyEvent (start num_threads) server) :
    server.Every fun connection => connection.session.identity = Session.init.identity := by
  intro session connection found
  obtain ⟨input, first, accepted, path⟩ : ∃ input first, Connection.accept input = some first ∧
      Reaches (Connection.next sha1) anyEvent first connection :=
    run_session (fun _ _ _ _ _ _ _ _ => trivial) run found
  exact identity_of_run accepted path

def Holds (server : Server) : Prop :=
  ∀ session ∈ server.session_manager_.unauthed_,
    ∃ connection, server.connections[session]? = some connection ∧ connection.Held

theorem removed_unregistered
    (identities : after.Every fun connection =>
      connection.session.identity = Session.init.identity)
    {session : Nat} {inner : SocketEvent}
    (taken : before.step sha1 (.socket session inner) = some after)
    {connection next : Connection} {actions : List Action}
    (found : before.connections[session]? = some connection)
    (reacted : connection.react sha1 inner = some (next, actions)) (removed : .remove ∈ actions) :
    session ∉ after.session_manager_.unauthed_ := by
  obtain ⟨other, changed, acts, here, reacts, rfl⟩ := socket_cases taken
  rw [found] at here
  cases here
  rw [reacted] at reacts
  cases reacts
  have inside := (List.getElem?_eq_some_iff.mp found).1
  have identity := identities session next (List.getElem?_set_self inside)
  dsimp only
  rw [if_pos removed, SessionManager.remove_of_identity _ _ identity,
    SessionManager.mem_remove_unauthed]
  exact fun both => both.1 rfl

theorem Holds.step (phases : before.Every Connection.Phase)
    (identities : after.Every fun connection =>
      connection.session.identity = Session.init.identity)
    (holds : before.Holds) (taken : before.step sha1 event = some after) : after.Holds := by
  intro session registered
  rcases unauthed_step taken registered with old | ⟨fresh, inside⟩
  · obtain ⟨connection, here, held⟩ := holds session old
    obtain ⟨next, found, sees⟩ := session_step taken here
    refine ⟨next, found, ?_⟩
    cases sees with
    | still => exact held
    | moved stimulus actions given responds =>
        rcases (phases session connection here).respond_held held responds with kept | removed
        · exact kept
        · cases stimulus with
          | socket inner =>
              obtain rfl := stimulus_socket given
              exact absurd registered
                (removed_unregistered identities taken here responds removed)
          | write data is_binary =>
              cases responds
              cases List.mem_singleton.mp removed
  · have found := List.getElem?_eq_getElem inside
    have absent : before.connections[session]? = none :=
      List.getElem?_eq_none (Nat.le_of_eq fresh.symm)
    obtain ⟨input, accepted⟩ := fresh_accepted taken absent found
    refine ⟨_, found, .starting ?_⟩
    unfold Connection.accept at accepted
    obtain ⟨_, -, same⟩ := Option.bind_eq_some_iff.mp accepted
    rw [← Option.some.inj same]

theorem holds_of_run {num_threads : Nat} {server : Server}
    (run : Reaches (step sha1) anyEvent (start num_threads) server) : server.Holds := by
  induction run with
  | start =>
      intro session registered
      cases registered
  | next event reached permitted taken ih =>
      exact ih.step (run_phases reached) (identities_of_run (.next event reached permitted taken))
        taken

theorem unregistered_run {events : List Event} (run : Runs (step sha1) before events after)
    {session : Nat} (known : session < before.connections.length)
    (absent : session ∉ before.session_manager_.unauthed_) :
    session ∉ after.session_manager_.unauthed_ ∧ session < after.connections.length := by
  induction run with
  | start => exact ⟨absent, known⟩
  | next event path taken ih =>
      obtain ⟨gone, inside⟩ := ih
      refine ⟨fun registered => ?_, Nat.lt_of_lt_of_le inside (step_length taken)⟩
      rcases unauthed_step taken registered with old | ⟨fresh, -⟩
      · exact gone old
      · omega

/-- The server moves no session to `authed_`. -/
theorem authed_step (taken : before.step sha1 event = some after)
    (empty : before.session_manager_.authed_ = ∅) : after.session_manager_.authed_ = ∅ := by
  cases event with
  | accept input =>
      obtain ⟨connection, -, rfl⟩ := accept_cases taken
      exact empty
  | socket session inner =>
      obtain ⟨connection, next, actions, -, -, rfl⟩ := socket_cases taken
      dsimp only
      split
      · unfold SessionManager.remove
        split
        · unfold SessionManager.remove_authed
          rw [empty]
          rfl
        · exact empty
      · exact empty
  | broadcast data is_binary =>
      cases taken
      exact empty
  | take thread =>
      obtain ⟨task, rest, -, -, -, rfl⟩ := take_cases taken
      exact empty
  | dispatch thread =>
      rcases dispatch_cases taken with ⟨request, -, rfl⟩ | ⟨_, _, _, _, -, -, rfl⟩
      · exact empty
      · exact empty
  | strand =>
      obtain ⟨request, rest, connection, -, -, rfl⟩ := strand_cases taken
      exact empty

theorem authed_of_run {num_threads : Nat} {server : Server}
    (run : Reaches (step sha1) anyEvent (start num_threads) server) :
    server.session_manager_.authed_ = ∅ :=
  run.invariant (fun server => server.session_manager_.authed_ = ∅)
    (fun _ _ _ empty _ taken => authed_step taken empty) rfl

theorem fails_step {session : Nat} (fails : event.fails session = true)
    (taken : before.step sha1 event = some after) {connection : Connection}
    (found : before.connections[session]? = some connection) :
    ∃ next, after.connections[session]? = some next ∧ next.awaited + 1 = connection.awaited := by
  cases event with
  | socket target inner =>
      obtain ⟨same, lost⟩ := Bool.and_eq_true_iff.mp fails
      obtain rfl := eq_of_beq same
      obtain ⟨old, next, actions, here, reacted, rfl⟩ := socket_cases taken
      rw [found] at here
      cases here
      have inside := (List.getElem?_eq_some_iff.mp found).1
      exact ⟨next, List.getElem?_set_self inside, Connection.fails_awaited lost reacted⟩
  | accept input => cases fails
  | broadcast data is_binary => cases fails
  | take thread => cases fails
  | dispatch thread => cases fails
  | strand => cases fails

theorem stopped_of_done {session : Nat} {connection : Connection}
    (found : before.connections[session]? = some connection) (done : connection.awaited = 0)
    (fails : event.fails session = true) : before.step sha1 event = none := by
  cases taken : before.step sha1 event with
  | none => rfl
  | some after =>
      obtain ⟨next, -, less⟩ := fails_step fails taken found
      omega

theorem fails_run {failures : List Event} {session : Nat}
    (only : ∀ event ∈ failures, event.fails session = true)
    (rest : Runs (step sha1) before failures after) {connection : Connection}
    (found : before.connections[session]? = some connection) :
    ∃ next, after.connections[session]? = some next ∧
      failures.length + next.awaited = connection.awaited := by
  induction rest with
  | start => exact ⟨connection, found, Nat.zero_add _⟩
  | next event path taken ih =>
      obtain ⟨middle, here, count⟩ :=
        ih fun other member => only other (List.mem_append_left _ member)
      obtain ⟨next, there, less⟩ :=
        fails_step (only event (List.mem_append_right _ List.mem_cons_self)) taken here
      refine ⟨next, there, ?_⟩
      rw [List.length_append, List.length_singleton]
      omega

end Server

/-- However the operations of a session fail once its connection is lost, they are
done after as many failures as operations were outstanding, and then the session is
out of the registry for good. -/
theorem lost_session_unregistered (sha1 : List UInt8 → Digest) {num_threads : Nat}
    {events failures : List Event} {server final : Server} {session : Nat}
    (run : Runs (Server.step sha1) (Server.start num_threads) events server)
    {connection : Connection} (found : server.connections[session]? = some connection)
    (only : ∀ event ∈ failures, event.fails session = true)
    (rest : Runs (Server.step sha1) server failures final) :
    failures.length ≤ connection.awaited ∧
      (final.idle = true →
        (∀ event, event.fails session = true → final.step sha1 event = none) →
        ∀ later last, Runs (Server.step sha1) final later last →
          session ∉ last.session_manager_.unauthed_ ∧
            session ∉ last.session_manager_.authed_sessions) := by
  obtain ⟨next, here, count⟩ := Server.fails_run only rest found
  constructor
  · omega
  · intro idle stopped later last after
    have inside := (List.getElem?_eq_some_iff.mp here).1
    have unauthenticated : session ∉ last.session_manager_.authed_sessions := by
      unfold SessionManager.authed_sessions
      rw [Server.authed_of_run ((run.trans rest).trans after).reaches]
      exact List.not_mem_nil
    refine ⟨(Server.unregistered_run after inside fun registered => ?_).1, unauthenticated⟩
    obtain ⟨other, there, held⟩ := Server.holds_of_run (run.trans rest).reaches session registered
    rw [here] at there
    cases there
    obtain ⟨event, fails, reacts⟩ := Connection.fails_enabled sha1 held.awaited
    obtain ⟨result, reacted⟩ := Option.ne_none_iff_exists'.mp reacts
    have halted := stopped (.socket session event)
      (Bool.and_eq_true_iff.mpr ⟨beq_self_eq_true session, fails⟩)
    change (if final.idle then final.socket sha1 session event else none) = none at halted
    rw [if_pos idle] at halted
    unfold Server.socket at halted
    simp only [here, reacted, Option.bind_eq_bind, Option.bind_some] at halted
    cases halted

theorem lost_session_unregistered_sample :
    ∃ final : Server, final.idle = true ∧ 0 ∉ final.session_manager_.unauthed_ ∧
      0 ∉ final.session_manager_.authed_sessions := by
  obtain ⟨first, server, same, run, here⟩ := Runs.of_trace_any (Server.step zeroDigest)
    (some (Server.start 1)) (fun server : Server =>
      (server.connections[0]?.any fun connection : Connection => connection.awaited == 3) &&
      decide (0 ∈ server.session_manager_.unauthed_) &&
      (trace (Server.step zeroDigest) anyEvent server
        [.socket 0 (.written 2 true), .socket 0 (.fail_read 0), .socket 0 (.written 1 true)]).any
        fun final : Server => final.idle &&
          final.connections[0]?.any fun connection : Connection => connection.awaited == 0)
    [.accept sampleRequest, .socket 0 (.read_first 63), .socket 0 (.write_some 0 129),
      .socket 0 (.written 0 false), .broadcast [0x61] false, .broadcast [0x62] true, .take 0,
      .dispatch 0, .take 0, .dispatch 0, .socket 0 (.write_some 1 1)] (by decide +kernel)
  cases same
  rw [Bool.and_eq_true, Bool.and_eq_true] at here
  obtain ⟨connection, found, -⟩ := (Option.any_eq_true _ _).mp here.1.1
  obtain ⟨final, traced, ended⟩ := (Option.any_eq_true _ _).mp here.2
  obtain ⟨idle, done⟩ := Bool.and_eq_true_iff.mp ended
  obtain ⟨last, there, zero⟩ := (Option.any_eq_true _ _).mp done
  obtain ⟨-, gone⟩ := lost_session_unregistered zeroDigest run found (by decide)
    (.of_trace _ traced)
  have stopped (event : Event) (fails : event.fails 0 = true) :
      final.step zeroDigest event = none :=
    Server.stopped_of_done there (eq_of_beq zero) fails
  exact ⟨final, idle, gone idle stopped [] final .start⟩

end Averyws
