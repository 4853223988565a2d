/-
The type a request is opened with.

A request captures the buffer of its message but reads the type from the header
of the session when it runs, and by then the read chain may have gone on to a
message of the other type.  As long as no header of another type is completed
while a request waits, every request is opened with the type of its own message.
-/

import Averyws.Heartbeats
import Averyws.RequestOrder

namespace Averyws

open Library.Bytes Library.Cells Library.Run
open Utilities

structure Frame.Message (frame : Frame) : Prop where
  rsv : frame.rsv = 0
  opcode : frame.opcode = 1 ∨ frame.opcode = 2
  fin : frame.fin = true

instance (frame : Frame) : Decidable frame.Message :=
  decidable_of_iff (frame.rsv = 0 ∧ (frame.opcode = 1 ∨ frame.opcode = 2) ∧ frame.fin = true)
    ⟨fun all => ⟨all.1, all.2.1, all.2.2⟩, fun all => ⟨all.rsv, all.opcode, all.fin⟩⟩

theorem Frame.Message.is_binary {frame : Frame} (message : frame.Message) :
    frame.is_binary = (frame.opcode == 2) := by
  rcases message.opcode with text | binary
  · rw [frame.is_binary_text (Or.inr text), text]
    rfl
  · rw [frame.is_binary_binary binary, binary]
    rfl

theorem Receiver.frame_message {receiver : Receiver} {frame : Frame} (message : frame.Message)
    (opened : receiver.new_request = true) :
    receiver.frame frame = .fail 1007 ∨
      ∃ next, receiver.frame frame = .next next (some frame.payload) ∧
        next.new_request = true ∧ next.is_binary = frame.is_binary := by
  have zero : frame.opcode ≠ 0 := by
    rcases message.opcode with text | binary
    · rw [text]
      decide
    · rw [binary]
      decide
  have continues : frame.opcode = 0 ↔ receiver.new_request = false := by
    rw [opened]
    exact ⟨fun same => absurd same zero, fun impossible => Bool.noConfusion impossible⟩
  have opening : receiver.opening.1 = [] := by
    unfold Receiver.opening
    rw [if_pos opened]
  rw [Receiver.frame_data message.rsv (Or.inr message.opcode) continues]
  rcases receiver.data_cases frame with ⟨failed, -⟩ | ⟨-, -, passed⟩
  · exact Or.inl failed
  · right
    refine ⟨receiver.after frame.header frame.payload, ?_, message.fin, rfl⟩
    rw [passed, if_pos message.fin, opening, List.nil_append]

/-- Each step of the chain posts nothing, or the request of the next message, and
then the header says the type of that message. -/
theorem Ready.chain_posts {frames : List Frame} (messages : ∀ frame ∈ frames, frame.Message)
    {receiver : Receiver} {start before after : Connection} (ready : Ready receiver start)
    (opened : receiver.new_request = true) (input : start.input = Frame.stream frames)
    (run : Steps Connection.step start before) (taken : before.step = some after) :
    after.posted = before.posted ∨
      ∃ frame request, frames[before.posted.length - start.posted.length]? = some frame ∧
        start.posted.length ≤ before.posted.length ∧
        after.posted = before.posted ++ [request] ∧ request.bytes = frame.payload ∧
        after.session.header_.is_binary_ = frame.is_binary := by
  induction frames generalizing receiver start with
  | nil =>
      have halted : start.step = none := by
        unfold Connection.step Connection.complete_read
        rw [ready.reads, input]
        rfl
      have same := Steps.eq_of_halted halted run
      subst same
      rw [halted] at taken
      cases taken
  | cons frame frames ih =>
      have message := messages frame List.mem_cons_self
      obtain ⟨final, path, outcome⟩ := ready.run_frame frame (Frame.stream frames) input
      have halts (halted : final.step = none) (behind : Steps Connection.step final before) :
          False := by
        have same := Steps.eq_of_halted halted behind
        subst same
        rw [halted] at taken
        cases taken
      rcases path.place run with ⟨still, next, steps, rest⟩ | behind
      · rw [taken] at steps
        cases steps
        cases rest using Relation.ReflTransGen.head_induction_on with
        | head first later _ => exact Or.inl (first.1.trans still.symm)
        | refl =>
            rcases outcome with lands | ⟨-, stalls⟩
            · rcases Receiver.frame_message message opened with failed | ⟨next, passed, -, binary⟩
              · rw [failed] at lands
                exact Or.inl (lands.2.1.trans still.symm)
              · rw [passed] at lands
                obtain ⟨ready, -, -, request, posted, bytes⟩ := lands
                right
                refine ⟨frame, request, ?_, Nat.le_of_eq (by rw [still]), ?_, bytes, ?_⟩
                · rw [still, Nat.sub_self]
                  rfl
                · rw [posted, still]
                · exact ready.between.is_binary.trans binary
            · exact Or.inl (stalls.posted.trans still.symm)
      · rcases outcome with lands | ⟨-, stalls⟩
        · rcases Receiver.frame_message message opened with failed | ⟨next, passed, again, binary⟩
          · rw [failed] at lands
            exact (halts (final.step_idle lands.1) behind).elim
          · rw [passed] at lands
            obtain ⟨ready, left, -, request, posted, bytes⟩ := lands
            have later := ih
              (fun other member => messages other (List.mem_cons_of_mem frame member))
              ready again left behind
            rcases later with same | ⟨other, buffer, found, enough, more, whole, type⟩
            · exact Or.inl same
            · right
              have size : final.posted.length = start.posted.length + 1 := by
                rw [posted, List.length_append]
                rfl
              refine ⟨other, buffer, ?_, by omega, more, whole, type⟩
              have index : before.posted.length - start.posted.length =
                  before.posted.length - final.posted.length + 1 := by omega
              rw [index, List.getElem?_cons_succ]
              exact found
        · have halted := stalls.halted []
          have same : final.extend [] = final := by
            change { final with input := final.input ++ [] } = final
            rw [List.append_nil]
          rw [same] at halted
          exact (halts halted behind).elim

/-! ### Where the type of the session changes -/

theorem Header.process_data {reader : Header} {heap : Heap} {new_request : Bool}
    (accepted : (reader.process heap new_request).1 = 0)
    (data : (reader.process heap new_request).2.1.state_ = .DATA) :
    reader.state_ = .SECOND ∧
      (reader.process heap new_request).2.1.is_binary_ = reader.is_binary_ := by
  unfold process at accepted data ⊢
  have refused : (1002 : Nat) ≠ 0 := by decide
  cases state : reader.state_ with
  | FIRST =>
      rw [state] at accepted data
      dsimp only at accepted data
      unfold process_state_1 at accepted data
      dsimp only at accepted data
      split at accepted
      · exact absurd accepted refused
      · rename_i passed
        rw [if_neg passed] at data
        split at data <;> exact HeaderState.noConfusion data
  | SECOND =>
      refine ⟨rfl, ?_⟩
      dsimp only
      unfold process_state_2
      dsimp only
      split_ifs <;> rfl
  | CONTROL =>
      rw [state] at accepted
      exact absurd accepted refused
  | DATA =>
      rw [state] at accepted
      exact absurd accepted refused
  | INVALID =>
      rw [state] at accepted
      exact absurd accepted refused
  | FINISHED =>
      rw [state] at accepted
      exact absurd accepted refused

namespace Session

variable {session next : Session} {actions : List Action}

theorem header_read_chunk {previous : UInt64}
    (done : session.read_chunk previous false = some (next, actions)) :
    next.header_ = session.header_ := by
  unfold Session.read_chunk at done
  rw [if_neg Bool.noConfusion] at done
  obtain ⟨⟨rcode, gather, buffer⟩, -, done⟩ := Option.bind_eq_some_iff.mp done
  simp only [Option.pure_def, Option.some_inj, after_gather] at done
  split at done
  · cases done
    rfl
  · split at done
    · cases done
      rfl
    · cases done
      rfl

theorem header_store {target : Option Target} {bytes : List UInt8}
    (done : session.store target bytes = some next) :
    next.header_ = session.header_ ∧ next.temp_header_ = session.temp_header_ := by
  unfold Session.store at done
  cases target with
  | none => cases done
  | some target =>
      cases target with
      | header pointer =>
          cases done
          exact ⟨rfl, rfl⟩
      | control offset =>
          cases done
          exact ⟨rfl, rfl⟩
      | chunk position =>
          obtain ⟨buffer, -, same⟩ := Option.bind_eq_some_iff.mp done
          cases same
          exact ⟨rfl, rfl⟩

/-- A read changes the type only when it completes the header of a data frame, and
then to the type of that header. -/
theorem receive_is_binary {op : ReadOp} {bytes : List UInt8}
    (done : session.receive op bytes = some (next, actions)) :
    next.header_.is_binary_ = session.header_.is_binary_ ∨
      (op.handler = .handle_read_header ∧ session.temp_header_.state_ = .SECOND ∧
        next.header_.is_binary_ = session.temp_header_.is_binary_) := by
  obtain ⟨loaded, stored, done⟩ := Option.bind_eq_some_iff.mp done
  obtain ⟨header, temp⟩ := header_store stored
  rw [← header, ← temp]
  cases handler : op.handler with
  | handle_read_header =>
      rw [handler] at done
      rcases handle_read_header_cases done with
        ⟨control, rfl⟩ | ⟨accepted, data, gather, buffer, read⟩
      · exact Or.inl rfl
      · right
        obtain ⟨second, type⟩ := Header.process_data accepted data
        refine ⟨rfl, second, ?_⟩
        rw [header_read_chunk read]
        exact type
  | handle_control_read =>
      rw [handler] at done
      obtain ⟨control, same⟩ := handle_control_read_cases done
      rcases same with rfl | rfl
      · exact Or.inl rfl
      · exact Or.inl rfl
  | read_chunk previous =>
      rw [handler] at done
      rw [header_read_chunk done]
      exact Or.inl rfl

end Session

namespace Connection

variable {sha1 : List UInt8 → Digest} {start before after : Connection} {actions : List Action}

/-- Whatever else happens on the socket, the session is where its chain of reads is,
or was when a read failed. -/
structure Follows (start connection : Connection) : Prop where
  starting : connection.starting = false
  responses : connection.pending_responses = 0
  place : ∃ ahead, Steps Connection.step start ahead ∧ connection.session = ahead.session ∧
    connection.posted = ahead.posted ∧
    ((connection.reads = ahead.reads ∧ connection.input = ahead.input) ∨ connection.reads = [])

inductive Chained (start before after : Connection) (actions : List Action) :
    Stimulus → Prop
  | still (stimulus : Stimulus) (session : after.session = before.session)
      (posted : after.posted = before.posted) : Chained start before after actions stimulus
  | read (op : ReadOp) (ahead next : Connection) (found : before.reads[0]? = some op)
      (received : before.session.receive op (before.input.take op.count) =
        some (after.session, actions))
      (run : Steps Connection.step start ahead) (taken : ahead.step = some next)
      (same : ahead.posted = before.posted) (session : next.session = after.session)
      (posted : next.posted = after.posted) :
      Chained start before after actions (.socket (.read 0))

theorem Follows.complete_read (follows : start.Follows before) (phase : before.Phase)
    {index : Nat} (done : before.complete_read index = some (after, actions)) :
    start.Follows after ∧ Chained start before after actions (.socket (.read index)) := by
  obtain ⟨op, session, found, enough, received, rfl⟩ := complete_read_cases done
  have size : (before.input.take op.count).length = op.count := List.length_take_of_le enough
  obtain ⟨rfl, here, stage⟩ := phase.of_read found
  have others : ∀ write ∈ actions.filterMap Action.write?, write.handler ≠ .handshake := by
    rcases stage with stage | stuck
    · exact fun write member => ((stage.aftermath _ size received).writes.2 write member).1
    · rw [stuck.2 _ size] at received
      cases received
  obtain ⟨ahead, run, same, posted, reads⟩ := follows.place
  rcases reads with ⟨reads, input⟩ | idle
  · let next : Connection := { ahead with
      session := session
      reads := ahead.reads.eraseIdx 0
      input := ahead.input.drop op.count }
    have taken : ahead.step = some (next.performs actions) := by
      unfold Connection.step Connection.complete_read
      rw [← reads, ← input, ← same, found]
      simp only [Option.bind_eq_bind, Option.bind_some]
      rw [if_pos enough, received]
      simp only [Option.bind_some, Option.pure_def, Option.map_some]
      rw [input, reads]
    refine ⟨⟨?_, ?_, next.performs actions, run.trans (Steps.single taken), ?_, ?_, Or.inl ?_⟩, ?_⟩
    · rw [performs_eq]
      exact follows.starting
    · have none := follows.responses
      unfold pending_responses at none ⊢
      rw [performs_eq]
      change List.countP _ (before.writes ++ _) = 0
      rw [List.countP_append, none, countP_fresh _ others]
    · rw [performs_eq, performs_eq]
    · rw [performs_eq, performs_eq]
      change before.posted ++ _ = ahead.posted ++ _
      rw [posted]
    · rw [performs_eq, performs_eq]
      change before.reads.eraseIdx 0 ++ _ = ahead.reads.eraseIdx 0 ++ _ ∧
        before.input.drop op.count = ahead.input.drop op.count
      rw [reads, input]
      exact ⟨rfl, rfl⟩
    · apply Chained.read op ahead (next.performs actions) found
      · rw [performs_eq]
        exact received
      · exact run
      · exact taken
      · exact posted.symm
      · rw [performs_eq, performs_eq]
      · rw [performs_eq, performs_eq]
        change ahead.posted ++ _ = before.posted ++ _
        rw [posted]
  · rw [idle] at found
    cases found

theorem Follows.respond (follows : start.Follows before) (phase : before.Phase)
    {stimulus : Stimulus} (done : before.respond sha1 stimulus = some (after, actions)) :
    start.Follows after ∧ Chained start before after actions stimulus := by
  cases stimulus with
  | write data is_binary =>
      cases done
      refine ⟨⟨follows.starting, ?_, follows.place⟩, .still _ rfl rfl⟩
      have none := follows.responses
      unfold pending_responses at none ⊢
      unfold Connection.write perform
      rw [List.countP_append, none]
      rfl
  | socket event =>
      cases event with
      | read_first count =>
          obtain ⟨starting, -⟩ := complete_first_cases done
          exact absurd (starting.symm.trans follows.starting) Bool.noConfusion
      | fail_first =>
          obtain ⟨starting, -⟩ := fail_first_cases done
          exact absurd (starting.symm.trans follows.starting) Bool.noConfusion
      | read index => exact follows.complete_read phase done
      | fail_read index =>
          obtain ⟨⟨op, found⟩, -, rfl⟩ := fail_read_cases done
          obtain ⟨rfl, here, -⟩ := phase.of_read found
          obtain ⟨ahead, run, session, posted, -⟩ := follows.place
          refine ⟨⟨follows.starting, follows.responses, ahead, run, session, posted, Or.inr ?_⟩,
            .still _ rfl rfl⟩
          change before.reads.eraseIdx 0 = []
          rw [here.reads]
          rfl
      | write_some index count =>
          obtain ⟨next, taken, same⟩ := Option.map_eq_some_iff.mp done
          cases same
          obtain ⟨out, found, -, -, -, rfl⟩ := write_some_cases taken
          refine ⟨⟨follows.starting, ?_, follows.place⟩, .still _ rfl rfl⟩
          have counted := countP_set_answers found { out with written := out.written + count }
          exact (Nat.add_right_cancel counted).trans follows.responses
      | written index error =>
          obtain ⟨out, found, pending, -, outcome⟩ := complete_write_cases done
          have none := follows.responses
          have silent : out.answers = false := by
            rw [← Bool.not_eq_true]
            intro answers
            exact absurd ((phase.of_answers found answers).1.responses.symm.trans none) (by decide)
          rcases outcome with ⟨handshake, -⟩ | ⟨-, -, rfl⟩
          · have answers : out.answers = true := by
              simp [Outgoing.answers, handshake, pending]
            rw [silent] at answers
            cases answers
          · refine ⟨⟨follows.starting, ?_, follows.place⟩, .still _ rfl rfl⟩
            have counted := countP_set_answers found { out with completed := true }
            have closed : Outgoing.answers { out with completed := true } = false := by
              simp [Outgoing.answers]
            rw [silent, closed] at counted
            exact counted.trans none

end Connection

def Connection.changes_type (self : Connection) (index : Nat) : Bool :=
  self.reads[index]?.any fun op =>
    decide (op.handler = .handle_read_header ∧ self.session.temp_header_.state_ = .SECOND ∧
      self.session.temp_header_.is_binary_ ≠ self.session.header_.is_binary_)

namespace Server

def underway (self : Server) : List Request :=
  self.io_strand_ ++ self.tasks.filterMap Task.request?

/-- No header of another type is completed while a request of the session waits. -/
def TypesKept (session : Nat) (self : Server) : Event → Prop
  | .socket place (.read index) =>
      place = session → (self.connections[session]?.any fun connection =>
        connection.changes_type index) = true →
      ∀ request ∈ self.underway, request.session ≠ session
  | _ => True

instance (session : Nat) (server : Server) (event : Event) :
    Decidable (server.TypesKept session event) := by
  unfold TypesKept
  split <;> exact inferInstance

variable {sha1 : List UInt8 → Digest} {before after : Server}

theorem mem_underway_step {event : Event} (taken : before.step sha1 event = some after)
    {request : Request} (member : request ∈ after.underway) :
    request ∈ before.underway ∨ request ∈ before.arrivals sha1 event := by
  unfold underway at member ⊢
  cases event with
  | accept input =>
      obtain ⟨connection, -, rfl⟩ := accept_cases taken
      exact Or.inl member
  | socket session event =>
      obtain ⟨connection, next, actions, found, reacted, rfl⟩ := socket_cases taken
      unfold tasks at member ⊢
      rw [arrivals_socket found reacted]
      rw [← List.append_assoc, List.filterMap_append, requests_requests,
        ← List.append_assoc] at member
      exact List.mem_append.mp member
  | broadcast data is_binary =>
      cases taken
      left
      have none : (before.session_manager_.unauthed_.map
          fun session => Task.write session data is_binary).filterMap Task.request? = [] := by
        rw [List.filterMap_map, List.filterMap_eq_nil_iff]
        exact fun _ _ => rfl
      unfold tasks broadcast at member
      rw [← List.append_assoc, List.filterMap_append, none, List.append_nil] at member
      exact member
  | take thread =>
      obtain ⟨task, rest, queued, -, -, rfl⟩ := take_cases taken
      left
      unfold tasks at member ⊢
      rw [queued]
      simpa using member
  | dispatch thread =>
      left
      rcases dispatch_cases taken with ⟨bound, held, rfl⟩ |
        ⟨session, data, is_binary, connection, held, -, rfl⟩
      · obtain ⟨earlier, later, split, erased⟩ := held_split held
        unfold tasks at member ⊢
        rw [erased] at member
        rw [split]
        simp only [List.mem_append, List.map_append, List.filterMap_append, List.map_cons,
          List.filterMap_cons, Task.request?, List.mem_cons, List.not_mem_nil] at member ⊢
        tauto
      · obtain ⟨earlier, later, split, erased⟩ := held_split held
        unfold tasks at member ⊢
        rw [erased] at member
        rw [split]
        simp only [List.map_append, List.filterMap_append, List.map_cons, List.filterMap_cons,
          Task.request?] at member ⊢
        exact member
  | strand =>
      obtain ⟨bound, rest, connection, queued, -, rfl⟩ := strand_cases taken
      left
      rw [queued]
      exact List.mem_cons_of_mem bound member

theorem mem_sent_step {event : Event} (taken : before.step sha1 event = some after) {sent : Sent}
    (member : sent ∈ after.sent) :
    sent ∈ before.sent ∨ ∃ connection, sent.request ∈ before.underway ∧
      before.connections[sent.request.session]? = some connection ∧
      sent.calls = connection.session.request sent.request.buffer := by
  cases event with
  | accept input =>
      obtain ⟨connection, -, rfl⟩ := accept_cases taken
      exact Or.inl member
  | socket session event =>
      obtain ⟨connection, next, actions, -, -, rfl⟩ := socket_cases taken
      exact Or.inl member
  | broadcast data is_binary =>
      cases taken
      exact Or.inl member
  | take thread =>
      obtain ⟨task, rest, -, -, -, rfl⟩ := take_cases taken
      exact Or.inl member
  | dispatch thread =>
      rcases dispatch_cases taken with ⟨bound, -, rfl⟩ |
        ⟨session, data, is_binary, connection, -, -, rfl⟩
      · exact Or.inl member
      · exact Or.inl member
  | strand =>
      obtain ⟨bound, rest, connection, queued, found, rfl⟩ := strand_cases taken
      rcases List.mem_append.mp member with earlier | last
      · exact Or.inl earlier
      · right
        rw [List.mem_singleton.mp last]
        refine ⟨connection, ?_, found, rfl⟩
        unfold underway
        rw [queued]
        exact List.mem_append_left _ List.mem_cons_self

def Backed (self : Server) (request : Request) : Prop :=
  ∃ connection, self.connections[request.session]? = some connection ∧
    request.ordinal < connection.posted.length

theorem Backed.step {request : Request} (backed : before.Backed request) {event : Event}
    (taken : before.step sha1 event = some after) : after.Backed request := by
  obtain ⟨connection, found, bound⟩ := backed
  obtain ⟨next, here, sees⟩ := session_step taken found
  refine ⟨next, here, ?_⟩
  cases sees with
  | still => exact bound
  | moved stimulus actions given responds =>
      rw [Connection.respond_posted responds, List.length_append]
      exact Nat.lt_of_lt_of_le bound (Nat.le_add_right _ _)

theorem backed_of_arrives {event : Event} (taken : before.step sha1 event = some after)
    {request : Request} (member : request ∈ before.arrivals sha1 event) :
    after.Backed request := by
  cases event with
  | socket session inner =>
      obtain ⟨connection, next, actions, found, reacted, rfl⟩ := socket_cases taken
      rw [arrivals_socket found reacted] at member
      obtain ⟨⟨buffer, ordinal⟩, inside, rfl⟩ := List.mem_map.mp member
      obtain ⟨-, bound, -⟩ := List.mem_zipIdx inside
      have here := (List.getElem?_eq_some_iff.mp found).1
      refine ⟨next, List.getElem?_set_self here, ?_⟩
      have responds : connection.respond sha1 (.socket inner) = some (next, actions) := reacted
      rw [Connection.respond_posted responds, List.length_append]
      exact bound
  | accept input => cases member
  | broadcast data is_binary => cases member
  | take thread => cases member
  | dispatch thread => cases member
  | strand => cases member

theorem backed_of_run {allowed : Server → Event → Prop} {num_threads : Nat} {server : Server}
    (run : Reaches (step sha1) allowed (start num_threads) server) :
    (∀ request ∈ server.underway, server.Backed request) ∧
      ∀ sent ∈ server.sent, server.Backed sent.request := by
  induction run with
  | start =>
      constructor
      · intro request member
        cases member
      · intro sent member
        cases member
  | next event reached permitted taken ih =>
      constructor
      · intro request member
        rcases mem_underway_step taken member with old | new
        · exact (ih.1 request old).step taken
        · exact backed_of_arrives taken new
      · intro sent member
        rcases mem_sent_step taken member with old | ⟨connection, under, -, -⟩
        · exact (ih.2 sent old).step taken
        · exact (ih.1 sent.request under).step taken

/-! ### Types in a run -/

def Carries (frames : List Frame) (request : Request) (is_binary : Bool) : Prop :=
  ∃ frame, frames[request.ordinal]? = some frame ∧ request.buffer.bytes = frame.payload ∧
    is_binary = frame.is_binary

/-- The session follows its chain, the requests that wait have the type of the
session, and those sent were opened with the type of their message. -/
structure Typed (session : Nat) (origin : Connection) (frames : List Frame) (server : Server) :
    Prop where
  connection : ∃ connection, server.connections[session]? = some connection ∧
    origin.Follows connection ∧
    ∀ request ∈ server.underway, request.session = session →
      Carries frames request connection.session.header_.is_binary_
  sent : ∀ sent ∈ server.sent, sent.request.session = session →
    ∃ is_binary, Carries frames sent.request is_binary ∧
      sent.calls.head? = some (.send_open is_binary)

section Run

variable {session : Nat} {origin : Connection} {frames : List Frame}

theorem Typed.chained {receiver : Receiver} (ready : Ready receiver origin)
    (opened : receiver.new_request = true) (none : origin.posted = [])
    (messages : ∀ frame ∈ frames, frame.Message) (input : origin.input = Frame.stream frames)
    {old new : Connection} {stimulus : Stimulus} {actions : List Action}
    (chained : Connection.Chained origin old new actions stimulus)
    (grown : new.posted = old.posted ++ actions.filterMap Action.request?) :
    (new.session.header_.is_binary_ = old.session.header_.is_binary_ ∨
        stimulus = .socket (.read 0) ∧ old.changes_type 0 = true) ∧
      ∀ request ∈ numbered session old.posted.length actions,
        Carries frames request new.session.header_.is_binary_ := by
  cases chained with
  | still stimulus same posted =>
      rw [posted] at grown
      have silent := List.self_eq_append_right.mp grown
      constructor
      · rw [same]
        exact Or.inl rfl
      · intro request member
        unfold numbered at member
        rw [silent] at member
        cases member
  | read op ahead next found received run taken same moved posted =>
      constructor
      · rcases Session.receive_is_binary received with kept | ⟨handler, second, type⟩
        · exact Or.inl kept
        · by_cases equal : old.session.temp_header_.is_binary_ = old.session.header_.is_binary_
          · exact Or.inl (type.trans equal)
          · right
            refine ⟨rfl, ?_⟩
            unfold Connection.changes_type
            rw [found]
            exact decide_eq_true ⟨handler, second, equal⟩
      · intro request member
        rcases ready.chain_posts messages opened input run taken with
          silent | ⟨frame, buffer, here, -, more, bytes, type⟩
        · rw [posted, same, grown] at silent
          unfold numbered at member
          rw [List.self_eq_append_right.mp silent.symm] at member
          cases member
        · rw [posted, same, grown] at more
          have one := List.append_cancel_left more
          unfold numbered at member
          rw [one] at member
          rw [List.mem_singleton.mp member]
          rw [none, List.length_nil, Nat.sub_zero, same] at here
          exact ⟨frame, here, bytes, by rw [← moved]; exact type⟩

theorem Typed.step {receiver : Receiver} (ready : Ready receiver origin)
    (opened : receiver.new_request = true) (none : origin.posted = [])
    (messages : ∀ frame ∈ frames, frame.Message) (input : origin.input = Frame.stream frames)
    (typed : before.Typed session origin frames) (phases : before.Every Connection.Phase)
    {event : Event} (permitted : before.TypesKept session event)
    (taken : before.step sha1 event = some after) : after.Typed session origin frames := by
  obtain ⟨connection, found, follows, waiting⟩ := typed.connection
  have phase := phases session connection found
  constructor
  · obtain ⟨next, here, sees⟩ := session_step taken found
    refine ⟨next, here, ?_⟩
    cases sees with
    | still other =>
        refine ⟨follows, ?_⟩
        intro request member mine
        rcases mem_underway_step taken member with old | new
        · exact waiting request old mine
        · have silent : (before.arrivals sha1 event).filter
              (fun request => request.session == session) = [] := by
            apply arrivals_other
            rintro inner rfl
            exact other _ rfl
          have arrives : request ∈ (before.arrivals sha1 event).filter
              (fun request => request.session == session) :=
            List.mem_filter.mpr ⟨new, beq_iff_eq.mpr mine⟩
          rw [silent] at arrives
          cases arrives
    | moved stimulus actions given responds =>
        obtain ⟨following, chained⟩ := follows.respond phase responds
        obtain ⟨kept, arriving⟩ := Typed.chained ready opened none messages input chained
          (Connection.respond_posted responds)
        refine ⟨following, ?_⟩
        intro request member mine
        rcases mem_underway_step taken member with old | new
        · have carries := waiting request old mine
          rcases kept with same | ⟨rfl, changes⟩
          · rw [same]
            exact carries
          · have event := stimulus_socket given
            subst event
            have apart := permitted rfl (by rw [found]; exact changes) request old
            exact absurd mine apart
        · cases stimulus with
          | socket inner =>
              have event := stimulus_socket given
              subst event
              change connection.react sha1 inner = _ at responds
              rw [arrivals_socket found responds] at new
              exact arriving request new
          | write data is_binary =>
              obtain ⟨thread, rfl, -⟩ := stimulus_write given
              cases new
  · intro sent member mine
    rcases mem_sent_step taken member with old | ⟨other, under, here, calls⟩
    · exact typed.sent sent old mine
    · rw [mine, found] at here
      cases here
      refine ⟨_, waiting sent.request under mine, ?_⟩
      rw [calls]
      rfl

end Run

def OpensTypes (session : Nat) (frames : List Frame) (self : Server) : Prop :=
  ∀ sent ∈ self.sent, sent.request.session = session →
    ∃ frame, frames[sent.request.ordinal]? = some frame ∧
      sent.request.buffer.bytes = frame.payload ∧
      sent.calls.head? = some (.send_open (frame.opcode == 2))

/-- The client of the session is going to send unfragmented messages only, and none
of its bytes behind the handshake has been read. -/
structure Awaits (session : Nat) (frames : List Frame) (server : Server) : Prop where
  messages : ∀ frame ∈ frames, frame.Message
  waits : ∃ connection, server.connections[session]? = some connection ∧
    BetweenMessages connection ∧ connection.posted = [] ∧ connection.input = Frame.stream frames

/-- In every run in which no header of another type is completed while a request of
the session waits, requests are opened with the type of their message. -/
theorem request_types (sha1 : List UInt8 → Digest) {num_threads : Nat} {middle final : Server}
    {session : Nat} {frames : List Frame}
    (reached : Reaches (step sha1) anyEvent (start num_threads) middle)
    (awaits : middle.Awaits session frames)
    (run : Reaches (step sha1) (TypesKept session) middle final) :
    final.OpensTypes session frames := by
  obtain ⟨origin, found, between, none, input⟩ := awaits.waits
  have ready := between.ready
  have backed := backed_of_run reached
  have unposted (request : Request) (mine : request.session = session) :
      ¬middle.Backed request := by
    rintro ⟨connection, here, bound⟩
    rw [mine, found] at here
    cases here
    rw [none] at bound
    exact absurd bound (Nat.not_lt_zero _)
  have outstanding : origin.starting = false ∧ origin.pending_responses = 0 := by
    have first : origin.reads[0]? = some (origin.session.headerRead 0 2) := by
      rw [between.reads]
      rfl
    obtain ⟨-, here, -⟩ := (run_phases reached session origin found).of_read first
    exact ⟨here.starting, here.responses⟩
  have typed : final.Typed session origin frames ∧ Reaches (step sha1) anyEvent
      (start num_threads) final := by
    induction run with
    | start =>
        refine ⟨⟨⟨origin, found, ⟨outstanding.1, outstanding.2, origin, Steps.refl origin, rfl, rfl,
          Or.inl ⟨rfl, rfl⟩⟩, ?_⟩, ?_⟩, reached⟩
        · intro request member mine
          exact absurd (backed.1 request member) (unposted request mine)
        · intro sent member mine
          exact absurd (backed.2 sent member) (unposted sent.request mine)
    | next event earlier permitted taken ih =>
        obtain ⟨typed, path⟩ := ih
        exact ⟨typed.step ready rfl none awaits.messages input (run_phases path) permitted taken,
          .next event path trivial taken⟩
  intro sent member mine
  obtain ⟨is_binary, ⟨frame, here, bytes, type⟩, calls⟩ := typed.1.sent sent member mine
  refine ⟨frame, here, bytes, ?_⟩
  rw [calls, type, (awaits.messages frame (List.mem_of_getElem? here)).is_binary]

def sampleTypes : List Frame :=
  [.short 0x81 none [0x74] (by decide), .short 0x82 none [0x00, 0x01] (by decide)]

def sampleArrival : List Event :=
  [.accept (sampleRequest ++ Frame.stream sampleTypes), .socket 0 (.read_first 63),
    .socket 0 (.write_some 0 129), .socket 0 (.written 0 false)]

def sampleRead : List Event :=
  [.socket 0 (.read 0), .socket 0 (.read 0), .socket 0 (.read 0)]

def sampleRun : List Event :=
  [.take 0, .dispatch 0, .strand]

def sampleAwaits (server : Server) : Bool :=
  server.connections[0]?.any fun connection =>
    decide (BetweenMessages connection ∧ connection.posted = [] ∧
      connection.input = Frame.stream sampleTypes)

theorem awaits_of_sample {server : Server} (here : sampleAwaits server = true) :
    server.Awaits 0 sampleTypes := by
  obtain ⟨connection, found, checked⟩ := (Option.any_eq_true _ _).mp here
  exact ⟨by decide, connection, found, of_decide_eq_true checked⟩

def sampleSeparate (middle : Server) : Bool :=
  (trace (step zeroDigest) (TypesKept 0) middle
    (sampleRead ++ sampleRun ++ sampleRead ++ sampleRun)).any fun final =>
      final.sent.length == 2

theorem request_types_sample :
    ∃ final : Server, final.sent.length = 2 ∧ final.OpensTypes 0 sampleTypes := by
  obtain ⟨first, middle, same, reached, here⟩ := Reaches.of_trace_any (step zeroDigest) anyEvent
    (some (start 1))
    (fun middle => sampleAwaits middle && sampleSeparate middle) sampleArrival (by decide +kernel)
  obtain rfl := Option.some.inj same
  obtain ⟨awaits, rest⟩ := Bool.and_eq_true_iff.mp here
  obtain ⟨final, traced, two⟩ := (Option.any_eq_true _ _).mp rest
  exact ⟨final, beq_iff_eq.mp two,
    request_types zeroDigest reached (awaits_of_sample awaits) (.of_trace _ traced)⟩

def sampleOverwritten (sent : Sent) : Bool :=
  sent.request.session == 0 && sent.request.ordinal == 0 &&
    sent.calls.head? == some (.send_open true)

/-- One thread holds the first request while the other reads the header of the
second message. -/
def sampleOvertaken (middle : Server) : Bool :=
  (trace (step zeroDigest) anyEvent middle
    (sampleRead ++ [.take 0, .socket 0 (.read 0), .socket 0 (.read 0), .dispatch 0, .strand])).any
      fun final => final.sent.any sampleOverwritten

theorem request_type_overwritten :
    ¬∀ (sha1 : List UInt8 → Digest) (num_threads : Nat) (middle final : Server) (session : Nat)
      (frames : List Frame), Reaches (step sha1) anyEvent (start num_threads) middle →
      middle.Awaits session frames → Reaches (step sha1) anyEvent middle final →
      final.OpensTypes session frames := by
  intro opens
  obtain ⟨first, middle, same, reached, here⟩ := Reaches.of_trace_any (step zeroDigest) anyEvent
    (some (start 2))
    (fun middle => sampleAwaits middle && sampleOvertaken middle) sampleArrival (by decide +kernel)
  obtain rfl := Option.some.inj same
  obtain ⟨awaits, rest⟩ := Bool.and_eq_true_iff.mp here
  obtain ⟨final, traced, wrong⟩ := (Option.any_eq_true _ _).mp rest
  obtain ⟨sent, member, checked⟩ := List.any_eq_true.mp wrong
  obtain ⟨checked, opened⟩ := Bool.and_eq_true_iff.mp checked
  obtain ⟨mine, ordinal⟩ := Bool.and_eq_true_iff.mp checked
  rw [beq_iff_eq] at mine ordinal opened
  obtain ⟨frame, found, -, type⟩ :=
    opens _ _ _ _ _ _ reached (awaits_of_sample awaits) (.of_trace _ traced) sent member mine
  rw [ordinal] at found
  cases found
  rw [opened] at type
  exact absurd type (by decide)

end Server

end Averyws
