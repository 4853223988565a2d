/-
A session under any stimulus.

Every stimulus has one lemma that says all it can do.  From these follows the
phase of a session in every state it can reach: at most one of the first read,
the handshake response and a later read is outstanding, and a later read is in
one of the stages of a frame.
-/

import Averyws.Message
import Averyws.Stages

namespace Averyws

open Library.Bytes Library.Run
open Utilities Utilities.Base64

def sampleRequest : List UInt8 :=
  ascii "GET / HTTP/1.1\r\nSec-WebSocket-Key: dGhlIHNhbXBsZSBub25jZQ==\r\n\r\n"

def zeroDigest (_ : List UInt8) : Digest :=
  Vector.replicate 20 0

def sampleHandshake : List Stimulus :=
  [.socket (.read_first 63), .socket (.write_some 0 129), .socket (.written 0 false)]

/-! ### What a stimulus can do -/

theorem Session.receive_first_next {sha1 : List UInt8 → Digest} {session next : Session}
    {bytes : List UInt8} {actions : List Action}
    (done : session.receive_first sha1 bytes = some (next, actions)) :
    (actions = [.remove] ∧ ∃ buffer, next = { session with buffer_ := buffer }) ∨
      ∃ reply buffer, actions = [.async_write { handler := .handshake, bytes := reply }] ∧
        next = { session with
          buffer_ := buffer
          temp_header_ := { session.temp_header_ with rsvc_ := 0x00 } } := by
  unfold receive_first at done
  obtain ⟨buffer, -, done⟩ := Option.bind_eq_some_iff.mp done
  unfold read_first_header at done
  rw [if_neg Bool.noConfusion] at done
  obtain ⟨closed, -, done⟩ := Option.bind_eq_some_iff.mp done
  obtain ⟨memory, -, done⟩ := Option.bind_eq_some_iff.mp done
  obtain ⟨found, -, done⟩ := Option.bind_eq_some_iff.mp done
  cases found with
  | none => cases done
  | some found =>
      obtain ⟨found_end, -, done⟩ := Option.bind_eq_some_iff.mp done
      cases found_end with
      | none =>
          cases done
          exact Or.inl ⟨rfl, closed, rfl⟩
      | some found_end =>
          obtain ⟨b64, -, done⟩ := Option.bind_eq_some_iff.mp done
          unfold respond at done
          obtain ⟨first, -, done⟩ := Option.bind_eq_some_iff.mp done
          obtain ⟨second, -, done⟩ := Option.bind_eq_some_iff.mp done
          obtain ⟨third, -, done⟩ := Option.bind_eq_some_iff.mp done
          obtain ⟨text, -, done⟩ := Option.bind_eq_some_iff.mp done
          cases done
          exact Or.inr ⟨_, third, rfl, rfl⟩

theorem Session.receive_first_cases {sha1 : List UInt8 → Digest} {session next : Session}
    {bytes : List UInt8} {actions : List Action}
    (done : session.receive_first sha1 bytes = some (next, actions)) :
    (actions = [.remove] ∧ next.new_request_ = session.new_request_ ∧
        next.rsvc_ = session.rsvc_) ∨
      ∃ reply, actions = [.async_write { handler := .handshake, bytes := reply }] ∧
        next.new_request_ = session.new_request_ ∧ next.temp_header_.rsvc_ = 0 ∧
        next.rsvc_ = session.rsvc_ := by
  rcases Session.receive_first_next done with ⟨same, buffer, rfl⟩ | ⟨reply, buffer, same, rfl⟩
  · exact Or.inl ⟨same, rfl, rfl⟩
  · exact Or.inr ⟨reply, same, rfl, rfl, rfl⟩

theorem Session.receive_error_eq (session : Session) (op : ReadOp) :
    session.receive_error op = some (session, [.remove]) := by
  unfold receive_error
  cases op.handler <;> rfl

namespace Connection

variable {sha1 : List UInt8 → Digest} {before after : Connection} {actions : List Action}

theorem complete_first_cases {count : Nat}
    (done : before.complete_first sha1 count = some (after, actions)) :
    before.starting = true ∧ 0 < count ∧ count ≤ before.session.buffer_.size.toNat ∧
      count ≤ before.input.length ∧
      ∃ session, before.session.receive_first sha1 (before.input.take count) =
          some (session, actions) ∧
        after = { before with
          session := session
          starting := false
          input := before.input.drop count }.performs actions := by
  unfold complete_first at done
  split at done
  next ready =>
    obtain ⟨⟨session, started⟩, received, done⟩ := Option.bind_eq_some_iff.mp done
    cases done
    exact ⟨ready.1, ready.2.1, ready.2.2.1, ready.2.2.2, session, received, rfl⟩
  next => cases done

theorem fail_first_cases (done : before.fail_first sha1 = some (after, actions)) :
    before.starting = true ∧ actions = [.remove] ∧ after = { before with starting := false } := by
  unfold fail_first at done
  split at done
  next ready =>
    cases done
    exact ⟨ready, rfl, rfl⟩
  next => cases done

theorem complete_read_cases {index : Nat}
    (done : before.complete_read index = some (after, actions)) :
    ∃ op session, before.reads[index]? = some op ∧ op.count ≤ before.input.length ∧
      before.session.receive op (before.input.take op.count) = some (session, actions) ∧
      after = { before with
        session := session
        reads := before.reads.eraseIdx index
        input := before.input.drop op.count }.performs actions := by
  unfold complete_read at done
  obtain ⟨op, found, done⟩ := Option.bind_eq_some_iff.mp done
  split at done
  next enough =>
    obtain ⟨⟨session, started⟩, received, done⟩ := Option.bind_eq_some_iff.mp done
    cases done
    exact ⟨op, session, found, enough, received, rfl⟩
  next => cases done

theorem fail_read_cases {index : Nat} (done : before.fail_read index = some (after, actions)) :
    (∃ op, before.reads[index]? = some op) ∧ actions = [.remove] ∧
      after = { before with reads := before.reads.eraseIdx index } := by
  unfold fail_read at done
  obtain ⟨op, found, done⟩ := Option.bind_eq_some_iff.mp done
  rw [Session.receive_error_eq] at done
  cases done
  exact ⟨⟨op, found⟩, rfl, rfl⟩

theorem write_some_cases {index count : Nat} (done : before.write_some index count = some after) :
    ∃ out, before.writes[index]? = some out ∧ out.completed = false ∧ 0 < count ∧
      out.written + count ≤ out.op.bytes.length ∧
      after = { before with
        writes := before.writes.set index { out with written := out.written + count }
        wire := before.wire ++ (out.op.bytes.drop out.written).take count
        handshake_end :=
          if out.op.handler = .handshake ∧ out.written + count = out.op.bytes.length then
            some (before.wire ++ (out.op.bytes.drop out.written).take count).length
          else before.handshake_end } := by
  unfold write_some at done
  obtain ⟨out, found, done⟩ := Option.bind_eq_some_iff.mp done
  split at done
  next ready =>
    refine ⟨out, found, ready.1, ready.2.1, ready.2.2, ?_⟩
    dsimp only at done
    split at done
    next whole =>
      cases done
      rw [if_pos whole]
    next rest =>
      cases done
      rw [if_neg rest]
  next => cases done

theorem complete_write_cases {index : Nat} {error : Bool}
    (done : before.complete_write index error = some (after, actions)) :
    ∃ out, before.writes[index]? = some out ∧ out.completed = false ∧
      (error = true ∨ out.written = out.op.bytes.length) ∧
      ((out.op.handler = .handshake ∧ error = false ∧
          actions = [.async_read (before.session.read_header.1.headerRead 0 2)] ∧
          after = { before with
            session := before.session.read_header.1
            writes := before.writes.set index { out with completed := true }
            reads := before.reads ++ [before.session.read_header.1.headerRead 0 2] }) ∨
        (¬(out.op.handler = .handshake ∧ error = false) ∧ (actions = [] ∨ actions = [.remove]) ∧
          after = { before with
            writes := before.writes.set index { out with completed := true } })) := by
  unfold complete_write at done
  obtain ⟨out, found, done⟩ := Option.bind_eq_some_iff.mp done
  split at done
  next ready =>
    refine ⟨out, found, ready.1, ready.2, ?_⟩
    cases done
    by_cases answered : out.op.handler = .handshake ∧ error = false
    · left
      rw [answered.1, answered.2]
      exact ⟨rfl, rfl, rfl, rfl⟩
    · right
      refine ⟨answered, ?_⟩
      cases handler : out.op.handler <;> cases error <;>
        simp_all [Session.handle_write, performs, perform]
  next => cases done

theorem respond_posted {stimulus : Stimulus}
    (done : before.respond sha1 stimulus = some (after, actions)) :
    after.posted = before.posted ++ actions.filterMap Action.request? := by
  cases stimulus with
  | write data is_binary =>
      cases done
      exact (List.append_nil _).symm
  | socket event =>
      cases event with
      | read_first count =>
          obtain ⟨-, -, -, -, session, -, rfl⟩ := complete_first_cases done
          rw [performs_eq]
      | fail_first =>
          obtain ⟨-, rfl, rfl⟩ := fail_first_cases done
          exact (List.append_nil _).symm
      | read index =>
          obtain ⟨op, session, -, -, -, rfl⟩ := complete_read_cases done
          rw [performs_eq]
      | fail_read index =>
          obtain ⟨-, rfl, rfl⟩ := fail_read_cases done
          exact (List.append_nil _).symm
      | write_some index count =>
          obtain ⟨next, taken, same⟩ := Option.map_eq_some_iff.mp done
          cases same
          obtain ⟨out, -, -, -, -, rfl⟩ := write_some_cases taken
          exact (List.append_nil _).symm
      | written index error =>
          obtain ⟨out, -, -, -, outcome⟩ := complete_write_cases done
          rcases outcome with ⟨-, -, rfl, rfl⟩ | ⟨-, rfl | rfl, rfl⟩
          · exact (List.append_nil _).symm
          · exact (List.append_nil _).symm
          · exact (List.append_nil _).symm

end Connection

theorem map_set_of_eq {α β : Type} (f : α → β) {list : List α} {index : Nat} {old new : α}
    (found : list[index]? = some old) (same : f new = f old) :
    (list.set index new).map f = list.map f := by
  obtain ⟨bound, here⟩ := List.getElem?_eq_some_iff.mp found
  have inside : index < (list.map f).length := by rw [List.length_map]; exact bound
  have image : f old = (list.map f)[index] := by rw [List.getElem_map, here]
  rw [List.map_set, same, image, List.set_getElem_self]

def Outgoing.answers (out : Outgoing) : Bool :=
  decide (out.op.handler = .handshake ∧ out.completed = false)

namespace Connection

def pending_responses (self : Connection) : Nat :=
  self.writes.countP Outgoing.answers

theorem countP_set_answers {writes : List Outgoing} {index : Nat} {out : Outgoing}
    (found : writes[index]? = some out) (changed : Outgoing) :
    (writes.set index changed).countP Outgoing.answers + (if out.answers then 1 else 0) =
      writes.countP Outgoing.answers + (if changed.answers then 1 else 0) := by
  obtain ⟨bound, here⟩ := List.getElem?_eq_some_iff.mp found
  have counted := List.boole_getElem_le_countP (p := Outgoing.answers) bound
  rw [List.countP_set bound]
  rw [here] at counted ⊢
  omega

theorem countP_fresh (ops : List WriteOp) (others : ∀ op ∈ ops, op.handler ≠ .handshake) :
    (ops.map fresh).countP Outgoing.answers = 0 := by
  rw [List.countP_eq_zero]
  intro out member
  obtain ⟨op, inside, rfl⟩ := List.mem_map.mp member
  simp [Outgoing.answers, fresh, others op inside]

end Connection

/-! ### The phases of a session -/

structure Connection.Outstanding (connection : Connection) (starting : Bool)
    (reads : List ReadOp) (responses : Nat) : Prop where
  starting : connection.starting = starting
  reads : connection.reads = reads
  responses : connection.pending_responses = responses

inductive Connection.Phase (connection : Connection) : Prop
  | starting (here : connection.Outstanding true [] 0)
      (new_request : connection.session.new_request_ = true)
  | answering (here : connection.Outstanding false [] 1)
      (new_request : connection.session.new_request_ = true)
      (rsvc : connection.session.temp_header_.rsvc_ = 0)
  | reading (op : ReadOp) (here : connection.Outstanding false [op] 0)
      (stage : connection.session.Stage op)
  | stalled (op : ReadOp) (here : connection.Outstanding false [op] 0)
      (stuck : connection.session.Stalled op)
  | ended (here : connection.Outstanding false [] 0)

theorem Session.tracks_rest {session : Session} (new_request : session.new_request_ = true)
    (rsvc : session.temp_header_.rsvc_ = 0) :
    session.Tracks (Receiver.rest session.header_.is_binary_) :=
  { rsvc := rsvc
    new_request := new_request
    is_binary := rfl
    valid := Bool.noConfusion
    utf8 := Bool.noConfusion
    holds := Bool.noConfusion
    total := Bool.noConfusion }

namespace Connection

variable {sha1 : List UInt8 → Digest} {before after : Connection} {actions : List Action}

theorem Phase.frame (phase : before.Phase) (session : after.session = before.session)
    (starting : after.starting = before.starting) (reads : after.reads = before.reads)
    (responses : after.pending_responses = before.pending_responses) : after.Phase := by
  have moved {first : Bool} {ops : List ReadOp} {count : Nat}
      (here : before.Outstanding first ops count) : after.Outstanding first ops count :=
    ⟨starting.trans here.starting, reads.trans here.reads, responses.trans here.responses⟩
  cases phase with
  | starting here new_request => exact .starting (moved here) (by rw [session]; exact new_request)
  | answering here new_request rsvc =>
      exact .answering (moved here) (by rw [session]; exact new_request)
        (by rw [session]; exact rsvc)
  | reading op here stage => exact .reading op (moved here) (by rw [session]; exact stage)
  | stalled op here stuck => exact .stalled op (moved here) (by rw [session]; exact stuck)
  | ended here => exact .ended (moved here)

theorem Phase.of_starting (phase : before.Phase) (starting : before.starting = true) :
    before.Outstanding true [] 0 ∧ before.session.new_request_ = true := by
  cases phase with
  | starting here new_request => exact ⟨here, new_request⟩
  | answering here => exact absurd (starting.symm.trans here.starting) Bool.noConfusion
  | reading op here => exact absurd (starting.symm.trans here.starting) Bool.noConfusion
  | stalled op here => exact absurd (starting.symm.trans here.starting) Bool.noConfusion
  | ended here => exact absurd (starting.symm.trans here.starting) Bool.noConfusion

theorem Phase.of_answers (phase : before.Phase) {index : Nat} {out : Outgoing}
    (found : before.writes[index]? = some out) (answers : out.answers = true) :
    before.Outstanding false [] 1 ∧ before.session.new_request_ = true ∧
      before.session.temp_header_.rsvc_ = 0 := by
  have counted : before.pending_responses ≠ 0 := by
    apply Nat.ne_of_gt
    exact List.countP_pos_iff.mpr ⟨out, List.mem_of_getElem? found, answers⟩
  cases phase with
  | starting here => exact absurd here.responses counted
  | answering here new_request rsvc => exact ⟨here, new_request, rsvc⟩
  | reading op here => exact absurd here.responses counted
  | stalled op here => exact absurd here.responses counted
  | ended here => exact absurd here.responses counted

theorem Phase.of_read (phase : before.Phase) {index : Nat} {op : ReadOp}
    (found : before.reads[index]? = some op) :
    index = 0 ∧ before.Outstanding false [op] 0 ∧
      (before.session.Stage op ∨ before.session.Stalled op) := by
  have inside := List.mem_of_getElem? found
  have only {other : ReadOp} (here : before.Outstanding false [other] 0) :
      index = 0 ∧ op = other := by
    rw [here.reads] at found
    obtain ⟨bound, same⟩ := List.getElem?_eq_some_iff.mp found
    have zero : index = 0 := Nat.lt_one_iff.mp bound
    subst zero
    exact ⟨rfl, same.symm⟩
  cases phase with
  | starting here =>
      rw [here.reads] at inside
      cases inside
  | answering here =>
      rw [here.reads] at inside
      cases inside
  | reading other here stage =>
      obtain ⟨zero, rfl⟩ := only here
      exact ⟨zero, here, Or.inl stage⟩
  | stalled other here stuck =>
      obtain ⟨zero, rfl⟩ := only here
      exact ⟨zero, here, Or.inr stuck⟩
  | ended here =>
      rw [here.reads] at inside
      cases inside

/-! ### Every stimulus leads from phase to phase -/

private theorem Phase.complete_first (phase : before.Phase) {count : Nat}
    (done : before.complete_first sha1 count = some (after, actions)) : after.Phase := by
  obtain ⟨starting, -, -, -, session, received, rfl⟩ := complete_first_cases done
  obtain ⟨here, new_request⟩ := phase.of_starting starting
  rw [performs_eq]
  rcases Session.receive_first_cases received with ⟨rfl, -⟩ | ⟨reply, rfl, kept, rsvc, -⟩
  · refine .ended ⟨rfl, ?_, ?_⟩
    · exact (List.append_nil _).trans here.reads
    · have none := here.responses
      unfold pending_responses at none ⊢
      rw [List.countP_append, none]
      rfl
  · refine .answering ⟨rfl, ?_, ?_⟩ (kept.trans new_request) rsvc
    · exact (List.append_nil _).trans here.reads
    · have none := here.responses
      unfold pending_responses at none ⊢
      simp [Action.write?, none, fresh, Outgoing.answers]

private theorem Phase.of_aftermath (before : Connection) {crowded : Prop} {next : Session}
    (aftermath : next.Aftermath crowded actions) (here : before.Outstanding false [] 0) :
    ({ before with session := next }.performs actions).Phase := by
  have none := here.responses
  unfold pending_responses at none
  rw [performs_eq]
  cases aftermath with
  | fail code =>
      refine .ended ⟨here.starting, ?_, ?_⟩
      · exact (List.append_nil _).trans here.reads
      · unfold pending_responses
        rw [List.countP_append, none]
        rfl
  | close =>
      refine .ended ⟨here.starting, ?_, ?_⟩
      · exact (List.append_nil _).trans here.reads
      · unfold pending_responses
        rw [List.countP_append, none]
        rfl
  | onward replies requests later few pings stage =>
      have others : ∀ op ∈ replies, op.handler ≠ .handshake := by
        intro op member
        rw [pings op member]
        exact WriteHandler.noConfusion
      have outstanding : Outstanding
          { before with
            session := next
            reads := before.reads ++ [later]
            writes := before.writes ++ replies.map fresh
            posted := before.posted ++ (replies.map Action.async_write ++
              requests.map Action.post ++ [Action.async_read later]).filterMap Action.request? }
          false [later] 0 := by
        refine ⟨here.starting, ?_, ?_⟩
        · rw [here.reads]
          rfl
        · unfold pending_responses
          rw [List.countP_append, none, countP_fresh replies others]
      rw [onward_writes, onward_reads]
      rcases stage with stage | stuck
      · exact .reading later outstanding stage
      · exact .stalled later outstanding stuck.2

private theorem Phase.complete_read (phase : before.Phase) {index : Nat}
    (done : before.complete_read index = some (after, actions)) : after.Phase := by
  obtain ⟨op, session, found, enough, received, rfl⟩ := complete_read_cases done
  have size : (before.input.take op.count).length = op.count := List.length_take_of_le enough
  obtain ⟨rfl, here, stage | stuck⟩ := phase.of_read found
  · refine Phase.of_aftermath { before with
      reads := before.reads.eraseIdx 0
      input := before.input.drop op.count } (stage.aftermath _ size received) ?_
    refine ⟨here.starting, ?_, here.responses⟩
    rw [here.reads]
    rfl
  · rw [stuck.2 _ size] at received
    cases received

private theorem Phase.fail_read (phase : before.Phase) {index : Nat}
    (done : before.fail_read index = some (after, actions)) : after.Phase := by
  obtain ⟨⟨op, found⟩, rfl, rfl⟩ := fail_read_cases done
  obtain ⟨rfl, here, -⟩ := phase.of_read found
  refine .ended ⟨here.starting, ?_, here.responses⟩
  rw [here.reads]
  rfl

private theorem Phase.write_some (phase : before.Phase) {index count : Nat}
    (done : before.write_some index count = some after) : after.Phase := by
  obtain ⟨out, found, -, -, -, rfl⟩ := write_some_cases done
  refine phase.frame rfl rfl rfl ?_
  have counted := countP_set_answers found { out with written := out.written + count }
  unfold pending_responses
  exact Nat.add_right_cancel counted

private theorem Phase.complete_write (phase : before.Phase) {index : Nat} {error : Bool}
    (done : before.complete_write index error = some (after, actions)) : after.Phase := by
  obtain ⟨out, found, pending, -, outcome⟩ := complete_write_cases done
  have counted := countP_set_answers found { out with completed := true }
  have closed : Outgoing.answers { out with completed := true } = false := by
    simp [Outgoing.answers]
  rw [closed] at counted
  by_cases handshake : out.op.handler = .handshake
  · have answers : out.answers = true := by
      simp [Outgoing.answers, handshake, pending]
    obtain ⟨here, new_request, rsvc⟩ := phase.of_answers found answers
    have one := here.responses
    unfold pending_responses at one
    rw [answers, one] at counted
    rcases outcome with ⟨-, -, -, rfl⟩ | ⟨-, -, rfl⟩
    · obtain ⟨between, -⟩ := (Session.tracks_rest new_request rsvc).read_header
      refine .reading _ ⟨here.starting, ?_, Nat.succ.inj counted⟩ (.between _ between rfl)
      rw [here.reads]
      rfl
    · exact .ended ⟨here.starting, here.reads, Nat.succ.inj counted⟩
  · have silent : out.answers = false := by
      simp [Outgoing.answers, handshake]
    rcases outcome with ⟨same, -⟩ | ⟨-, -, rfl⟩
    · exact absurd same handshake
    · rw [silent] at counted
      exact phase.frame rfl rfl rfl counted

private theorem Phase.write (phase : before.Phase) (data : List UInt8) (is_binary : Bool) :
    (before.write data is_binary).Phase := by
  refine phase.frame rfl rfl rfl ?_
  unfold pending_responses Connection.write perform
  rw [List.countP_append]
  rfl

theorem Phase.respond (phase : before.Phase) {stimulus : Stimulus}
    (done : before.respond sha1 stimulus = some (after, actions)) : after.Phase := by
  cases stimulus with
  | write data is_binary =>
      cases done
      exact phase.write data is_binary
  | socket event =>
      cases event with
      | read_first count => exact phase.complete_first done
      | fail_first =>
          obtain ⟨starting, rfl, rfl⟩ := fail_first_cases done
          obtain ⟨here, -⟩ := phase.of_starting starting
          exact .ended ⟨rfl, here.reads, here.responses⟩
      | read index => exact phase.complete_read done
      | fail_read index => exact phase.fail_read done
      | write_some index count =>
          obtain ⟨next, taken, same⟩ := Option.map_eq_some_iff.mp done
          cases same
          exact phase.write_some taken
      | written index error => exact phase.complete_write done

theorem phase_accept {input : List UInt8} (accepted : Connection.accept input = some after) :
    after.Phase := by
  unfold accept at accepted
  obtain ⟨session, started, same⟩ := Option.bind_eq_some_iff.mp accepted
  unfold Session.start at started
  obtain ⟨buffer, -, here⟩ := Option.bind_eq_some_iff.mp started
  cases same
  cases here
  exact .starting ⟨rfl, rfl, rfl⟩ rfl

/-- A session that has written its response waits for the first message. -/
theorem between_of_response (phase : before.Phase) {index : Nat} {out : Outgoing}
    (found : before.writes[index]? = some out) (handshake : out.op.handler = .handshake)
    (done : before.complete_write index false = some (after, actions)) :
    BetweenMessages after := by
  obtain ⟨other, here, pending, -, outcome⟩ := complete_write_cases done
  rw [found] at here
  cases here
  rcases outcome with ⟨-, -, -, rfl⟩ | ⟨refused, -, -⟩
  · obtain ⟨outstanding, new_request, rsvc⟩ := phase.of_answers found
      (by simp [Outgoing.answers, handshake, pending])
    obtain ⟨between, -⟩ := (Session.tracks_rest new_request rsvc).read_header
    refine ⟨?_, between.fresh, between.rsvc, between.new_request⟩
    rw [outstanding.reads]
    rfl
  · exact absurd ⟨handshake, rfl⟩ refused

theorem phase_of_run {allowed : Connection → Stimulus → Prop} {input : List UInt8}
    {first final : Connection} (accepted : Connection.accept input = some first)
    (run : Reaches (next sha1) allowed first final) : final.Phase := by
  apply run.invariant Connection.Phase
  · intro before stimulus after phase _ taken
    obtain ⟨⟨next, actions⟩, done, same⟩ := Option.map_eq_some_iff.mp taken
    cases same
    exact phase.respond done
  · exact phase_accept accepted

end Connection

end Averyws
