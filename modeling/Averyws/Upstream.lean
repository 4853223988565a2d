/-
What a session takes from its client, in every run.

The bytes a session has read since its handshake are whole frames and a part of
one more.  Whatever else happens on the socket, the session has posted the
messages and queued the replies of the receiver of whole frames on them: writes,
their progress and their failures are nothing to the read side.
-/

import Averyws.FrameSteps
import Averyws.Library.Events
import Averyws.ReadSide

namespace Averyws

open Library.Bytes Library.Run Library.Code
open Utilities

namespace Receiver

variable {receiver middle : Receiver} {front : List Frame} {messages : List (List UInt8)}

theorem frames_step (step : receiver.frames front = (.next middle none, messages))
    (rest : List Frame) :
    receiver.frames (front ++ rest) =
      ((middle.frames rest).1, messages ++ (middle.frames rest).2) := by
  induction front generalizing receiver messages with
  | nil =>
      cases step
      rfl
  | cons frame front ih =>
      rw [List.cons_append]
      cases verdict : receiver.frame frame with
      | next next message =>
          rw [frames_next verdict] at step ⊢
          cases later : next.frames front with
          | mk final delivered =>
              rw [later] at step
              cases step
              rw [ih later, List.append_assoc]
      | fail code =>
          rw [frames_fail verdict] at step
          cases step
      | close =>
          rw [frames_close verdict] at step
          cases step

theorem answers_step (step : receiver.frames front = (.next middle none, messages))
    (rest : List Frame) :
    receiver.answers (front ++ rest) = receiver.answers front ++ middle.answers rest := by
  induction front generalizing receiver messages with
  | nil =>
      cases step
      rfl
  | cons frame front ih =>
      cases verdict : receiver.frame frame with
      | next next message =>
          rw [frames_next verdict] at step
          cases later : next.frames front with
          | mk final delivered =>
              rw [later] at step
              cases step
              rw [List.cons_append, answers, answers, verdict]
              dsimp only
              rw [ih later, List.append_assoc]
      | fail code =>
          rw [frames_fail verdict] at step
          cases step
      | close =>
          rw [frames_close verdict] at step
          cases step

theorem answers_single (receiver : Receiver) (frame : Frame) :
    receiver.answers [frame] = (receiver.answer frame).toList := by
  rw [answers]
  cases receiver.frame frame <;> exact List.append_nil _

end Receiver

def WriteHandler.replies : WriteHandler → Bool
  | .ping => true
  | .kill => true
  | .cancel _ => true
  | _ => false

theorem Answer.Carries.replies {answer : Answer} {op : WriteOp} (carried : answer.Carries op) :
    op.handler.replies = true := by
  cases answer with
  | pong ping =>
      change op = _ at carried
      rw [carried]
      rfl
  | cancel code =>
      change op = _ at carried
      rw [carried]
      rfl
  | close received =>
      rw [carried.1]
      rfl

theorem filter_carried {answers : List Answer} {ops : List WriteOp}
    (carried : List.Forall₂ (fun answer op => Answer.Carries op answer) answers ops) :
    ops.filter (fun op => op.handler.replies) = ops := by
  apply List.filter_eq_self.mpr
  intro op member
  induction carried with
  | nil => cases member
  | cons here _ ih =>
      rcases List.mem_cons.mp member with rfl | later
      · exact here.replies
      · exact ih later

theorem onward_requests (replies : List WriteOp) (requests : List ChunkVector) (later : ReadOp) :
    (replies.map Action.async_write ++ requests.map Action.post ++
      [Action.async_read later]).filterMap Action.request? = requests := by
  simp [List.filterMap_append, List.filterMap_map, Function.comp_def, Action.request?]

namespace Connection

def replies (self : Connection) : List WriteOp :=
  (self.writes.map Outgoing.op).filter fun op => op.handler.replies

theorem replies_performs (connection : Connection) (actions : List Action) :
    (connection.performs actions).replies =
      connection.replies ++ (actions.filterMap Action.write?).filter fun op =>
        op.handler.replies := by
  unfold replies
  rw [performs_eq]
  simp only [List.map_append, List.map_map, List.filter_append]
  congr 2
  exact List.map_id _

/-- The session has read whole frames and a part of one more from what its client
has sent, has posted the messages of these frames and has queued the answers to
them.  Once its chain is over, an answer to every frame with this part may be the
last one. -/
structure Received (origin : List UInt8) (connection : Connection) (frames : List Frame)
    (part : List UInt8) (receiver : Receiver) (ending : Option Answer) : Prop where
  input : origin = Frame.stream frames ++ part ++ connection.input
  begins : ∃ frame : Frame, part <+: frame.wire
  step : (Receiver.rest false).frames frames =
    (.next receiver none, connection.posted.map ChunkVector.bytes)
  replies : List.Forall₂ (fun answer op => Answer.Carries op answer)
    ((Receiver.rest false).answers frames ++ ending.toList) connection.replies
  ended : ∀ answer, ending = some answer →
    connection.Over ∧ ∀ frame : Frame, part <+: frame.wire → receiver.EndsWith frame answer

inductive Upstream (origin : List UInt8) (connection : Connection) : Prop
  | waiting (begins : connection.starting = true ∨ connection.pending_responses = 1)
      (binary : connection.session.header_.is_binary_ = false)
      (input : connection.input = origin) (posted : connection.posted = [])
      (replies : connection.replies = [])
  | reading (frames : List Frame) (part : List UInt8) (receiver : Receiver) (op : ReadOp)
      (reads : connection.reads = [op])
      (stands : connection.session.At receiver part op ∨
        connection.session.Wedged receiver part op)
      (received : connection.Received origin frames part receiver none)
  | finished (frames : List Frame) (part : List UInt8) (receiver : Receiver)
      (ending : Option Answer) (ended : connection.Over)
      (received : connection.Received origin frames part receiver ending)

/-- The reads of a session go on, or have ended as the receiver says. -/
inductive Progress (origin : List UInt8) (connection : Connection) : Prop
  | reading (frames : List Frame) (part : List UInt8) (receiver : Receiver) (op : ReadOp)
      (reads : connection.reads = [op])
      (stands : connection.session.At receiver part op ∨
        connection.session.Wedged receiver part op)
      (received : connection.Received origin frames part receiver none)
  | judged (frames : List Frame) (part : List UInt8) (receiver : Receiver) (answer : Answer)
      (ended : connection.Over)
      (received : connection.Received origin frames part receiver (some answer))

theorem Progress.upstream {origin : List UInt8} {connection : Connection}
    (progress : connection.Progress origin) : connection.Upstream origin := by
  cases progress with
  | reading frames part receiver op reads stands received =>
      exact .reading frames part receiver op reads stands received
  | judged frames part receiver answer ended received =>
      exact .finished frames part receiver (some answer) ended received

/-! ### One stimulus -/

section Steps

variable {sha1 : List UInt8 → Digest} {before after : Connection} {actions : List Action}
  {origin : List UInt8}

theorem Upstream.keep (upstream : before.Upstream origin)
    (session : after.session = before.session) (starting : after.starting = before.starting)
    (reads : after.reads = before.reads)
    (responses : after.pending_responses = before.pending_responses)
    (input : after.input = before.input) (posted : after.posted = before.posted)
    (replies : after.replies = before.replies) : after.Upstream origin := by
  have moved {frames : List Frame} {part : List UInt8} {receiver : Receiver}
      {ending : Option Answer} (received : before.Received origin frames part receiver ending) :
      after.Received origin frames part receiver ending := by
    refine ⟨by rw [input]; exact received.input, received.begins, by rw [posted]; exact
      received.step, by rw [replies]; exact received.replies, fun answer last => ?_⟩
    obtain ⟨ended, judged⟩ := received.ended answer last
    exact ⟨⟨starting.trans ended.starting, reads.trans ended.reads,
      responses.trans ended.responses⟩, judged⟩
  cases upstream with
  | waiting begins binary same none silent =>
      refine .waiting ?_ (by rw [session]; exact binary) (input.trans same) (posted.trans none)
        (replies.trans silent)
      rw [starting, responses]
      exact begins
  | reading frames part receiver op here stands received =>
      exact .reading frames part receiver op (reads.trans here) (by rw [session]; exact stands)
        (moved received)
  | finished frames part receiver ending ended received =>
      exact .finished frames part receiver ending ⟨starting.trans ended.starting,
        reads.trans ended.reads, responses.trans ended.responses⟩ (moved received)

private theorem Over.start_write {rest : Connection} (idle : rest.Over) (session : Session)
    (op : WriteOp) (other : op.handler ≠ .handshake) :
    ({ rest with session := session }.performs [.async_write op]).Over := by
  have none := idle.responses
  unfold pending_responses at none
  rw [performs_eq]
  refine ⟨idle.starting, (List.append_nil _).trans idle.reads, ?_⟩
  unfold pending_responses
  have silent := countP_fresh [op] (fun member inside => by
    rw [List.mem_singleton.mp inside]
    exact other)
  rw [List.countP_append]
  change rest.writes.countP _ + ([op].map fresh).countP _ = 0
  rw [none, silent]

private theorem carried_performs {rest : Connection} {answers more : List Answer}
    {replies : List WriteOp} (session : Session)
    (queued : List.Forall₂ (fun answer op => Answer.Carries op answer) answers rest.replies)
    (writes : actions.filterMap Action.write? = replies)
    (carried : List.Forall₂ (fun answer op => Answer.Carries op answer) more replies) :
    List.Forall₂ (fun answer op => Answer.Carries op answer) (answers ++ more)
      ({ rest with session := session }.performs actions).replies := by
  rw [replies_performs, writes, filter_carried carried]
  exact List.rel_append queued carried

/-- A delivery takes the session from one part of a frame to the next, to the next
frame, or to its end. -/
theorem Progress.deliver (rest : Connection) {frames : List Frame} {part bytes : List UInt8}
    {receiver : Receiver} {op : ReadOp} {session : Session} (idle : rest.Over)
    (step : (Receiver.rest false).frames frames =
      (.next receiver none, rest.posted.map ChunkVector.bytes))
    (queued : List.Forall₂ (fun answer op => Answer.Carries op answer)
      ((Receiver.rest false).answers frames) rest.replies)
    (input : origin = Frame.stream frames ++ (part ++ bytes) ++ rest.input)
    (moves : session.Moves receiver op (part ++ bytes) actions) (rsvc : session.rsvc_ = 0) :
    ({ rest with session := session }.performs actions).Progress origin := by
  cases moves with
  | on later stands ahead =>
      refine .reading frames (part ++ bytes) receiver later ?_ stands
        ⟨input, ?_, step, ?_, nofun⟩
      · rw [performs_eq]
        exact congrArg (fun reads => reads ++ [later]) idle.reads
      · rcases stands with stands | ⟨-, header, whole, -⟩
        · exact stands.begins
        · have begins := header.begins [] (Nat.zero_le _)
          rw [List.append_nil, ← whole] at begins
          exact begins
      · rw [Option.toList_none, List.append_nil]
        exact queued
  | done frame after message replies requests later whole verdict carried bytes stands =>
      have one : receiver.frames [frame] = (.next after none, message.toList) := by
        rw [Receiver.frames_next verdict]
        exact congrArg (Prod.mk _) (List.append_nil _)
      have grown := Receiver.frames_step step [frame]
      rw [one] at grown
      refine .reading (frames ++ [frame]) [] after later ?_ (Or.inl (by rw [performs_eq]; exact
        stands)) ⟨?_, ⟨frame, List.nil_prefix⟩, ?_, ?_, nofun⟩
      · rw [performs_eq]
        change rest.reads ++ _ = _
        rw [onward_reads, idle.reads]
        rfl
      · rw [performs_eq, input, whole]
        simp [Frame.stream]
      · rw [grown, performs_eq, onward_requests, List.map_append, bytes]
      · rw [Receiver.answers_step step, receiver.answers_single, Option.toList_none,
          List.append_nil]
        exact carried_performs session queued (onward_writes replies requests later) carried
  | failed code begins judged =>
      have ended : ({ rest with session := session }.performs
          (session.cancel_socket code)).Over :=
        idle.start_write session _ WriteHandler.noConfusion
      refine .judged frames (part ++ bytes) receiver (.cancel code) ended
        ⟨?_, begins, ?_, ?_, fun answer last => ⟨ended, fun frame begins => ?_⟩⟩
      · rw [performs_eq]
        exact input
      · rw [step, performs_eq]
        exact congrArg (Prod.mk _) (congrArg _ (List.append_nil _).symm)
      · refine carried_performs session queued rfl (.cons ?_ .nil)
        change _ = _
        rw [rsvc]
        rfl
      · cases last
        exact judged frame begins
  | closed frame reply whole verdict carried =>
      have ended : ({ rest with session := session }.performs [.async_write reply]).Over :=
        idle.start_write session reply (by
          rw [carried.1]
          exact WriteHandler.noConfusion)
      refine .judged frames (part ++ bytes) receiver (.close frame) ended
        ⟨?_, ⟨frame, by rw [whole]⟩, ?_, ?_, fun answer last => ⟨ended, fun other begins => ?_⟩⟩
      · rw [performs_eq]
        exact input
      · rw [step, performs_eq]
        exact congrArg (Prod.mk _) (congrArg _ (List.append_nil _).symm)
      · exact carried_performs session queued rfl (.cons carried .nil)
      · cases last
        rw [whole] at begins
        have same := Frame.prefix_free frame other begins
        subst same
        exact ⟨verdict, rfl⟩

private theorem replies_of_ops
    (same : after.writes.map Outgoing.op = before.writes.map Outgoing.op) :
    after.replies = before.replies := by
  unfold replies
  rw [same]

private theorem Upstream.of_starting (upstream : before.Upstream origin)
    (here : before.Outstanding true [] 0) :
    before.session.header_.is_binary_ = false ∧ before.input = origin ∧ before.posted = [] ∧
      before.replies = [] := by
  cases upstream with
  | waiting begins binary input posted replies => exact ⟨binary, input, posted, replies⟩
  | reading frames part receiver op reads =>
      rw [here.reads] at reads
      cases reads
  | finished frames part receiver ending ended =>
      exact absurd (here.starting.symm.trans ended.starting) Bool.noConfusion

private theorem upstream_over (ended : after.Over) (input : after.input = origin)
    (posted : after.posted = []) (replies : after.replies = []) : after.Upstream origin :=
  .finished [] [] (Receiver.rest false) none ended
    ⟨input.symm, ⟨Frame.short 0 none [] (Nat.zero_le _), List.nil_prefix⟩, by rw [posted]; rfl,
      by rw [replies]; exact .nil, nofun⟩

private theorem Upstream.complete_first (phase : before.Phase) (upstream : before.Upstream origin)
    {count : Nat} (done : before.complete_first sha1 count = some (after, actions)) :
    after.Upstream (origin.drop count) := by
  obtain ⟨starting, -, -, -, session, received, rfl⟩ := complete_first_cases done
  obtain ⟨here, -⟩ := phase.of_starting starting
  obtain ⟨binary, input, posted, silent⟩ := upstream.of_starting here
  have none := here.responses
  unfold pending_responses at none
  rcases Session.receive_first_next received with ⟨rfl, buffer, rfl⟩ | ⟨reply, buffer, rfl, rfl⟩
  · exact upstream_over ⟨rfl, here.reads, here.responses⟩ (congrArg (List.drop count) input)
      posted silent
  · refine .waiting (Or.inr ?_) binary (congrArg (List.drop count) input) posted ?_
    · unfold pending_responses
      rw [performs_eq, List.countP_append]
      change before.writes.countP _ + _ = 1
      rw [none]
      rfl
    · rw [replies_performs]
      change before.replies ++ _ = _
      rw [silent]
      rfl

theorem Upstream.complete_read (phase : before.Phase) (cancels : after.CancelsOnly)
    (upstream : before.Upstream origin) {index : Nat}
    (done : before.complete_read index = some (after, actions)) : after.Progress origin := by
  obtain ⟨op, session, found, enough, received, rfl⟩ := complete_read_cases done
  have size : (before.input.take op.count).length = op.count := List.length_take_of_le enough
  obtain ⟨rfl, here, -⟩ := phase.of_read found
  have rsvc := cancels.rsvc
  rw [performs_eq] at rsvc
  cases upstream with
  | waiting begins =>
      rw [here.starting, here.responses] at begins
      rcases begins with wrong | wrong <;> cases wrong
  | finished frames part receiver ending ended =>
      have none := ended.reads
      rw [here.reads] at none
      cases none
  | reading frames part receiver other reads stands taken =>
      have same : op = other := (List.cons.inj (here.reads.symm.trans reads)).1
      subst same
      have queued := taken.replies
      rw [Option.toList_none, List.append_nil] at queued
      have whole : origin = Frame.stream frames ++ (part ++ before.input.take op.count) ++
          before.input.drop op.count := by
        rw [taken.input]
        simp only [List.append_assoc, List.take_append_drop]
      rcases stands with stands | ⟨stuck, -⟩
      · refine Progress.deliver { before with
          reads := before.reads.eraseIdx 0
          input := before.input.drop op.count } ⟨here.starting, ?_, here.responses⟩
          taken.step queued whole (stands.moves _ size received) rsvc
        change before.reads.eraseIdx 0 = []
        rw [reads]
        rfl
      · rw [stuck.2 _ size] at received
        cases received

private theorem Upstream.fail_read (phase : before.Phase) (upstream : before.Upstream origin)
    {index : Nat} (done : before.fail_read index = some (after, actions)) :
    after.Upstream origin := by
  obtain ⟨⟨op, found⟩, rfl, rfl⟩ := fail_read_cases done
  obtain ⟨rfl, here, -⟩ := phase.of_read found
  cases upstream with
  | waiting begins =>
      rw [here.starting, here.responses] at begins
      rcases begins with wrong | wrong <;> cases wrong
  | finished frames part receiver ending ended =>
      have none := ended.reads
      rw [here.reads] at none
      cases none
  | reading frames part receiver other reads stands taken =>
      refine .finished frames part receiver none ⟨here.starting, ?_, here.responses⟩
        ⟨taken.input, taken.begins, taken.step, taken.replies, nofun⟩
      change before.reads.eraseIdx 0 = []
      rw [reads]
      rfl

private theorem Upstream.complete_write (phase : before.Phase) (upstream : before.Upstream origin)
    {index : Nat} {error : Bool}
    (done : before.complete_write index error = some (after, actions)) :
    after.Upstream origin := by
  obtain ⟨out, found, pending, -, outcome⟩ := complete_write_cases done
  have counted := countP_set_answers found { out with completed := true }
  have closed : Outgoing.answers { out with completed := true } = false := by
    simp [Outgoing.answers]
  have ops : (before.writes.set index { out with completed := true }).map Outgoing.op =
      before.writes.map Outgoing.op := map_set_of_eq Outgoing.op found rfl
  rw [closed] at counted
  by_cases handshake : out.op.handler = .handshake
  · have answers : out.answers = true := by
      simp [Outgoing.answers, handshake, pending]
    obtain ⟨here, new_request, rsvc⟩ := phase.of_answers found answers
    have one := here.responses
    unfold pending_responses at one
    rw [answers, one] at counted
    have waits : before.session.header_.is_binary_ = false ∧ before.input = origin ∧
        before.posted = [] ∧ before.replies = [] := by
      cases upstream with
      | waiting begins binary input posted replies => exact ⟨binary, input, posted, replies⟩
      | reading frames part receiver op reads =>
          rw [here.reads] at reads
          cases reads
      | finished frames part receiver ending ended =>
          exact absurd (here.responses.symm.trans ended.responses) (by decide)
    obtain ⟨binary, input, posted, silent⟩ := waits
    rcases outcome with ⟨-, -, -, rfl⟩ | ⟨-, -, rfl⟩
    · obtain ⟨between, -⟩ := (Session.tracks_rest new_request rsvc).read_header
      rw [binary] at between
      refine .reading [] [] (Receiver.rest false) _ ?_ (Or.inl (.between between))
        ⟨input.symm, ⟨Frame.short 0 none [] (Nat.zero_le _), List.nil_prefix⟩, ?_, ?_,
          fun answer last => ?_⟩
      · change before.reads ++ _ = _
        rw [here.reads]
        rfl
      · change _ = (_, before.posted.map ChunkVector.bytes)
        rw [posted]
        rfl
      · rw [replies_of_ops ops, silent]
        exact .nil
      · cases last
    · exact upstream_over ⟨here.starting, here.reads, Nat.succ.inj counted⟩ input posted
        ((replies_of_ops ops).trans silent)
  · have quiet : out.answers = false := by
      simp [Outgoing.answers, handshake]
    rcases outcome with ⟨same, -⟩ | ⟨-, -, rfl⟩
    · exact absurd same handshake
    · rw [quiet] at counted
      exact upstream.keep rfl rfl rfl counted rfl rfl (replies_of_ops ops)

end Steps

end Connection

def Stimulus.opened : Stimulus → Nat
  | .socket (.read_first count) => count
  | _ => 0

namespace Connection

variable {sha1 : List UInt8 → Digest} {before after : Connection} {actions : List Action}
  {origin : List UInt8}

theorem Upstream.respond (phase : before.Phase) (cancels : after.CancelsOnly)
    (upstream : before.Upstream origin) {stimulus : Stimulus}
    (done : before.respond sha1 stimulus = some (after, actions)) :
    after.Upstream (origin.drop stimulus.opened) := by
  cases stimulus with
  | write data is_binary =>
      cases done
      refine upstream.keep rfl rfl rfl ?_ rfl rfl ?_
      · unfold pending_responses Connection.write perform
        rw [List.countP_append]
        rfl
      · unfold replies Connection.write perform
        rw [List.map_append, List.filter_append]
        exact List.append_nil _
  | socket event =>
      cases event with
      | read_first count => exact upstream.complete_first phase done
      | fail_first =>
          obtain ⟨starting, rfl, rfl⟩ := fail_first_cases done
          obtain ⟨here, -⟩ := phase.of_starting starting
          obtain ⟨-, input, posted, silent⟩ := upstream.of_starting here
          exact upstream_over ⟨rfl, here.reads, here.responses⟩ input posted silent
      | read index => exact (upstream.complete_read phase cancels done).upstream
      | fail_read index => exact upstream.fail_read phase done
      | write_some index count =>
          obtain ⟨next, taken, same⟩ := Option.map_eq_some_iff.mp done
          cases same
          obtain ⟨out, found, -, -, -, rfl⟩ := write_some_cases taken
          have counted := countP_set_answers found { out with written := out.written + count }
          refine upstream.keep rfl rfl rfl (Nat.add_right_cancel counted) rfl rfl ?_
          exact replies_of_ops (map_set_of_eq Outgoing.op found rfl)
      | written index error => exact upstream.complete_write phase done

def opened (stimuli : List Stimulus) : Nat :=
  (stimuli.map Stimulus.opened).sum

theorem opened_append (stimuli later : List Stimulus) :
    opened (stimuli ++ later) = opened stimuli + opened later := by
  unfold opened
  rw [List.map_append, List.sum_append]

theorem upstream_of_run {input : List UInt8} {first final : Connection} {stimuli : List Stimulus}
    (accepted : Connection.accept input = some first)
    (run : Runs (next sha1) first stimuli final) :
    final.Upstream (input.drop (opened stimuli)) := by
  apply run.invariant fun stimuli state => state.Upstream (input.drop (opened stimuli))
  · unfold accept at accepted
    obtain ⟨session, started, same⟩ := Option.bind_eq_some_iff.mp accepted
    unfold Session.start at started
    obtain ⟨buffer, -, here⟩ := Option.bind_eq_some_iff.mp started
    cases same
    cases here
    exact .waiting (Or.inl rfl) rfl rfl rfl rfl
  · intro stimuli before stimulus after path upstream taken
    have phase := phase_of_run accepted path.reaches
    have cancels := cancels_of_run accepted (path.next stimulus taken).reaches
    obtain ⟨⟨next, actions⟩, done, same⟩ := Option.map_eq_some_iff.mp taken
    cases same
    have later := upstream.respond phase cancels done
    rw [List.drop_drop] at later
    rw [opened_append]
    exact later

theorem Upstream.received (upstream : before.Upstream origin) :
    ∃ frames part receiver ending, before.Received origin frames part receiver ending := by
  cases upstream with
  | waiting begins binary same posted replies =>
      refine ⟨[], [], Receiver.rest false, none, same.symm,
        ⟨Frame.short 0 none [] (Nat.zero_le _), List.nil_prefix⟩, ?_, ?_, nofun⟩
      · rw [posted]
        rfl
      · rw [replies]
        exact .nil
  | reading frames part receiver op reads stands received =>
      exact ⟨frames, part, receiver, none, received⟩
  | finished frames part receiver ending ended received =>
      exact ⟨frames, part, receiver, ending, received⟩

end Connection

/-- In every run, whatever is written meanwhile and whatever fails, a session has
posted the messages and queued the answers of the receiver of whole frames on the
bytes it has read since its handshake. -/
theorem read_side_refines (sha1 : List UInt8 → Digest) {input : List UInt8}
    {first final : Connection} {stimuli : List Stimulus}
    (accepted : Connection.accept input = some first)
    (run : Runs (Connection.next sha1) first stimuli final) :
    ∃ frames part receiver ending,
      final.Received (input.drop (Connection.opened stimuli)) frames part receiver ending :=
  (Connection.upstream_of_run accepted run).received

theorem read_side_refines_sample :
    ∃ (final : Connection) (frames : List Frame) (part : List UInt8) (receiver : Receiver)
      (ending : Option Answer),
      final.posted.map ChunkVector.bytes = [[0x61]] ∧ final.replies.length = 1 ∧
      final.Received [0x89, 0x00, 0x81, 0x01, 0x61, 0x82, 0x7E] frames part receiver ending := by
  obtain ⟨first, final, accepted, run, here⟩ := Runs.of_trace_any (Connection.next zeroDigest)
    (Connection.accept (sampleRequest ++ [0x89, 0x00, 0x81, 0x01, 0x61, 0x82, 0x7E]))
    (fun final : Connection => decide (final.posted.map ChunkVector.bytes = [[0x61]] ∧
      final.replies.length = 1))
    (sampleHandshake ++ [.socket (.read 0), .socket (.read 0), .write [0x63] false,
      .socket (.read 0), .socket (.read 0), .socket (.write_some 2 2), .socket (.read 0),
      .socket (.read 0), .socket (.read 0)]) (by decide +kernel)
  obtain ⟨posted, answered⟩ := of_decide_eq_true here
  obtain ⟨frames, part, receiver, ending, received⟩ := read_side_refines zeroDigest accepted run
  exact ⟨final, frames, part, receiver, ending, posted, answered, received⟩

/-! ### All that the client has sent -/

structure Receiver.Takes (receiver : Receiver) (frame : Frame) : Prop where
  rsv : frame.rsv = 0
  kind : frame.opcode = 0 ∨ frame.opcode = 1 ∨ frame.opcode = 2
  continues : frame.opcode = 0 ↔ receiver.new_request = false
  valid : (receiver.validated frame.is_binary frame.payload).valid = true
  complete : frame.fin = true →
    (receiver.validated frame.is_binary frame.payload).complete = true

section Opening

variable {receiver next : Receiver} {frame : Frame} {message : Option (List UInt8)}

theorem Receiver.next_cases {message : Option (List UInt8)}
    (step : receiver.frame frame = .next next message) :
    (frame.Heartbeat ∧ next = receiver ∧ message = none) ∨
      (receiver.Takes frame ∧ next = receiver.after frame.header frame.payload ∧
        message = if frame.fin then some (receiver.opening.1 ++ frame.payload) else none) := by
  rcases receiver.accepts_or_refuses frame with ⟨accepts, verdict⟩ | ⟨code, -, failed⟩
  · rw [verdict] at step
    by_cases control : ControlOpcode frame.opcode
    · left
      rw [if_pos control] at step
      obtain ⟨fin, short⟩ := accepts.control control
      unfold Receiver.control at step
      rcases control with closing | beat
      · rw [if_pos closing] at step
        split at step <;> cases step
      · have other : frame.opcode ≠ 0x08 := by
          rcases beat with ping | pong
          · rw [ping]
            decide
          · rw [pong]
            decide
        rw [if_neg other] at step
        cases step
        exact ⟨⟨accepts.rsv, beat, fin, short⟩, rfl, rfl⟩
    · right
      rw [if_neg control] at step
      rcases receiver.data_cases frame with ⟨failed, -⟩ | ⟨valid, complete, going⟩
      · rw [failed] at step
        cases step
      · rw [going] at step
        cases step
        have kind : frame.opcode = 0 ∨ frame.opcode = 1 ∨ frame.opcode = 2 := by
          rcases accepts.known with zero | one | two | other
          · exact Or.inl zero
          · exact Or.inr (Or.inl one)
          · exact Or.inr (Or.inr two)
          · exact absurd other control
        exact ⟨⟨accepts.rsv, kind, accepts.data control, valid, complete⟩, rfl, rfl⟩
  · rw [failed] at step
    cases step

theorem Frame.payload_lt_wire (frame : Frame) : frame.payload.length < frame.wire.length := by
  unfold Frame.wire FrameHeader.wire
  rw [List.length_append, length_xorMask, List.length_append, List.length_cons, List.length_cons]
  omega

/-- A message under way is no longer than the frames read. -/
theorem Receiver.opening_length {start : Receiver} {frames : List Frame}
    {messages : List (List UInt8)} (step : start.frames frames = (.next receiver none, messages)) :
    receiver.opening.1.length ≤ start.opening.1.length + (Frame.stream frames).length := by
  induction frames generalizing start messages with
  | nil =>
      cases step
      exact Nat.le_add_right _ _
  | cons frame frames ih =>
      have longer := frame.payload_lt_wire
      have stream : (Frame.stream (frame :: frames)).length =
          frame.wire.length + (Frame.stream frames).length := by
        rw [Frame.stream, List.flatMap_cons, List.length_append]
        rfl
      cases verdict : start.frame frame with
      | next next message =>
          rw [frames_next verdict] at step
          cases later : next.frames frames with
          | mk final delivered =>
              rw [later] at step
              cases step
              have rest := ih later
              have opened : next.opening.1.length ≤
                  start.opening.1.length + frame.payload.length := by
                rcases Receiver.next_cases verdict with ⟨-, rfl, -⟩ | ⟨-, rfl, -⟩
                · exact Nat.le_add_right _ _
                · unfold after
                  cases fin : frame.header.fin with
                  | true => exact Nat.zero_le _
                  | false =>
                      change (start.opening.1 ++ frame.payload).length ≤ _
                      rw [List.length_append]
              omega
      | fail code =>
          rw [frames_fail verdict] at step
          cases step
      | close =>
          rw [frames_close verdict] at step
          cases step

end Opening

theorem FrameHeader.unfinished_short (header : FrameHeader) (data : List UInt8)
    (short : data.length < header.length) : Frame.Unfinished (header.wire ++ data) := by
  rintro frame ⟨later, whole⟩
  have parts : frame.header.wire ++ (xorMask frame.header.key 0 frame.payload ++ later) =
      header.wire ++ data := by
    rw [← List.append_assoc]
    exact whole
  obtain ⟨rfl, rest⟩ := FrameHeader.eq_of_append parts
  rw [← rest, List.length_append, length_xorMask] at short
  exact absurd short (Nat.not_lt.mpr (Nat.le_add_right _ _))

theorem FrameHeader.unfinished_tail (header : FrameHeader) (bytes : List UInt8)
    (short : bytes.length < header.tail.length) :
    Frame.Unfinished ([header.first, header.second] ++ bytes) := by
  rintro frame ⟨later, whole⟩
  have parts : frame.header.first :: frame.header.second ::
      (frame.header.tail ++ (xorMask frame.header.key 0 frame.payload ++ later)) =
        header.first :: header.second :: bytes := by
    rw [← List.append_assoc]
    exact whole
  simp only [List.cons.injEq] at parts
  obtain ⟨first, second, rest⟩ := parts
  have size := (FrameHeader.alike_of_two first second).size_tail
  rw [← rest, List.length_append] at short
  omega

theorem Frame.goes_on {part rest : List UInt8} {frame : Frame}
    (begins : ∃ frame : Frame, part <+: frame.wire) (front : frame.wire <+: part ++ rest) :
    part <+: frame.wire := by
  rcases List.prefix_or_prefix_of_prefix (List.prefix_append part rest) front with part | longer
  · exact part
  · obtain ⟨other, begins⟩ := begins
    rw [Frame.prefix_free frame other (longer.trans begins)]
    exact begins

theorem Session.At.unfinished {receiver : Receiver} {session : Session} {part : List UInt8}
    {op : ReadOp} (stands : session.At receiver part op) (bytes : List UInt8)
    (starved : bytes.length < op.count) : Frame.Unfinished (part ++ bytes) := by
  cases stands with
  | between state =>
      intro frame begins
      have few : bytes.length < 2 := starved
      have length := begins.length_le
      rw [List.nil_append] at length
      have two : 2 ≤ frame.wire.length := by
        unfold Frame.wire FrameHeader.wire
        rw [List.length_append, List.length_append, List.length_cons, List.length_cons]
        omega
      omega
  | begun header state rsv known => exact header.unfinished_tail bytes starved
  | known header state passes control short count =>
      rw [count] at starved
      exact header.unfinished_short bytes starved
  | reading header data count state passes payload narrow within =>
      rw [state.count_chunkRead] at starved
      rw [List.append_assoc]
      exact header.unfinished_short (data ++ bytes) (by rw [List.length_append]; omega)

namespace Connection

variable {connection : Connection} {origin tail : List UInt8} {all : List Frame}

theorem Upstream.posted_prefix (upstream : connection.Upstream origin)
    (parse : origin = Frame.stream all ++ tail) (unfinished : Frame.Unfinished tail) :
    connection.posted.map ChunkVector.bytes <+: ((Receiver.rest false).frames all).2 := by
  have last : Frame.code.Unfinished tail := unfinished
  obtain ⟨frames, part, receiver, ending, received⟩ := upstream.received
  have begins : Frame.code.stream frames <+: Frame.code.stream all ++ tail := by
    rw [← Frame.stream_eq, ← Frame.stream_eq, ← parse, received.input, List.append_assoc]
    exact List.prefix_append _ _
  obtain ⟨later, rfl⟩ := PrefixCode.stream_prefix last begins
  rw [Receiver.frames_step received.step]
  exact List.prefix_append _ _

theorem Upstream.starved (upstream : connection.Upstream origin) (phase : connection.Phase)
    (parse : origin = Frame.stream all ++ tail) (unfinished : Frame.Unfinished tail)
    (narrow : origin.length < 2 ^ 63) {op : ReadOp} (reads : connection.reads = [op])
    (starved : connection.input.length < op.count) :
    connection.posted.map ChunkVector.bytes = ((Receiver.rest false).frames all).2 ∧
      List.Forall₂ (fun answer op => Answer.Carries op answer)
        ((Receiver.rest false).answers all) connection.replies := by
  have last : Frame.code.Unfinished tail := unfinished
  cases upstream with
  | waiting begins =>
      have found : connection.reads[0]? = some op := by rw [reads]; rfl
      obtain ⟨-, here, -⟩ := phase.of_read found
      rw [here.starting, here.responses] at begins
      rcases begins with wrong | wrong <;> cases wrong
  | finished frames part receiver ending ended received =>
      rw [ended.reads] at reads
      cases reads
  | reading frames part receiver other here stands received =>
      have same : op = other := (List.cons.inj (reads.symm.trans here)).1
      subst same
      have rest : Frame.code.Unfinished (part ++ connection.input) := by
        rcases stands with stands | ⟨-, header, rfl, wide⟩
        · exact stands.unfinished connection.input starved
        · refine header.unfinished_short connection.input ?_
          have opening := Receiver.opening_length received.step
          have sizes := congrArg List.length received.input
          rw [List.length_append, List.length_append] at sizes
          change _ ≤ 0 + _ at opening
          omega
      have whole : Frame.code.stream frames ++ (part ++ connection.input) =
          Frame.code.stream all ++ tail := by
        rw [← Frame.stream_eq, ← Frame.stream_eq, ← parse, received.input, List.append_assoc]
      obtain ⟨rfl, -⟩ := PrefixCode.parse_unique rest last whole
      have replies := received.replies
      rw [Option.toList_none, List.append_nil] at replies
      exact ⟨(congrArg Prod.snd received.step).symm, replies⟩

end Connection

/-- What a session has posted is always the beginning of the messages of all that its
client has sent, and all of them once the session starves for more bytes. -/
theorem posted_of_parse (sha1 : List UInt8 → Digest) {input : List UInt8}
    {first final : Connection} {stimuli : List Stimulus}
    (accepted : Connection.accept input = some first)
    (run : Runs (Connection.next sha1) first stimuli final) {all : List Frame}
    {tail : List UInt8}
    (parse : input.drop (Connection.opened stimuli) = Frame.stream all ++ tail)
    (unfinished : Frame.Unfinished tail) :
    final.posted.map ChunkVector.bytes <+: ((Receiver.rest false).frames all).2 ∧
      (input.length < 2 ^ 63 → ∀ op, final.reads = [op] → final.input.length < op.count →
        final.posted.map ChunkVector.bytes = ((Receiver.rest false).frames all).2 ∧
          List.Forall₂ (fun answer op => Answer.Carries op answer)
            ((Receiver.rest false).answers all) final.replies) := by
  have upstream := Connection.upstream_of_run accepted run
  constructor
  · exact upstream.posted_prefix parse unfinished
  · intro narrow op reads starved
    have shorter : (input.drop (Connection.opened stimuli)).length < 2 ^ 63 := by
      rw [List.length_drop]
      omega
    exact upstream.starved (Connection.phase_of_run accepted run.reaches) parse unfinished shorter
      reads starved

theorem posted_of_parse_sample :
    ∃ final : Connection, final.posted.map ChunkVector.bytes = [[0x61]] ∧
      List.Forall₂ (fun answer op => Answer.Carries op answer)
        ((Receiver.rest false).answers
          [.short 0x89 none [] (by decide), .short 0x81 none [0x61] (by decide)])
        final.replies := by
  obtain ⟨first, final, accepted, run, here⟩ := Runs.of_trace_any (Connection.next zeroDigest)
    (Connection.accept (sampleRequest ++ [0x89, 0x00, 0x81, 0x01, 0x61, 0x82, 0x7E]))
    (fun final : Connection => decide (final.posted.map ChunkVector.bytes = [[0x61]]) &&
      final.reads.any fun op => decide (final.reads = [op] ∧ final.input.length < op.count))
    (sampleHandshake ++ [.socket (.read 0), .socket (.read 0), .write [0x63] false,
      .socket (.read 0), .socket (.read 0), .socket (.write_some 2 2), .socket (.read 0),
      .socket (.read 0), .socket (.read 0)]) (by decide +kernel)
  rw [Bool.and_eq_true, List.any_eq_true] at here
  obtain ⟨posted, op, -, waits⟩ := here
  obtain ⟨reads, starved⟩ := of_decide_eq_true waits
  let header : FrameHeader := ⟨0x82, .sixteen, none, 0, by decide⟩
  have unfinished : Frame.Unfinished [0x82, 0x7E] := by
    have bytes : [header.first, header.second] ++ [] = [0x82, 0x7E] := by decide
    rw [← bytes]
    exact header.unfinished_tail [] (by decide)
  obtain ⟨-, complete⟩ := posted_of_parse zeroDigest accepted run
    (show _ = Frame.stream [.short 0x89 none [] (by decide), .short 0x81 none [0x61] (by decide)] ++
      [0x82, 0x7E] by decide +kernel) unfinished
  exact ⟨final, of_decide_eq_true posted, (complete (by decide) op reads starved).2⟩

end Averyws
