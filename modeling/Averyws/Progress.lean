/-
The read side serves all that its client sends.

A read has no result only while it starves or behind a header whose length no
counter holds, so a chain that has come to an end has read every whole frame or
the one the receiver ends with.
-/

import Averyws.ReadWork

namespace Averyws

open Library.Bytes Library.Code Library.Run Library.Utf8
open Utilities

section Delivery

variable {receiver : Receiver} {session : Session} {header : FrameHeader} {data : List UInt8}
  {op : ReadOp}

private theorem Session.Loading.stopped (loading : session.Loading receiver header data)
    (within : data.length ≤ header.length) (stuck : session.read_chunk 0 false = none) :
    2 ^ 64 ≤ receiver.opening.1.length + header.length + 1024 := by
  rcases Nat.lt_or_ge (receiver.opening.1.length + header.length) (2 ^ 64) with narrow | wide
  · rcases Nat.lt_or_eq_of_le within with more | done
    · rcases loading.unfinished more narrow with ⟨last, count, result, -⟩ | ⟨-, crowded⟩
      · rw [stuck] at result
        cases result
      · exact crowded
    · cases fin : header.fin with
      | false =>
          obtain ⟨last, result, -⟩ := loading.finished_continue done fin
          rw [stuck] at result
          cases result
      | true =>
          cases complete : (receiver.validated header.is_binary
              (xorMask header.key 0 data)).complete with
          | false =>
              obtain ⟨last, result⟩ := loading.finished_incomplete done fin complete
              rw [stuck] at result
              cases result
          | true =>
              obtain ⟨last, request, result, -⟩ := loading.finished_complete done fin complete
              rw [stuck] at result
              cases result
  · omega

/-- A session has no result for its read only after a header whose length the counters
of the message do not hold. -/
theorem Session.At.stopped {part : List UInt8} (stands : session.At receiver part op)
    (bytes : List UInt8) (size : bytes.length = op.count)
    (stuck : session.receive op bytes = none) :
    ∃ (header : FrameHeader) (data : List UInt8), part ++ bytes = header.wire ++ data ∧
      2 ^ 64 ≤ receiver.opening.1.length + header.length + 1024 := by
  cases stands with
  | between state =>
      obtain ⟨first, second, rfl⟩ := List.length_eq_two.mp size
      obtain ⟨header, rfl, rfl⟩ := FrameHeader.exists_of_two first second
      obtain ⟨rejected, accepted⟩ := state.receive_first header
      by_cases wrong : header.rsv ≠ 0 ∨ ¬KnownOpcode header.opcode
      · obtain ⟨last, result⟩ := rejected wrong
        rw [stuck] at result
        cases result
      · obtain ⟨rsv, known⟩ := not_or.mp wrong
        obtain ⟨last, result, -⟩ := accepted (not_not.mp rsv) (not_not.mp known)
        rw [stuck] at result
        cases result
  | begun header state rsv known =>
      obtain ⟨other, alike, tail⟩ := header.exists_of_tail bytes size
      have begun : session.Begun receiver other := ⟨state.toTracks, state.started.alike alike⟩
      have wire : [header.first, header.second] ++ bytes = other.wire ++ [] := by
        unfold FrameHeader.wire
        rw [alike.first, alike.second, tail, List.append_nil]
      subst tail
      have count : header.tail.length = other.tail.length := size.symm
      rw [count] at stuck
      refine ⟨other, [], wire, ?_⟩
      by_cases refused : other.second_verdict receiver.new_request ≠ 0
      · obtain ⟨last, result⟩ := begun.receive_rejected refused
        rw [stuck] at result
        cases result
      · by_cases control : ControlOpcode other.opcode
        · obtain ⟨last, result, -⟩ := begun.receive_control control (not_not.mp refused)
          rw [stuck] at result
          cases result
        · obtain ⟨last, result, loading⟩ := begun.receive_data control (not_not.mp refused)
          rw [stuck] at result
          exact loading.stopped (Nat.zero_le _) result.symm
  | known header state passes control short count =>
      have counted : bytes.length = header.length := size.trans count
      rcases control with closing | other
      · obtain ⟨last, broken, whole⟩ := state.receive_close bytes counted short closing
        by_cases wrong : 2 ≤ header.length ∧ ¬WellFormed (Control.reason header bytes)
        · rw [broken wrong] at stuck
          cases stuck
        · rw [whole wrong] at stuck
          cases stuck
      · obtain ⟨last, replies, result, -⟩ := state.receive_other bytes other
        rw [stuck] at result
        cases result
  | reading header data count state passes payload narrow within =>
      have counted : bytes.length = count := size.trans state.count_chunkRead
      refine ⟨header, data ++ bytes, List.append_assoc _ _ _, ?_⟩
      rcases state.receive bytes counted with ⟨last, result, loading⟩ | ⟨last, result, -⟩
      · rw [stuck] at result
        exact loading.stopped (by rw [List.length_append, counted]; exact within) result.symm
      · rw [stuck] at result
        cases result

end Delivery

/-! ### The end of the chain -/

theorem Receiver.EndsWith.last {receiver : Receiver} {frame : Frame} {answer : Answer}
    (ends : receiver.EndsWith frame answer) (later : List Frame) :
    (∀ next message, (receiver.frames (frame :: later)).1 ≠ .next next message) ∧
      (receiver.frames (frame :: later)).2 = [] ∧
      receiver.answers (frame :: later) = [answer] := by
  cases answer with
  | pong ping => exact ends.elim
  | cancel code =>
      have verdict : receiver.frame frame = .fail code := ends
      unfold Receiver.frames Receiver.answers Receiver.answer
      rw [verdict]
      refine ⟨fun next message same => ?_, rfl, rfl⟩
      cases same
  | close closing =>
      obtain ⟨verdict, rfl⟩ := ends
      unfold Receiver.frames Receiver.answers Receiver.answer
      rw [verdict]
      refine ⟨fun next message same => ?_, rfl, rfl⟩
      cases same

namespace Connection

variable {connection : Connection} {origin tail : List UInt8} {all : List Frame}

theorem receive_of_halted (halted : connection.step = none) {op : ReadOp}
    (reads : connection.reads = [op]) (enough : op.count ≤ connection.input.length) :
    connection.session.receive op (connection.input.take op.count) = none := by
  have stuck := Option.map_eq_none_iff.mp halted
  unfold complete_read at stuck
  rw [reads] at stuck
  cases result : connection.session.receive op (connection.input.take op.count) with
  | none => rfl
  | some pair =>
      simp only [List.getElem?_cons_zero, Option.bind_eq_bind, Option.bind_some, if_pos enough,
        result] at stuck
      cases stuck

/-- How the frames of a client and the bytes behind them are served by a session whose
chain of reads has come to an end. -/
inductive Served (connection : Connection) (all : List Frame) (tail : List UInt8) : Prop
  /-- every frame is served, and the session waits for bytes that are not there -/
  | waiting (receiver : Receiver) (reads : connection.reads ≠ [])
      (step : (Receiver.rest false).frames all =
        (.next receiver none, connection.posted.map ChunkVector.bytes))
      (replies : List.Forall₂ (fun answer op => Answer.Carries op answer)
        ((Receiver.rest false).answers all) connection.replies)
  /-- every frame is served, and the last answer is to the one that has only begun: any
  way to go on with it, and there is one, deserves the answer -/
  | refused (receiver : Receiver) (answer : Answer) (reads : connection.reads = [])
      (step : (Receiver.rest false).frames all =
        (.next receiver none, connection.posted.map ChunkVector.bytes))
      (replies : List.Forall₂ (fun answer op => Answer.Carries op answer)
        ((Receiver.rest false).answers all ++ [answer]) connection.replies)
      (begins : ∃ frame : Frame, tail <+: frame.wire)
      (judged : ∀ frame : Frame, tail <+: frame.wire → receiver.EndsWith frame answer)
  /-- the receiver ends with one of the frames -/
  | ended (reads : connection.reads = [])
      (posted : connection.posted.map ChunkVector.bytes = ((Receiver.rest false).frames all).2)
      (replies : List.Forall₂ (fun answer op => Answer.Carries op answer)
        ((Receiver.rest false).answers all) connection.replies)
      (verdict : ∀ receiver message,
        ((Receiver.rest false).frames all).1 ≠ .next receiver message)

theorem Served.posted (served : connection.Served all tail) :
    connection.posted.map ChunkVector.bytes = ((Receiver.rest false).frames all).2 := by
  cases served with
  | waiting receiver reads step replies => rw [step]
  | refused receiver answer reads step replies begins judged => rw [step]
  | ended reads posted replies verdict => exact posted

theorem Received.served_ended {frames later : List Frame} {part : List UInt8}
    {receiver : Receiver} {answer : Answer} {frame : Frame}
    (received : connection.Received origin frames part receiver (some answer))
    (begins : part <+: frame.wire) : connection.Served (frames ++ frame :: later) tail := by
  obtain ⟨ended, judged⟩ := received.ended answer rfl
  obtain ⟨verdict, messages, answers⟩ := (judged frame begins).last later
  refine .ended ended.reads ?_ ?_ fun next message => ?_
  · rw [Receiver.frames_step received.step, messages, List.append_nil]
  · rw [Receiver.answers_step received.step, answers]
    exact received.replies
  · rw [Receiver.frames_step received.step]
    exact verdict next message

theorem Progress.served (progress : connection.Progress origin)
    (parse : origin = Frame.stream all ++ tail) (unfinished : Frame.Unfinished tail)
    (narrow : origin.length < 2 ^ 63) (halted : connection.step = none) :
    connection.Served all tail := by
  have last : Frame.code.Unfinished tail := unfinished
  cases progress with
  | reading frames part receiver op reads stands received =>
      -- no whole frame is left, or else the read would have had a result
      have short (header : FrameHeader) (data : List UInt8)
          (bytes : part ++ connection.input = header.wire ++ data)
          (wide : 2 ^ 64 ≤ receiver.opening.1.length + header.length + 1024) :
          Frame.Unfinished (part ++ connection.input) := by
        rw [bytes]
        refine header.unfinished_short data ?_
        have opening := Receiver.opening_length received.step
        have sizes := congrArg List.length received.input
        rw [List.append_assoc, bytes, List.length_append, List.length_append] at sizes
        change _ ≤ 0 + _ at opening
        omega
      have rest : Frame.code.Unfinished (part ++ connection.input) := by
        rcases stands with stands | ⟨-, header, rfl, wide⟩
        · rcases Nat.lt_or_ge connection.input.length op.count with starved | enough
          · exact stands.unfinished connection.input starved
          · have size := List.length_take_of_le enough
            obtain ⟨header, data, bytes, wide⟩ :=
              stands.stopped _ size (receive_of_halted halted reads enough)
            refine short header (data ++ connection.input.drop op.count) ?_ wide
            rw [← List.append_assoc, ← bytes, List.append_assoc, List.take_append_drop]
        · exact short header connection.input rfl (Nat.le_add_right_of_le wide)
      have whole : Frame.code.stream frames ++ (part ++ connection.input) =
          Frame.code.stream all ++ tail := by
        rw [← Frame.stream_eq, ← Frame.stream_eq, ← parse, received.input, List.append_assoc]
      obtain ⟨rfl, -⟩ := PrefixCode.parse_unique rest last whole
      refine .waiting receiver (by rw [reads]; exact List.cons_ne_nil _ _) received.step ?_
      have replies := received.replies
      rw [Option.toList_none, List.append_nil] at replies
      exact replies
  | judged frames part receiver answer ended received =>
      have begins : Frame.code.stream frames <+: Frame.code.stream all ++ tail := by
        rw [← Frame.stream_eq, ← Frame.stream_eq, ← parse, received.input, List.append_assoc]
        exact List.prefix_append _ _
      obtain ⟨later, rfl⟩ := PrefixCode.stream_prefix last begins
      have rest : part ++ connection.input = Frame.stream later ++ tail := by
        have whole := received.input.symm.trans parse
        rw [Frame.stream, Frame.stream, List.flatMap_append, List.append_assoc,
          List.append_assoc] at whole
        exact List.append_cancel_left whole
      cases later with
      | nil =>
          rw [List.append_nil]
          obtain ⟨-, judged⟩ := received.ended answer rfl
          obtain ⟨longer, missing, -, goes_on⟩ := unfinished.begins
          refine .refused receiver answer ended.reads received.step received.replies
            ⟨longer, missing, goes_on.symm⟩ fun frame begins => judged frame ?_
          have behind : part ++ connection.input = tail := rest
          rw [← behind] at begins
          exact (List.prefix_append _ _).trans begins
      | cons frame later =>
          have front : frame.wire <+: part ++ connection.input := by
            rw [rest, Frame.stream, List.flatMap_cons, List.append_assoc]
            exact List.prefix_append _ _
          exact received.served_ended (Frame.goes_on received.begins front)

theorem progress_of_run {sha1 : List UInt8 → Digest} {input : List UInt8}
    {first final : Connection} {stimuli : List Stimulus} (accepted : accept input = some first)
    (run : Runs (next sha1) first stimuli final) (reading : final.reads ≠ []) :
    ∃ last, Ends step final last ∧ last.Progress (input.drop (opened stimuli)) := by
  have initially : final.Progress (input.drop (opened stimuli)) := by
    cases upstream_of_run accepted run with
    | waiting begins =>
        have found := List.getElem?_eq_getElem (List.length_pos_of_ne_nil reading)
        obtain ⟨-, here, -⟩ := (phase_of_run accepted run.reaches).of_read found
        rw [here.starting, here.responses] at begins
        rcases begins with wrong | wrong <;> cases wrong
    | reading frames part receiver op reads stands received =>
        exact .reading frames part receiver op reads stands received
    | finished frames part receiver ending ended => exact absurd ended.reads reading
  obtain ⟨last, later, ends, path, none, progress⟩ := chain_ends accepted run
    (fun state => state.Progress (input.drop (opened stimuli))) initially
    fun later before after path none taken => by
      have upstream := upstream_of_run accepted path
      have event : before.next sha1 (.socket (.read 0)) = some after := taken
      have cancels := cancels_of_run accepted (path.next _ event).reaches
      obtain ⟨⟨next, actions⟩, done, same⟩ := Option.map_eq_some_iff.mp taken
      cases same
      rw [opened_append, none, Nat.add_zero] at upstream
      exact upstream.complete_read (phase_of_run accepted path.reaches) cancels done
  exact ⟨last, ends, progress⟩

end Connection

/-- Left to itself, a session that is reading stops after finitely many reads, and has
then posted and answered everything its client has sent. -/
theorem read_chain_delivers (sha1 : List UInt8 → Digest) {input : List UInt8}
    {first final : Connection} {stimuli : List Stimulus}
    (accepted : Connection.accept input = some first)
    (run : Runs (Connection.next sha1) first stimuli final) {all : List Frame}
    {tail : List UInt8}
    (parse : input.drop (Connection.opened stimuli) = Frame.stream all ++ tail)
    (unfinished : Frame.Unfinished tail) (narrow : input.length < 2 ^ 63)
    (reading : final.reads ≠ []) :
    ∃ last, Ends Connection.step final last ∧ last.Served all tail := by
  obtain ⟨last, ends, progress⟩ := Connection.progress_of_run accepted run reading
  have shorter : (input.drop (Connection.opened stimuli)).length < 2 ^ 63 := by
    rw [List.length_drop]
    omega
  exact ⟨last, ends, progress.served parse unfinished shorter ends.2⟩

theorem read_chain_delivers_sample :
    ∃ final last : Connection, final.posted = [] ∧ Ends Connection.step final last ∧
      last.Served [.short 0x89 none [] (by decide), .short 0x81 none [0x61] (by decide)]
        [0x83, 0x01] := by
  obtain ⟨first, final, accepted, run, here⟩ := Runs.of_trace_any (Connection.next zeroDigest)
    (Connection.accept (sampleRequest ++ [0x89, 0x00, 0x81, 0x01, 0x61, 0x83, 0x01]))
    (fun final : Connection => decide (final.posted = [] ∧ final.reads ≠ [])) sampleHandshake
    (by decide +kernel)
  obtain ⟨posted, reading⟩ := of_decide_eq_true here
  let header : FrameHeader := ⟨0x83, .seven, none, 1, by decide⟩
  have unfinished : Frame.Unfinished [0x83, 0x01] := by
    have bytes : header.wire ++ [] = [0x83, 0x01] := by decide
    rw [← bytes]
    exact header.unfinished_short [] Nat.one_pos
  obtain ⟨last, ends, served⟩ := read_chain_delivers zeroDigest accepted run
    (show _ = Frame.stream [.short 0x89 none [] (by decide), .short 0x81 none [0x61] (by decide)] ++
      [0x83, 0x01] by decide +kernel) unfinished (by decide) reading
  exact ⟨final, last, posted, ends, served⟩

end Averyws
