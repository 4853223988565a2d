/-
Pings and pongs do not interfere.

Handling an accepted ping or pong leaves everything the next data frame looks at
as it was.  A run on a sequence of frames and a run on the same frames without
some of their pings and pongs are therefore runs of twins: they post the same
buffers and fail with the same code.
-/

import Averyws.SessionRun
import Averyws.Twins

namespace Averyws

open Library.Bytes Library.Cells Library.Run
open Utilities

/-- The header keeps its buffer and touches no other; only the first phase moves
the mask, to its own buffer. -/
structure Header.Advances (before : Header) (heap : Heap) (after : Header) (next : Heap) :
    Prop where
  buffer : after.buffer_ = before.buffer_
  rsvc : after.rsvc_ = before.rsvc_
  live : ∀ ref, next.Live ref ↔ heap.Live ref
  others : ∀ ref, ref ≠ before.buffer_ → next.load ref = heap.load ref
  moves : (after.mask_ = before.mask_ ∧ after.state_ = before.state_) ∨
    (before.state_ = .SECOND ∧ after.mask_ = before.mask_ ∧
      (after.state_ = .CONTROL ∨ after.state_ = .DATA)) ∨
    (before.state_ = .FIRST ∧ after.state_ = .SECOND ∧
      ∃ offset, after.mask_ = some { buffer := before.buffer_, offset := offset })

theorem Header.process_advances (reader : Header) (heap : Heap) (new_request : Bool) :
    reader.Advances heap (reader.process heap new_request).2.1
      (reader.process heap new_request).2.2 := by
  have still : reader.Advances heap reader heap :=
    ⟨rfl, rfl, fun _ => Iff.rfl, fun _ _ => rfl, Or.inl ⟨rfl, rfl⟩⟩
  unfold process
  cases state : reader.state_ with
  | FIRST =>
      dsimp only
      unfold process_state_1
      dsimp only
      split
      · exact still
      · split
        · exact ⟨rfl, rfl, fun _ => Iff.rfl, fun _ _ => rfl,
            Or.inr (Or.inr ⟨state, rfl, _, rfl⟩)⟩
        · exact ⟨rfl, rfl, fun _ => Store.live_save_iff _ _ _ _,
            fun _ other => Store.load_save_of_ne _ _ _ _ other,
            Or.inr (Or.inr ⟨state, rfl, _, rfl⟩)⟩
  | SECOND =>
      have kept (next : HeaderState) (moved : next = .SECOND ∨ next = .CONTROL ∨ next = .DATA) :
          reader.Advances heap { reader with
            payload_size_ := reader.extended_payload_size heap
            state_ := next } heap := by
        refine ⟨rfl, rfl, fun _ => Iff.rfl, fun _ _ => rfl, ?_⟩
        rcases moved with same | later
        · exact Or.inl ⟨rfl, same.trans state.symm⟩
        · exact Or.inr (Or.inl ⟨state, rfl, later⟩)
      have stays : reader.Advances heap { reader with
          payload_size_ := reader.extended_payload_size heap } heap :=
        ⟨rfl, rfl, fun _ => Iff.rfl, fun _ _ => rfl, Or.inl ⟨rfl, rfl⟩⟩
      dsimp only
      unfold process_state_2
      dsimp only
      split_ifs
      · exact stays
      · exact stays
      · exact kept .CONTROL (Or.inr (Or.inl rfl))
      · exact stays
      · exact stays
      · exact kept .DATA (Or.inr (Or.inr rfl))
  | CONTROL => exact still
  | DATA => exact still
  | INVALID => exact still
  | FINISHED => exact still

/-! ### What the handlers leave alone -/

/-- Nothing the next data frame looks at has changed, nor any header buffer but
the one being filled. -/
structure Session.Keeps (before after : Session) : Prop where
  rsvc : after.rsvc_ = before.rsvc_
  new_request : after.new_request_ = before.new_request_
  header : after.header_ = before.header_
  gather : after.gather_ = before.gather_
  buffer : after.buffer_ = before.buffer_
  reserved : after.temp_header_.rsvc_ = before.temp_header_.rsvc_
  heap : ∀ ref, before.heap.Live ref → ref ≠ before.temp_header_.buffer_ →
    after.heap.Live ref ∧ ref ≠ after.temp_header_.buffer_ ∧
      after.heap.load ref = before.heap.load ref

namespace Session

variable {before middle after : Session}

theorem Keeps.trans (first : before.Keeps middle) (second : middle.Keeps after) :
    before.Keeps after where
  rsvc := second.rsvc.trans first.rsvc
  new_request := second.new_request.trans first.new_request
  header := second.header.trans first.header
  gather := second.gather.trans first.gather
  buffer := second.buffer.trans first.buffer
  reserved := second.reserved.trans first.reserved
  heap := by
    intro ref live other
    obtain ⟨lives, others, same⟩ := first.heap ref live other
    obtain ⟨last, apart, load⟩ := second.heap ref lives others
    exact ⟨last, apart, load.trans same⟩

theorem keeps_read_header (session : Session) : session.Keeps session.read_header.1 where
  rsvc := rfl
  new_request := rfl
  header := rfl
  gather := rfl
  buffer := rfl
  reserved := rfl
  heap := by
    intro ref live _
    exact ⟨Store.live_alloc_of_live _ (Block.zero 14) ref live,
      Store.alloc_ne_of_live _ (Block.zero 14) ref live,
      Store.load_alloc_of_live _ (Block.zero 14) ref live⟩

theorem keeps_receive_header (session : Session) (offset : Nat) (bytes : List UInt8) :
    session.Keeps { session with
      heap := session.heap.save session.temp_header_.buffer_
        ((session.heap.load session.temp_header_.buffer_).write offset bytes) } where
  rsvc := rfl
  new_request := rfl
  header := rfl
  gather := rfl
  buffer := rfl
  reserved := rfl
  heap := by
    intro ref live other
    exact ⟨(Store.live_save_iff _ _ _ _).mpr live, other, Store.load_save_of_ne _ _ _ _ other⟩

theorem keeps_process (session : Session) (new_request : Bool) (control : Control) :
    session.Keeps { session with
      temp_header_ := (session.temp_header_.process session.heap new_request).2.1
      heap := (session.temp_header_.process session.heap new_request).2.2
      control_ := control } := by
  have advances := session.temp_header_.process_advances session.heap new_request
  refine ⟨rfl, rfl, rfl, rfl, rfl, advances.rsvc, ?_⟩
  intro ref live other
  refine ⟨(advances.live ref).mpr live, ?_, advances.others ref other⟩
  change ref ≠ (session.temp_header_.process session.heap new_request).2.1.buffer_
  rw [advances.buffer]
  exact other

/-- A header that is not that of a data frame changes only the header under way
and the control buffer. -/
theorem handle_read_header_cases {actions : List Action}
    (done : before.handle_read_header false = some (after, actions)) :
    (∃ control, after = { before with
        temp_header_ :=
          (before.temp_header_.process before.heap before.new_request_).2.1
        heap := (before.temp_header_.process before.heap before.new_request_).2.2
        control_ := control }) ∨
      ((before.temp_header_.process before.heap before.new_request_).1 = 0 ∧
        (before.temp_header_.process before.heap before.new_request_).2.1.state_ = .DATA ∧
        ∃ gather buffer, { before with
          temp_header_ :=
            (before.temp_header_.process before.heap before.new_request_).2.1
          heap := (before.temp_header_.process before.heap before.new_request_).2.2
          header_ := before.header_.transfer
            (before.temp_header_.process before.heap before.new_request_).2.1
          gather_ := gather
          buffer_ := buffer }.read_chunk 0 false = some (after, actions)) := by
  unfold handle_read_header at done
  rw [if_neg Bool.noConfusion] at done
  generalize before.temp_header_.process before.heap before.new_request_ = result at done ⊢
  obtain ⟨rcode, temp_header, heap⟩ := result
  dsimp only at done ⊢
  split at done
  · cases done
    exact Or.inl ⟨before.control_, rfl⟩
  · rename_i accepted
    cases state : temp_header.state_ with
    | CONTROL =>
        simp only [Header.state, state] at done
        split at done
        · cases done
          exact Or.inl ⟨before.control_, rfl⟩
        · cases done
          exact Or.inl ⟨before.control_.new_buffer, rfl⟩
    | DATA =>
        simp only [Header.state, state] at done
        right
        refine ⟨not_not.mp accepted, rfl, ?_⟩
        by_cases fresh : before.new_request_ = true
        · rw [if_pos fresh] at done
          exact ⟨_, _, done⟩
        · rw [if_neg fresh] at done
          exact ⟨_, _, done⟩
    | FIRST | SECOND | INVALID | FINISHED =>
        simp only [Header.state, state] at done
        cases done
        exact Or.inl ⟨before.control_, rfl⟩

theorem handle_control_read_cases {actions : List Action}
    (done : before.handle_control_read false = some (after, actions)) :
    ∃ control, after = { before with control_ := control } ∨
      after = { before with control_ := control }.read_header.1 := by
  unfold handle_control_read at done
  rw [if_neg Bool.noConfusion] at done
  obtain ⟨⟨rcode, control⟩, -, done⟩ := Option.bind_eq_some_iff.mp done
  refine ⟨control, ?_⟩
  dsimp only at done
  split at done
  · cases done
    exact Or.inl rfl
  · cases state : control.state_ <;> rw [state] at done <;> cases done
    · exact Or.inl rfl
    · exact Or.inr rfl
    · exact Or.inr rfl
    · exact Or.inl rfl

end Session

section Heartbeat

variable {receiver : Receiver} {session next : Session} {frame : Frame} {actions : List Action}

theorem Session.Between.keeps_first (between : session.Between receiver) (bytes : List UInt8)
    (done : session.receive (session.headerRead 0 2) bytes = some (next, actions)) :
    session.Keeps next := by
  have arrived := session.keeps_receive_header 0 bytes
  rcases Session.handle_read_header_cases done with ⟨control, rfl⟩ | ⟨-, data, -⟩
  · exact arrived.trans (Session.keeps_process _ _ control)
  · exfalso
    have advances := session.temp_header_.process_advances
      (session.heap.save session.temp_header_.buffer_
        ((session.heap.load session.temp_header_.buffer_).write 0 bytes)) session.new_request_
    have first := between.fresh.state
    rcases advances.moves with ⟨-, same⟩ | ⟨second, -⟩ | ⟨-, second, -⟩
    · rw [first] at same
      exact HeaderState.noConfusion (same.symm.trans data)
    · exact HeaderState.noConfusion (first.symm.trans second)
    · exact HeaderState.noConfusion (second.symm.trans data)

theorem Session.Begun.keeps_second {header : FrameHeader} (begun : session.Begun receiver header)
    (control : ControlOpcode header.opcode)
    (accepted : header.second_verdict receiver.new_request = 0)
    (done : session.receive (session.headerRead 2 header.tail.length) header.tail =
      some (next, actions)) : session.Keeps next := by
  have arrived := session.keeps_receive_header 2 header.tail
  rcases Session.handle_read_header_cases done with ⟨after, rfl⟩ | ⟨-, data, -⟩
  · exact arrived.trans (Session.keeps_process _ _ after)
  · exfalso
    obtain ⟨last, result, -, -, settled⟩ :=
      Header.process_second begun.started session.new_request_
    rw [begun.new_request] at settled
    obtain ⟨-, state⟩ := settled accepted
    rw [if_pos control] at state
    have same : (session.temp_header_.process (session.temp_header_.filled session.heap header)
        session.new_request_).2.1.state_ = .DATA := data
    rw [result] at same
    exact HeaderState.noConfusion (state.symm.trans same)

theorem Session.keeps_payload (bytes : List UInt8)
    (done : session.receive session.controlRead bytes = some (next, actions)) :
    session.Keeps next := by
  have still (control : Control) : session.Keeps { session with control_ := control } :=
    ⟨rfl, rfl, rfl, rfl, rfl, rfl, fun _ live other => ⟨live, other, rfl⟩⟩
  obtain ⟨control, same⟩ := Session.handle_control_read_cases done
  rcases same with rfl | rfl
  · exact still control
  · exact (still control).trans (Session.keeps_read_header _)

/-- An accepted ping or pong is handled without a trace in what follows. -/
theorem Ready.run_heartbeat {start : Connection} (ready : Ready receiver start)
    (beat : frame.Heartbeat) (rest : List UInt8) (input : start.input = frame.wire ++ rest) :
    ∃ final, Steps Connection.step start final ∧ Ready receiver final ∧ final.input = rest ∧
      final.posted = start.posted ∧ final.cancels = start.cancels ∧
      start.session.Keeps final.session := by
  have control : ControlOpcode frame.header.opcode := Or.inr beat.opcode
  have known : KnownOpcode frame.header.opcode :=
    Or.inr (Or.inr (Or.inr (Or.inr beat.opcode)))
  have accepted := frame.header.second_verdict_control receiver.new_request control beat.fin
    beat.short
  obtain ⟨next, opened, begun⟩ :=
    (ready.between.receive_first frame.header).2 beat.rsv known
  have first := ready.first_step frame rest input
  rw [opened] at first
  obtain ⟨last, filled, known, count⟩ := begun.receive_control control accepted
  have second := start.step_receive next (next.headerRead 2 frame.header.tail.length)
    frame.header.tail (xorMask frame.header.key 0 frame.payload ++ rest) rfl
  rw [filled] at second
  obtain ⟨after, replies, answered, -, pings, between⟩ :=
    known.receive_other (xorMask frame.header.key 0 frame.payload) beat.opcode
  have third := start.step_receive last last.controlRead
    (xorMask frame.header.key 0 frame.payload) rest (by rw [count, length_xorMask]; rfl)
  obtain ⟨writes, performed, same⟩ := (start.move after [] rest).performs_replies replies
    (after.headerRead 0 2) pings
  rw [answered, Option.map_some, performed] at third
  have keeps := (ready.between.keeps_first _ opened).trans
    ((begun.keeps_second control accepted filled).trans (Session.keeps_payload _ answered))
  exact ⟨_, Steps.head first (Steps.head second (Steps.single third)), ⟨rfl, between⟩, rfl, rfl,
    same, keeps⟩

end Heartbeat

theorem Session.paired_self {session : Session}
    (fresh : session.temp_header_.Fresh session.heap) :
    session.Paired session (session.headerRead 0 2) (session.headerRead 0 2) := by
  have twin : session.temp_header_.Twin session.heap session.temp_header_ session.heap :=
    { live := fresh.live
      lives := fresh.live
      block := rfl
      state := rfl
      rsvc := rfl
      size := rfl
      decoded := fun later => absurd fresh.state later }
  exact .header (some 0) 2 ⟨rfl, rfl, rfl, rfl, rfl⟩ twin

theorem Session.Paired.renew {left again right : Session} {other : ReadOp}
    (paired : left.Paired right (left.headerRead 0 2) other)
    (fresh : left.temp_header_.Fresh left.heap) (anew : again.temp_header_.Fresh again.heap)
    (keeps : left.Keeps again) : again.Paired right (again.headerRead 0 2) other := by
  generalize here : left.headerRead 0 2 = op at paired
  cases paired with
  | header offset count alike twin =>
      cases offset with
      | none => cases here
      | some offset =>
          cases here
          have alike : again.Alike right :=
            { rsvc := keeps.rsvc.trans alike.rsvc
              new_request := keeps.new_request.trans alike.new_request
              gather := keeps.gather.trans alike.gather
              buffer := keeps.buffer.trans alike.buffer
              reserved := keeps.reserved.trans alike.reserved }
          have twin : again.temp_header_.Twin again.heap right.temp_header_ right.heap :=
            { live := anew.live
              lives := twin.lives
              block := anew.clear.trans (fresh.clear.symm.trans twin.block)
              state := anew.state.trans (fresh.state.symm.trans twin.state)
              rsvc := alike.reserved
              size := anew.size.trans (fresh.size.symm.trans twin.size)
              decoded := fun later => absurd anew.state later }
          exact .header (some 0) 2 alike twin
  | control => cases here
  | chunk => cases here

namespace Connection

variable {left right : Connection}

theorem Twin.halted (twin : left.Twin right) (input : left.input = right.input)
    (halted : left.step = none) : right.step = none := by
  have both := Twin.step ⟨input, twin⟩
  rw [halted] at both
  cases other : right.step with
  | none => rfl
  | some next =>
      rw [other] at both
      cases both

theorem Twin.idle (twin : left.Twin right) (idle : left.reads = []) : right.reads = [] := by
  rcases twin.reads with ⟨-, idles⟩ | ⟨op, other, here, -, -⟩
  · exact idles
  · rw [idle] at here
    cases here

theorem Twin.run_frame {receiver : Receiver} (ready : Ready receiver left)
    (twin : left.Twin right) (frame : Frame) (rest other : List UInt8)
    (input : left.input = frame.wire ++ rest) (inputs : right.input = frame.wire ++ other) :
    ∃ final ended, Steps Connection.step left final ∧ Steps Connection.step right ended ∧
      final.Twin ended ∧
      ((∃ next, Ready next final ∧ final.input = rest ∧ ended.input = other) ∨
        (final.step = none ∧ ended.step = none)) := by
  let start : Connection := { left with input := frame.wire }
  let begun : Connection := { right with input := frame.wire }
  have ready : Ready receiver start := ⟨ready.reads, ready.between⟩
  have twin : start.Twin begun := ⟨twin.posted, twin.cancels, twin.reads⟩
  have here : start.extend rest = left := by
    change { left with input := frame.wire ++ rest } = left
    rw [← input]
  have there : begun.extend other = right := by
    change { right with input := frame.wire ++ other } = right
    rw [← inputs]
  have level : start.input = begun.input := rfl
  obtain ⟨final, run, outcome⟩ := ready.run_frame frame [] (List.append_nil _).symm
  obtain ⟨ended, along, same, twins⟩ := twin.steps level run.steps
  have long := steps_extend run.steps rest
  have longs := steps_extend along other
  rw [here] at long
  rw [there] at longs
  refine ⟨_, _, long, longs, twins.extend rest other, ?_⟩
  have halted (idle : final.reads = []) :
      (final.extend rest).step = none ∧ (ended.extend other).step = none :=
    ⟨step_idle _ idle, step_idle _ (twins.idle idle)⟩
  rcases outcome with lands | ⟨-, stalls⟩
  · cases verdict : receiver.frame frame with
    | next next message =>
        rw [verdict] at lands
        obtain ⟨ready, empty, -, -⟩ := lands
        left
        refine ⟨next, ⟨ready.reads, ready.between⟩, ?_, ?_⟩
        · change final.input ++ rest = rest
          rw [empty, List.nil_append]
        · change ended.input ++ other = other
          rw [← same, empty, List.nil_append]
    | fail code =>
        rw [verdict] at lands
        exact Or.inr (halted lands.1)
    | close =>
        rw [verdict] at lands
        exact Or.inr (halted lands.1)
  · right
    refine ⟨stalls.halted rest, ?_⟩
    apply (twins.extend other other).halted
    · change final.input ++ other = ended.input ++ other
      rw [same]
    · exact stalls.halted other

/-- Twins on a sequence of frames and on the same without some heartbeats. -/
theorem Twin.run_interleaved {kept frames : List Frame} (deleted : Interleaved kept frames)
    {receiver : Receiver} (ready : Ready receiver left) (twin : left.Twin right)
    (input : left.input = Frame.stream frames) (inputs : right.input = Frame.stream kept) :
    ∃ final ended, Ends Connection.step left final ∧ Ends Connection.step right ended ∧
      final.posted = ended.posted ∧ final.cancels = ended.cancels := by
  induction deleted generalizing receiver left right with
  | done =>
      have halted : left.step = none := by
        unfold Connection.step complete_read
        rw [ready.reads, input]
        rfl
      exact ⟨left, right, ⟨Steps.refl left, halted⟩,
        ⟨Steps.refl right, twin.halted (input.trans inputs.symm) halted⟩, twin.posted,
        twin.cancels⟩
  | data frame later ih =>
      obtain ⟨final, ended, run, along, twins, outcome⟩ :=
        twin.run_frame ready frame _ _ input inputs
      rcases outcome with ⟨next, ready, rest, rests⟩ | ⟨halted, stopped⟩
      · obtain ⟨last, lasts, ends, other, posted, cancels⟩ := ih ready twins rest rests
        exact ⟨last, lasts, ends.head run, other.head along, posted, cancels⟩
      · exact ⟨final, ended, ⟨run, halted⟩, ⟨along, stopped⟩, twins.posted, twins.cancels⟩
  | heartbeat frame beat later ih =>
      obtain ⟨middle, run, again, rest, posted, cancels, keeps⟩ :=
        ready.run_heartbeat beat _ input
      have twins : middle.Twin right := by
        refine ⟨posted.trans twin.posted, cancels.trans twin.cancels, Or.inr ?_⟩
        rcases twin.reads with ⟨idle, -⟩ | ⟨op, other, here, there, paired⟩
        · rw [ready.reads] at idle
          cases idle
        · rw [ready.reads] at here
          cases here
          exact ⟨_, other, again.reads, there,
            paired.renew ready.between.fresh again.between.fresh keeps⟩
      obtain ⟨last, lasts, ends, other, same⟩ := ih again twins rest inputs
      exact ⟨last, lasts, ends.head run, other, same⟩

end Connection

/-! ### The mask of a message under way -/

/-- The masks point to live buffers, and while a header or a control frame is
being read the mask of the message lies in a buffer of its own. -/
structure Session.Tidy (session : Session) : Prop where
  current : ∀ pointer, session.header_.mask_ = some pointer → session.heap.Live pointer.buffer
  coming : ∀ pointer, session.temp_header_.mask_ = some pointer →
    session.heap.Live pointer.buffer
  own : session.temp_header_.state_ ≠ .INVALID → session.heap.Live session.temp_header_.buffer_
  apart : session.temp_header_.state_ ≠ .INVALID → session.temp_header_.state_ ≠ .DATA →
    ∀ pointer, session.header_.mask_ = some pointer →
      pointer.buffer ≠ session.temp_header_.buffer_

namespace Session

variable {session next : Session} {actions : List Action}

theorem Tidy.read_header (tidy : session.Tidy) : session.read_header.1.Tidy where
  current := fun pointer here =>
    Store.live_alloc_of_live _ (Block.zero 14) _ (tidy.current pointer here)
  coming := fun pointer here =>
    Store.live_alloc_of_live _ (Block.zero 14) _ (tidy.coming pointer here)
  own := fun _ => Store.live_alloc_self _ (Block.zero 14)
  apart := fun _ _ pointer here =>
    Store.alloc_ne_of_live _ (Block.zero 14) _ (tidy.current pointer here)

theorem Tidy.read_chunk (tidy : session.Tidy) {previous : UInt64}
    (done : session.read_chunk previous false = some (next, actions)) : next.Tidy := by
  have kept (request : Bool) (gather : Gather) (buffer : ChunkVector) :
      { session with new_request_ := request, gather_ := gather, buffer_ := buffer }.Tidy :=
    ⟨tidy.current, tidy.coming, tidy.own, tidy.apart⟩
  unfold Session.read_chunk at done
  rw [if_neg Bool.noConfusion] at done
  obtain ⟨⟨rcode, gather, buffer⟩, -, done⟩ := Option.bind_eq_some_iff.mp done
  have loaded := kept (session.header_.is_fin session.heap) gather buffer
  simp only [Option.pure_def, Option.some_inj, after_gather] at done
  split at done
  · cases done
    exact loaded
  · split at done
    · cases done
      exact loaded
    · cases done
      exact loaded.read_header

theorem Tidy.process (tidy : session.Tidy) (control : Control) :
    { session with
      temp_header_ := (session.temp_header_.process session.heap session.new_request_).2.1
      heap := (session.temp_header_.process session.heap session.new_request_).2.2
      control_ := control }.Tidy := by
  have advances := session.temp_header_.process_advances session.heap session.new_request_
  generalize session.temp_header_.process session.heap session.new_request_ = result at advances ⊢
  obtain ⟨rcode, after, heap⟩ := result
  dsimp only at advances ⊢
  have valid : after.state_ ≠ .INVALID → session.temp_header_.state_ ≠ .INVALID := by
    intro valid
    rcases advances.moves with ⟨-, same⟩ | ⟨second, -⟩ | ⟨first, -⟩
    · rw [← same]
      exact valid
    · rw [second]
      exact fun same => HeaderState.noConfusion same
    · rw [first]
      exact fun same => HeaderState.noConfusion same
  refine ⟨?_, ?_, ?_, ?_⟩
  · intro pointer here
    exact (advances.live _).mpr (tidy.current pointer here)
  · intro pointer here
    rcases advances.moves with ⟨same, -⟩ | ⟨-, same, -⟩ | ⟨first, -, offset, mask⟩
    · exact (advances.live _).mpr (tidy.coming pointer (same.symm.trans here))
    · exact (advances.live _).mpr (tidy.coming pointer (same.symm.trans here))
    · have own : some pointer = some { buffer := session.temp_header_.buffer_, offset := offset } :=
        here.symm.trans mask
      cases own
      apply (advances.live _).mpr
      apply tidy.own
      rw [first]
      exact fun same => HeaderState.noConfusion same
  · intro here
    change heap.Live after.buffer_
    rw [advances.buffer]
    exact (advances.live _).mpr (tidy.own (valid here))
  · intro here open_ pointer mask
    change pointer.buffer ≠ after.buffer_
    rw [advances.buffer]
    refine tidy.apart (valid here) ?_ pointer mask
    intro data
    rcases advances.moves with ⟨-, same⟩ | ⟨second, -⟩ | ⟨first, -⟩
    · exact open_ (same.trans data)
    · exact HeaderState.noConfusion (second.symm.trans data)
    · exact HeaderState.noConfusion (first.symm.trans data)

theorem Tidy.handle_read_header (tidy : session.Tidy)
    (done : session.handle_read_header false = some (next, actions)) : next.Tidy := by
  rcases handle_read_header_cases done with ⟨control, rfl⟩ | ⟨-, data, gather, buffer, read⟩
  · exact tidy.process control
  · have moved := tidy.process session.control_
    apply Tidy.read_chunk ?_ read
    exact
      { current := moved.coming
        coming := moved.coming
        own := moved.own
        apart := fun _ open_ => absurd data open_ }

theorem Tidy.handle_control_read (tidy : session.Tidy)
    (done : session.handle_control_read false = some (next, actions)) : next.Tidy := by
  have kept (control : Control) : { session with control_ := control }.Tidy :=
    ⟨tidy.current, tidy.coming, tidy.own, tidy.apart⟩
  obtain ⟨control, same⟩ := handle_control_read_cases done
  rcases same with rfl | rfl
  · exact kept control
  · exact (kept control).read_header

theorem Tidy.store (tidy : session.Tidy) {target : Option Target} {bytes : List UInt8}
    (done : session.store target bytes = some next) : next.Tidy := by
  unfold Session.store at done
  cases target with
  | none => cases done
  | some target =>
      cases target with
      | header pointer =>
          cases done
          exact
            { current := fun other here =>
                (Store.live_save_iff _ _ _ _).mpr (tidy.current other here)
              coming := fun other here =>
                (Store.live_save_iff _ _ _ _).mpr (tidy.coming other here)
              own := fun valid => (Store.live_save_iff _ _ _ _).mpr (tidy.own valid)
              apart := tidy.apart }
      | control offset =>
          cases done
          exact ⟨tidy.current, tidy.coming, tidy.own, tidy.apart⟩
      | chunk position =>
          obtain ⟨buffer, -, same⟩ := Option.bind_eq_some_iff.mp done
          cases same
          exact ⟨tidy.current, tidy.coming, tidy.own, tidy.apart⟩

theorem Tidy.receive (tidy : session.Tidy) {op : ReadOp} {bytes : List UInt8}
    (done : session.receive op bytes = some (next, actions)) : next.Tidy := by
  obtain ⟨loaded, stored, done⟩ := Option.bind_eq_some_iff.mp done
  have tidy := tidy.store stored
  cases handler : op.handler with
  | handle_read_header =>
      rw [handler] at done
      exact tidy.handle_read_header done
  | handle_control_read =>
      rw [handler] at done
      exact tidy.handle_control_read done
  | read_chunk previous =>
      rw [handler] at done
      exact tidy.read_chunk done

end Session

namespace Connection

variable {sha1 : List UInt8 → Digest} {before after : Connection} {actions : List Action}

theorem tidy_respond (tidy : before.session.Tidy) {stimulus : Stimulus}
    (done : before.respond sha1 stimulus = some (after, actions)) : after.session.Tidy := by
  cases stimulus with
  | write data is_binary =>
      cases done
      exact tidy
  | socket event =>
      cases event with
      | read_first count =>
          obtain ⟨-, -, -, -, session, received, rfl⟩ := complete_first_cases done
          rw [performs_eq]
          rcases Session.receive_first_next received with ⟨-, buffer, rfl⟩ | ⟨-, buffer, -, rfl⟩
          · exact ⟨tidy.current, tidy.coming, tidy.own, tidy.apart⟩
          · exact ⟨tidy.current, tidy.coming, tidy.own, tidy.apart⟩
      | fail_first =>
          obtain ⟨-, rfl, rfl⟩ := fail_first_cases done
          exact tidy
      | read index =>
          obtain ⟨op, session, -, -, received, rfl⟩ := complete_read_cases done
          rw [performs_eq]
          exact tidy.receive received
      | fail_read index =>
          obtain ⟨-, rfl, rfl⟩ := fail_read_cases done
          exact tidy
      | write_some index count =>
          obtain ⟨next, taken, same⟩ := Option.map_eq_some_iff.mp done
          cases same
          obtain ⟨out, -, -, -, -, rfl⟩ := write_some_cases taken
          exact tidy
      | written index error =>
          obtain ⟨out, -, -, -, outcome⟩ := complete_write_cases done
          rcases outcome with ⟨-, -, -, rfl⟩ | ⟨-, -, rfl⟩
          · exact tidy.read_header
          · exact tidy

theorem tidy_of_run {allowed : Connection → Stimulus → Prop} {input : List UInt8}
    {first final : Connection} (accepted : Connection.accept input = some first)
    (run : Reaches (next sha1) allowed first final) : final.session.Tidy := by
  apply run.invariant fun connection => connection.session.Tidy
  · intro before stimulus after tidy _ taken
    obtain ⟨⟨next, actions⟩, done, same⟩ := Option.map_eq_some_iff.mp taken
    cases same
    exact tidy_respond tidy done
  · unfold accept at accepted
    obtain ⟨session, started, same⟩ := Option.bind_eq_some_iff.mp accepted
    unfold Session.start at started
    obtain ⟨buffer, -, here⟩ := Option.bind_eq_some_iff.mp started
    cases same
    cases here
    exact
      { current := by
          intro pointer impossible
          cases impossible
        coming := by
          intro pointer impossible
          cases impossible
        own := fun valid => absurd rfl valid
        apart := fun valid => absurd rfl valid }

structure Undisturbed (before after : Connection) : Prop where
  posted : after.posted = before.posted
  cancels : after.cancels = before.cancels
  new_request : after.session.new_request_ = before.session.new_request_
  header : after.session.header_ = before.session.header_
  mask : after.session.header_.mask after.session.heap =
    before.session.header_.mask before.session.heap
  gather : after.session.gather_ = before.session.gather_
  buffer : after.session.buffer_ = before.session.buffer_

def AtFrame (connection : Connection) : Prop :=
  connection.reads = [connection.session.headerRead 0 2]

theorem Phase.ready_of_atFrame {connection : Connection} (phase : connection.Phase)
    (waits : connection.AtFrame) : ∃ receiver, Ready receiver connection := by
  unfold AtFrame at waits
  have same {op : ReadOp} {responses : Nat} (here : connection.Outstanding false [op] responses) :
      op = connection.session.headerRead 0 2 := by
    have both := here.reads.symm.trans waits
    cases both
    rfl
  cases phase with
  | starting here => cases here.reads.symm.trans waits
  | answering here => cases here.reads.symm.trans waits
  | reading op here stage =>
      have first := same here
      cases stage with
      | between receiver state _ => exact ⟨receiver, waits, state⟩
      | begun receiver header state other => cases first.symm.trans other
      | known receiver header state control short other count => cases first.symm.trans other
      | reading receiver header data count state narrow within other =>
          cases first.symm.trans other
  | stalled op here stuck => cases (same here).symm.trans stuck.1
  | ended here => cases here.reads.symm.trans waits

theorem reaches_of_steps {start final : Connection} (run : Steps Connection.step start final) :
    Reaches (next sha1) anyEvent start final := by
  induction run with
  | refl => exact .start
  | tail _ taken ih => exact .next (.socket (.read 0)) ih trivial taken

/-- Deleting accepted pings and pongs changes neither the requests nor the code
passed to `cancel_socket`, and handling one changes nothing the message under way
depends on. -/
theorem heartbeats_transparent (sha1 : List UInt8 → Digest) {input : List UInt8}
    {first start : Connection} (accepted : Connection.accept input = some first)
    (reached : Reaches (next sha1) anyEvent first start) (between : BetweenMessages start)
    {kept frames : List Frame} (deleted : Interleaved kept frames)
    (arrives : start.input = Frame.stream frames) :
    (∃ final ended, Ends Connection.step start final ∧
        Ends Connection.step { start with input := Frame.stream kept } ended ∧
        final.posted = ended.posted ∧ final.cancels = ended.cancels) ∧
      ∀ (middle : Connection) (beat : Frame) (rest : List UInt8),
        Steps Connection.step start middle → middle.AtFrame →
        middle.input = beat.wire ++ rest → beat.Heartbeat →
          ∃ after, Steps Connection.step middle after ∧ after.AtFrame ∧ after.input = rest ∧
            middle.Undisturbed after := by
  constructor
  · have ready := between.ready
    have twin : start.Twin { start with input := Frame.stream kept } :=
      ⟨rfl, rfl, Or.inr ⟨_, _, between.reads, between.reads,
        Session.paired_self between.fresh⟩⟩
    exact twin.run_interleaved deleted ready arrives rfl
  · intro middle beat rest run waits bytes accepts
    have everywhere := reached.trans (reaches_of_steps run)
    obtain ⟨receiver, ready⟩ := (phase_of_run accepted everywhere).ready_of_atFrame waits
    have tidy := tidy_of_run accepted everywhere
    obtain ⟨after, handled, again, left, posted, cancels, keeps⟩ :=
      ready.run_heartbeat accepts rest bytes
    refine ⟨after, handled, again.reads, left, posted, cancels, keeps.new_request, keeps.header,
      ?_, keeps.gather, keeps.buffer⟩
    rw [keeps.header]
    unfold Header.mask
    cases here : middle.session.header_.mask_ with
    | none => rfl
    | some pointer =>
        have state := ready.between.fresh.state
        have apart := tidy.apart (by rw [state]; exact fun same => HeaderState.noConfusion same)
          (by rw [state]; exact fun same => HeaderState.noConfusion same) pointer here
        simp only [Option.bind_eq_bind, Option.bind_some,
          (keeps.heap pointer.buffer (tidy.current pointer here) apart).2.2]

def sampleFragments : List Frame :=
  [.short 0x01 none [0x61] (by decide), .short 0x89 none [0x70] (by decide),
    .short 0x80 none [0x62] (by decide)]

theorem heartbeats_transparent_sample :
    ∃ start final ended : Connection, start.input = Frame.stream sampleFragments ∧
      Ends Connection.step start final ∧
      Ends Connection.step { start with
        input := Frame.stream [.short 0x01 none [0x61] (by decide),
          .short 0x80 none [0x62] (by decide)] } ended ∧
      final.posted = ended.posted ∧ final.cancels = ended.cancels := by
  obtain ⟨first, start, accepted, reached, here⟩ := Reaches.of_trace_any (next zeroDigest) anyEvent
    (Connection.accept (sampleRequest ++ Frame.stream sampleFragments))
    (fun connection => decide (BetweenMessages connection ∧
      connection.input = Frame.stream sampleFragments))
    sampleHandshake (by decide +kernel)
  obtain ⟨between, arrives⟩ := of_decide_eq_true here
  have beat : (Frame.short 0x89 none [0x70] (by decide)).Heartbeat :=
    ⟨rfl, Or.inl rfl, rfl, by decide⟩
  have deleted : Interleaved [.short 0x01 none [0x61] (by decide),
      .short 0x80 none [0x62] (by decide)] sampleFragments :=
    .data _ (.heartbeat _ beat (.data _ .done))
  obtain ⟨⟨final, ended, ends, other, posted, cancels⟩, -⟩ :=
    heartbeats_transparent zeroDigest accepted reached between deleted arrives
  exact ⟨start, final, ended, arrives, ends, other, posted, cancels⟩

end Connection

end Averyws
