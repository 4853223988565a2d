/-
The read chain of a connection on the bytes of frames.

`Ready.run_frame` runs the chain on the bytes of one frame and finds the connection
where the receiver of whole frames says; `Ready.run_frames` is the run over a
sequence of frames.  The one exception is a message whose chunks would fill the
address space, on which the chain stops.
-/

import Averyws.ReadChain

namespace Averyws

open Library.Bytes Library.Cells Library.Run Library.Utf8
open Utilities

namespace Connection

def move (connection : Connection) (session : Session) (reads : List ReadOp)
    (input : List UInt8) : Connection :=
  { connection with session := session, reads := reads, input := input }

/-- The codes `cancel_socket` has been called with. -/
def cancels (connection : Connection) : List UInt16 :=
  connection.writes.filterMap fun out =>
    match out.op.handler with
    | .cancel code => some code
    | _ => none

theorem step_receive (connection : Connection) (session : Session) (op : ReadOp)
    (bytes rest : List UInt8) (count : bytes.length = op.count) :
    (connection.move session [op] (bytes ++ rest)).step =
      (session.receive op bytes).map fun result =>
        (connection.move result.1 [] rest).performs result.2 := by
  have enough : op.count ≤ (bytes ++ rest).length := by
    rw [List.length_append, count]
    exact Nat.le_add_right _ _
  unfold step complete_read move
  simp only [List.getElem?_cons_zero, Option.bind_eq_bind, Option.bind_some]
  rw [if_pos enough, ← count, List.take_left, List.drop_left]
  cases session.receive op bytes <;> rfl

def extend (connection : Connection) (extra : List UInt8) : Connection :=
  { connection with input := connection.input ++ extra }

theorem performs_extend (connection : Connection) (actions : List Action) (extra : List UInt8) :
    (connection.extend extra).performs actions = (connection.performs actions).extend extra := by
  induction actions generalizing connection with
  | nil => rfl
  | cons action rest ih =>
      have same : (connection.extend extra).perform action =
          (connection.perform action).extend extra := by
        cases action <;> rfl
      change ((connection.extend extra).perform action).performs rest = _
      rw [same, ih]
      rfl

/-- A step does not look past the bytes it reads. -/
theorem step_extend {before after : Connection} (taken : before.step = some after)
    (extra : List UInt8) : (before.extend extra).step = some (after.extend extra) := by
  unfold step complete_read at taken ⊢
  unfold extend
  cases found : before.reads[0]? with
  | none =>
      rw [found] at taken
      cases taken
  | some op =>
      rw [found] at taken
      simp only [Option.bind_eq_bind, Option.bind_some] at taken ⊢
      by_cases enough : op.count ≤ before.input.length
      · rw [if_pos enough] at taken
        rw [if_pos (by rw [List.length_append]; omega), List.take_append_of_le_length enough,
          List.drop_append_of_le_length enough]
        cases received : before.session.receive op (before.input.take op.count) with
        | none =>
            rw [received] at taken
            cases taken
        | some result =>
            rw [received] at taken
            cases taken
            exact congrArg some (performs_extend
              { before with
                session := result.1
                reads := before.reads.eraseIdx 0
                input := before.input.drop op.count } result.2 extra)
      · rw [if_neg enough] at taken
        cases taken

theorem steps_extend {start final : Connection} (run : Steps Connection.step start final)
    (extra : List UInt8) : Steps Connection.step (start.extend extra) (final.extend extra) := by
  induction run with
  | refl => exact Steps.refl _
  | tail _ taken ih => exact ih.trans (Steps.single (step_extend taken extra))

theorem step_idle (connection : Connection) (idle : connection.reads = []) :
    connection.step = none := by
  unfold step complete_read
  rw [idle]
  rfl

/-- The chain has stopped without a request or a failure, and no further input
moves it. -/
structure Stalls (start final : Connection) : Prop where
  halted : ∀ extra, (final.extend extra).step = none
  posted : final.posted = start.posted
  cancels : final.cancels = start.cancels

end Connection

theorem Connection.stalls_of_failed (connection : Connection) (session : Session) (op : ReadOp)
    (bytes rest : List UInt8) (count : bytes.length = op.count)
    (failed : session.receive op bytes = none) :
    connection.Stalls (connection.move session [op] (bytes ++ rest)) := by
  refine ⟨fun extra => ?_, rfl, rfl⟩
  have step := connection.step_receive session op bytes (rest ++ extra) count
  rw [failed, ← List.append_assoc] at step
  exact step

theorem Connection.stalls_of_stuck (connection : Connection) (session : Session) (op : ReadOp)
    (input : List UInt8)
    (stuck : ∀ bytes, bytes.length = op.count → session.receive op bytes = none) :
    connection.Stalls (connection.move session [op] input) := by
  refine ⟨fun extra => ?_, rfl, rfl⟩
  unfold extend step complete_read move
  simp only [List.getElem?_cons_zero, Option.bind_eq_bind, Option.bind_some]
  by_cases enough : op.count ≤ (input ++ extra).length
  · rw [if_pos enough, stuck _ (List.length_take_of_le enough)]
    rfl
  · rw [if_neg enough]
    rfl

structure Ready (receiver : Receiver) (connection : Connection) : Prop where
  reads : connection.reads = [connection.session.headerRead 0 2]
  between : connection.session.Between receiver

def Posts (start final : Connection) : Option (List UInt8) → Prop
  | none => final.posted = start.posted
  | some payload => ∃ request, final.posted = start.posted ++ [request] ∧ request.bytes = payload

/-- Where the chain is when it has processed a frame with a verdict. -/
def Verdict.Lands (start : Connection) (rest : List UInt8) : Verdict → Connection → Prop
  | .next receiver message, final =>
      Ready receiver final ∧ final.input = rest ∧ final.cancels = start.cancels ∧
        Posts start final message
  | .fail code, final =>
      final.reads = [] ∧ final.posted = start.posted ∧
        final.cancels = start.cancels ++ [code]
  | .close, final =>
      final.reads = [] ∧ final.posted = start.posted ∧ final.cancels = start.cancels

def Receiver.Crowded (receiver : Receiver) (frame : Frame) : Prop :=
  2 ^ 64 ≤ receiver.opening.1.length + frame.payload.length + 1024

def Verdict.Outcome (start : Connection) (rest : List UInt8) (crowded : Prop)
    (verdict : Verdict) (final : Connection) : Prop :=
  verdict.Lands start rest final ∨ (crowded ∧ start.Stalls final)

theorem Verdict.lands_cancel (start : Connection) (rest input : List UInt8) (session : Session)
    (code : UInt16) :
    (Verdict.fail code).Lands start rest
      ((start.move session [] input).performs (session.cancel_socket code)) := by
  refine ⟨rfl, rfl, ?_⟩
  exact List.filterMap_append

/-! ### The loop over the parts of a payload -/

section Loop

variable {receiver : Receiver} {frame : Frame}

theorem Receiver.data_invalid
    (invalid : (receiver.validated frame.is_binary frame.payload).valid = false) :
    receiver.data frame = .fail 1007 := by
  unfold data
  simp only [invalid, if_true]

theorem Receiver.data_incomplete (fin : frame.fin = true)
    (incomplete : (receiver.validated frame.is_binary frame.payload).complete = false) :
    receiver.data frame = .fail 1007 := by
  unfold data
  simp only [fin, incomplete, and_self, if_true, ite_self]

theorem Receiver.data_continue (fin : frame.fin = false)
    (valid : (receiver.validated frame.is_binary frame.payload).valid = true) :
    receiver.data frame = .next (receiver.after frame.header frame.payload) none := by
  unfold data
  simp only [fin, valid, Bool.true_eq_false, Bool.false_eq_true, false_and, if_false]

theorem Receiver.data_complete (fin : frame.fin = true)
    (complete : (receiver.validated frame.is_binary frame.payload).complete = true) :
    receiver.data frame =
      .next (receiver.after frame.header frame.payload)
        (some (receiver.opening.1 ++ frame.payload)) := by
  have valid := Utf8.Byte.valid_of_complete _ complete
  unfold data
  simp only [fin, valid, complete, Bool.true_eq_false, and_false, if_false, if_true]

theorem Receiver.validated_of_prefix (binary : Bool) (front rest : List UInt8)
    (opened : receiver.opening.2.valid = true)
    (invalid : (receiver.validated binary front).valid = false) :
    (receiver.validated binary (front ++ rest)).valid = false := by
  unfold validated at invalid ⊢
  cases binary with
  | true => exact invalid
  | false =>
      change (receiver.opening.2.feed front).valid = false at invalid
      change (receiver.opening.2.feed (front ++ rest)).valid = false
      rw [Utf8.Byte.feed_append_rejected _ opened _ _ invalid, invalid]

private theorem Session.Loading.lands_finished (start : Connection) (rest : List UInt8)
    {session : Session} {data : List UInt8} (loading : session.Loading receiver frame.header data)
    (whole : data = xorMask frame.header.key 0 frame.payload) :
    ∃ next actions, session.read_chunk 0 false = some (next, actions) ∧
      (receiver.data frame).Outcome start rest (receiver.Crowded frame)
        ((start.move next [] rest).performs actions) := by
  have valid := loading.valid
  have done : data.length = frame.header.length := by
    rw [whole, length_xorMask]
    rfl
  have plain : xorMask frame.header.key 0 data = frame.payload := by
    rw [whole, xorMask_xorMask]
  rw [loading.utf8, plain] at valid
  cases fin : frame.fin with
  | false =>
      obtain ⟨next, result, between⟩ := loading.finished_continue done fin
      rw [plain] at between
      rw [receiver.data_continue fin valid]
      exact ⟨next, _, result, Or.inl ⟨⟨rfl, between⟩, rfl, rfl, rfl⟩⟩
  | true =>
      cases complete : (receiver.validated frame.is_binary frame.payload).complete with
      | false =>
          obtain ⟨next, result⟩ := loading.finished_incomplete done fin
            (by rw [plain]; exact complete)
          rw [receiver.data_incomplete fin complete]
          exact ⟨next, _, result, Or.inl (Verdict.lands_cancel start rest _ next 1007)⟩
      | true =>
          obtain ⟨next, request, result, bytes, between⟩ :=
            loading.finished_complete done fin (by rw [plain]; exact complete)
          rw [plain] at between bytes
          rw [receiver.data_complete fin complete]
          exact ⟨next, _, result, Or.inl ⟨⟨rfl, between⟩, rfl, rfl, ⟨request, rfl, bytes⟩⟩⟩

theorem Session.Loading.lands (start : Connection) (rest : List UInt8)
    (narrow : receiver.opening.1.length + frame.payload.length < 2 ^ 64)
    {session : Session} {data todo : List UInt8}
    (loading : session.Loading receiver frame.header data)
    (whole : data ++ todo = xorMask frame.header.key 0 frame.payload) :
    match session.read_chunk 0 false with
    | none => receiver.Crowded frame
    | some (next, actions) =>
        ∃ final, StepsWhile Connection.step (fun state => state.posted = start.posted)
            ((start.move next [] (todo ++ rest)).performs actions) final ∧
          (receiver.data frame).Outcome start rest (receiver.Crowded frame) final := by
  have length : data.length + todo.length = frame.payload.length := by
    rw [← List.length_append, whole, length_xorMask]
  -- every part read is not empty, so the rest of the payload shrinks
  induction remaining : todo.length using Nat.strong_induction_on
    generalizing session data todo with
  | _ remaining ih =>
      cases todo with
      | nil =>
          rw [List.append_nil] at whole
          obtain ⟨next, actions, result, outcome⟩ := loading.lands_finished start rest whole
          rw [result]
          exact ⟨_, StepsWhile.refl _, outcome⟩
      | cons byte more =>
          have unfinished : data.length < frame.header.length := by
            change data.length < frame.payload.length
            rw [List.length_cons] at length
            omega
          rcases loading.unfinished unfinished narrow with
            ⟨next, count, result, reading, fits⟩ | ⟨result, crowded⟩
          · have positive := reading.planned.positive
            have inside : count ≤ (byte :: more).length := by
              change data.length + count ≤ frame.payload.length at fits
              omega
            have size : ((byte :: more).take count).length = count := List.length_take_of_le inside
            have parts := List.take_append_drop count (byte :: more)
            have left : ((byte :: more).drop count).length = (byte :: more).length - count :=
              List.length_drop
            generalize (byte :: more).take count = bytes at parts size
            generalize (byte :: more).drop count = later at parts left
            have step := start.step_receive next next.chunkRead bytes (later ++ rest)
              (by rw [size, reading.count_chunkRead])
            rw [← List.append_assoc, parts] at step
            rw [result]
            change ∃ final, StepsWhile Connection.step _
              (start.move next [next.chunkRead] (byte :: more ++ rest)) final ∧ _
            rcases reading.receive bytes size with
              ⟨loaded, arrived, again⟩ | ⟨last, arrived, invalid⟩
            · have rest_ := ih later.length (by omega) again
                (by rw [List.append_assoc, parts, whole])
                (by rw [List.length_append]; omega) rfl
              rw [arrived] at step
              cases handled : loaded.read_chunk 0 false with
              | none =>
                  rw [handled] at rest_ arrived
                  have stalls := start.stalls_of_failed next next.chunkRead bytes (later ++ rest)
                    (by rw [size, reading.count_chunkRead]) arrived
                  rw [← List.append_assoc, parts] at stalls
                  exact ⟨_, StepsWhile.refl _, Or.inr ⟨rest_, stalls⟩⟩
              | some planned =>
                  rw [handled] at step rest_
                  obtain ⟨final, run, outcome⟩ := rest_
                  exact ⟨final, StepsWhile.head rfl step run, outcome⟩
            · rw [arrived] at step
              have condemned :
                  (receiver.validated frame.is_binary frame.payload).valid = false := by
                have plain :
                    xorMask frame.header.key 0 (data ++ bytes ++ later) = frame.payload := by
                  rw [List.append_assoc, parts, whole, xorMask_xorMask]
                rw [← plain, xorMask_append]
                exact Receiver.validated_of_prefix _ _ _ loading.opened invalid
              rw [receiver.data_invalid condemned]
              exact ⟨_, StepsWhile.head rfl step (StepsWhile.refl _),
                Or.inl (Verdict.lands_cancel start rest _ last 1007)⟩
          · rw [result]
            exact crowded

end Loop

theorem Connection.performs_replies (connection : Connection) (replies : List WriteOp)
    (op : ReadOp) (pings : ∀ reply ∈ replies, reply.handler = .ping) :
    ∃ writes, connection.performs (replies.map Action.async_write ++ [.async_read op]) =
        { connection with reads := connection.reads ++ [op], writes := writes } ∧
      ({ connection with writes := writes } : Connection).cancels = connection.cancels := by
  induction replies generalizing connection with
  | nil => exact ⟨connection.writes, rfl, rfl⟩
  | cons reply rest ih =>
      obtain ⟨writes, result, same⟩ := ih (connection.perform (.async_write reply))
        (fun other member => pings other (List.mem_cons_of_mem reply member))
      refine ⟨writes, result, same.trans ?_⟩
      have ping := pings reply List.mem_cons_self
      unfold perform cancels
      simp only [fresh, List.filterMap_append, List.filterMap_cons, ping, List.filterMap_nil,
        List.append_nil]

theorem Control.reason_wire (frame : Frame) (two : 2 ≤ frame.payload.length) :
    Control.reason frame.header (xorMask frame.header.key 0 frame.payload) =
      frame.payload.drop 2 := by
  have split := xorMask_append frame.header.key 0 (frame.payload.take 2) (frame.payload.drop 2)
  have size : (frame.payload.take 2).length = 2 := List.length_take_of_le two
  rw [List.take_append_drop, size] at split
  unfold reason
  rw [split, List.drop_append, length_xorMask, size,
    List.drop_of_length_le (by rw [length_xorMask, size]), Nat.sub_self, List.drop_zero,
    List.nil_append, xorMask_xorMask]

section Stages

variable {receiver : Receiver} {frame : Frame}

private theorem Session.Known.lands {session : Session} (start : Connection) (rest : List UInt8)
    (known : session.Known receiver frame.header)
    (count : session.controlRead.count = frame.header.length)
    (control : ControlOpcode frame.opcode) (short : frame.payload.length ≤ 125) :
    ∃ final, StepsWhile Connection.step (fun state => state.posted = start.posted)
        (start.move session [session.controlRead]
          (xorMask frame.header.key 0 frame.payload ++ rest)) final ∧
      (receiver.control frame).Lands start rest final := by
  have size : (xorMask frame.header.key 0 frame.payload).length = frame.payload.length :=
    length_xorMask _ _ _
  have step := start.step_receive session session.controlRead
    (xorMask frame.header.key 0 frame.payload) rest (by rw [count, size]; rfl)
  by_cases closing : frame.opcode = 0x08
  · obtain ⟨next, broken, whole⟩ := known.receive_close _ size short closing
    have reason : (2 ≤ frame.header.length ∧ ¬WellFormed (Control.reason frame.header
        (xorMask frame.header.key 0 frame.payload))) ↔
          (2 ≤ frame.payload.length ∧ ¬WellFormed (frame.payload.drop 2)) :=
      and_congr_right fun two => by rw [Control.reason_wire frame two]
    unfold Receiver.control
    rw [if_pos closing]
    by_cases wrong : 2 ≤ frame.payload.length ∧ ¬WellFormed (frame.payload.drop 2)
    · rw [broken (reason.mpr wrong)] at step
      rw [if_pos wrong]
      exact ⟨_, StepsWhile.head rfl step (StepsWhile.refl _),
        Verdict.lands_cancel start rest rest next 1007⟩
    · rw [whole (mt reason.mp wrong)] at step
      rw [if_neg wrong]
      refine ⟨_, StepsWhile.head rfl step (StepsWhile.refl _), rfl, rfl, ?_⟩
      exact List.filterMap_append.trans (List.append_nil _)
  · have other : frame.header.opcode = 0x09 ∨ frame.header.opcode = 0x0A := by
      rcases control with eight | other
      · exact absurd eight closing
      · exact other
    obtain ⟨next, replies, result, -, pings, between⟩ := known.receive_other _ other
    obtain ⟨writes, performed, same⟩ := (start.move next [] rest).performs_replies replies
      (next.headerRead 0 2) pings
    rw [result, Option.map_some, performed] at step
    unfold Receiver.control
    rw [if_neg closing]
    exact ⟨_, StepsWhile.head rfl step (StepsWhile.refl _), ⟨rfl, between⟩, rfl, same, rfl⟩

private theorem Session.Loading.outcome {session next : Session} (start : Connection)
    (rest : List UInt8) (loading : next.Loading receiver frame.header [])
    (op : ReadOp) (bytes : List UInt8) (count : bytes.length = op.count)
    (result : session.receive op bytes = next.read_chunk 0 false) :
    ∃ final, StepsWhile Connection.step (fun state => state.posted = start.posted)
        (start.move session [op] (bytes ++ (xorMask frame.header.key 0 frame.payload ++ rest)))
        final ∧
      (receiver.data frame).Outcome start rest (receiver.Crowded frame) final := by
  have step := start.step_receive session op bytes
    (xorMask frame.header.key 0 frame.payload ++ rest) count
  rw [result] at step
  by_cases narrow : receiver.opening.1.length + frame.payload.length < 2 ^ 64
  · have lands := loading.lands start rest narrow (List.nil_append _)
    cases handled : next.read_chunk 0 false with
    | none =>
        rw [handled] at lands result
        exact ⟨_, StepsWhile.refl _,
          Or.inr ⟨lands, start.stalls_of_failed session op bytes _ count result⟩⟩
    | some planned =>
        rw [handled] at step lands
        obtain ⟨final, run, outcome⟩ := lands
        exact ⟨final, StepsWhile.head rfl step run, outcome⟩
  · have wide : 2 ^ 64 ≤ receiver.opening.1.length + frame.payload.length := Nat.not_lt.mp narrow
    have crowded : receiver.Crowded frame := Nat.le_trans wide (Nat.le_add_right _ _)
    rcases loading.wrapped wide with none | ⟨last, planned, stuck⟩
    · rw [none] at result
      exact ⟨_, StepsWhile.refl _,
        Or.inr ⟨crowded, start.stalls_of_failed session op bytes _ count result⟩⟩
    · rw [planned] at step
      exact ⟨_, StepsWhile.head rfl step (StepsWhile.refl _),
        Or.inr ⟨crowded, start.stalls_of_stuck last last.chunkRead _ stuck⟩⟩

theorem Ready.first_step {start : Connection} (ready : Ready receiver start) (frame : Frame)
    (rest : List UInt8) (input : start.input = frame.wire ++ rest) :
    start.step =
      (start.session.receive (start.session.headerRead 0 2)
        [frame.header.first, frame.header.second]).map fun result =>
          (start.move result.1 []
            (frame.header.tail ++ (xorMask frame.header.key 0 frame.payload ++ rest))).performs
              result.2 := by
  have bytes : start.input = [frame.header.first, frame.header.second] ++ (frame.header.tail ++
      (xorMask frame.header.key 0 frame.payload ++ rest)) := by
    rw [input]
    unfold Frame.wire FrameHeader.wire
    simp only [List.append_assoc]
  have here : start.move start.session [start.session.headerRead 0 2]
      ([frame.header.first, frame.header.second] ++ (frame.header.tail ++
        (xorMask frame.header.key 0 frame.payload ++ rest))) = start := by
    rw [← ready.reads, ← bytes]
    rfl
  have first := start.step_receive start.session (start.session.headerRead 0 2)
    [frame.header.first, frame.header.second]
    (frame.header.tail ++ (xorMask frame.header.key 0 frame.payload ++ rest)) rfl
  rw [here] at first
  exact first

/-- The chain on one frame does what the receiver of whole frames does. -/
theorem Ready.run_frame {start : Connection} (ready : Ready receiver start) (frame : Frame)
    (rest : List UInt8) (input : start.input = frame.wire ++ rest) :
    ∃ final, StepsWhile Connection.step (fun state => state.posted = start.posted) start final ∧
      (receiver.frame frame).Outcome start rest (receiver.Crowded frame) final := by
  have first := ready.first_step frame rest input
  obtain ⟨rejected, accepted⟩ := ready.between.receive_first frame.header
  unfold Receiver.frame
  by_cases wrong : frame.rsv ≠ 0 ∨ ¬KnownOpcode frame.opcode
  · obtain ⟨next, result⟩ := rejected wrong
    rw [result] at first
    rw [if_pos wrong]
    exact ⟨_, StepsWhile.head rfl first (StepsWhile.refl _),
      Or.inl (Verdict.lands_cancel start rest _ next 1002)⟩
  · obtain ⟨next, result, begun⟩ := accepted (not_not.mp (not_or.mp wrong).1)
      (not_not.mp (not_or.mp wrong).2)
    rw [result] at first
    rw [if_neg wrong]
    by_cases refused : frame.header.second_verdict receiver.new_request ≠ 0
    · obtain ⟨last, result⟩ := begun.receive_rejected refused
      have second := start.step_receive next (next.headerRead 2 frame.header.tail.length)
        frame.header.tail (xorMask frame.header.key 0 frame.payload ++ rest) rfl
      rw [result] at second
      rw [if_pos refused]
      exact ⟨_, StepsWhile.head rfl first (StepsWhile.head rfl second (StepsWhile.refl _)),
        Or.inl (Verdict.lands_cancel start rest _ last _)⟩
    · have favourable := not_not.mp refused
      rw [if_neg refused]
      by_cases control : ControlOpcode frame.opcode
      · obtain ⟨last, result, known, count⟩ := begun.receive_control control favourable
        have second := start.step_receive next (next.headerRead 2 frame.header.tail.length)
          frame.header.tail (xorMask frame.header.key 0 frame.payload ++ rest) rfl
        rw [result] at second
        have short := (frame.header.control_of_verdict _ control favourable).2
        obtain ⟨final, run, lands⟩ := known.lands start rest count control short
        rw [if_pos control]
        exact ⟨final, StepsWhile.head rfl first (StepsWhile.head rfl second run), Or.inl lands⟩
      · obtain ⟨last, result, loading⟩ := begun.receive_data control favourable
        obtain ⟨final, run, outcome⟩ := loading.outcome start rest
          (next.headerRead 2 frame.header.tail.length) frame.header.tail rfl result
        rw [if_neg control]
        exact ⟨final, StepsWhile.head rfl first run, outcome⟩

end Stages

/-! ### Sequences of frames -/

/-- Some frame on the way crowds the chunks of its message. -/
def Receiver.Congested (receiver : Receiver) : List Frame → Prop
  | [] => False
  | frame :: rest =>
      receiver.Crowded frame ∨
        match receiver.frame frame with
        | .next next _ => next.Congested rest
        | _ => False

theorem Receiver.congested_next {receiver next : Receiver} {frame : Frame}
    {message : Option (List UInt8)} (step : receiver.frame frame = .next next message)
    (rest : List Frame) :
    receiver.Congested (frame :: rest) ↔ receiver.Crowded frame ∨ next.Congested rest := by
  rw [Congested, step]

theorem Receiver.congested_fail {receiver : Receiver} {frame : Frame} {code : UInt16}
    (step : receiver.frame frame = .fail code) (rest : List Frame) :
    receiver.Congested (frame :: rest) ↔ receiver.Crowded frame := by
  rw [Congested, step]
  simp only [or_false]

def Verdict.Settles (start : Connection) (rest : List UInt8) : Verdict → Connection → Prop
  | .next receiver _, final =>
      Ready receiver final ∧ final.input = rest ∧ final.cancels = start.cancels
  | .fail code, final => final.reads = [] ∧ final.cancels = start.cancels ++ [code]
  | .close, final => final.reads = [] ∧ final.cancels = start.cancels

def PostsAll (start final : Connection) (messages : List (List UInt8)) : Prop :=
  ∃ requests, final.posted = start.posted ++ requests ∧
    requests.map ChunkVector.bytes = messages

private theorem Posts.all {start middle final : Connection} {message : Option (List UInt8)}
    {messages : List (List UInt8)} (first : Posts start middle message)
    (later : PostsAll middle final messages) :
    PostsAll start final (message.toList ++ messages) := by
  obtain ⟨requests, posted, bytes⟩ := later
  cases message with
  | none =>
      change middle.posted = start.posted at first
      exact ⟨requests, by rw [posted, first], bytes⟩
  | some payload =>
      obtain ⟨request, grown, whole⟩ := first
      refine ⟨request :: requests, ?_, ?_⟩
      · rw [posted, grown, List.append_assoc]
        rfl
      · rw [List.map_cons, whole, bytes]
        rfl

private theorem Verdict.Settles.after {start middle final : Connection} {rest : List UInt8}
    {verdict : Verdict} (settles : verdict.Settles middle rest final)
    (same : middle.cancels = start.cancels) : verdict.Settles start rest final := by
  cases verdict with
  | next receiver message => exact ⟨settles.1, settles.2.1, settles.2.2.trans same⟩
  | fail code => exact ⟨settles.1, by rw [← same]; exact settles.2⟩
  | close => exact ⟨settles.1, settles.2.trans same⟩

/-- The chain on a sequence of frames does what the receiver of whole frames does. -/
theorem Ready.run_frames {receiver : Receiver} {start : Connection}
    (ready : Ready receiver start) (frames : List Frame) (rest : List UInt8)
    (input : start.input = Frame.stream frames ++ rest) :
    ∃ final, Steps Connection.step start final ∧
      (((receiver.frames frames).1.Settles start rest final ∧
          PostsAll start final (receiver.frames frames).2) ∨
        (receiver.Congested frames ∧ final.cancels = start.cancels ∧
          ∀ extra, (final.extend extra).step = none)) := by
  induction frames generalizing receiver start with
  | nil =>
      exact ⟨start, Steps.refl start,
        Or.inl ⟨⟨ready, input, rfl⟩, [], (List.append_nil _).symm, rfl⟩⟩
  | cons frame frames ih =>
      have bytes : start.input = frame.wire ++ (Frame.stream frames ++ rest) := by
        rw [input, Frame.stream, List.flatMap_cons, List.append_assoc]
        rfl
      obtain ⟨middle, run, outcome⟩ := ready.run_frame frame _ bytes
      rcases outcome with lands | ⟨crowded, stalls⟩
      · cases verdict : receiver.frame frame with
        | next next message =>
            rw [verdict] at lands
            rw [Receiver.frames_next verdict]
            obtain ⟨ready', input', cancels, posts⟩ := lands
            obtain ⟨final, later, outcome⟩ := ih ready' input'
            refine ⟨final, run.steps.trans later, ?_⟩
            rcases outcome with ⟨settles, all⟩ | ⟨congested, same, stuck⟩
            · exact Or.inl ⟨settles.after cancels, posts.all all⟩
            · refine Or.inr ⟨?_, same.trans cancels, stuck⟩
              exact (Receiver.congested_next verdict frames).mpr (Or.inr congested)
        | fail code =>
            rw [verdict] at lands
            rw [Receiver.frames_fail verdict]
            exact ⟨middle, run.steps, Or.inl ⟨⟨lands.1, lands.2.2⟩, [],
              by rw [lands.2.1, List.append_nil], rfl⟩⟩
        | close =>
            rw [verdict] at lands
            rw [Receiver.frames_close verdict]
            exact ⟨middle, run.steps, Or.inl ⟨⟨lands.1, lands.2.2⟩, [],
              by rw [lands.2.1, List.append_nil], rfl⟩⟩
      · exact ⟨middle, run.steps, Or.inr ⟨Or.inl crowded, stalls.cancels, stalls.halted⟩⟩

theorem Verdict.Settles.halted {start final : Connection} {verdict : Verdict}
    (settles : verdict.Settles start [] final) : final.step = none := by
  cases verdict with
  | next receiver message =>
      obtain ⟨ready, input, -⟩ := settles
      unfold Connection.step Connection.complete_read
      rw [ready.reads, input]
      rfl
  | fail code => exact final.step_idle settles.1
  | close => exact final.step_idle settles.1

end Averyws
