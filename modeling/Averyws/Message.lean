/-
Messages cut into frames.

A message is a run of data frames with pings and pongs anywhere between them.  A
text message is delivered exactly when its payload is well formed; for a binary
message the type and the exemption from validation last only for the first
frame.
-/

import Averyws.FrameRun

namespace Averyws

open Library.Bytes Library.Cells Library.Run Library.Utf8
open Utilities

/-- A ping or a pong that `Header::process` accepts. -/
structure Frame.Heartbeat (frame : Frame) : Prop where
  rsv : frame.rsv = 0
  opcode : frame.opcode = 0x09 ∨ frame.opcode = 0x0A
  fin : frame.fin = true
  short : frame.payload.length ≤ 125

/-- The frames of a message, or of its rest: the first has the given opcode, the
others continue it, and the last one ends it. -/
inductive Fragments : UInt8 → List Frame → Prop
  | last {opcode : UInt8} (frame : Frame) (rsv : frame.rsv = 0) (kind : frame.opcode = opcode)
      (fin : frame.fin = true) : Fragments opcode [frame]
  | more {opcode : UInt8} (frame : Frame) {rest : List Frame} (rsv : frame.rsv = 0)
      (kind : frame.opcode = opcode) (fin : frame.fin = false) (later : Fragments 0 rest) :
      Fragments opcode (frame :: rest)

/-- The frames of a message with pings and pongs between them. -/
inductive Interleaved : List Frame → List Frame → Prop
  | done : Interleaved [] []
  | data (frame : Frame) {frames stream : List Frame} (later : Interleaved frames stream) :
      Interleaved (frame :: frames) (frame :: stream)
  | heartbeat (frame : Frame) {frames stream : List Frame} (beat : frame.Heartbeat)
      (later : Interleaved frames stream) : Interleaved frames (frame :: stream)

theorem Interleaved.self (frames : List Frame) : Interleaved frames frames := by
  induction frames with
  | nil => exact .done
  | cons frame frames ih => exact .data frame ih

def message (frames : List Frame) : List UInt8 :=
  frames.flatMap Frame.payload

structure BetweenMessages (connection : Connection) : Prop where
  reads : connection.reads = [connection.session.headerRead 0 2]
  fresh : connection.session.temp_header_.Fresh connection.session.heap
  rsvc : connection.session.temp_header_.rsvc_ = 0
  new_request : connection.session.new_request_ = true

instance (connection : Connection) : Decidable (BetweenMessages connection) :=
  decidable_of_iff (connection.reads = [connection.session.headerRead 0 2] ∧
      connection.session.temp_header_.Fresh connection.session.heap ∧
      connection.session.temp_header_.rsvc_ = 0 ∧ connection.session.new_request_ = true)
    ⟨fun all => ⟨all.1, all.2.1, all.2.2.1, all.2.2.2⟩,
      fun all => ⟨all.reads, all.fresh, all.rsvc, all.new_request⟩⟩

def Receiver.rest (is_binary : Bool) : Receiver :=
  { new_request := true, is_binary := is_binary, utf8 := Utf8.Byte.init, payload := [] }

theorem BetweenMessages.ready {connection : Connection} (between : BetweenMessages connection) :
    Ready (Receiver.rest connection.session.header_.is_binary_) connection :=
  { reads := between.reads
    between :=
      { rsvc := between.rsvc
        new_request := between.new_request
        is_binary := rfl
        valid := Bool.noConfusion
        utf8 := Bool.noConfusion
        holds := Bool.noConfusion
        total := Bool.noConfusion
        fresh := between.fresh } }

section Receiving

variable {receiver : Receiver} {frame : Frame}

theorem Receiver.frame_heartbeat (beat : frame.Heartbeat) :
    receiver.frame frame = .next receiver none := by
  have control : ControlOpcode frame.opcode := Or.inr beat.opcode
  have known : KnownOpcode frame.opcode :=
    Or.inr (Or.inr (Or.inr (Or.inr beat.opcode)))
  have open_ : frame.opcode ≠ 0x08 := by
    rcases beat.opcode with ping | pong
    · rw [ping]; decide
    · rw [pong]; decide
  have verdict := frame.header.second_verdict_control receiver.new_request control beat.fin
    beat.short
  unfold Receiver.frame
  rw [if_neg (not_or.mpr ⟨not_not.mpr beat.rsv, not_not.mpr known⟩),
    if_neg (not_not.mpr verdict), if_pos control]
  unfold Receiver.control
  rw [if_neg open_]

private theorem data_opcode : ∀ opcode : UInt8, opcode = 0 ∨ opcode = 1 ∨ opcode = 2 →
    KnownOpcode opcode ∧ ¬ControlOpcode opcode := by
  decide +kernel

theorem Receiver.frame_data (rsv : frame.rsv = 0)
    (opcode : frame.opcode = 0 ∨ frame.opcode = 1 ∨ frame.opcode = 2)
    (continues : frame.opcode = 0 ↔ receiver.new_request = false) :
    receiver.frame frame = receiver.data frame := by
  obtain ⟨known, data⟩ := data_opcode frame.opcode opcode
  have verdict := frame.header.second_verdict_data receiver.new_request data continues
  unfold Receiver.frame
  rw [if_neg (not_or.mpr ⟨not_not.mpr rsv, not_not.mpr known⟩), if_neg (not_not.mpr verdict),
    if_neg data]

private theorem type_bit : ∀ first : UInt8,
    (first &&& 0x0F = 0 ∨ first &&& 0x0F = 1 → (first &&& 0x02 == 0x02) = false) ∧
      (first &&& 0x0F = 2 → (first &&& 0x02 == 0x02) = true) := by
  decide +kernel

theorem Frame.is_binary_text (frame : Frame) (opcode : frame.opcode = 0 ∨ frame.opcode = 1) :
    frame.is_binary = false :=
  (type_bit frame.first).1 opcode

theorem Frame.is_binary_binary (frame : Frame) (opcode : frame.opcode = 2) :
    frame.is_binary = true :=
  (type_bit frame.first).2 opcode

theorem Receiver.frames_heartbeats {stream : List Frame} (beats : Interleaved [] stream) :
    receiver.frames stream = (.next receiver none, []) := by
  induction stream with
  | nil => rfl
  | cons frame stream ih =>
      cases beats with
      | heartbeat _ beat later =>
          unfold frames
          rw [frame_heartbeat beat]
          simp only [ih later]
          rfl

end Receiving

theorem message_cons (frame : Frame) (rest : List Frame) :
    message (frame :: rest) = frame.payload ++ message rest :=
  List.flatMap_cons

theorem Receiver.opening_after (receiver : Receiver) (header : FrameHeader) (plain : List UInt8)
    (fin : header.fin = false) :
    (receiver.after header plain).opening =
      (receiver.opening.1 ++ plain, receiver.validated header.is_binary plain) := by
  unfold after
  rw [fin]
  rfl

/-- What the receiver makes of a message whose frames are validated: nothing
crowds, and the message is delivered when the validator has seen whole characters
and fails with 1007 when it has not. -/
structure Receiver.Validates (receiver : Receiver) (frames stream : List Frame) : Prop where
  roomy : ¬receiver.Congested stream
  delivered : (receiver.opening.2.feed (message frames)).complete = true →
    ∃ next, next.new_request = true ∧ next.is_binary = false ∧
      receiver.frames stream = (.next next none, [receiver.opening.1 ++ message frames])
  failed : (receiver.opening.2.feed (message frames)).complete = false →
    receiver.frames stream = (.fail 1007, [])

private theorem Receiver.roomy (receiver : Receiver) (frame : Frame)
    (fits : receiver.opening.1.length + frame.payload.length < 2 ^ 63 + 126) :
    ¬receiver.Crowded frame := by
  unfold Crowded
  omega

private theorem Receiver.roomy_heartbeats {receiver : Receiver} {stream : List Frame}
    (beats : Interleaved [] stream) (small : receiver.opening.1.length < 2 ^ 63) :
    ¬receiver.Congested stream := by
  induction stream with
  | nil => exact not_false
  | cons frame stream ih =>
      cases beats with
      | heartbeat _ beat later =>
          have short := beat.short
          rw [congested_next (receiver.frame_heartbeat beat)]
          exact not_or.mpr ⟨receiver.roomy frame (by omega), ih later⟩

theorem Receiver.validates_heartbeat {receiver : Receiver} {frames stream : List Frame}
    (frame : Frame) (beat : frame.Heartbeat)
    (small : receiver.opening.1.length + (message frames).length < 2 ^ 63)
    (rest : receiver.Validates frames stream) : receiver.Validates frames (frame :: stream) := by
  have step := receiver.frame_heartbeat beat
  have same : receiver.frames (frame :: stream) = receiver.frames stream := by
    rw [frames_next step]
    rfl
  refine ⟨?_, fun complete => ?_, fun incomplete => ?_⟩
  · have short := beat.short
    rw [congested_next step]
    exact not_or.mpr ⟨receiver.roomy frame (by omega), rest.roomy⟩
  · rw [same]
    exact rest.delivered complete
  · rw [same]
    exact rest.failed incomplete

section Validating

variable {receiver : Receiver} {frames stream : List Frame}

theorem Receiver.validated_text (receiver : Receiver) (frame : Frame)
    (text : frame.is_binary = false) :
    receiver.validated frame.is_binary frame.payload = receiver.opening.2.feed frame.payload := by
  unfold validated
  rw [text]
  rfl

theorem Receiver.validates_last (frame : Frame)
    (step : receiver.frame frame = receiver.data frame) (text : frame.is_binary = false)
    (fin : frame.fin = true)
    (small : receiver.opening.1.length + (message [frame]).length < 2 ^ 63)
    (beats : Interleaved [] stream) : receiver.Validates [frame] (frame :: stream) := by
  have whole : message [frame] = frame.payload := by
    rw [message_cons]
    exact List.append_nil _
  have validator := receiver.validated_text frame text
  rw [whole] at small
  have roomy := receiver.roomy frame (by omega)
  have ended : (receiver.after frame.header frame.payload).opening = ([], Utf8.Byte.init) := by
    unfold opening
    exact if_pos fin
  cases complete : (receiver.opening.2.feed frame.payload).complete with
  | true =>
      rw [receiver.data_complete fin (by rw [validator, complete])] at step
      refine ⟨?_, fun _ => ⟨receiver.after frame.header frame.payload, fin, text, ?_⟩, ?_⟩
      · rw [congested_next step]
        exact not_or.mpr ⟨roomy, roomy_heartbeats beats (by rw [ended]; decide)⟩
      · rw [frames_next step, frames_heartbeats beats, whole]
        rfl
      · rw [whole, complete]
        exact Bool.noConfusion
  | false =>
      rw [receiver.data_incomplete fin (by rw [validator, complete])] at step
      refine ⟨?_, ?_, fun _ => frames_fail step stream⟩
      · rw [congested_fail step]
        exact roomy
      · rw [whole, complete]
        exact Bool.noConfusion

theorem Receiver.validates_more (frame : Frame)
    (step : receiver.frame frame = receiver.data frame) (text : frame.is_binary = false)
    (fin : frame.fin = false) (opened : receiver.opening.2.valid = true)
    (small : receiver.opening.1.length + (message (frame :: frames)).length < 2 ^ 63)
    (rest : (receiver.opening.2.feed frame.payload).valid = true →
      (receiver.after frame.header frame.payload).Validates frames stream) :
    receiver.Validates (frame :: frames) (frame :: stream) := by
  have validator := receiver.validated_text frame text
  rw [message_cons, List.length_append] at small
  have roomy := receiver.roomy frame (by omega)
  cases accepted : (receiver.opening.2.feed frame.payload).valid with
  | true =>
      have later := rest accepted
      have opening := receiver.opening_after frame.header frame.payload fin
      have whole : receiver.opening.2.feed (message (frame :: frames)) =
          (receiver.after frame.header frame.payload).opening.2.feed (message frames) := by
        rw [message_cons, Utf8.Byte.feed_append _ opened _ _ accepted, opening]
        change _ = (receiver.validated frame.is_binary frame.payload).feed _
        rw [validator]
      rw [receiver.data_continue fin (by rw [validator, accepted])] at step
      refine ⟨?_, fun complete => ?_, fun incomplete => ?_⟩
      · rw [congested_next step]
        exact not_or.mpr ⟨roomy, later.roomy⟩
      · rw [whole] at complete
        obtain ⟨next, ended, binary, result⟩ := later.delivered complete
        refine ⟨next, ended, binary, ?_⟩
        rw [frames_next step, result, opening, message_cons, List.append_assoc]
        rfl
      · rw [whole] at incomplete
        rw [frames_next step, later.failed incomplete]
        rfl
  | false =>
      rw [receiver.data_invalid (by rw [validator, accepted])] at step
      refine ⟨?_, fun complete => ?_, fun _ => frames_fail step stream⟩
      · rw [congested_fail step]
        exact roomy
      · have valid := Utf8.Byte.valid_of_complete _ complete
        rw [message_cons, Utf8.Byte.feed_append_rejected _ opened _ _ accepted, accepted] at valid
        cases valid

theorem Receiver.validates {opcode : UInt8} (fragments : Fragments opcode frames)
    (interleaved : Interleaved frames stream) (text : opcode = 0 ∨ opcode = 1)
    (continues : opcode = 0 ↔ receiver.new_request = false)
    (opened : receiver.opening.2.valid = true)
    (small : receiver.opening.1.length + (message frames).length < 2 ^ 63) :
    receiver.Validates frames stream := by
  induction interleaved generalizing receiver opcode with
  | done => cases fragments
  | data frame later ih =>
      have data (opcode : frame.opcode = 0 ∨ frame.opcode = 1)
          (continues : frame.opcode = 0 ↔ receiver.new_request = false) (rsv : frame.rsv = 0) :
          receiver.frame frame = receiver.data frame :=
        receiver.frame_data rsv (by rcases opcode with zero | one
                                    · exact Or.inl zero
                                    · exact Or.inr (Or.inl one)) continues
      cases fragments with
      | last _ rsv kind fin =>
          subst kind
          exact validates_last frame (data text continues rsv) (frame.is_binary_text text) fin
            small later
      | more _ rsv kind fin rest =>
          subst kind
          have binary := frame.is_binary_text text
          refine validates_more frame (data text continues rsv) binary fin opened small
            fun accepted => ?_
          have opening := receiver.opening_after frame.header frame.payload fin
          refine ih rest (Or.inl rfl) ⟨fun _ => fin, fun _ => rfl⟩ ?_ ?_
          · rw [opening]
            change (receiver.validated frame.is_binary frame.payload).valid = true
            rw [receiver.validated_text frame binary, accepted]
          · rw [opening, List.length_append, Nat.add_assoc, ← List.length_append, ← message_cons]
            exact small
  | heartbeat frame beat later ih =>
      exact validates_heartbeat frame beat small (ih fragments text continues opened small)

end Validating

/-! ### Text messages -/

/-- A session whose handshake has just been answered. -/
def Connection.established (input : List UInt8) : Connection :=
  let (session, actions) := { Session.init with new_request_ := true }.read_header
  Connection.performs
    { session := session, starting := false, reads := [], writes := [], wire := []
      handshake_end := some 0, input := input, posted := [] } actions

theorem established_between (input : List UInt8) :
    BetweenMessages (Connection.established input) where
  reads := rfl
  fresh := Header.fresh_new_buffer Header.init Store.empty
  rsvc := rfl
  new_request := rfl

private theorem posted_one {start final : Connection} {payload : List UInt8}
    (all : PostsAll start final [payload]) :
    ∃ request, final.posted = start.posted ++ [request] ∧ request.bytes = payload := by
  obtain ⟨requests, posted, bytes⟩ := all
  obtain ⟨request, rfl, whole⟩ := List.map_eq_singleton_iff.mp bytes
  exact ⟨request, posted, whole⟩

private theorem posted_none {start final : Connection} (all : PostsAll start final []) :
    final.posted = start.posted := by
  obtain ⟨requests, posted, bytes⟩ := all
  rw [posted, List.map_eq_nil_iff.mp bytes, List.append_nil]

/-- A text message in any number of frames, with pings and pongs between them, is
posted exactly when its payload is well formed; then the request holds the
payload, and otherwise the session cancels with 1007. -/
theorem text_message_posted {start : Connection} (between : BetweenMessages start)
    {frames stream : List Frame} (fragments : Fragments 1 frames)
    (interleaved : Interleaved frames stream) (size : (message frames).length < 2 ^ 63)
    (input : start.input = Frame.stream stream) :
    ∃ final, Ends Connection.step start final ∧
      ((∃ request, final.posted = start.posted ++ [request]) ↔ WellFormed (message frames)) ∧
      (WellFormed (message frames) → ∃ request, final.posted = start.posted ++ [request] ∧
        request.bytes = message frames ∧ final.cancels = start.cancels) ∧
      (¬WellFormed (message frames) → final.posted = start.posted ∧
        final.cancels = start.cancels ++ [1007]) := by
  have ready := between.ready
  obtain ⟨final, run, outcome⟩ :=
    ready.run_frames stream [] (by rw [List.append_nil, input])
  have validates :
      (Receiver.rest start.session.header_.is_binary_).Validates frames stream := by
    refine Receiver.validates fragments interleaved (Or.inr rfl)
      ⟨fun zero => absurd zero (by decide), Bool.noConfusion⟩ rfl ?_
    change 0 + (message frames).length < 2 ^ 63
    omega
  have formed : (Utf8.Byte.init.feed (message frames)).complete = true ↔
      WellFormed (message frames) := Utf8.Byte.feed_init_complete_iff _
  rcases outcome with ⟨settles, posts⟩ | ⟨congested, -⟩
  · have halted := settles.halted
    refine ⟨final, ⟨run, halted⟩, ?_⟩
    cases complete : (Utf8.Byte.init.feed (message frames)).complete with
    | true =>
        have well := formed.mp complete
        obtain ⟨next, -, -, result⟩ := validates.delivered complete
        rw [result] at settles posts
        obtain ⟨request, posted, bytes⟩ := posted_one posts
        exact ⟨⟨fun _ => well, fun _ => ⟨request, posted⟩⟩,
          fun _ => ⟨request, posted, bytes, settles.2.2⟩, fun broken => absurd well broken⟩
    | false =>
        have broken : ¬WellFormed (message frames) := by
          intro well
          rw [formed.mpr well] at complete
          cases complete
        rw [validates.failed complete] at settles posts
        have posted := posted_none posts
        refine ⟨⟨?_, fun well => absurd well broken⟩, fun well => absurd well broken,
          fun _ => ⟨posted, settles.2⟩⟩
        rintro ⟨request, grown⟩
        rw [posted] at grown
        exact absurd (List.self_eq_append_right.mp grown) (List.cons_ne_nil _ _)
  · exact absurd congested validates.roomy

theorem text_message_posted_split :
    ∃ final request, Ends Connection.step
        (Connection.established (Frame.stream
          [.short 0x01 (some #v[1, 2, 3, 4]) [0xC3] (by decide), .short 0x89 none [] (by decide),
            .short 0x80 none [0xA9] (by decide)])) final ∧
      final.posted = [request] ∧ request.bytes = [0xC3, 0xA9] := by
  have result := text_message_posted (established_between (Frame.stream
      [.short 0x01 (some #v[1, 2, 3, 4]) [0xC3] (by decide), .short 0x89 none [] (by decide),
        .short 0x80 none [0xA9] (by decide)]))
    (.more (.short 0x01 (some #v[1, 2, 3, 4]) [0xC3] (by decide)) rfl rfl rfl
      (.last (.short 0x80 none [0xA9] (by decide)) rfl rfl rfl))
    (.data _ (.heartbeat (.short 0x89 none [] (by decide)) ⟨rfl, Or.inl rfl, rfl, by decide⟩
      (.data _ .done))) (by decide) rfl
  obtain ⟨final, ends, -, delivered, -⟩ := result
  obtain ⟨request, posted, bytes, -⟩ := delivered (by decide)
  exact ⟨final, request, ends, posted, bytes⟩

/-! ### Binary messages -/

/-- The message is posted as it is and announced to the dealer as binary. -/
def DeliversBinary (start : Connection) (payload : List UInt8) : Prop :=
  ∃ final request, Ends Connection.step start final ∧ final.cancels = start.cancels ∧
    final.posted = start.posted ++ [request] ∧ request.bytes = payload ∧
    (final.session.request request).head? = some (.send_open true)

theorem Session.head_request (session : Session) (request : ChunkVector) :
    (session.request request).head? = some (.send_open session.header_.is_binary_) :=
  rfl

section Binary

variable {frame : Frame} {rest : List Frame} (binary : Bool) (rsv : frame.rsv = 0)
  (opcode : frame.opcode = 2)

include rsv opcode

private theorem first_binary :
    (Receiver.rest binary).frame frame = (Receiver.rest binary).data frame ∧
      (Receiver.rest binary).validated frame.is_binary frame.payload = Utf8.Byte.init := by
  constructor
  · refine Receiver.frame_data rsv (Or.inr (Or.inr opcode)) ⟨fun zero => ?_, Bool.noConfusion⟩
    rw [opcode] at zero
    cases zero
  · unfold Receiver.validated
    rw [frame.is_binary_binary opcode]
    rfl

theorem Receiver.frame_binary_whole (fin : frame.fin = true)
    (size : frame.payload.length < 2 ^ 63) :
    ¬(Receiver.rest binary).Congested [frame] ∧ ∃ next, next.is_binary = true ∧
      (Receiver.rest binary).frames [frame] = (.next next none, [frame.payload]) := by
  obtain ⟨step, validator⟩ := first_binary binary rsv opcode
  rw [Receiver.data_complete fin (by rw [validator]; rfl)] at step
  refine ⟨?_, (Receiver.rest binary).after frame.header frame.payload,
    frame.is_binary_binary opcode, ?_⟩
  · rw [congested_next step]
    refine not_or.mpr ⟨?_, not_false⟩
    change ¬2 ^ 64 ≤ 0 + frame.payload.length + 1024
    omega
  · rw [frames_next step]
    rfl

theorem Receiver.frame_binary_cut (fin : frame.fin = false) (later : Fragments 0 rest)
    (size : (message (frame :: rest)).length < 2 ^ 63) :
    ¬(Receiver.rest binary).Congested (frame :: rest) ∧
      ((∃ next messages, next.is_binary = false ∧
          (Receiver.rest binary).frames (frame :: rest) = (.next next none, messages)) ∨
        (Receiver.rest binary).frames (frame :: rest) = (.fail 1007, [])) := by
  obtain ⟨step, validator⟩ := first_binary binary rsv opcode
  rw [message_cons, List.length_append] at size
  have opening := (Receiver.rest binary).opening_after frame.header frame.payload fin
  have accepted :
      ((Receiver.rest binary).validated frame.is_binary frame.payload).valid = true := by
    rw [validator]
    rfl
  rw [Receiver.data_continue fin accepted] at step
  have validates :
      ((Receiver.rest binary).after frame.header frame.payload).Validates rest rest := by
    refine Receiver.validates later (Interleaved.self rest) (Or.inl rfl)
      ⟨fun _ => fin, fun _ => rfl⟩ (by rw [opening]; exact accepted) ?_
    rw [opening]
    exact size
  have roomy : ¬(Receiver.rest binary).Crowded frame := by
    unfold Crowded
    change ¬2 ^ 64 ≤ 0 + frame.payload.length + 1024
    omega
  refine ⟨?_, ?_⟩
  · rw [congested_next step]
    exact not_or.mpr ⟨roomy, validates.roomy⟩
  · rw [frames_next step]
    cases complete : (((Receiver.rest binary).after frame.header frame.payload).opening.2.feed
        (message rest)).complete with
    | true =>
        obtain ⟨next, -, text, result⟩ := validates.delivered complete
        rw [result]
        exact Or.inl ⟨next, _, text, rfl⟩
    | false =>
        rw [validates.failed complete]
        exact Or.inr rfl

end Binary

theorem not_deliversBinary_cut {start : Connection} (between : BetweenMessages start)
    {frame : Frame} {rest : List Frame} (rsv : frame.rsv = 0) (opcode : frame.opcode = 2)
    (fin : frame.fin = false) (later : Fragments 0 rest)
    (size : (message (frame :: rest)).length < 2 ^ 63)
    (input : start.input = Frame.stream (frame :: rest)) :
    ¬DeliversBinary start (message (frame :: rest)) := by
  rintro ⟨final, request, ends, cancels, -, -, announced⟩
  obtain ⟨last, run, outcome⟩ :=
    between.ready.run_frames (frame :: rest) [] (by rw [List.append_nil, input])
  obtain ⟨roomy, verdict⟩ :=
    Receiver.frame_binary_cut start.session.header_.is_binary_ rsv opcode fin later size
  rcases outcome with ⟨settles, -⟩ | ⟨congested, -⟩
  · have same := ends.unique ⟨run, settles.halted⟩
    subst same
    rcases verdict with ⟨next, messages, text, result⟩ | result
    · rw [result] at settles
      rw [Session.head_request, settles.1.between.is_binary, text] at announced
      cases announced
    · rw [result] at settles
      rw [settles.2] at cancels
      exact absurd (List.append_right_eq_self.mp cancels) (List.cons_ne_nil _ _)
  · exact roomy congested

/-- A binary message is delivered as binary exactly when it comes in one frame: the
type and the validation follow each frame, not the first one. -/
theorem deliversBinary_iff_unfragmented {start : Connection} (between : BetweenMessages start)
    {frames : List Frame} (fragments : Fragments 2 frames)
    (size : (message frames).length < 2 ^ 63) (input : start.input = Frame.stream frames) :
    DeliversBinary start (message frames) ↔ frames.length = 1 := by
  cases fragments with
  | last frame rsv opcode fin =>
      refine ⟨fun _ => rfl, fun _ => ?_⟩
      obtain ⟨final, run, outcome⟩ :=
        between.ready.run_frames [frame] [] (by rw [List.append_nil, input])
      have whole : message [frame] = frame.payload := by
        rw [message_cons]
        exact List.append_nil _
      rw [whole] at size ⊢
      obtain ⟨roomy, next, binary, result⟩ :=
        Receiver.frame_binary_whole start.session.header_.is_binary_ rsv opcode fin size
      rcases outcome with ⟨settles, posts⟩ | ⟨congested, -⟩
      · have halted := settles.halted
        rw [result] at settles posts
        obtain ⟨request, posted, bytes⟩ := posted_one posts
        refine ⟨final, request, ⟨run, halted⟩, settles.2.2, posted, bytes, ?_⟩
        rw [Session.head_request, settles.1.between.is_binary, binary]
      · exact absurd congested roomy
  | more frame rsv opcode fin later =>
      constructor
      · intro delivers
        exact absurd delivers (not_deliversBinary_cut between rsv opcode fin later size input)
      · intro one
        cases later <;> cases one

theorem unfragmented_binary_delivered :
    DeliversBinary
      (Connection.established (Frame.stream [.short 0x82 none [0x80] (by decide)]))
      (message [.short 0x82 none [0x80] (by decide)]) :=
  (deliversBinary_iff_unfragmented (established_between _)
    (.last (.short 0x82 none [0x80] (by decide)) rfl rfl rfl) (by decide) rfl).mpr rfl

/-- The one-byte message 0x80 cut before its last, empty frame. -/
theorem fragmented_binary_message_fails :
    ¬DeliversBinary
      (Connection.established (Frame.stream
        [.short 0x02 none [0x80] (by decide), .short 0x80 none [] (by decide)]))
      (message [.short 0x02 none [0x80] (by decide), .short 0x80 none [] (by decide)]) :=
  not_deliversBinary_cut (established_between _) rfl rfl rfl
    (.last (.short 0x80 none [] (by decide)) rfl rfl rfl) (by decide) rfl

end Averyws
