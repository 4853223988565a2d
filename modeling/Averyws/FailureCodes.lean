/-
The codes of `cancel_socket`.

`firstViolation` reads a sequence of frames as the protocol does: what breaks the
framing, and what breaks the encoding of a text message or of the reason of a
close frame.  The session's codes follow it except on two kinds of frames.
-/

import Averyws.Message

namespace Averyws

open Library.Bytes Library.Run Library.Utf8
open Utilities

inductive Violation
  | utf8
  | framing
  deriving DecidableEq

/-- The message under way: whether it is binary, and its payload so far. -/
abbrev Pending := Option (Bool × List UInt8)

def insideBinary : Pending → Bool
  | some (binary, _) => binary
  | none => false

instance (bytes : List UInt8) : Decidable (∃ rest, WellFormed (bytes ++ rest)) :=
  decidable_of_iff _ (Utf8.Byte.feed_init_valid_iff bytes)

def payloadViolation (binary : Bool) (payload : List UInt8) (fin : Bool) : Option Violation :=
  if binary then none
  else if fin then
    if WellFormed payload then none else some .utf8
  else if ∃ rest, WellFormed (payload ++ rest) then none
  else some .utf8

def Frame.violation (frame : Frame) (pending : Pending) : Option Violation :=
  if frame.rsv ≠ 0 ∨ ¬KnownOpcode frame.opcode then some .framing
  else if ControlOpcode frame.opcode then
    if frame.fin = false ∨ frame.payload.length > 125 then some .framing
    else if frame.opcode = 0x08 ∧ 2 ≤ frame.payload.length ∧
        ¬WellFormed (frame.payload.drop 2) then some .utf8
    else none
  else
    match pending with
    | none =>
        if frame.opcode = 0 then some .framing
        else payloadViolation (frame.opcode == 2) frame.payload frame.fin
    | some (binary, payload) =>
        if frame.opcode ≠ 0 then some .framing
        else payloadViolation binary (payload ++ frame.payload) frame.fin

def Frame.pending (frame : Frame) (pending : Pending) : Pending :=
  if ControlOpcode frame.opcode then pending
  else if frame.fin then none
  else
    match pending with
    | none => some (frame.opcode == 2, frame.payload)
    | some (binary, payload) => some (binary, payload ++ frame.payload)

def firstViolation (pending : Pending) : List Frame → Option Violation
  | [] => none
  | frame :: rest =>
      match frame.violation pending with
      | some violation => some violation
      | none => firstViolation (frame.pending pending) rest

def pendingAfter (pending : Pending) : List Frame → Pending
  | [] => pending
  | frame :: rest => pendingAfter (frame.pending pending) rest

/-! ### The receiver against the protocol -/

/-- The receiver knows the message under way; of a binary message it only knows
that there is one. -/
structure Receiver.Agrees (receiver : Receiver) (pending : Pending) : Prop where
  between : receiver.new_request = true ↔ pending = none
  valid : receiver.opening.2.valid = true
  text : ∀ payload, pending = some (false, payload) →
    receiver.opening.2 = Utf8.Byte.init.feed payload

private theorem valid_iff (payload : List UInt8) :
    (Utf8.Byte.init.feed payload).valid = true ↔ ∃ rest, WellFormed (payload ++ rest) :=
  Utf8.Byte.feed_init_valid_iff payload

private theorem complete_iff (payload : List UInt8) :
    (Utf8.Byte.init.feed payload).complete = true ↔ WellFormed payload :=
  Utf8.Byte.feed_init_complete_iff payload

theorem payloadViolation_text (payload : List UInt8) (fin : Bool) :
    payloadViolation false payload fin =
      if (Utf8.Byte.init.feed payload).valid = false ∨
          (fin = true ∧ (Utf8.Byte.init.feed payload).complete = false) then some .utf8
      else none := by
  unfold payloadViolation
  rw [if_neg Bool.noConfusion]
  have complete := complete_iff payload
  have valid := valid_iff payload
  have whole := Utf8.Byte.valid_of_complete (Utf8.Byte.init.feed payload)
  cases fin with
  | true =>
      rw [if_pos rfl]
      cases ended : (Utf8.Byte.init.feed payload).complete with
      | true =>
          rw [if_pos (complete.mp ended), if_neg]
          rintro (invalid | ⟨-, unfinished⟩)
          · rw [whole ended] at invalid
            cases invalid
          · cases unfinished
      | false =>
          rw [if_neg (fun formed => by rw [complete.mpr formed] at ended; cases ended),
            if_pos (Or.inr ⟨rfl, rfl⟩)]
  | false =>
      rw [if_neg Bool.noConfusion]
      cases begun : (Utf8.Byte.init.feed payload).valid with
      | true =>
          rw [if_pos (valid.mp begun), if_neg]
          rintro (invalid | ⟨unfinished, -⟩)
          · cases invalid
          · cases unfinished
      | false =>
          rw [if_neg (fun formed => by rw [valid.mpr formed] at begun; cases begun),
            if_pos (Or.inl rfl)]

theorem payloadViolation_binary (payload : List UInt8) (fin : Bool) :
    payloadViolation true payload fin = none :=
  if_pos rfl

section Frames

variable {receiver : Receiver} {frame : Frame} {pending : Pending}

private theorem opcode_cases : ∀ opcode : UInt8, KnownOpcode opcode → ¬ControlOpcode opcode →
    opcode = 0 ∨ opcode = 1 ∨ opcode = 2 := by
  decide +kernel

theorem Receiver.Agrees.violation_data (agrees : receiver.Agrees pending)
    (accepts : receiver.Accepts frame) (data : ¬ControlOpcode frame.opcode) :
    frame.violation pending =
      if insideBinary pending then none
      else if (receiver.validated frame.is_binary frame.payload).valid = false ∨
          (frame.fin = true ∧
            (receiver.validated frame.is_binary frame.payload).complete = false) then
        some Violation.utf8
      else none := by
  have order := accepts.data data
  unfold Frame.violation
  rw [if_neg (not_or.mpr ⟨not_not.mpr accepts.rsv, not_not.mpr accepts.known⟩), if_neg data]
  cases pending with
  | none =>
      have between : receiver.new_request = true := agrees.between.mpr rfl
      have opening : receiver.opening.2 = Utf8.Byte.init := by
        unfold opening
        rw [if_pos between]
      have started : frame.opcode ≠ 0 := by
        intro zero
        rw [order.mp zero] at between
        cases between
      change (if frame.opcode = 0 then some .framing
        else payloadViolation (frame.opcode == 2) frame.payload frame.fin) = _
      rw [if_neg started]
      unfold insideBinary
      rw [if_neg Bool.noConfusion]
      rcases opcode_cases frame.opcode accepts.known data with zero | one | two
      · exact absurd zero started
      · have text := frame.is_binary_text (Or.inr one)
        rw [one, receiver.validated_text frame text, opening]
        exact payloadViolation_text frame.payload frame.fin
      · have validator : receiver.validated frame.is_binary frame.payload = Utf8.Byte.init := by
          unfold validated
          rw [frame.is_binary_binary two, opening]
          rfl
        rw [two, validator, if_neg]
        · exact payloadViolation_binary frame.payload frame.fin
        · rintro (invalid | ⟨-, incomplete⟩)
          · cases invalid
          · cases incomplete
  | some message =>
      obtain ⟨binary, payload⟩ := message
      have inside : receiver.new_request = false := by
        rw [← Bool.not_eq_true, agrees.between]
        exact Option.some_ne_none _
      have continuation : frame.opcode = 0 := order.mpr inside
      have text := frame.is_binary_text (Or.inl continuation)
      change (if frame.opcode ≠ 0 then some .framing
        else payloadViolation binary (payload ++ frame.payload) frame.fin) = _
      rw [if_neg (not_not.mpr continuation)]
      unfold insideBinary
      cases binary with
      | true => exact payloadViolation_binary _ _
      | false =>
          have opening := agrees.text payload rfl
          have valid := agrees.valid
          rw [opening] at valid
          rw [if_neg Bool.noConfusion, receiver.validated_text frame text, opening,
            payloadViolation_text,
            Utf8.Byte.feed_append Utf8.Byte.init rfl payload frame.payload valid]

def Faithful (code : UInt16) (violation : Option Violation) : Prop :=
  (code = 1007 ↔ violation = some .utf8) ∧ (code = 1002 ↔ violation = some .framing)

private theorem faithful_framing : Faithful 1002 (some .framing) := by
  unfold Faithful
  decide

private theorem faithful_utf8 : Faithful 1007 (some .utf8) := by
  unfold Faithful
  decide

/-- The two kinds of frames whose code is wrong: a control frame that is not final,
and a continuation of a binary message. -/
def Misjudged (frame : Frame) (pending : Pending) : Prop :=
  (ControlOpcode frame.opcode ∧ frame.rsv = 0 ∧ frame.fin = false) ∨
    (frame.opcode = 0 ∧ frame.rsv = 0 ∧ insideBinary pending = true)

theorem Receiver.Agrees.refused {code : UInt16} (agrees : receiver.Agrees pending)
    (refuses : receiver.Refuses frame code) :
    Faithful code (frame.violation pending) ↔ ¬Misjudged frame pending := by
  cases refuses with
  | rsv wrong =>
      have violation : frame.violation pending = some .framing := if_pos (Or.inl wrong)
      rw [violation]
      refine ⟨fun _ => ?_, fun _ => faithful_framing⟩
      rintro (⟨-, rsv, -⟩ | ⟨-, rsv, -⟩)
      · exact wrong rsv
      · exact wrong rsv
  | opcode reserved =>
      have violation : frame.violation pending = some .framing := if_pos (Or.inr reserved)
      rw [violation]
      refine ⟨fun _ => ?_, fun _ => faithful_framing⟩
      rintro (⟨control, -⟩ | ⟨zero, -⟩)
      · exact reserved (Or.inr (Or.inr (Or.inr control)))
      · exact reserved (Or.inl zero)
  | fin rsv control unfinished =>
      have known : KnownOpcode frame.opcode := Or.inr (Or.inr (Or.inr control))
      have violation : frame.violation pending = some .framing := by
        unfold Frame.violation
        rw [if_neg (not_or.mpr ⟨not_not.mpr rsv, not_not.mpr known⟩), if_pos control,
          if_pos (Or.inl unfinished)]
      rw [violation]
      refine ⟨fun faithful => ?_, fun judged => absurd (Or.inl ⟨control, rsv, unfinished⟩) judged⟩
      exact absurd (faithful.1.mp rfl) (by decide)
  | long control fin large =>
      have zero : frame.opcode ≠ 0 := by
        intro zero
        rw [zero] at control
        exact absurd control (by decide)
      have violation : frame.violation pending = some .framing := by
        unfold Frame.violation
        by_cases wrong : frame.rsv ≠ 0 ∨ ¬KnownOpcode frame.opcode
        · rw [if_pos wrong]
        · rw [if_neg wrong, if_pos control, if_pos (Or.inr large)]
      rw [violation]
      refine ⟨fun _ => ?_, fun _ => faithful_framing⟩
      rintro (⟨-, -, unfinished⟩ | ⟨continuation, -⟩)
      · rw [fin] at unfinished
        cases unfinished
      · exact zero continuation
  | order known data mixed =>
      have violation : frame.violation pending = some .framing := by
        unfold Frame.violation
        by_cases wrong : frame.rsv ≠ 0 ∨ ¬KnownOpcode frame.opcode
        · rw [if_pos wrong]
        · rw [if_neg wrong, if_neg data]
          cases pending with
          | none =>
              have between := agrees.between.mpr rfl
              have zero : frame.opcode = 0 := by
                by_contra other
                apply mixed
                rw [between]
                exact ⟨fun zero => absurd zero other, Bool.noConfusion⟩
              exact if_pos zero
          | some message =>
              have inside : receiver.new_request = false := by
                rw [← Bool.not_eq_true, agrees.between]
                exact Option.some_ne_none _
              exact if_pos fun zero => mixed ⟨fun _ => inside, fun _ => zero⟩
      rw [violation]
      refine ⟨fun _ => ?_, fun _ => faithful_framing⟩
      rintro (⟨control, -⟩ | ⟨zero, -, inside⟩)
      · exact data control
      · apply mixed
        refine ⟨fun _ => ?_, fun _ => zero⟩
        rw [← Bool.not_eq_true, agrees.between]
        intro none
        rw [none] at inside
        cases inside

/-- The code of a frame on which the receiver fails is the kind of its violation,
except on the misjudged frames. -/
theorem Receiver.Agrees.failed {code : UInt16} (agrees : receiver.Agrees pending)
    (failed : receiver.frame frame = .fail code) :
    Faithful code (frame.violation pending) ↔ ¬Misjudged frame pending := by
  rcases receiver.accepts_or_refuses frame with ⟨accepts, step⟩ | ⟨other, refuses, step⟩
  · by_cases control : ControlOpcode frame.opcode
    · obtain ⟨fin, short⟩ := accepts.control control
      rw [if_pos control, failed] at step
      unfold Receiver.control at step
      have closing : frame.opcode = 0x08 := by
        by_contra other
        rw [if_neg other] at step
        cases step
      have broken : 2 ≤ frame.payload.length ∧ ¬WellFormed (frame.payload.drop 2) := by
        by_contra whole
        rw [if_pos closing, if_neg whole] at step
        cases step
      rw [if_pos closing, if_pos broken] at step
      cases step
      have violation : frame.violation pending = some .utf8 := by
        unfold Frame.violation
        rw [if_neg (not_or.mpr ⟨not_not.mpr accepts.rsv, not_not.mpr accepts.known⟩),
          if_pos control, if_neg, if_pos ⟨closing, broken⟩]
        rintro (unfinished | long)
        · rw [fin] at unfinished
          cases unfinished
        · omega
      rw [violation]
      refine ⟨fun _ => ?_, fun _ => faithful_utf8⟩
      rintro (⟨-, -, unfinished⟩ | ⟨zero, -⟩)
      · rw [fin] at unfinished
        cases unfinished
      · rw [zero] at closing
        cases closing
    · rw [if_neg control, failed] at step
      rw [agrees.violation_data accepts control]
      rcases receiver.data_cases frame with ⟨result, invalid⟩ | ⟨-, -, result⟩
      · rw [result] at step
        cases step
        rw [if_pos invalid]
        cases inside : insideBinary pending with
        | true =>
            refine ⟨fun faithful => absurd (faithful.1.mp rfl) (by decide),
              fun judged => absurd (Or.inr ⟨?_, accepts.rsv, inside⟩) judged⟩
            apply (accepts.data control).mpr
            rw [← Bool.not_eq_true, agrees.between]
            intro none
            rw [none] at inside
            cases inside
        | false =>
            refine ⟨fun _ => ?_, fun _ => faithful_utf8⟩
            rintro (⟨wrong, -⟩ | ⟨-, -, other⟩)
            · exact control wrong
            · rw [inside] at other
              cases other
      · rw [result] at step
        cases step
  · rw [failed] at step
    cases step
    exact agrees.refused refuses

private theorem Receiver.Agrees.after (agrees : receiver.Agrees pending)
    (accepts : receiver.Accepts frame) (data : ¬ControlOpcode frame.opcode)
    (valid : (receiver.validated frame.is_binary frame.payload).valid = true) :
    (receiver.after frame.header frame.payload).Agrees (frame.pending pending) := by
  have order := accepts.data data
  unfold Frame.pending
  rw [if_neg data]
  cases fin : frame.fin with
  | true =>
      rw [if_pos rfl]
      have opening : (receiver.after frame.header frame.payload).opening =
          ([], Utf8.Byte.init) := by
        unfold Receiver.opening
        exact if_pos fin
      refine ⟨⟨fun _ => rfl, fun _ => fin⟩, ?_, fun payload under => by cases under⟩
      rw [opening]
      rfl
  | false =>
      rw [if_neg Bool.noConfusion]
      have opening := receiver.opening_after frame.header frame.payload fin
      have ongoing : (receiver.after frame.header frame.payload).new_request = false := fin
      have validated : (receiver.after frame.header frame.payload).opening.2 =
          receiver.validated frame.is_binary frame.payload := by
        rw [opening]
        rfl
      refine ⟨?_, by rw [validated, valid], ?_⟩
      · rw [ongoing]
        refine ⟨Bool.noConfusion, fun none => ?_⟩
        cases pending <;> cases none
      · intro payload under
        rw [validated]
        cases pending with
        | none =>
            have between : receiver.new_request = true := agrees.between.mpr rfl
            have first : receiver.opening.2 = Utf8.Byte.init := by
              unfold Receiver.opening
              rw [if_pos between]
            have start : frame.opcode = 1 := by
              rcases opcode_cases frame.opcode accepts.known data with zero | one | two
              · rw [order.mp zero] at between
                cases between
              · exact one
              · rw [two] at under
                cases under
            have whole : frame.payload = payload := congrArg Prod.snd (Option.some.inj under)
            rw [receiver.validated_text frame (frame.is_binary_text (Or.inr start)), first, whole]
        | some message =>
            obtain ⟨binary, before⟩ := message
            have inside : receiver.new_request = false := by
              rw [← Bool.not_eq_true, agrees.between]
              exact Option.some_ne_none _
            cases under
            have first := agrees.text before rfl
            have begun := agrees.valid
            rw [first] at begun
            rw [receiver.validated_text frame (frame.is_binary_text (Or.inl (order.mpr inside))),
              first, Utf8.Byte.feed_append Utf8.Byte.init rfl before frame.payload begun]

theorem Receiver.Agrees.next {next : Receiver} {message : Option (List UInt8)}
    (agrees : receiver.Agrees pending) (step : receiver.frame frame = .next next message) :
    frame.violation pending = none ∧ next.Agrees (frame.pending pending) := by
  rcases receiver.accepts_or_refuses frame with ⟨accepts, taken⟩ | ⟨code, refuses, taken⟩
  · rw [step] at taken
    by_cases control : ControlOpcode frame.opcode
    · obtain ⟨fin, short⟩ := accepts.control control
      rw [if_pos control] at taken
      unfold Receiver.control at taken
      have open_ : frame.opcode ≠ 0x08 := by
        intro closing
        rw [if_pos closing] at taken
        split at taken <;> cases taken
      rw [if_neg open_] at taken
      cases taken
      unfold Frame.violation Frame.pending
      rw [if_neg (not_or.mpr ⟨not_not.mpr accepts.rsv, not_not.mpr accepts.known⟩),
        if_pos control, if_pos control, if_neg, if_neg (fun closing => open_ closing.1)]
      · exact ⟨rfl, agrees⟩
      · rintro (unfinished | long)
        · rw [fin] at unfinished
          cases unfinished
        · omega
    · rw [if_neg control] at taken
      rcases receiver.data_cases frame with ⟨result, -⟩ | ⟨valid, complete, result⟩
      · rw [result] at taken
        cases taken
      · rw [result] at taken
        cases taken
        refine ⟨?_, agrees.after accepts control valid⟩
        rw [agrees.violation_data accepts control]
        split
        · rfl
        · rw [if_neg]
          rintro (invalid | ⟨fin, incomplete⟩)
          · rw [valid] at invalid
            cases invalid
          · rw [complete fin] at incomplete
            cases incomplete
  · rw [step] at taken
    cases taken

end Frames

theorem Receiver.frames_append (receiver : Receiver) (front rest : List Frame) :
    (receiver.frames (front ++ rest)).1 =
      match (receiver.frames front).1 with
      | .next next _ => (next.frames rest).1
      | verdict => verdict := by
  induction front generalizing receiver with
  | nil => rfl
  | cons frame front ih =>
      rw [List.cons_append]
      cases step : receiver.frame frame with
      | next next message => rw [frames_next step, frames_next step, ih]
      | fail code => rw [frames_fail step, frames_fail step]
      | close => rw [frames_close step, frames_close step]

theorem Receiver.Agrees.survives {receiver next : Receiver} {pending : Pending}
    {message : Option (List UInt8)} (agrees : receiver.Agrees pending) (front rest : List Frame)
    (step : (receiver.frames front).1 = .next next message) :
    next.Agrees (pendingAfter pending front) ∧
      firstViolation pending (front ++ rest) =
        firstViolation (pendingAfter pending front) rest := by
  induction front generalizing receiver pending with
  | nil =>
      cases step
      exact ⟨agrees, rfl⟩
  | cons frame front ih =>
      cases taken : receiver.frame frame with
      | next middle message =>
          rw [frames_next taken] at step
          obtain ⟨quiet, agrees'⟩ := agrees.next taken
          obtain ⟨final, same⟩ := ih agrees' step
          refine ⟨final, ?_⟩
          rw [List.cons_append, firstViolation, quiet]
          exact same
      | fail code =>
          rw [frames_fail taken] at step
          cases step
      | close =>
          rw [frames_close taken] at step
          cases step

def Fails (start : Connection) (frames : List Frame) (code : UInt16) : Prop :=
  ∃ final, Ends Connection.step { start with input := Frame.stream frames } final ∧
    final.cancels = start.cancels ++ [code]

theorem BetweenMessages.with_input {start : Connection} (between : BetweenMessages start)
    (input : List UInt8) : BetweenMessages { start with input := input } :=
  ⟨between.reads, between.fresh, between.rsvc, between.new_request⟩

theorem Receiver.rest_agrees (is_binary : Bool) : (Receiver.rest is_binary).Agrees none :=
  ⟨⟨fun _ => rfl, fun _ => rfl⟩, rfl, fun _ under => by cases under⟩

private theorem firstViolation_single (pending : Pending) (frame : Frame) :
    firstViolation pending [frame] = frame.violation pending := by
  unfold firstViolation
  cases frame.violation pending <;> rfl

section Failing

variable {start : Connection} (between : BetweenMessages start) {frames : List Frame}
  {frame : Frame} {code : UInt16}

include between

theorem Fails.verdict (fails : Fails start frames code) :
    ((Receiver.rest start.session.header_.is_binary_).frames frames).1 = .fail code := by
  obtain ⟨last, ends, cancels⟩ := fails
  have distinct : last.cancels ≠ start.cancels := by
    rw [cancels]
    exact fun same => List.cons_ne_nil _ _ (List.append_right_eq_self.mp same)
  obtain ⟨final, run, outcome⟩ := (between.with_input (Frame.stream frames)).ready.run_frames
    frames [] (List.append_nil _).symm
  rcases outcome with ⟨settles, -⟩ | ⟨-, same, stuck⟩
  · have unique := ends.unique ⟨run, settles.halted⟩
    subst unique
    change Verdict.Settles _ [] ((Receiver.rest start.session.header_.is_binary_).frames frames).1
      last at settles
    generalize ((Receiver.rest start.session.header_.is_binary_).frames frames).1 = verdict
      at settles
    cases verdict with
    | next next message => exact absurd settles.2.2 distinct
    | fail other =>
        have same := settles.2.symm.trans cancels
        rw [List.singleton_inj.mp (List.append_cancel_left same)]
    | close => exact absurd settles.2 distinct
  · have halted := stuck []
    have plain : final.extend [] = final := by
      unfold Connection.extend
      rw [List.append_nil]
    rw [plain] at halted
    have unique := ends.unique ⟨run, halted⟩
    subst unique
    exact absurd same distinct

theorem Fails.of_verdict
    (roomy : ¬(Receiver.rest start.session.header_.is_binary_).Congested frames)
    (verdict : ((Receiver.rest start.session.header_.is_binary_).frames frames).1 = .fail code) :
    Fails start frames code := by
  obtain ⟨final, run, outcome⟩ := (between.with_input (Frame.stream frames)).ready.run_frames
    frames [] (List.append_nil _).symm
  rcases outcome with ⟨settles, -⟩ | ⟨congested, -⟩
  · have halted := settles.halted
    change Verdict.Settles _ [] ((Receiver.rest start.session.header_.is_binary_).frames frames).1
      final at settles
    rw [verdict] at settles
    exact ⟨final, ⟨run, halted⟩, settles.2⟩
  · exact absurd congested roomy

/-- A receiver that fails on the first frames fails the session there, if the
session fails at all. -/
theorem Fails.of_prefix {rest : List Frame} {other : UInt16}
    (fails : Fails start (frames ++ rest) code)
    (verdict : ((Receiver.rest start.session.header_.is_binary_).frames frames).1 = .fail other) :
    Fails start frames other := by
  obtain ⟨final, run, outcome⟩ := (between.with_input (Frame.stream frames)).ready.run_frames
    frames [] (List.append_nil _).symm
  rcases outcome with ⟨settles, -⟩ | ⟨-, same, stuck⟩
  · have halted := settles.halted
    change Verdict.Settles _ [] ((Receiver.rest start.session.header_.is_binary_).frames frames).1
      final at settles
    rw [verdict] at settles
    exact ⟨final, ⟨run, halted⟩, settles.2⟩
  · -- the chain stops inside these frames, so it cannot fail behind them
    obtain ⟨last, ends, cancels⟩ := fails
    have longer := Connection.steps_extend run (Frame.stream rest)
    have joined : ({ start with input := Frame.stream frames } : Connection).extend
        (Frame.stream rest) = { start with input := Frame.stream (frames ++ rest) } := by
      unfold Connection.extend Frame.stream
      rw [List.flatMap_append]
    rw [joined] at longer
    have unique := ends.unique ⟨longer, stuck (Frame.stream rest)⟩
    rw [unique] at cancels
    have none : start.cancels = start.cancels ++ [code] := same.symm.trans cancels
    exact absurd (List.self_eq_append_right.mp none) (List.cons_ne_nil _ _)

/-- The code is that of the first violation exactly when the frame that fails is
neither a control frame without FIN nor a continuation of a binary message. -/
theorem failure_code_iff (fails : Fails start (frames ++ [frame]) code)
    (survives : ∀ other, ¬Fails start frames other) :
    Faithful code (firstViolation none (frames ++ [frame])) ↔
      ¬Misjudged frame (pendingAfter none frames) := by
  have verdict := fails.verdict between
  rw [Receiver.frames_append] at verdict
  cases front : ((Receiver.rest start.session.header_.is_binary_).frames frames).1 with
  | next next message =>
      obtain ⟨agrees, same⟩ := (Receiver.rest_agrees _).survives frames [frame] front
      rw [front] at verdict
      change (next.frames [frame]).1 = .fail code at verdict
      rw [same, firstViolation_single]
      cases taken : next.frame frame with
      | next last message =>
          rw [Receiver.frames_next taken] at verdict
          cases verdict
      | fail other =>
          rw [Receiver.frames_fail taken] at verdict
          cases verdict
          exact agrees.failed taken
      | close =>
          rw [Receiver.frames_close taken] at verdict
          cases verdict
  | fail other => exact absurd (fails.of_prefix between front) (survives other)
  | close =>
      rw [front] at verdict
      cases verdict

end Failing

private theorem established_survives (other : UInt16) :
    ¬Fails (Connection.established []) [] other := by
  intro fails
  have verdict := fails.verdict (established_between [])
  cases verdict

theorem failure_code_iff_text :
    Fails (Connection.established []) [.short 0x81 none [0xFF] (by decide)] 1007 ∧
      (Faithful 1007 (firstViolation none ([] ++ [.short 0x81 none [0xFF] (by decide)])) ↔
        ¬Misjudged (.short 0x81 none [0xFF] (by decide)) (pendingAfter none [])) := by
  have fails : Fails (Connection.established [])
      ([] ++ [.short 0x81 none [0xFF] (by decide)]) 1007 :=
    Fails.of_verdict (established_between [])
      (by rw [List.nil_append, Receiver.congested_fail rfl]; unfold Receiver.Crowded; decide) rfl
  exact ⟨fails, failure_code_iff (established_between []) fails established_survives⟩

/-- A ping without FIN and an empty header of a message with the continuation 0xFF:
the code is 1007 where the first violation is one of framing, and where there is
none. -/
theorem misjudged_frames_fail_with_1007 :
    (Fails (Connection.established []) [.short 0x09 none [] (by decide)] 1007 ∧
        ¬Faithful 1007 (firstViolation none [.short 0x09 none [] (by decide)])) ∧
      (Fails (Connection.established [])
          [.short 0x02 none [] (by decide), .short 0x80 none [0xFF] (by decide)] 1007 ∧
        ¬Faithful 1007 (firstViolation none
          [.short 0x02 none [] (by decide), .short 0x80 none [0xFF] (by decide)])) := by
  refine ⟨⟨Fails.of_verdict (established_between []) ?_ rfl, by unfold Faithful; decide⟩,
    Fails.of_verdict (established_between []) ?_ rfl, by unfold Faithful; decide⟩
  · rw [Receiver.congested_fail rfl]
    unfold Receiver.Crowded
    decide
  · rw [Receiver.congested_next rfl, Receiver.congested_fail rfl]
    unfold Receiver.Crowded
    decide

end Averyws
