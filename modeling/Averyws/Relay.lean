/-
What one session writes, another can read.

`Session::write` puts a message into one unmasked frame of the shortest form.  A
session whose client sends such frames posts the messages one by one, and has nothing
to answer.
-/

import Averyws.HeaderRoundTrip
import Averyws.RequestType
import Averyws.Upstream

namespace Averyws

open Library.Bytes Library.Code Library.Run Library.Utf8
open Utilities

structure Written where
  data : List UInt8
  is_binary : Bool
  short : data.length < 2 ^ 64

namespace Written

def bytes (message : Written) : List UInt8 :=
  (Session.write message.data message.is_binary).bytes

def frame (message : Written) : Frame where
  first := if message.is_binary then 0x82 else 0x81
  form := .minimal (UInt64.ofNat message.data.length)
  mask := none
  payload := message.data
  fits := by
    have fits := LengthForm.fits_minimal (UInt64.ofNat message.data.length)
    rw [UInt64.toNat_ofNat_of_lt' message.short] at fits
    exact fits

theorem first_eq (message : Written) :
    message.frame.first = if message.is_binary then 0x82 else 0x81 :=
  rfl

private theorem encoded_eq (message : Written) (random_bytes : Mask) (flags : UInt16)
    (first : flagsFirst flags = message.frame.first) (plain : flagsMasked flags = false) :
    encodedHeader random_bytes (UInt64.ofNat message.data.length) flags = message.frame.header := by
  unfold encodedHeader Frame.header
  simp only [first, plain, FrameHeader.mk.injEq, Bool.false_eq_true, if_false]
  exact ⟨trivial, rfl, rfl, UInt64.toNat_ofNat_of_lt' message.short⟩

private theorem header_eq (message : Written) (random_bytes : Mask) (flags : UInt16)
    (first : flagsFirst flags = message.frame.first) (plain : flagsMasked flags = false) :
    let size := UInt64.ofNat message.data.length
    let header_size := Websocket.reserve size flags
    (Websocket.makeHeader random_bytes (List.replicate header_size.toNat 0) header_size size
      flags).1 = message.frame.header.wire := by
  intro size header_size
  have encoded := message.encoded_eq random_bytes flags first plain
  have known : KnownOpcode (flagsFirst flags &&& 0x0F) := by
    rw [first, first_eq]
    cases message.is_binary with
    | true => decide
    | false => decide
  have unmasked : (encodedHeader random_bytes size flags).wire =
      (encodedHeader random_bytes size flags).unmasked := by
    have none : (encodedHeader random_bytes size flags).mask = none := by rw [encoded]; rfl
    rw [FrameHeader.wire_eq, none]
    exact List.append_nil _
  have reserved : header_size.toNat = (encodedHeader random_bytes size flags).wire.length := by
    rw [unmasked, ← writtenHeader_of_known random_bytes size flags known]
    exact reserve_eq random_bytes size flags
  have room : (encodedHeader random_bytes size flags).wire.length ≤
      (List.replicate header_size.toNat (0 : UInt8)).length := by
    rw [List.length_replicate, reserved]
  rw [makeHeader_eq random_bytes _ header_size size flags known room,
    List.drop_of_length_le (Nat.le_of_eq (List.length_replicate.trans reserved)), encoded]
  exact List.append_nil _

/-- `Session::write` writes the frame of its message. -/
theorem bytes_eq (message : Written) : message.bytes = message.frame.wire := by
  have plain : xorMask message.frame.header.key 0 message.data = message.data := by
    apply xorMask_zero
    intro index
    change Mask.byte #v[0, 0, 0, 0] index = 0
    unfold Mask.byte
    generalize Fin.ofNat 4 index = place
    revert place
    decide
  have wire : message.frame.wire = message.frame.header.wire ++ message.data :=
    congrArg (message.frame.header.wire ++ ·) plain
  rw [wire]
  unfold bytes Session.write
  cases kind : message.is_binary with
  | true =>
      have header := message.header_eq (Vector.replicate 4 0) (0x8000 ||| 0x0200)
        (by rw [first_eq, kind]; decide) (by decide)
      exact congrArg (· ++ message.data) header
  | false =>
      have header := message.header_eq (Vector.replicate 4 0) (0x8000 ||| 0x0100)
        (by rw [first_eq, kind]; decide) (by decide)
      exact congrArg (· ++ message.data) header

theorem message_frame (message : Written) : message.frame.Message := by
  have first := message.first_eq
  have bits (byte : UInt8) (one : byte = 0x82 ∨ byte = 0x81) : byte &&& 0x70 = 0 ∧
      (byte &&& 0x0F = 1 ∨ byte &&& 0x0F = 2) ∧ (byte &&& 0x80 != 0) = true := by
    rcases one with rfl | rfl <;> decide
  have here : message.frame.first = 0x82 ∨ message.frame.first = 0x81 := by
    rw [first]
    cases message.is_binary with
    | true => exact Or.inl rfl
    | false => exact Or.inr rfl
  obtain ⟨rsv, opcode, fin⟩ := bits _ here
  exact ⟨rsv, opcode, fin⟩

theorem is_binary_eq (message : Written) : message.frame.is_binary = message.is_binary := by
  change (message.frame.first &&& 0x02 == 0x02) = message.is_binary
  rw [first_eq]
  cases message.is_binary with
  | true => rfl
  | false => rfl

def Sound (message : Written) : Prop :=
  message.is_binary = false → WellFormed message.data

variable {receiver : Receiver}

theorem frame_eq (message : Written) (sound : message.Sound)
    (opened : receiver.new_request = true) :
    receiver.frame message.frame =
      .next (receiver.after message.frame.header message.data) (some message.data) := by
  have whole := message.message_frame
  have zero : message.frame.opcode ≠ 0 := by
    rcases whole.opcode with text | binary
    · rw [text]
      decide
    · rw [binary]
      decide
  have continues : message.frame.opcode = 0 ↔ receiver.new_request = false := by
    rw [opened]
    exact ⟨fun same => absurd same zero, nofun⟩
  have opening : receiver.opening = ([], Utf8.Byte.init) := if_pos opened
  have complete : (receiver.validated message.frame.is_binary message.frame.payload).complete =
      true := by
    unfold Receiver.validated
    rw [is_binary_eq, opening]
    cases kind : message.is_binary with
    | true => rfl
    | false => exact (Utf8.Byte.feed_init_complete_iff message.data).mpr (sound kind)
  rw [Receiver.frame_data whole.rsv (Or.inr whole.opcode) continues,
    Receiver.data_complete whole.fin complete, opening]
  rfl

theorem answer_eq (message : Written) (sound : message.Sound)
    (opened : receiver.new_request = true) : receiver.answer message.frame = none := by
  have ping : message.frame.opcode ≠ 0x09 := by
    rcases message.message_frame.opcode with text | binary
    · rw [text]
      decide
    · rw [binary]
      decide
  unfold Receiver.answer
  rw [message.frame_eq sound opened]
  exact if_neg ping

/-- Messages are read one by one and leave the reader between two messages. -/
theorem frames_eq {messages : List Written} (sound : ∀ message ∈ messages, message.Sound)
    (opened : receiver.new_request = true) :
    (∃ last, last.new_request = true ∧ receiver.frames (messages.map frame) =
      (.next last none, messages.map data)) ∧ receiver.answers (messages.map frame) = [] := by
  induction messages generalizing receiver with
  | nil => exact ⟨⟨receiver, opened, rfl⟩, rfl⟩
  | cons message messages ih =>
      have here := sound message List.mem_cons_self
      have read := message.frame_eq here opened
      have ended : (receiver.after message.frame.header message.data).new_request = true :=
        message.message_frame.fin
      obtain ⟨⟨last, open_, rest⟩, silent⟩ :=
        ih (fun other member => sound other (List.mem_cons_of_mem _ member)) ended
      refine ⟨⟨last, open_, ?_⟩, ?_⟩
      · rw [List.map_cons, Receiver.frames_next read, rest]
        rfl
      · rw [List.map_cons, Receiver.answers, read, message.answer_eq here opened]
        exact silent

end Written

theorem Connection.Received.silent {connection : Connection} {messages : List Written}
    (sound : ∀ message ∈ messages, message.Sound) {frames : List Frame} {part : List UInt8}
    {receiver : Receiver} {ending : Option Answer}
    (received : connection.Received (Frame.stream (messages.map Written.frame)) frames part
      receiver ending) : connection.replies = [] := by
  have begins : Frame.code.stream frames <+:
      Frame.code.stream (messages.map Written.frame) ++ [] := by
    rw [← Frame.stream_eq, ← Frame.stream_eq, received.input, List.append_nil, List.append_assoc]
    exact List.prefix_append _ _
  obtain ⟨later, split⟩ := PrefixCode.stream_prefix (PrefixCode.unfinished_nil Frame.code) begins
  obtain ⟨read, unread, rfl, rfl, rfl⟩ := List.map_eq_append_iff.mp split.symm
  have opened : (Receiver.rest false).new_request = true := rfl
  obtain ⟨⟨last, opened, step⟩, silent⟩ := Written.frames_eq
    (fun message member => sound message (List.mem_append_left _ member)) opened
  have same := step.symm.trans received.step
  simp only [Prod.mk.injEq, Verdict.next.injEq] at same
  obtain ⟨⟨rfl, -⟩, -⟩ := same
  have replies := received.replies
  rw [silent, List.nil_append] at replies
  cases ending with
  | none => exact List.forall₂_nil_left_iff.mp replies
  | some answer =>
      obtain ⟨-, judged⟩ := received.ended answer rfl
      have rest := received.input
      rw [List.map_append, Frame.stream, List.flatMap_append, List.append_assoc] at rest
      have rest : Frame.stream (unread.map Written.frame) = part ++ connection.input :=
        List.append_cancel_left rest
      -- the next message goes on with the part, and the reader does not end with it
      obtain ⟨next, goes, here⟩ : ∃ next : Written, part <+: next.frame.wire ∧ next.Sound := by
        cases unread with
        | nil =>
            have none := (List.append_eq_nil_iff.mp rest.symm).1
            rw [none]
            refine ⟨⟨[], true, Nat.two_pow_pos 64⟩, List.nil_prefix, fun text => ?_⟩
            cases text
        | cons next unread =>
            have front : next.frame.wire <+: part ++ connection.input := by
              rw [← rest]
              exact List.prefix_append _ _
            refine ⟨next, Frame.goes_on received.begins front, ?_⟩
            exact sound next (List.mem_append_right _ List.mem_cons_self)
      have going := next.frame_eq here opened
      have ended := judged next.frame goes
      cases answer with
      | pong ping => exact ended.elim
      | cancel code => cases going.symm.trans ended
      | close closing => cases going.symm.trans ended.1

theorem Written.stream_eq (messages : List Written) :
    messages.flatMap Written.bytes = Frame.stream (messages.map Written.frame) := by
  induction messages with
  | nil => rfl
  | cons message messages ih =>
      rw [List.flatMap_cons, ih, message.bytes_eq, List.map_cons, Frame.stream, Frame.stream,
        List.flatMap_cons]

/-- A session whose client waits for the response and then sends what `Session::write`
writes for a list of messages posts these messages and answers nothing, in every run. -/
theorem written_messages_received (sha1 : List UInt8 → Digest) {request : List UInt8}
    {messages : List Written} (sound : ∀ message ∈ messages, message.Sound)
    {first final : Connection} {stimuli : List Stimulus}
    (accepted : Connection.accept (request ++ messages.flatMap Written.bytes) = some first)
    (run : Runs (Connection.next sha1) first stimuli final)
    (waited : Connection.opened stimuli = request.length) :
    final.posted.map ChunkVector.bytes <+: messages.map Written.data ∧ final.replies = [] ∧
      ((request ++ messages.flatMap Written.bytes).length < 2 ^ 63 → ∀ op, final.reads = [op] →
        final.input.length < op.count →
        final.posted.map ChunkVector.bytes = messages.map Written.data) := by
  have upstream := Connection.upstream_of_run accepted run
  rw [waited, List.drop_left, Written.stream_eq] at upstream
  have parse : Frame.stream (messages.map Written.frame) =
      Frame.stream (messages.map Written.frame) ++ [] := (List.append_nil _).symm
  have unfinished : Frame.Unfinished [] := PrefixCode.unfinished_nil Frame.code
  have opened : (Receiver.rest false).new_request = true := rfl
  obtain ⟨⟨last, -, step⟩, -⟩ := Written.frames_eq sound opened
  have data := congrArg Prod.snd step
  refine ⟨?_, ?_, fun narrow op reads starved => ?_⟩
  · have posted := upstream.posted_prefix parse unfinished
    rw [data] at posted
    exact posted
  · obtain ⟨frames, part, receiver, ending, received⟩ := upstream.received
    exact received.silent sound
  · rw [List.length_append, Written.stream_eq] at narrow
    obtain ⟨every, -⟩ := upstream.starved (Connection.phase_of_run accepted run.reaches) parse
      unfinished (by omega) reads starved
    exact every.trans data

def sampleMessages : List Written :=
  [⟨[0x61], false, by decide⟩, ⟨List.replicate 126 0xFF, true, by decide +kernel⟩]

theorem written_messages_received_sample :
    ∃ final : Connection, final.replies = [] ∧
      final.posted.map ChunkVector.bytes = [[0x61], List.replicate 126 0xFF] := by
  obtain ⟨first, final, accepted, run, here⟩ := Runs.of_trace_any (Connection.next zeroDigest)
    (Connection.accept (sampleRequest ++ sampleMessages.flatMap Written.bytes))
    (fun final : Connection => final.reads.any fun op =>
      decide (final.reads = [op] ∧ final.input.length < op.count))
    (sampleHandshake ++ List.replicate 6 (.socket (.read 0))) (by decide +kernel)
  obtain ⟨op, -, waits⟩ := List.any_eq_true.mp here
  obtain ⟨reads, starved⟩ := of_decide_eq_true waits
  have sound : ∀ message ∈ sampleMessages, message.Sound := by
    intro message member
    rcases List.mem_cons.mp member with rfl | member
    · exact fun _ => by decide
    · rw [List.mem_singleton.mp member]
      exact nofun
  obtain ⟨-, silent, every⟩ := written_messages_received zeroDigest sound accepted run
    (by decide)
  exact ⟨final, silent, every (by decide +kernel) op reads starved⟩

end Averyws
