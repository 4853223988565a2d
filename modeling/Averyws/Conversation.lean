/-
Conversations.

What a client may send without being cut off, written down without a machine: whole
messages in fragments, one after the other, with pings and pongs anywhere between
their frames.  The receiver takes exactly these, so that a session goes on reading
exactly as long as what it has read can still become one of them.
-/

import Averyws.FailureCodes
import Averyws.Progress

namespace Averyws

open Library.Code Library.Run Library.Utf8
open Utilities

/-! ### The grammar -/

/-- The frames of a message that is delivered.  A text is validated as a whole, a binary
message behind its first frame. -/
inductive Deliverable : List Frame → Prop
  | text {frames : List Frame} (fragments : Fragments 1 frames)
      (sound : WellFormed (message frames)) : Deliverable frames
  | binary {frames : List Frame} (fragments : Fragments 2 frames)
      (sound : WellFormed (message frames.tail)) : Deliverable frames

/-- The frames of the messages, in order, with pings and pongs between them. -/
structure Conversation (stream : List Frame) (messages : List (List Frame)) : Prop where
  deliverable : ∀ frames ∈ messages, Deliverable frames
  interleaved : Interleaved messages.flatten stream

/-- The frames end the message under way, or are a whole message when there is none. -/
inductive Receiver.Completes : Receiver → List Frame → Prop
  | last {receiver : Receiver} (frame : Frame) (takes : receiver.Takes frame)
      (fin : frame.fin = true) : Completes receiver [frame]
  | more {receiver : Receiver} (frame : Frame) {rest : List Frame} (takes : receiver.Takes frame)
      (fin : frame.fin = false)
      (later : Completes (receiver.after frame.header frame.payload) rest) :
      Completes receiver (frame :: rest)

section Taking

variable {receiver next : Receiver} {frame : Frame} {frames rest stream : List Frame}

theorem Receiver.Takes.step (takes : receiver.Takes frame) :
    receiver.frame frame = .next (receiver.after frame.header frame.payload)
      (if frame.fin then some (receiver.opening.1 ++ frame.payload) else none) := by
  rw [Receiver.frame_data takes.rsv takes.kind takes.continues]
  cases fin : frame.fin with
  | true => rw [Receiver.data_complete fin (takes.complete fin), if_pos rfl]
  | false => rw [Receiver.data_continue fin takes.valid, if_neg Bool.false_ne_true]

theorem message_single (frame : Frame) : message [frame] = frame.payload :=
  List.flatMap_singleton _ _

theorem Receiver.opening_between (between : receiver.new_request = true) :
    receiver.opening = ([], Utf8.Byte.init) :=
  if_pos between

theorem Receiver.Takes.feed (takes : receiver.Takes frame) (fin : frame.fin = false)
    (text : frame.opcode = 0 ∨ frame.opcode = 1) (opened : receiver.opening.2.valid = true)
    (rest : List Frame) :
    (receiver.after frame.header frame.payload).opening.2.feed (message rest) =
      receiver.opening.2.feed (message (frame :: rest)) := by
  have validator := receiver.validated_text frame (frame.is_binary_text text)
  have accepted := takes.valid
  rw [validator] at accepted
  rw [receiver.opening_after frame.header frame.payload fin, message_cons,
    Utf8.Byte.feed_append _ opened _ _ accepted, ← validator]
  rfl

theorem Receiver.Takes.opened (takes : receiver.Takes frame) (fin : frame.fin = false) :
    (receiver.after frame.header frame.payload).opening.2.valid = true := by
  rw [receiver.opening_after frame.header frame.payload fin]
  exact takes.valid

/-- What is left of a message is its fragments, up to the end of a character. -/
theorem Receiver.Completes.fragments (completes : receiver.Completes frames)
    (inside : receiver.new_request = false) (opened : receiver.opening.2.valid = true) :
    Fragments 0 frames ∧ (receiver.opening.2.feed (message frames)).complete = true := by
  induction completes with
  | last frame takes fin =>
      have zero := takes.continues.mpr inside
      have complete := takes.complete fin
      rw [Receiver.validated_text _ frame (frame.is_binary_text (Or.inl zero))] at complete
      rw [message_single]
      exact ⟨.last frame takes.rsv zero fin, complete⟩
  | more frame takes fin later ih =>
      have zero := takes.continues.mpr inside
      obtain ⟨fragments, complete⟩ := ih fin (takes.opened fin)
      rw [takes.feed fin (Or.inl zero) opened] at complete
      exact ⟨.more frame takes.rsv zero fin fragments, complete⟩

theorem Receiver.takes_of_feed (rsv : frame.rsv = 0) (text : frame.opcode = 0 ∨ frame.opcode = 1)
    (continues : frame.opcode = 0 ↔ receiver.new_request = false)
    (opened : receiver.opening.2.valid = true) (last : frame.fin = true → rest = [])
    (sound : (receiver.opening.2.feed (message (frame :: rest))).complete = true) :
    receiver.Takes frame := by
  have validator := receiver.validated_text frame (frame.is_binary_text text)
  refine ⟨rsv, Or.imp_right Or.inl text, continues, ?_, fun fin => ?_⟩
  · rw [validator]
    by_contra rejected
    have stuck := Utf8.Byte.feed_append_rejected _ opened frame.payload (message rest)
      (Bool.eq_false_of_not_eq_true rejected)
    rw [message_cons, stuck] at sound
    exact rejected (Utf8.Byte.valid_of_complete _ sound)
  · rw [last fin, message_single] at sound
    rw [validator]
    exact sound

theorem Receiver.completes_of_fragments {opcode : UInt8} (fragments : Fragments opcode frames)
    (text : opcode = 0 ∨ opcode = 1) (continues : opcode = 0 ↔ receiver.new_request = false)
    (opened : receiver.opening.2.valid = true)
    (sound : (receiver.opening.2.feed (message frames)).complete = true) :
    receiver.Completes frames := by
  induction fragments generalizing receiver with
  | last frame rsv kind fin =>
      subst kind
      exact .last frame (takes_of_feed rsv text continues opened (fun _ => rfl) sound) fin
  | more frame rsv kind fin later ih =>
      subst kind
      have takes : receiver.Takes frame := takes_of_feed rsv text continues opened
        (fun wrong => by rw [fin] at wrong; cases wrong) sound
      refine .more frame takes fin (ih (Or.inl rfl) ⟨fun _ => fin, fun _ => rfl⟩
        (takes.opened fin) ?_)
      rw [takes.feed fin text opened]
      exact sound

theorem Receiver.validated_binary (between : receiver.new_request = true)
    (two : frame.opcode = 2) :
    receiver.validated frame.is_binary frame.payload = Utf8.Byte.init := by
  unfold validated
  rw [frame.is_binary_binary two, receiver.opening_between between]
  rfl

theorem Receiver.Completes.deliverable (completes : receiver.Completes frames)
    (between : receiver.new_request = true) : Deliverable frames := by
  have opening := receiver.opening_between between
  have opened : receiver.opening.2.valid = true := by
    rw [opening]
    rfl
  have first {frame : Frame} (takes : receiver.Takes frame) :
      frame.opcode = 1 ∨ frame.opcode = 2 := by
    refine takes.kind.resolve_left fun zero => ?_
    have inside := takes.continues.mp zero
    rw [between] at inside
    cases inside
  cases completes with
  | last frame takes fin =>
      rcases first takes with one | two
      · have complete := takes.complete fin
        rw [receiver.validated_text frame (frame.is_binary_text (Or.inr one)), opening] at complete
        refine .text (.last frame takes.rsv one fin) ?_
        rw [message_single]
        exact (Utf8.Byte.feed_init_complete_iff _).mp complete
      · exact .binary (.last frame takes.rsv two fin) ((Utf8.Byte.feed_init_complete_iff []).mp rfl)
  | more frame takes fin later =>
      obtain ⟨fragments, complete⟩ := later.fragments fin (takes.opened fin)
      rcases first takes with one | two
      · rw [takes.feed fin (Or.inr one) opened, opening] at complete
        exact .text (.more frame takes.rsv one fin fragments)
          ((Utf8.Byte.feed_init_complete_iff _).mp complete)
      · rw [receiver.opening_after frame.header frame.payload fin] at complete
        change ((receiver.validated frame.is_binary frame.payload).feed _).complete = true
          at complete
        rw [receiver.validated_binary between two] at complete
        exact .binary (.more frame takes.rsv two fin fragments)
          ((Utf8.Byte.feed_init_complete_iff _).mp complete)

theorem Receiver.completes_of_deliverable (deliverable : Deliverable frames)
    (between : receiver.new_request = true) : receiver.Completes frames := by
  have opening := receiver.opening_between between
  cases deliverable with
  | text fragments sound =>
      refine completes_of_fragments fragments (Or.inr rfl) ?_ ?_ ?_
      · rw [between]
        decide
      · rw [opening]
        rfl
      · rw [opening]
        exact (Utf8.Byte.feed_init_complete_iff _).mpr sound
  | binary fragments sound =>
      have takes {frame : Frame} (rsv : frame.rsv = 0) (two : frame.opcode = 2) :
          receiver.Takes frame := by
        have validator := receiver.validated_binary between two
        refine ⟨rsv, Or.inr (Or.inr two), ?_, ?_, fun _ => ?_⟩
        · rw [two, between]
          decide
        · rw [validator]
          rfl
        · rw [validator]
          rfl
      cases fragments with
      | last frame rsv two fin => exact .last frame (takes rsv two) fin
      | more frame rsv two fin later =>
          refine .more frame (takes rsv two) fin (completes_of_fragments later (Or.inl rfl)
            ⟨fun _ => fin, fun _ => rfl⟩ ((takes rsv two).opened fin) ?_)
          rw [receiver.opening_after frame.header frame.payload fin]
          change ((receiver.validated frame.is_binary frame.payload).feed _).complete = true
          rw [receiver.validated_binary between two]
          exact (Utf8.Byte.feed_init_complete_iff _).mpr sound

theorem Receiver.frames_interleaved (interleaved : Interleaved frames stream)
    (receiver : Receiver) : receiver.frames stream = receiver.frames frames := by
  induction interleaved generalizing receiver with
  | done => rfl
  | data frame later ih =>
      cases verdict : receiver.frame frame with
      | next next message => rw [frames_next verdict, frames_next verdict, ih]
      | fail code => rw [frames_fail verdict, frames_fail verdict]
      | close => rw [frames_close verdict, frames_close verdict]
  | heartbeat frame beat later ih =>
      rw [frames_next (receiver.frame_heartbeat beat), ih]
      rfl

theorem Receiver.Completes.frames_eq (completes : receiver.Completes frames) :
    ∃ last, last.new_request = true ∧
      receiver.frames frames = (.next last none, [receiver.opening.1 ++ message frames]) := by
  induction completes with
  | last frame takes fin =>
      have step := takes.step
      rw [fin, if_pos rfl] at step
      exact ⟨_, fin, by rw [frames_next step, message_single]; rfl⟩
  | @more receiver frame rest takes fin later ih =>
      obtain ⟨last, between, result⟩ := ih
      have step := takes.step
      rw [fin, if_neg Bool.false_ne_true] at step
      refine ⟨last, between, ?_⟩
      rw [frames_next step, result, receiver.opening_after frame.header frame.payload fin,
        message_cons, ← List.append_assoc]
      rfl

theorem Receiver.frames_messages {messages : List (List Frame)}
    (deliverable : ∀ frames ∈ messages, Deliverable frames)
    (between : receiver.new_request = true) :
    ∃ last, last.new_request = true ∧
      receiver.frames messages.flatten = (.next last none, messages.map message) := by
  induction messages generalizing receiver with
  | nil => exact ⟨receiver, between, rfl⟩
  | cons frames messages ih =>
      have completes := completes_of_deliverable (deliverable frames List.mem_cons_self) between
      obtain ⟨middle, again, result⟩ := completes.frames_eq
      obtain ⟨last, ended, rest⟩ :=
        ih (fun frames member => deliverable frames (List.mem_cons_of_mem _ member)) again
      rw [receiver.opening_between between] at result
      refine ⟨last, ended, ?_⟩
      rw [List.flatten_cons, frames_step result, rest]
      rfl

/-- A receiver that has gone on up to the end of a message has ended the message it was
in, and has then taken whole messages. -/
theorem Receiver.frames_split {last : Receiver} {posted : List (List UInt8)}
    (step : receiver.frames stream = (.next last none, posted))
    (between : last.new_request = true) :
    (receiver.new_request = true ∧ posted = [] ∧ Interleaved [] stream) ∨
      ∃ (frames : List Frame) (messages : List (List Frame)), receiver.Completes frames ∧
        (∀ frames ∈ messages, Deliverable frames) ∧
        Interleaved (frames ++ messages.flatten) stream ∧
        posted = (receiver.opening.1 ++ message frames) :: messages.map message := by
  induction stream generalizing receiver posted with
  | nil =>
      cases step
      exact Or.inl ⟨between, rfl, .done⟩
  | cons frame stream ih =>
      cases verdict : receiver.frame frame with
      | next next completed =>
          rw [frames_next verdict] at step
          cases later : next.frames stream with
          | mk final messages =>
              rw [later] at step
              cases step
              rcases next_cases verdict with ⟨beat, rfl, rfl⟩ | ⟨takes, rfl, rfl⟩
              · rcases ih later with
                  ⟨open_, rfl, beats⟩ | ⟨frames, rest, completes, whole, split, rfl⟩
                · exact Or.inl ⟨open_, rfl, .heartbeat frame beat beats⟩
                · exact Or.inr ⟨frames, rest, completes, whole, .heartbeat frame beat split, rfl⟩
              · right
                cases fin : frame.fin with
                | true =>
                    have ended : (receiver.after frame.header frame.payload).new_request = true :=
                      fin
                    rcases ih later with
                      ⟨-, rfl, beats⟩ | ⟨frames, rest, completes, whole, split, rfl⟩
                    · refine ⟨[frame], [], .last frame takes fin, nofun, .data frame beats, ?_⟩
                      rw [message_single]
                      rfl
                    · refine ⟨[frame], frames :: rest, .last frame takes fin, ?_,
                        .data frame split, ?_⟩
                      · intro other member
                        rcases List.mem_cons.mp member with rfl | member
                        · exact completes.deliverable ended
                        · exact whole other member
                      · rw [message_single, Receiver.opening_between ended]
                        rfl
                | false =>
                    rcases ih later with ⟨open_, -⟩ | ⟨frames, rest, completes, whole, split, rfl⟩
                    · have shut : (receiver.after frame.header frame.payload).new_request = false :=
                        fin
                      rw [shut] at open_
                      cases open_
                    · refine ⟨frame :: frames, rest, .more frame takes fin completes, whole,
                        .data frame split, ?_⟩
                      rw [receiver.opening_after frame.header frame.payload fin, message_cons,
                        ← List.append_assoc]
                      rfl
      | fail code =>
          rw [frames_fail verdict] at step
          cases step
      | close =>
          rw [frames_close verdict] at step
          cases step

/-- The receiver takes the conversations, and delivers their messages. -/
theorem Receiver.conversation_iff {posted : List (List UInt8)}
    (between : receiver.new_request = true) :
    (∃ last, last.new_request = true ∧ receiver.frames stream = (.next last none, posted)) ↔
      ∃ messages, Conversation stream messages ∧ posted = messages.map message := by
  constructor
  · rintro ⟨last, ended, step⟩
    rcases frames_split step ended with
      ⟨-, rfl, beats⟩ | ⟨frames, messages, completes, whole, split, rfl⟩
    · exact ⟨[], ⟨nofun, beats⟩, rfl⟩
    · refine ⟨frames :: messages, ⟨?_, split⟩, ?_⟩
      · intro other member
        rcases List.mem_cons.mp member with rfl | member
        · exact completes.deliverable between
        · exact whole other member
      · rw [receiver.opening_between between]
        rfl
  · rintro ⟨messages, conversation, rfl⟩
    obtain ⟨last, ended, step⟩ := frames_messages conversation.deliverable between
    refine ⟨last, ended, ?_⟩
    rw [frames_interleaved conversation.interleaved, step]

theorem Receiver.answers_pings {last : Receiver} {posted : List (List UInt8)}
    (step : receiver.frames stream = (.next last none, posted)) :
    receiver.answers stream =
      (stream.filter fun frame => frame.opcode = 0x09).map Answer.pong := by
  induction stream generalizing receiver posted with
  | nil => rfl
  | cons frame stream ih =>
      cases verdict : receiver.frame frame with
      | next next completed =>
          rw [frames_next verdict] at step
          cases later : next.frames stream with
          | mk final messages =>
              rw [later] at step
              cases step
              rw [answers, answer, verdict]
              dsimp only
              rw [ih later, List.filter_cons]
              by_cases ping : frame.opcode = 0x09
              · rw [if_pos ping, if_pos (decide_eq_true ping)]
                rfl
              · rw [if_neg ping, if_neg (by rw [decide_eq_false ping]; exact Bool.false_ne_true)]
                rfl
      | fail code =>
          rw [frames_fail verdict] at step
          cases step
      | close =>
          rw [frames_close verdict] at step
          cases step

end Taking

theorem length_openRanges (length previous : UInt8) (count : Nat) :
    (Utf8.openRanges length previous count).length = count := by
  induction count with
  | zero => rfl
  | succ count ih => rw [Utf8.openRanges, List.length_cons, ih]

theorem Utilities.Utf8.Byte.ends_somehow (self : Byte) (valid : self.valid = true) :
    ∃ bytes, bytes.length < 2 ^ 7 ∧ (self.feed bytes).complete = true := by
  obtain ⟨all, completes⟩ := completes_exists self.pending
  obtain ⟨bytes, -, -, fits, -⟩ := completes_split self.pending all completes
  have whole : Completes self.pending (bytes ++ []) :=
    (completes_append_iff self.pending bytes [] fits).mpr trivial
  have accepted : (self.feed bytes).valid = true := by
    by_contra rejected
    exact feed_not_completes self valid bytes [] (Bool.eq_false_of_not_eq_true rejected) whole
  refine ⟨bytes, ?_, ?_⟩
  · have size := fits.length_eq
    have most := self.it_.toInt_lt
    unfold pending remaining at size
    rw [length_openRanges] at size
    omega
  · have left := (feed_completes_iff self valid bytes [] accepted).mp whole
    rw [← pending_eq_nil_iff _ accepted]
    cases same : (self.feed bytes).pending with
    | nil => rfl
    | cons range ranges =>
        rw [same] at left
        exact left.elim

theorem Receiver.ends_somehow (receiver : Receiver) (opened : receiver.opening.2.valid = true) :
    ∃ more last posted, last.new_request = true ∧
      receiver.frames more = (.next last none, posted) := by
  cases inside : receiver.new_request with
  | true => exact ⟨[], receiver, [], inside, rfl⟩
  | false =>
      obtain ⟨bytes, short, complete⟩ := Utf8.Byte.ends_somehow _ opened
      let frame : Frame := ⟨0x80, .sixteen, none, bytes, by unfold LengthForm.Fits; omega⟩
      have first : (0x80 : UInt8) &&& 0x70 = 0 ∧ (0x80 : UInt8) &&& 0x0F = 0 ∧
          ((0x80 : UInt8) &&& 0x80 != 0) = true := by
        decide
      have fragments : Fragments 0 [frame] := .last frame first.1 first.2.1 first.2.2
      have completes : receiver.Completes [frame] :=
        completes_of_fragments fragments (Or.inl rfl) ⟨fun _ => inside, fun _ => rfl⟩ opened (by
          rw [message_single]
          exact complete)
      obtain ⟨last, ended, step⟩ := completes.frames_eq
      exact ⟨[frame], last, _, ended, step⟩

theorem Receiver.EndsWith.not_heartbeat {receiver : Receiver} {frame : Frame} {answer : Answer}
    (ends : receiver.EndsWith frame answer) : ¬frame.Heartbeat := by
  intro beat
  have step := receiver.frame_heartbeat beat
  cases answer with
  | pong ping => exact ends
  | cancel code => cases step.symm.trans ends
  | close closing => cases step.symm.trans ends.1

/-- A session that is left with whole frames to read goes on exactly as long as they can
be continued to a conversation.  Of a conversation it has posted the messages and answered
the pings. -/
theorem conversation_served (sha1 : List UInt8 → Digest) {input : List UInt8}
    {first final : Connection} {stimuli : List Stimulus}
    (accepted : Connection.accept input = some first)
    (run : Runs (Connection.next sha1) first stimuli final) {all : List Frame}
    (whole : input.drop (Connection.opened stimuli) = Frame.stream all)
    (narrow : input.length < 2 ^ 63) (reading : final.reads ≠ []) :
    ∃ last, Ends Connection.step final last ∧
      (last.reads ≠ [] ↔ ∃ more messages, Conversation (all ++ more) messages) ∧
      ∀ messages, Conversation all messages →
        last.posted.map ChunkVector.bytes = messages.map message ∧
          List.Forall₂ (fun answer op => Answer.Carries op answer)
            ((all.filter fun frame => frame.opcode = 0x09).map Answer.pong) last.replies := by
  obtain ⟨last, ends, progress⟩ := Connection.progress_of_run accepted run reading
  have shorter : (input.drop (Connection.opened stimuli)).length < 2 ^ 63 := by
    rw [List.length_drop]
    omega
  have parse : input.drop (Connection.opened stimuli) = Frame.stream all ++ [] := by
    rw [List.append_nil]
    exact whole
  have served := progress.served parse (PrefixCode.unfinished_nil Frame.code) shorter ends.2
  have between : (Receiver.rest false).new_request = true := rfl
  have goes_on {receiver : Receiver} {message : Option (List UInt8)}
      (step : ((Receiver.rest false).frames all).1 = .next receiver message) :
      last.reads ≠ [] ∧ List.Forall₂ (fun answer op => Answer.Carries op answer)
        ((Receiver.rest false).answers all) last.replies := by
    cases served with
    | waiting receiver reads step replies => exact ⟨reads, replies⟩
    | refused receiver answer reads step replies begins judged =>
        -- no answer is to every frame: the next one may be a ping
        let ping := Frame.short 0x89 none [] (Nat.zero_le _)
        have beat : ping.Heartbeat := ⟨by decide, Or.inl (by decide), by decide, by decide⟩
        exact absurd beat (judged ping List.nil_prefix).not_heartbeat
    | ended reads posted replies verdict => exact absurd step (verdict _ _)
  refine ⟨last, ends, ⟨fun still => ?_, ?_⟩, fun messages conversation => ?_⟩
  · cases served with
    | waiting receiver reads step replies =>
        obtain ⟨agrees, -⟩ :=
          (Receiver.rest_agrees false).survives all [] (congrArg Prod.fst step)
        obtain ⟨more, ended, posted, stops, rest⟩ := receiver.ends_somehow agrees.valid
        have grown := Receiver.frames_step step more
        rw [rest] at grown
        obtain ⟨messages, conversation, -⟩ :=
          (Receiver.conversation_iff between).mp ⟨ended, stops, grown⟩
        exact ⟨more, messages, conversation⟩
    | refused receiver answer reads step replies begins judged => exact absurd reads still
    | ended reads posted replies verdict => exact absurd reads still
  · rintro ⟨more, messages, conversation⟩
    obtain ⟨ended, -, step⟩ :=
      (Receiver.conversation_iff between).mpr ⟨messages, conversation, rfl⟩
    have front := (Receiver.rest false).frames_append all more
    rw [step] at front
    cases verdict : ((Receiver.rest false).frames all).1 with
    | next receiver message => exact (goes_on verdict).1
    | fail code =>
        rw [verdict] at front
        cases front
    | close =>
        rw [verdict] at front
        cases front
  · obtain ⟨ended, -, step⟩ :=
      (Receiver.conversation_iff between).mpr ⟨messages, conversation, rfl⟩
    obtain ⟨-, replies⟩ := goes_on (congrArg Prod.fst step)
    rw [Receiver.answers_pings step] at replies
    exact ⟨by rw [served.posted, step], replies⟩

theorem conversation_served_sample :
    ∃ last : Connection, last.posted.map ChunkVector.bytes = [[0x61, 0x62]] ∧
      last.replies.length = 1 ∧ last.reads ≠ [] := by
  let first_half := Frame.short 0x01 none [0x61] (by decide)
  let ping := Frame.short 0x89 none [] (by decide)
  let second_half := Frame.short 0x80 none [0x62] (by decide)
  have conversation : Conversation [first_half, ping, second_half] [[first_half, second_half]] := by
    refine ⟨fun frames member => ?_, .data _ (.heartbeat _ ?_ (.data _ .done))⟩
    · rw [List.mem_singleton.mp member]
      exact .text (.more _ (by decide) (by decide) (by decide)
        (.last _ (by decide) (by decide) (by decide))) (by decide)
    · exact ⟨by decide, Or.inl (by decide), by decide, by decide⟩
  obtain ⟨first, final, accepted, run, here⟩ := Runs.of_trace_any (Connection.next zeroDigest)
    (Connection.accept (sampleRequest ++ [0x01, 0x01, 0x61, 0x89, 0x00, 0x80, 0x01, 0x62]))
    (fun final : Connection => decide (final.reads ≠ [])) sampleHandshake (by decide +kernel)
  obtain ⟨last, -, goes_on, served⟩ := conversation_served zeroDigest accepted run
    (show _ = Frame.stream [first_half, ping, second_half] by decide +kernel) (by decide)
    (of_decide_eq_true here)
  obtain ⟨posted, replies⟩ := served _ conversation
  have pings : [first_half, ping, second_half].filter (fun frame => frame.opcode = 0x09) =
      [ping] := by
    decide
  rw [pings] at replies
  refine ⟨last, posted, replies.length_eq.symm, goes_on.mpr ⟨[], [[first_half, second_half]], ?_⟩⟩
  rw [List.append_nil]
  exact conversation

end Averyws
