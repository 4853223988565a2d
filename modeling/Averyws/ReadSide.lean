/-
The one chain of reads of a session.

At most one read is outstanding, and the close frame of the read side is its last
act: it leaves no read behind, so nothing is read, requested or closed after it.
-/

import Averyws.Broadcast

namespace Averyws

open Library.Run
open Utilities

namespace Connection

def closes (self : Connection) : Nat :=
  self.queued.countP WriteHandler.closes

variable {sha1 : List UInt8 → Digest} {before after : Connection} {actions : List Action}

/-- Nothing is read any more, nor is the response under way that would start it. -/
def Over (connection : Connection) : Prop :=
  connection.Outstanding false [] 0

theorem Over.respond (ended : before.Over) {stimulus : Stimulus}
    (done : before.respond sha1 stimulus = some (after, actions)) :
    after.Over ∧ after.posted = before.posted ∧ after.closes = before.closes := by
  have phase : before.Phase := .ended ended
  have queued := phase.respond_queued done
  have posted := respond_posted done
  cases stimulus with
  | write data is_binary =>
      cases done
      refine ⟨⟨ended.starting, ended.reads, ?_⟩, rfl, ?_⟩
      · have none := ended.responses
        unfold pending_responses at none ⊢
        unfold Connection.write perform
        rw [List.countP_append, none]
        rfl
      · unfold closes
        rw [queued, List.countP_append]
        rfl
  | socket event =>
      cases event with
      | read_first count =>
          obtain ⟨starting, -⟩ := complete_first_cases done
          exact absurd (starting.symm.trans ended.starting) Bool.noConfusion
      | fail_first =>
          obtain ⟨starting, -⟩ := fail_first_cases done
          exact absurd (starting.symm.trans ended.starting) Bool.noConfusion
      | read index =>
          obtain ⟨op, session, found, -⟩ := complete_read_cases done
          rw [ended.reads] at found
          cases found
      | fail_read index =>
          obtain ⟨⟨op, found⟩, -⟩ := fail_read_cases done
          rw [ended.reads] at found
          cases found
      | write_some index count =>
          obtain ⟨next, taken, same⟩ := Option.map_eq_some_iff.mp done
          cases same
          obtain ⟨out, found, -, -, -, rfl⟩ := write_some_cases taken
          have counted := countP_set_answers found { out with written := out.written + count }
          refine ⟨⟨ended.starting, ended.reads, ?_⟩, rfl, ?_⟩
          · exact (Nat.add_right_cancel counted).trans ended.responses
          · unfold closes
            rw [queued, List.filterMap_nil, List.map_nil, List.append_nil]
      | written index error =>
          obtain ⟨out, found, pending, -, outcome⟩ := complete_write_cases done
          have none := ended.responses
          have silent : out.answers = false := by
            rw [← Bool.not_eq_true]
            intro answers
            exact absurd ((phase.of_answers found answers).1.responses.symm.trans none) (by decide)
          have counted := countP_set_answers found { out with completed := true }
          rw [silent] at counted
          have closed : Outgoing.answers { out with completed := true } = false := by
            simp [Outgoing.answers]
          rw [closed] at counted
          rcases outcome with ⟨handshake, -⟩ | ⟨-, acts, rfl⟩
          · have answers : out.answers = true := by
              simp [Outgoing.answers, handshake, pending]
            rw [silent] at answers
            cases answers
          · refine ⟨⟨ended.starting, ended.reads, ?_⟩, rfl, ?_⟩
            · exact counted.trans none
            · unfold closes
              rw [queued]
              rcases acts with rfl | rfl
              · rw [List.filterMap_nil, List.map_nil, List.append_nil]
              · exact congrArg _ (List.append_nil _)

private theorem closes_none (phase : before.Phase) {stimulus : Stimulus}
    (done : before.respond sha1 stimulus = some (after, actions))
    (others : ∀ op ∈ actions.filterMap Action.write?, op.handler.closes = false) :
    after.closes = before.closes := by
  have queued := phase.respond_queued done
  unfold closes
  rw [queued, List.countP_append]
  have none : ((actions.filterMap Action.write?).map fun op => op.handler).countP
      WriteHandler.closes = 0 := by
    rw [List.countP_eq_zero]
    intro handler member
    obtain ⟨op, inside, rfl⟩ := List.mem_map.mp member
    rw [others op inside]
    exact Bool.noConfusion
  rw [none, Nat.add_zero]

private theorem Over.performs_write (ended : before.Over) (op : WriteOp)
    (other : op.handler ≠ .handshake) : (before.performs [.async_write op]).Over := by
  have none := ended.responses
  unfold pending_responses at none
  rw [performs_eq]
  refine ⟨ended.starting, (List.append_nil _).trans ended.reads, ?_⟩
  unfold pending_responses
  have fresh := countP_fresh [op] (fun member inside => by
    rw [List.mem_singleton.mp inside]
    exact other)
  rw [List.countP_append, none, Nat.zero_add]
  exact fresh

private theorem complete_read_closes (sha1 : List UInt8 → Digest) (phase : before.Phase)
    {index : Nat}
    (done : before.complete_read index = some (after, actions)) :
    after.closes = before.closes ∨ after.closes = before.closes + 1 ∧ after.Over := by
  have responds : before.respond sha1 (.socket (.read index)) = some (after, actions) := done
  have queued := phase.respond_queued responds
  obtain ⟨op, session, found, enough, received, rfl⟩ := complete_read_cases done
  have size : (before.input.take op.count).length = op.count := List.length_take_of_le enough
  obtain ⟨rfl, here, stage | stuck⟩ := phase.of_read found
  · have idle : Over { before with
        session := session
        reads := before.reads.eraseIdx 0
        input := before.input.drop op.count } := by
      refine ⟨here.starting, ?_, here.responses⟩
      rw [here.reads]
      rfl
    have aftermath := stage.aftermath _ size received
    unfold closes
    rw [queued, List.countP_append]
    cases aftermath with
    | fail code => exact Or.inr ⟨rfl, idle.performs_write _ WriteHandler.noConfusion⟩
    | close => exact Or.inr ⟨rfl, idle.performs_write _ WriteHandler.noConfusion⟩
    | onward replies requests later few pings stage =>
        left
        have silent : (replies.map fun op => op.handler).countP WriteHandler.closes = 0 := by
          rw [List.countP_eq_zero]
          intro handler member
          obtain ⟨op, inside, rfl⟩ := List.mem_map.mp member
          rw [pings op inside]
          exact Bool.noConfusion
        rw [onward_writes, silent, Nat.add_zero]
  · rw [stuck.2 _ size] at received
    cases received

theorem Phase.respond_closes (phase : before.Phase) {stimulus : Stimulus}
    (done : before.respond sha1 stimulus = some (after, actions)) :
    after.closes = before.closes ∨ after.closes = before.closes + 1 ∧ after.Over := by
  cases stimulus with
  | write data is_binary =>
      left
      apply closes_none phase done
      cases done
      intro op member
      rw [List.mem_singleton.mp member]
      rfl
  | socket event =>
      rcases react_writes done with ⟨index, rfl⟩ | answers
      · exact complete_read_closes sha1 phase done
      · left
        apply closes_none phase done
        intro op member
        rw [answers op member]
        rfl

structure ReadSide (connection : Connection) : Prop where
  phase : connection.Phase
  closes : connection.closes = 0 ∨ connection.closes = 1 ∧ connection.Over

theorem ReadSide.respond (side : before.ReadSide) {stimulus : Stimulus}
    (done : before.respond sha1 stimulus = some (after, actions)) : after.ReadSide := by
  refine ⟨side.phase.respond done, ?_⟩
  rcases side.closes with open_ | ⟨once, ended⟩
  · rcases side.phase.respond_closes done with same | ⟨more, ended⟩
    · exact Or.inl (same.trans open_)
    · exact Or.inr ⟨by rw [more, open_], ended⟩
  · obtain ⟨still, -, same⟩ := ended.respond done
    exact Or.inr ⟨same.trans once, still⟩

theorem readSide_of_run {allowed : Connection → Stimulus → Prop} {input : List UInt8}
    {first final : Connection} (accepted : Connection.accept input = some first)
    (run : Reaches (next sha1) allowed first final) : final.ReadSide := by
  apply run.invariant ReadSide
  · intro before stimulus after side _ taken
    obtain ⟨⟨next, actions⟩, done, same⟩ := Option.map_eq_some_iff.mp taken
    cases same
    exact side.respond done
  · refine ⟨phase_accept accepted, Or.inl ?_⟩
    unfold closes
    rw [queued_accept accepted]
    rfl

theorem Over.run {allowed : Connection → Stimulus → Prop} {start final : Connection}
    (ended : start.Over) (run : Reaches (next sha1) allowed start final) :
    final.Over ∧ final.posted = start.posted ∧ final.closes = start.closes := by
  apply run.invariant fun state => state.Over ∧ state.posted = start.posted ∧
    state.closes = start.closes
  · rintro before stimulus after ⟨still, posted, closes⟩ _ taken
    obtain ⟨⟨next, actions⟩, done, same⟩ := Option.map_eq_some_iff.mp taken
    cases same
    obtain ⟨stays, nothing, none⟩ := still.respond done
    exact ⟨stays, nothing.trans posted, none.trans closes⟩
  · exact ⟨ended, rfl, rfl⟩

def outstanding (self : Connection) : Nat :=
  self.reads.length + if self.starting then 1 else 0

theorem Phase.outstanding_le (phase : before.Phase) : before.outstanding ≤ 1 := by
  unfold outstanding
  cases phase with
  | starting here => rw [here.reads, here.starting]; decide
  | answering here => rw [here.reads, here.starting]; decide
  | reading op here => rw [here.reads, here.starting]; exact Nat.le_refl 1
  | stalled op here => rw [here.reads, here.starting]; exact Nat.le_refl 1
  | ended here => rw [here.reads, here.starting]; decide

theorem Over.outstanding_eq (ended : before.Over) : before.outstanding = 0 := by
  unfold outstanding
  rw [ended.reads, ended.starting]
  rfl

end Connection

/-- A session has one read outstanding at most and closes once at most from its
read side; after that it reads nothing and requests nothing. -/
theorem read_side_closes_once (sha1 : List UInt8 → Digest) {input : List UInt8}
    {first final : Connection} (accepted : Connection.accept input = some first)
    (run : Reaches (Connection.next sha1) anyEvent first final) :
    final.outstanding ≤ 1 ∧ final.closes ≤ 1 ∧
      (final.closes = 1 → ∀ later, Reaches (Connection.next sha1) anyEvent final later →
        later.outstanding = 0 ∧ later.closes = 1 ∧ later.posted = final.posted) := by
  have side := Connection.readSide_of_run accepted run
  refine ⟨side.phase.outstanding_le, ?_, fun once later after => ?_⟩
  · rcases side.closes with none | ⟨once, -⟩
    · rw [none]
      exact Nat.zero_le 1
    · exact Nat.le_of_eq once
  · rcases side.closes with none | ⟨-, ended⟩
    · rw [once] at none
      cases none
    · obtain ⟨still, posted, closes⟩ := ended.run after
      exact ⟨still.outstanding_eq, closes.trans once, posted⟩

theorem read_side_closes_once_sample :
    ∃ first final, Connection.accept
        (sampleRequest ++ [0x81, 0x01, 0x61, 0x88, 0x00, 0x81, 0x01, 0x62]) = some first ∧
      Reaches (Connection.next zeroDigest) anyEvent first final ∧ final.closes = 1 ∧
      ∀ later, Reaches (Connection.next zeroDigest) anyEvent final later →
        later.outstanding = 0 ∧ later.posted = final.posted := by
  obtain ⟨first, final, accepted, run, closed⟩ := Reaches.of_trace_any (Connection.next zeroDigest)
    anyEvent
    (Connection.accept (sampleRequest ++ [0x81, 0x01, 0x61, 0x88, 0x00, 0x81, 0x01, 0x62]))
    (fun connection : Connection => decide (connection.closes = 1))
    (sampleHandshake ++ [.socket (.read 0), .socket (.read 0), .socket (.read 0),
      .write [0x63] false, .socket (.read 0), .socket (.read 0), .socket (.read 0)])
    (by decide +kernel)
  have once := of_decide_eq_true closed
  obtain ⟨-, -, after⟩ := read_side_closes_once zeroDigest accepted run
  refine ⟨first, final, accepted, run, once, fun later run => ?_⟩
  obtain ⟨none, -, posted⟩ := after once later run
  exact ⟨none, posted⟩

end Averyws
