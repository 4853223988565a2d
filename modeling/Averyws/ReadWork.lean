/-
The number of reads a session takes.

A frame costs its session two reads for the header and one for every part of the
payload, and some of these read nothing.  The bytes of the client pay for all of
them: three half reads a byte, with the reads of a frame paid by its first bytes.
-/

import Averyws.Upstream

namespace Averyws

open Library.Run
open Utilities

/-- What the first bytes of a frame have paid for the reads that are still to come. -/
def ReadOp.credit (op : ReadOp) : Nat :=
  if op.phase = 0 then 0 else if op.phase = 1 then 4 else 2

theorem ReadOp.phase_le (op : ReadOp) : op.phase ≤ 2 := by
  unfold phase
  split
  · split <;> decide
  · decide
  · decide

section Delivery

variable {receiver : Receiver} {session next : Session} {part : List UInt8} {op : ReadOp}
  {actions : List Action}

theorem Session.At.worth (stands : session.At receiver part op) :
    (op.phase = 0 → op.count = 2) ∧ 2 ≤ op.credit + 3 * op.count := by
  cases stands with
  | between state =>
      have credit : (session.headerRead 0 2).credit = 0 := rfl
      have count : (session.headerRead 0 2).count = 2 := rfl
      exact ⟨fun _ => rfl, by omega⟩
  | begun header state rsv known =>
      have credit : (session.headerRead 2 header.tail.length).credit = 4 := rfl
      refine ⟨fun wrong => ?_, by omega⟩
      have one : (session.headerRead 2 header.tail.length).phase = 1 := rfl
      rw [one] at wrong
      cases wrong
  | known header state passes control short count =>
      have credit : session.controlRead.credit = 2 := rfl
      refine ⟨fun wrong => ?_, by omega⟩
      have two : session.controlRead.phase = 2 := rfl
      rw [two] at wrong
      cases wrong
  | reading header data count state passes payload narrow within =>
      have credit : session.chunkRead.credit = 2 := rfl
      refine ⟨fun wrong => ?_, by omega⟩
      have two : session.chunkRead.phase = 2 := rfl
      rw [two] at wrong
      cases wrong

theorem Session.At.eq_headerRead (stands : session.At receiver [] op) :
    op = session.headerRead 0 2 := by
  generalize whole : ([] : List UInt8) = part at stands
  cases stands with
  | between state => rfl
  | begun header state rsv known => cases whole
  | known header state passes control short count => cases whole
  | reading header data count state passes payload narrow within => cases whole

/-- A delivery pays for itself and for what it leaves to be paid. -/
theorem Session.Moves.pays {before : Session} {bytes : List UInt8}
    (stands : before.At receiver part op)
    (moves : next.Moves receiver op (part ++ bytes) actions) :
    2 + ((actions.filterMap Action.read?).map ReadOp.credit).sum ≤ op.credit + 3 * op.count := by
  obtain ⟨first, worth⟩ := stands.worth
  cases moves with
  | on later stands ahead =>
      change 2 + (later.credit + 0) ≤ _
      have last := later.phase_le
      unfold ReadOp.credit at worth ⊢
      split_ifs at worth ⊢ <;> omega
  | done frame after message replies requests later whole verdict carried bytes stands =>
      rw [onward_reads, stands.eq_headerRead]
      exact worth
  | failed code begins judged => exact worth
  | closed frame reply whole verdict carried => exact worth

end Delivery

def Stimulus.reads : Stimulus → Bool
  | .socket (.read _) => true
  | _ => false

namespace Connection

variable {sha1 : List UInt8 → Digest} {before after : Connection} {actions : List Action}
  {origin : List UInt8}

/-- What the outstanding reads have been paid, and what the unread bytes are worth. -/
def worth (self : Connection) : Nat :=
  (self.reads.map ReadOp.credit).sum + 3 * self.input.length

private theorem worth_performs (connection : Connection) (actions : List Action) :
    (connection.performs actions).worth =
      connection.worth + ((actions.filterMap Action.read?).map ReadOp.credit).sum := by
  unfold worth
  rw [performs_eq, List.map_append, List.sum_append]
  dsimp only
  omega

private theorem Upstream.read_pays (phase : before.Phase) (upstream : before.Upstream origin)
    {index : Nat} (done : before.complete_read index = some (after, actions)) :
    2 + after.worth ≤ before.worth := by
  obtain ⟨op, session, found, enough, received, rfl⟩ := complete_read_cases done
  have size : (before.input.take op.count).length = op.count := List.length_take_of_le enough
  obtain ⟨rfl, here, -⟩ := phase.of_read found
  cases upstream with
  | waiting begins =>
      rw [here.starting, here.responses] at begins
      rcases begins with wrong | wrong <;> cases wrong
  | finished frames part receiver ending ended =>
      have none := ended.reads
      rw [here.reads] at none
      cases none
  | reading frames part receiver other reads stands taken =>
      have same : op = other := (List.cons.inj (here.reads.symm.trans reads)).1
      subst same
      rcases stands with stands | ⟨stuck, -⟩
      · have pays := (stands.moves _ size received).pays stands
        rw [worth_performs]
        unfold worth
        rw [reads, List.length_drop]
        simp only [List.eraseIdx_zero, List.tail_cons, List.map_nil, List.sum_nil, List.map_cons,
          List.sum_cons]
        omega
      · rw [stuck.2 _ size] at received
        cases received

theorem Upstream.respond_pays (phase : before.Phase) (upstream : before.Upstream origin)
    {stimulus : Stimulus} (done : before.respond sha1 stimulus = some (after, actions)) :
    (if stimulus.reads then 2 else 0) + after.worth ≤ before.worth := by
  cases stimulus with
  | write data is_binary =>
      cases done
      exact Nat.le_of_eq (Nat.zero_add _)
  | socket event =>
      cases event with
      | read_first count =>
          obtain ⟨-, -, -, -, session, received, rfl⟩ := complete_first_cases done
          have shorter : (before.input.drop count).length ≤ before.input.length := by
            rw [List.length_drop]
            exact Nat.sub_le _ _
          rcases Session.receive_first_cases received with ⟨rfl, -⟩ | ⟨reply, rfl, -⟩
          · rw [worth_performs]
            unfold worth
            change 0 + ((before.reads.map ReadOp.credit).sum +
              3 * (before.input.drop count).length + 0) ≤ _
            omega
          · rw [worth_performs]
            unfold worth
            change 0 + ((before.reads.map ReadOp.credit).sum +
              3 * (before.input.drop count).length + 0) ≤ _
            omega
      | fail_first =>
          obtain ⟨-, rfl, rfl⟩ := fail_first_cases done
          exact Nat.le_of_eq (Nat.zero_add _)
      | read index => exact upstream.read_pays phase done
      | fail_read index =>
          obtain ⟨⟨op, found⟩, rfl, rfl⟩ := fail_read_cases done
          obtain ⟨rfl, here, -⟩ := phase.of_read found
          unfold worth
          rw [here.reads]
          change 0 + (0 + 3 * before.input.length) ≤ _
          omega
      | write_some index count =>
          obtain ⟨next, taken, same⟩ := Option.map_eq_some_iff.mp done
          cases same
          obtain ⟨out, -, -, -, -, rfl⟩ := write_some_cases taken
          exact Nat.le_of_eq (Nat.zero_add _)
      | written index error =>
          obtain ⟨out, -, -, -, outcome⟩ := complete_write_cases done
          rcases outcome with ⟨-, -, -, rfl⟩ | ⟨-, -, rfl⟩
          · unfold worth
            rw [List.map_append, List.sum_append]
            exact Nat.le_of_eq (Nat.zero_add _)
          · exact Nat.le_of_eq (Nat.zero_add _)

end Connection

private theorem sum_reads (stimuli : List Stimulus) :
    (stimuli.map fun stimulus => if stimulus.reads then 2 else 0).sum =
      2 * stimuli.countP Stimulus.reads := by
  induction stimuli with
  | nil => rfl
  | cons stimulus stimuli ih =>
      rw [List.map_cons, List.sum_cons, ih, List.countP_cons]
      cases stimulus.reads with
      | true =>
          simp only [if_true]
          omega
      | false => simp only [if_false, Bool.false_eq_true, Nat.zero_add, Nat.add_zero]

namespace Connection

variable {sha1 : List UInt8 → Digest} {input : List UInt8} {first final : Connection}
  {stimuli : List Stimulus}

private theorem next_pays (accepted : accept input = some first)
    (run : Runs (next sha1) first stimuli final) {stimulus : Stimulus} {after : Connection}
    (taken : final.next sha1 stimulus = some after) :
    (if stimulus.reads then 2 else 0) + after.worth ≤ final.worth := by
  obtain ⟨⟨next, actions⟩, done, same⟩ := Option.map_eq_some_iff.mp taken
  cases same
  exact (upstream_of_run accepted run).respond_pays (phase_of_run accepted run.reaches) done

theorem chain_ends (accepted : accept input = some first)
    (run : Runs (next sha1) first stimuli final) (holds : Connection → Prop)
    (initially : holds final)
    (left : ∀ later before after, Runs (next sha1) first (stimuli ++ later) before →
      opened later = 0 → before.step = some after → holds after) :
    ∃ last later, Ends step final last ∧ Runs (next sha1) first (stimuli ++ later) last ∧
      opened later = 0 ∧ holds last := by
  have more : ∃ last, Ends step final last ∧ ∃ later,
      Runs (next sha1) first (stimuli ++ later) last ∧ opened later = 0 ∧ holds last := by
    apply Ends.of_potential worth
    · rintro before after ⟨later, path, none, -⟩ taken
      have next : before.next sha1 (.socket (.read 0)) = some after := taken
      have paid := next_pays accepted path next
      change 2 + _ ≤ _ at paid
      have further := path.next _ next
      rw [List.append_assoc] at further
      refine ⟨⟨_, further, ?_, left later before after path none taken⟩, by omega⟩
      rw [opened_append, none]
      rfl
    · refine ⟨[], ?_, rfl, initially⟩
      rw [List.append_nil]
      exact run
  obtain ⟨last, ends, later, path, none, here⟩ := more
  exact ⟨last, later, ends, path, none, here⟩

end Connection

/-- In every run a session completes three reads at most for every two bytes of its
client, and its chain of reads comes to an end. -/
theorem reads_bounded (sha1 : List UInt8 → Digest) {input : List UInt8}
    {first final : Connection} {stimuli : List Stimulus}
    (accepted : Connection.accept input = some first)
    (run : Runs (Connection.next sha1) first stimuli final) :
    2 * stimuli.countP Stimulus.reads ≤ 3 * input.length ∧
      ∃ last, Ends Connection.step final last := by
  constructor
  · have total := run.total_le (fun stimulus => if stimulus.reads then 2 else 0) Connection.worth
      (fun _ _ _ _ path taken => Connection.next_pays accepted path taken)
    rw [sum_reads] at total
    have initial : first.worth = 3 * input.length := by
      unfold Connection.accept at accepted
      obtain ⟨session, -, same⟩ := Option.bind_eq_some_iff.mp accepted
      cases same
      exact Nat.zero_add _
    omega
  · obtain ⟨last, -, ends, -⟩ := Connection.chain_ends accepted run (fun _ => True) trivial
      (fun _ _ _ _ _ _ => trivial)
    exact ⟨last, ends⟩

theorem reads_bounded_sample :
    ∃ final : Connection, final.replies.length = 2 ∧
      2 * (sampleHandshake ++ List.replicate 6 (Stimulus.socket (.read 0))).countP
          Stimulus.reads ≤
        3 * (sampleRequest ++ [0x89, 0x00, 0x89, 0x00]).length ∧
      ∃ last, Ends Connection.step final last := by
  obtain ⟨first, final, accepted, run, here⟩ := Runs.of_trace_any (Connection.next zeroDigest)
    (Connection.accept (sampleRequest ++ [0x89, 0x00, 0x89, 0x00]))
    (fun final : Connection => decide (final.replies.length = 2))
    (sampleHandshake ++ List.replicate 6 (.socket (.read 0))) (by decide +kernel)
  exact ⟨final, of_decide_eq_true here, reads_bounded zeroDigest accepted run⟩

end Averyws
