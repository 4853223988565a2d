/-
The memory of a session.

The buffer of a message grows a chunk at a time, and only when all the bytes there
are room for have arrived.  A session therefore never holds more than a chunk
beyond what its client has sent, whatever lengths the frames declare.
-/

import Averyws.Heartbeats
import Averyws.Library.Events

namespace Averyws

open Library.Bytes Library.Chunks Library.Run
open Utilities

namespace Utilities.ChunkVector

/-- No chunk is longer than the chunk size, and all are full as long as more can
be added. -/
structure Regular (buffer : ChunkVector) : Prop where
  chunk_size : buffer.chunk_size_ = CHUNK_VECTOR_DEFAULT_SIZE
  full : buffer.open_ = true → buffer.Full
  small : ∀ chunk ∈ buffer.chunk_vector_, chunk.length ≤ 1024

variable {buffer after : ChunkVector}

theorem regular_new : (new CHUNK_VECTOR_DEFAULT_SIZE).Regular where
  chunk_size := rfl
  full := fun _ => full_new _ (by decide)
  small := nofun

theorem Regular.length_bytes (regular : buffer.Regular) :
    buffer.bytes.length ≤ buffer.chunk_vector_.length * 1024 := by
  have small := regular.small
  unfold bytes
  generalize buffer.chunk_vector_ = chunks at small ⊢
  induction chunks with
  | nil => exact Nat.le_refl 0
  | cons chunk rest ih =>
      have here := small chunk List.mem_cons_self
      have there := ih fun other member => small other (List.mem_cons_of_mem _ member)
      rw [List.flatten_cons, List.length_append, List.length_cons]
      omega

theorem Regular.store (regular : buffer.Regular) {position : Position} {bytes : List UInt8}
    (stored : buffer.store position bytes = some after) :
    after.Regular ∧ after.chunk_vector_.length = buffer.chunk_vector_.length := by
  unfold ChunkVector.store at stored
  cases found : buffer.chunk_vector_[position.chunk]? with
  | none =>
      rw [found] at stored
      cases stored
  | some chunk =>
      simp only [found] at stored
      split at stored
      · cases stored
        rename_i inside
        have same : (overwrite chunk position.offset bytes).length = chunk.length :=
          length_overwrite _ _ _ inside
        have member := List.mem_of_getElem? found
        refine ⟨⟨regular.chunk_size, fun opened => ⟨(regular.full opened).1, ?_⟩, ?_⟩,
          List.length_set⟩
        · apply (regular.full opened).2.set
          rw [same]
          exact (regular.full opened).2 chunk member
        · intro other inside
          rcases List.mem_or_eq_of_mem_set inside with old | rfl
          · exact regular.small other old
          · rw [same]
            exact regular.small chunk member
      · cases stored

theorem Regular.new_chunk (regular : buffer.Regular) {last : Position}
    (grown : buffer.new_chunk = some (after, last)) :
    after.Regular ∧ after.chunk_vector_.length = buffer.chunk_vector_.length + 1 ∧
      buffer.Full ∧ buffer.bytes.length < 2 ^ 64 := by
  have chunk : buffer.chunk_size_.toNat = 1024 := by rw [regular.chunk_size]; rfl
  by_cases opened : buffer.open_ = true
  · have full := regular.full opened
    by_cases room : buffer.bytes.length + buffer.chunk_size_.toNat < 2 ^ 64
    · obtain ⟨other, place, result, wide, still, same, count, -⟩ := full.new_chunk_eq opened room
      rw [grown] at result
      cases result
      refine ⟨⟨same.trans regular.chunk_size, fun _ => wide, ?_⟩, count, full, by omega⟩
      intro piece member
      have fits := wide.2 piece member
      rw [same, chunk] at fits
      omega
    · unfold ChunkVector.new_chunk at grown
      rw [if_neg (by rw [opened]; exact Bool.noConfusion), if_pos (Nat.not_lt.mp room)] at grown
      cases grown
  · unfold ChunkVector.new_chunk at grown
    rw [if_pos (Bool.not_eq_true _ ▸ opened)] at grown
    cases grown

theorem Regular.close_last_chunk (regular : buffer.Regular) {count : UInt64}
    (fits : count.toNat ≤ 1024) :
    (buffer.close_last_chunk count).Regular ∧
      (buffer.close_last_chunk count).chunk_vector_.length = buffer.chunk_vector_.length := by
  unfold ChunkVector.close_last_chunk
  cases found : buffer.chunk_vector_.getLast? with
  | none =>
      exact ⟨⟨regular.chunk_size, Bool.noConfusion, regular.small⟩, rfl⟩
  | some back =>
      obtain ⟨front, whole⟩ := List.getLast?_eq_some_iff.mp found
      dsimp only
      rw [whole, List.dropLast_concat]
      refine ⟨⟨regular.chunk_size, Bool.noConfusion, ?_⟩, ?_⟩
      · intro chunk member
        rcases List.mem_append.mp member with old | new
        · exact regular.small chunk (by rw [whole]; exact List.mem_append_left _ old)
        · rw [List.mem_singleton.mp new]
          unfold resize
          rw [List.length_append, List.length_take, List.length_replicate]
          omega
      · rw [List.length_append, List.length_append]
        rfl

theorem Regular.last_count (regular : buffer.Regular) (total : UInt64) :
    ((buffer.chunk_size + total - 1) % buffer.chunk_size + 1).toNat ≤ 1024 := by
  unfold ChunkVector.chunk_size
  rw [regular.chunk_size, UInt64.toNat_add, UInt64.toNat_mod]
  have small := Nat.mod_lt (CHUNK_VECTOR_DEFAULT_SIZE + total - 1).toNat
    (show 0 < CHUNK_VECTOR_DEFAULT_SIZE.toNat by decide)
  have reduced := Nat.mod_le ((CHUNK_VECTOR_DEFAULT_SIZE + total - 1).toNat %
    CHUNK_VECTOR_DEFAULT_SIZE.toNat + 1) (2 ^ 64)
  exact Nat.le_trans reduced small

end Utilities.ChunkVector

/-- The message has no more chunks than the bytes taken fill, and one. -/
structure Gather.Within (gather : Gather) (buffer : ChunkVector) (taken : Nat) : Prop where
  regular : buffer.Regular
  chunks : buffer.chunk_vector_.length * 1024 ≤ taken + 1024
  consumed : gather.total_consumed_.toNat ≤ taken

namespace Gather

variable {gather next : Gather} {buffer after : ChunkVector} {taken : Nat}

theorem Within.more (within : gather.Within buffer taken) (extra : Nat) :
    gather.Within buffer (taken + extra) where
  regular := within.regular
  chunks := Nat.le_trans within.chunks (by omega)
  consumed := Nat.le_trans within.consumed (Nat.le_add_right _ _)

theorem Within.grow (within : gather.Within buffer taken)
    (grown : gather.grow buffer = some after) : gather.Within after taken := by
  unfold Gather.grow at grown
  split at grown
  next used =>
    obtain ⟨⟨other, last⟩, result, same⟩ := Option.map_eq_some_iff.mp grown
    cases same
    obtain ⟨regular, count, full, narrow⟩ := within.regular.new_chunk result
    have chunk : buffer.chunk_size_.toNat = 1024 := by rw [within.regular.chunk_size]; rfl
    have size := full.size_toNat narrow
    rw [← used, full.length_bytes, chunk] at size
    refine ⟨regular, ?_, within.consumed⟩
    have consumed := within.consumed
    rw [count]
    omega
  next =>
    cases grown
    exact within

theorem Within.plan (within : gather.Within buffer taken) {new_request : Bool} {rcode : Nat}
    (planned : gather.plan buffer new_request = some (rcode, next, after)) :
    next.Within after taken := by
  unfold Gather.plan at planned
  split at planned
  · split at planned
    · split at planned
      · cases planned
        exact within
      · cases planned
        obtain ⟨regular, count⟩ := within.regular.close_last_chunk (within.regular.last_count _)
        exact ⟨regular, by rw [count]; exact within.chunks, within.consumed⟩
    · cases planned
      exact ⟨within.regular, within.chunks, within.consumed⟩
  · obtain ⟨grown, result, planned⟩ := Option.bind_eq_some_iff.mp planned
    obtain ⟨position, -, planned⟩ := Option.bind_eq_some_iff.mp planned
    cases planned
    have longer := within.grow result
    exact ⟨longer.regular, longer.chunks, longer.consumed⟩

theorem Within.unmask (within : gather.Within buffer taken) {header : Header} {heap : Heap}
    {amount : UInt64} (unmasked : gather.unmask header heap buffer amount = some (next, after)) :
    next.Within after taken := by
  unfold Gather.unmask at unmasked
  obtain ⟨position, -, unmasked⟩ := Option.bind_eq_some_iff.mp unmasked
  obtain ⟨mask, -, unmasked⟩ := Option.bind_eq_some_iff.mp unmasked
  obtain ⟨data, -, unmasked⟩ := Option.bind_eq_some_iff.mp unmasked
  obtain ⟨stored, storing, unmasked⟩ := Option.bind_eq_some_iff.mp unmasked
  cases unmasked
  obtain ⟨regular, count⟩ := within.regular.store storing
  exact ⟨regular, by rw [count]; exact within.chunks, within.consumed⟩

/-- What a read has delivered is counted before the next one is planned. -/
theorem Within.read_chunk (within : gather.Within buffer taken) {header : Header} {heap : Heap}
    {amount : UInt64} {new_request : Bool} {rcode count : Nat} (read : amount.toNat ≤ count)
    (done : gather.read_chunk header heap buffer amount new_request =
      some (rcode, next, after)) : next.Within after (taken + count) := by
  unfold Gather.read_chunk at done
  split at done
  · obtain ⟨⟨middle, stored⟩, unmasked, done⟩ := Option.bind_eq_some_iff.mp done
    have delivered := within.unmask unmasked
    dsimp only at done
    split at done
    · cases done
      exact delivered.more count
    · refine Within.plan ⟨delivered.regular, (delivered.more count).chunks, ?_⟩ done
      change (middle.total_consumed_ + amount).toNat ≤ _
      rw [UInt64.toNat_add]
      have consumed := delivered.consumed
      have reduced := Nat.mod_le (middle.total_consumed_.toNat + amount.toNat) (2 ^ 64)
      omega
  · exact (within.more count).plan done

end Gather

/-- A read of a part of a payload delivers the amount that is counted for it. -/
def ReadOp.Honest (op : ReadOp) : Prop :=
  ∀ previous, op.handler = .read_chunk previous → previous.toNat ≤ op.count

structure Session.Slim (taken : Nat) (result : Session × List Action) : Prop where
  within : result.1.gather_.Within result.1.buffer_ taken
  honest : ∀ op ∈ result.2.filterMap Action.read?, op.Honest
  posts : ∀ request ∈ result.2.filterMap Action.request?, request = result.1.buffer_

namespace Session

variable {session next : Session} {actions : List Action} {taken : Nat}

private theorem Slim.of_reads {result : Session × List Action}
    (within : result.1.gather_.Within result.1.buffer_ taken) (ops : List ReadOp)
    (reads : result.2.filterMap Action.read? = ops)
    (others : ∀ op ∈ ops, ∀ previous, op.handler ≠ .read_chunk previous)
    (posts : ∀ request ∈ result.2.filterMap Action.request?, request = result.1.buffer_) :
    Slim taken result := by
  refine ⟨within, ?_, posts⟩
  rw [reads]
  intro op member previous same
  exact absurd same (others op member previous)

private theorem Slim.quiet {result : Session × List Action}
    (within : result.1.gather_.Within result.1.buffer_ taken)
    (reads : result.2.filterMap Action.read? = [])
    (posts : result.2.filterMap Action.request? = []) : Slim taken result :=
  .of_reads within [] reads nofun (by rw [posts]; exact nofun)

private theorem Slim.header {result : Session × List Action} (op : ReadOp)
    (within : result.1.gather_.Within result.1.buffer_ taken)
    (reads : result.2.filterMap Action.read? = [op])
    (other : ∀ previous, op.handler ≠ .read_chunk previous)
    (posts : ∀ request ∈ result.2.filterMap Action.request?, request = result.1.buffer_) :
    Slim taken result := by
  refine .of_reads within [op] reads (fun only member => ?_) posts
  rw [List.mem_singleton.mp member]
  exact other

theorem slim_after_gather (within : session.gather_.Within session.buffer_ taken) (rcode : Nat) :
    Slim taken (session.after_gather rcode) := by
  unfold after_gather
  split
  · exact Slim.quiet within rfl rfl
  · split
    · refine ⟨within, fun op member previous same => ?_, nofun⟩
      rw [List.mem_singleton.mp member] at same ⊢
      cases same
      exact Nat.le_of_eq (Nat.min_self _).symm
    · cases session.new_request_ with
      | true => exact Slim.header _ within rfl nofun fun request => List.mem_singleton.mp
      | false => exact Slim.header _ within rfl nofun nofun

theorem slim_read_chunk (within : session.gather_.Within session.buffer_ taken)
    {previous : UInt64} {count : Nat} (read : previous.toNat ≤ count)
    (done : session.read_chunk previous false = some (next, actions)) :
    Slim (taken + count) (next, actions) := by
  unfold read_chunk at done
  rw [if_neg Bool.noConfusion] at done
  obtain ⟨⟨rcode, gather, buffer⟩, result, done⟩ := Option.bind_eq_some_iff.mp done
  rw [← Option.some.inj done]
  exact slim_after_gather (within.read_chunk read result) rcode

theorem slim_handle_read_header (within : session.gather_.Within session.buffer_ taken)
    (done : session.handle_read_header false = some (next, actions)) :
    Slim taken (next, actions) := by
  unfold handle_read_header at done
  rw [if_neg Bool.noConfusion] at done
  generalize session.temp_header_.process session.heap session.new_request_ = result at done
  obtain ⟨rcode, temp_header, heap⟩ := result
  dsimp only at done
  split at done
  · cases done
    refine Slim.quiet ?_ rfl rfl
    exact within
  · cases state : temp_header.state_ with
    | CONTROL =>
        simp only [Header.state, state] at done
        split at done
        · cases done
          refine Slim.quiet ?_ rfl rfl
          exact within
        · cases done
          refine Slim.header _ ?_ rfl (fun previous same => ?_) (List.forall_mem_nil _)
          · exact within
          · cases same
    | DATA =>
        simp only [Header.state, state] at done
        by_cases fresh : session.new_request_ = true
        · rw [if_pos fresh] at done
          have none : (0 : UInt64).toNat ≤ 0 := Nat.le_refl 0
          refine slim_read_chunk ?_ none done
          exact ⟨ChunkVector.regular_new, Nat.zero_mul 1024 ▸ Nat.zero_le _, Nat.zero_le _⟩
        · rw [if_neg fresh] at done
          have none : (0 : UInt64).toNat ≤ 0 := Nat.le_refl 0
          refine slim_read_chunk ?_ none done
          exact ⟨within.regular, within.chunks, within.consumed⟩
    | FIRST | SECOND | INVALID | FINISHED =>
        simp only [Header.state, state] at done
        cases done
        refine Slim.header _ ?_ rfl (fun previous same => ?_) (List.forall_mem_nil _)
        · exact within
        · cases same

theorem slim_handle_control_read (within : session.gather_.Within session.buffer_ taken)
    (done : session.handle_control_read false = some (next, actions)) :
    Slim taken (next, actions) := by
  unfold handle_control_read at done
  rw [if_neg Bool.noConfusion] at done
  obtain ⟨⟨rcode, control⟩, -, done⟩ := Option.bind_eq_some_iff.mp done
  dsimp only at done
  split at done
  · cases done
    refine Slim.quiet ?_ rfl rfl
    exact within
  · cases state : control.state_ <;> rw [state] at done <;> cases done
    · refine Slim.quiet ?_ rfl rfl
      exact within
    · refine Slim.header _ ?_ rfl (fun previous same => ?_) (List.forall_mem_nil _)
      · exact within
      · cases same
    · refine Slim.header _ ?_ rfl (fun previous same => ?_) (List.forall_mem_nil _)
      · exact within
      · cases same
    · refine Slim.quiet ?_ rfl rfl
      exact within

private theorem within_store (within : session.gather_.Within session.buffer_ taken)
    {target : Option Target} {bytes : List UInt8}
    (done : session.store target bytes = some next) :
    next.gather_.Within next.buffer_ taken := by
  unfold Session.store at done
  cases target with
  | none => cases done
  | some target =>
      cases target with
      | header pointer =>
          cases done
          exact within
      | control offset =>
          cases done
          exact within
      | chunk position =>
          obtain ⟨buffer, storing, same⟩ := Option.bind_eq_some_iff.mp done
          cases same
          obtain ⟨regular, count⟩ := within.regular.store storing
          exact ⟨regular, by rw [count]; exact within.chunks, within.consumed⟩

theorem slim_receive (within : session.gather_.Within session.buffer_ taken) {op : ReadOp}
    (honest : op.Honest) {bytes : List UInt8}
    (done : session.receive op bytes = some (next, actions)) :
    Slim (taken + op.count) (next, actions) := by
  obtain ⟨loaded, stored, done⟩ := Option.bind_eq_some_iff.mp done
  have loads := within_store within stored
  cases handler : op.handler with
  | handle_read_header =>
      rw [handler] at done
      exact slim_handle_read_header (loads.more op.count) done
  | handle_control_read =>
      rw [handler] at done
      exact slim_handle_control_read (loads.more op.count) done
  | read_chunk previous =>
      rw [handler] at done
      exact slim_read_chunk loads (honest previous handler) done

private theorem within_copy {gather : Gather} {buffer after : ChunkVector}
    (within : gather.Within buffer taken) {bytes : List UInt8} {index : Nat}
    (copied : copy bytes buffer index = some after) : gather.Within after taken := by
  unfold copy at copied
  obtain ⟨position, -, storing⟩ := Option.bind_eq_some_iff.mp copied
  obtain ⟨regular, count⟩ := within.regular.store storing
  exact ⟨regular, by rw [count]; exact within.chunks, within.consumed⟩

private theorem slim_respond (session : Session)
    (within : session.gather_.Within session.buffer_ taken) {b64 : List UInt8}
    (done : session.respond b64 = some (next, actions)) :
    Slim taken (next, actions) := by
  unfold Session.respond at done
  obtain ⟨first, one, done⟩ := Option.bind_eq_some_iff.mp done
  obtain ⟨second, two, done⟩ := Option.bind_eq_some_iff.mp done
  obtain ⟨third, three, done⟩ := Option.bind_eq_some_iff.mp done
  obtain ⟨memory, -, done⟩ := Option.bind_eq_some_iff.mp done
  cases done
  have begun := within_copy within one
  have middle := within_copy begun two
  exact Slim.quiet (within_copy middle three) rfl rfl

theorem slim_receive_first (within : session.gather_.Within session.buffer_ taken)
    {sha1 : List UInt8 → Digest} {bytes : List UInt8}
    (done : session.receive_first sha1 bytes = some (next, actions)) :
    Slim taken (next, actions) := by
  unfold receive_first at done
  obtain ⟨buffer, copied, done⟩ := Option.bind_eq_some_iff.mp done
  have arrived := within_copy within copied
  unfold read_first_header at done
  rw [if_neg Bool.noConfusion] at done
  obtain ⟨closed, terminated, done⟩ := Option.bind_eq_some_iff.mp done
  have ended := within_copy arrived terminated
  obtain ⟨memory, -, done⟩ := Option.bind_eq_some_iff.mp done
  obtain ⟨found, -, done⟩ := Option.bind_eq_some_iff.mp done
  cases found with
  | none => cases done
  | some found =>
      obtain ⟨found_end, -, done⟩ := Option.bind_eq_some_iff.mp done
      cases found_end with
      | none =>
          cases done
          exact Slim.quiet ended rfl rfl
      | some found_end =>
          obtain ⟨b64, -, done⟩ := Option.bind_eq_some_iff.mp done
          exact slim_respond { session with buffer_ := closed } ended done

end Session

namespace Connection

variable {sha1 : List UInt8 → Digest} {before after : Connection} {actions : List Action}
  {sent : Nat}

/-- Neither the buffer of a session nor a request is longer than what its client has
sent, and a chunk. -/
structure Thrifty (sent : Nat) (connection : Connection) : Prop where
  unread : connection.input.length ≤ sent
  within : connection.session.gather_.Within connection.session.buffer_
    (sent - connection.input.length)
  honest : ∀ op ∈ connection.reads, op.Honest
  posted : ∀ request ∈ connection.posted, request.Regular ∧
    request.chunk_vector_.length * 1024 ≤ sent + 1024

private theorem thrifty_performs (rest : Connection) (result : Session × List Action)
    {taken : Nat} (unread : rest.input.length ≤ sent)
    (spent : taken ≤ sent - rest.input.length) (slim : Session.Slim taken result)
    (honest : ∀ op ∈ rest.reads, op.Honest)
    (posted : ∀ request ∈ rest.posted, request.Regular ∧
      request.chunk_vector_.length * 1024 ≤ sent + 1024) :
    ({ rest with session := result.1 }.performs result.2).Thrifty sent := by
  rw [performs_eq]
  refine ⟨unread, ?_, fun op member => ?_, fun request member => ?_⟩
  · have more := slim.within.more (sent - rest.input.length - taken)
    rw [Nat.add_sub_cancel' spent] at more
    exact more
  · rcases List.mem_append.mp member with old | new
    · exact honest op old
    · exact slim.honest op new
  · rcases List.mem_append.mp member with old | new
    · exact posted request old
    · rw [slim.posts request new]
      have chunks := slim.within.chunks
      exact ⟨slim.within.regular, by omega⟩

theorem Thrifty.respond (thrifty : before.Thrifty sent) {stimulus : Stimulus}
    (done : before.respond sha1 stimulus = some (after, actions)) : after.Thrifty sent := by
  have unread := thrifty.unread
  cases stimulus with
  | write data is_binary =>
      cases done
      exact ⟨thrifty.unread, thrifty.within, thrifty.honest, thrifty.posted⟩
  | socket event =>
      cases event with
      | read_first count =>
          obtain ⟨-, -, -, enough, session, received, rfl⟩ := complete_first_cases done
          have size : (before.input.drop count).length = before.input.length - count :=
            List.length_drop
          refine thrifty_performs { before with
            starting := false
            input := before.input.drop count } (session, actions) ?_ ?_
            (Session.slim_receive_first thrifty.within received) thrifty.honest thrifty.posted
          · change (before.input.drop count).length ≤ sent
            omega
          · change _ ≤ sent - (before.input.drop count).length
            omega
      | fail_first =>
          obtain ⟨-, rfl, rfl⟩ := fail_first_cases done
          exact ⟨thrifty.unread, thrifty.within, thrifty.honest, thrifty.posted⟩
      | read index =>
          obtain ⟨op, session, found, enough, received, rfl⟩ := complete_read_cases done
          have honest := thrifty.honest op (List.mem_of_getElem? found)
          have size : (before.input.drop op.count).length = before.input.length - op.count :=
            List.length_drop
          refine thrifty_performs { before with
            reads := before.reads.eraseIdx index
            input := before.input.drop op.count } (session, actions) ?_ ?_
            (Session.slim_receive thrifty.within honest received)
            (fun other member => thrifty.honest other (List.mem_of_mem_eraseIdx member))
            thrifty.posted
          · change (before.input.drop op.count).length ≤ sent
            omega
          · change _ ≤ sent - (before.input.drop op.count).length
            omega
      | fail_read index =>
          obtain ⟨-, rfl, rfl⟩ := fail_read_cases done
          exact ⟨thrifty.unread, thrifty.within,
            fun other member => thrifty.honest other (List.mem_of_mem_eraseIdx member),
            thrifty.posted⟩
      | write_some index count =>
          obtain ⟨next, taken, same⟩ := Option.map_eq_some_iff.mp done
          cases same
          obtain ⟨out, -, -, -, -, rfl⟩ := write_some_cases taken
          exact ⟨thrifty.unread, thrifty.within, thrifty.honest, thrifty.posted⟩
      | written index error =>
          obtain ⟨out, -, -, -, outcome⟩ := complete_write_cases done
          rcases outcome with ⟨-, -, -, rfl⟩ | ⟨-, -, rfl⟩
          · refine ⟨thrifty.unread, thrifty.within, fun op member => ?_, thrifty.posted⟩
            rcases List.mem_append.mp member with old | new
            · exact thrifty.honest op old
            · rw [List.mem_singleton.mp new]
              exact nofun
          · exact ⟨thrifty.unread, thrifty.within, thrifty.honest, thrifty.posted⟩

theorem thrifty_accept {input : List UInt8} {first : Connection}
    (accepted : Connection.accept input = some first) : first.Thrifty input.length := by
  unfold accept at accepted
  obtain ⟨session, started, same⟩ := Option.bind_eq_some_iff.mp accepted
  unfold Session.start at started
  obtain ⟨⟨buffer, last⟩, grown, here⟩ := Option.bind_eq_some_iff.mp started
  cases same
  cases here
  obtain ⟨regular, count, -, -⟩ := ChunkVector.regular_new.new_chunk grown
  refine ⟨Nat.le_refl _, ⟨regular, ?_, Nat.zero_le _⟩, nofun, nofun⟩
  change buffer.chunk_vector_.length * 1024 ≤ _
  rw [count]
  exact Nat.le_add_left _ _

theorem thrifty_of_run {allowed : Connection → Stimulus → Prop} {input : List UInt8}
    {first final : Connection} (accepted : Connection.accept input = some first)
    (run : Reaches (next sha1) allowed first final) : final.Thrifty input.length := by
  apply run.invariant (Thrifty input.length)
  · intro before stimulus after thrifty _ taken
    obtain ⟨⟨next, actions⟩, done, same⟩ := Option.map_eq_some_iff.mp taken
    cases same
    exact thrifty.respond done
  · exact thrifty_accept accepted

end Connection

/-- In every run the buffer of a session is no longer than the bytes it has read from
its client, and one chunk. -/
theorem buffer_bounded (sha1 : List UInt8 → Digest) {allowed : Connection → Stimulus → Prop}
    {input : List UInt8} {first final : Connection}
    (accepted : Connection.accept input = some first)
    (run : Reaches (Connection.next sha1) allowed first final) :
    final.session.buffer_.bytes.length ≤ input.length - final.input.length + 1024 := by
  have thrifty := Connection.thrifty_of_run accepted run
  exact Nat.le_trans thrifty.within.regular.length_bytes thrifty.within.chunks

theorem buffer_bounded_sample :
    ∃ final : Connection, final.input = [] ∧
      final.session.buffer_.bytes.length ≤
        (sampleRequest ++ [0x82, 0x7F, 0x7F, 0xFF, 0xFF, 0xFF, 0xFF, 0xFF, 0xFF, 0xFF]).length -
          final.input.length + 1024 := by
  obtain ⟨first, final, accepted, run, here⟩ := Reaches.of_trace_any (Connection.next zeroDigest)
    anyEvent (Connection.accept
      (sampleRequest ++ [0x82, 0x7F, 0x7F, 0xFF, 0xFF, 0xFF, 0xFF, 0xFF, 0xFF, 0xFF]))
    (fun final : Connection => decide (final.input = []))
    (sampleHandshake ++ [.socket (.read 0), .socket (.read 0)]) (by decide +kernel)
  exact ⟨final, of_decide_eq_true here, buffer_bounded zeroDigest accepted run⟩

end Averyws
