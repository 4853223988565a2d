/-
Sessions that differ in where their header buffers lie.

The read chain never looks at the address of a header buffer, so two sessions
that agree on everything else take the same steps, post the same requests and
fail with the same codes.
-/

import Averyws.FrameRun

namespace Averyws

open Library.Bytes Library.Cells Library.Run
open Utilities

/-- The headers agree up to the buffers they own.  What the first phase decodes
counts only once it has run. -/
structure Header.Twin (left : Header) (heap : Heap) (right : Header) (other : Heap) : Prop where
  live : heap.Live left.buffer_
  lives : other.Live right.buffer_
  block : heap.load left.buffer_ = other.load right.buffer_
  state : left.state_ = right.state_
  rsvc : left.rsvc_ = right.rsvc_
  size : left.next_read_size_ = right.next_read_size_
  decoded : left.state_ ≠ .FIRST →
    left.payload_size_ = right.payload_size_ ∧ left.is_binary_ = right.is_binary_ ∧
      ∃ offset, left.mask_ = some { buffer := left.buffer_, offset := offset } ∧
        right.mask_ = some { buffer := right.buffer_, offset := offset }

namespace Header.Twin

variable {left right : Header} {heap other : Heap}

theorem byte (twin : left.Twin heap right other) (index : Nat) :
    left.byte heap index = right.byte other index := by
  unfold Header.byte
  rw [twin.block]

theorem is_fin (twin : left.Twin heap right other) : left.is_fin heap = right.is_fin other := by
  unfold Header.is_fin
  rw [twin.block]

theorem mask (twin : left.Twin heap right other) (decoded : left.state_ ≠ .FIRST) :
    left.mask heap = right.mask other := by
  obtain ⟨-, -, offset, own, owns⟩ := twin.decoded decoded
  unfold Header.mask
  simp only [own, owns, Option.bind_eq_bind, Option.bind_some, twin.block]

theorem write (twin : left.Twin heap right other) (offset : Nat) (bytes : List UInt8) :
    left.Twin (heap.save left.buffer_ ((heap.load left.buffer_).write offset bytes)) right
      (other.save right.buffer_ ((other.load right.buffer_).write offset bytes)) :=
  { live := (Store.live_save_iff _ _ _ _).mpr twin.live
    lives := (Store.live_save_iff _ _ _ _).mpr twin.lives
    block := by
      rw [Store.load_save_self _ _ _ twin.live, Store.load_save_self _ _ _ twin.lives, twin.block]
    state := twin.state
    rsvc := twin.rsvc
    size := twin.size
    decoded := twin.decoded }

theorem new_buffer (rsvc : left.rsvc_ = right.rsvc_) :
    (left.new_buffer heap).1.Twin (left.new_buffer heap).2 (right.new_buffer other).1
      (right.new_buffer other).2 :=
  { live := Store.live_alloc_self _ _
    lives := Store.live_alloc_self _ _
    block := (Store.load_alloc_self _ _).trans (Store.load_alloc_self _ _).symm
    state := rfl
    rsvc := rsvc
    size := rfl
    decoded := fun different => absurd rfl different }

theorem extended_payload_size (twin : left.Twin heap right other)
    (payload : left.payload_size_ = right.payload_size_) :
    left.extended_payload_size heap = right.extended_payload_size other := by
  unfold Header.extended_payload_size
  rw [payload, twin.block]

theorem process_state_1 (twin : left.Twin heap right other) (new_request : Bool) :
    (left.process_state_1 heap new_request).1 = (right.process_state_1 other new_request).1 ∧
      ((left.process_state_1 heap new_request).1 = 0 →
        (left.process_state_1 heap new_request).2.1.Twin
          (left.process_state_1 heap new_request).2.2
          (right.process_state_1 other new_request).2.1
          (right.process_state_1 other new_request).2.2 ∧
        (left.process_state_1 heap new_request).2.1.state_ ≠ .FIRST) := by
  unfold Header.process_state_1
  rw [twin.block, twin.rsvc]
  dsimp only
  split
  · exact ⟨rfl, fun zero => absurd zero (by decide : (1002 : Nat) ≠ 0)⟩
  · split
    · refine ⟨rfl, fun _ => ⟨?_, fun same => HeaderState.noConfusion same⟩⟩
      exact
        { live := twin.live
          lives := twin.lives
          block := twin.block
          state := rfl
          rsvc := rfl
          size := rfl
          decoded := fun _ => ⟨rfl, rfl, _, rfl, rfl⟩ }
    · refine ⟨rfl, fun _ => ⟨?_, fun same => HeaderState.noConfusion same⟩⟩
      have cleared := twin.write 10 [0, 0, 0, 0]
      rw [twin.block] at cleared
      exact
        { live := cleared.live
          lives := cleared.lives
          block := cleared.block
          state := rfl
          rsvc := rfl
          size := rfl
          decoded := fun _ => ⟨rfl, rfl, _, rfl, rfl⟩ }

theorem process_state_2 (twin : left.Twin heap right other) (decoded : left.state_ ≠ .FIRST)
    (new_request : Bool) :
    (left.process_state_2 heap new_request).1 = (right.process_state_2 other new_request).1 ∧
      ((left.process_state_2 heap new_request).1 = 0 →
        (left.process_state_2 heap new_request).2.Twin heap
          (right.process_state_2 other new_request).2 other ∧
        (left.process_state_2 heap new_request).2.state_ ≠ .FIRST) := by
  obtain ⟨payload, binary, own⟩ := twin.decoded decoded
  have length := twin.extended_payload_size payload
  have settled (state : HeaderState) :
      Header.Twin { left with
          payload_size_ := right.extended_payload_size other
          state_ := state } heap
        { right with
          payload_size_ := right.extended_payload_size other
          state_ := state } other :=
    { live := twin.live
      lives := twin.lives
      block := twin.block
      state := rfl
      rsvc := twin.rsvc
      size := twin.size
      decoded := fun _ => ⟨rfl, binary, own⟩ }
  unfold Header.process_state_2
  rw [twin.block, length]
  dsimp only
  split_ifs
  · exact ⟨rfl, fun zero => absurd zero (by decide)⟩
  · exact ⟨rfl, fun zero => absurd zero (by decide)⟩
  · exact ⟨rfl, fun _ => ⟨settled .CONTROL, fun same => HeaderState.noConfusion same⟩⟩
  · exact ⟨rfl, fun zero => absurd zero (by decide)⟩
  · exact ⟨rfl, fun zero => absurd zero (by decide)⟩
  · exact ⟨rfl, fun _ => ⟨settled .DATA, fun same => HeaderState.noConfusion same⟩⟩

theorem process (twin : left.Twin heap right other) (new_request : Bool) :
    (left.process heap new_request).1 = (right.process other new_request).1 ∧
      ((left.process heap new_request).1 = 0 →
        (left.process heap new_request).2.1.Twin (left.process heap new_request).2.2
          (right.process other new_request).2.1 (right.process other new_request).2.2 ∧
        (left.process heap new_request).2.1.state_ ≠ .FIRST) := by
  have refused : (1002 : Nat) ≠ 0 := by decide
  unfold Header.process
  rw [← twin.state]
  cases state : left.state_ with
  | FIRST => exact twin.process_state_1 new_request
  | SECOND =>
      have decoded : left.state_ ≠ .FIRST := by
        rw [state]
        exact fun same => HeaderState.noConfusion same
      exact twin.process_state_2 decoded new_request
  | CONTROL => exact ⟨rfl, fun zero => absurd zero refused⟩
  | DATA => exact ⟨rfl, fun zero => absurd zero refused⟩
  | INVALID => exact ⟨rfl, fun zero => absurd zero refused⟩
  | FINISHED => exact ⟨rfl, fun zero => absurd zero refused⟩

theorem current_position (twin : left.Twin heap right other) :
    ∃ offset : Option Nat,
      left.current_position =
        offset.map (fun offset => { buffer := left.buffer_, offset := offset }) ∧
      right.current_position =
        offset.map (fun offset => { buffer := right.buffer_, offset := offset }) := by
  unfold Header.current_position
  rw [← twin.state]
  cases left.state_ with
  | FIRST => exact ⟨some 0, rfl, rfl⟩
  | SECOND => exact ⟨some 2, rfl, rfl⟩
  | CONTROL => exact ⟨none, rfl, rfl⟩
  | DATA => exact ⟨none, rfl, rfl⟩
  | INVALID => exact ⟨none, rfl, rfl⟩
  | FINISHED => exact ⟨none, rfl, rfl⟩

theorem size_left (twin : left.Twin heap right other) : left.size_left = right.size_left := by
  unfold Header.size_left
  rw [twin.state, twin.size]

/-- The control processor reads the header and its own buffer; the state it had
before is seen only when it fails. -/
theorem control_process (twin : left.Twin heap right other) (decoded : left.state_ ≠ .FIRST)
    {control twins : Control} (payload : control.buffer_ = twins.buffer_) :
    Option.Rel (fun here there => here.1 = there.1 ∧ (here.1 = 0 → here.2 = there.2))
      (control.process left heap) (twins.process right other) := by
  have length : left.payload_size = right.payload_size := (twin.decoded decoded).1
  have mask := twin.mask decoded
  unfold Control.process
  dsimp only
  rw [twin.byte 0, twin.byte 1, length, mask, payload]
  cases right.mask other with
  | none =>
      simp only [Option.bind_eq_bind, Option.bind_none]
      split_ifs
      all_goals first
        | exact .none
        | exact .some ⟨rfl, fun _ => rfl⟩
  | some key =>
      simp only [Option.bind_eq_bind, Option.bind_some]
      split_ifs
      all_goals first
        | exact .some ⟨rfl, fun _ => rfl⟩
        | exact .some ⟨rfl, fun zero => absurd zero (Nat.succ_ne_zero 1006)⟩

end Header.Twin

/-! ### Sessions -/

structure Session.Alike (left right : Session) : Prop where
  rsvc : left.rsvc_ = right.rsvc_
  new_request : left.new_request_ = right.new_request_
  gather : left.gather_ = right.gather_
  buffer : left.buffer_ = right.buffer_
  reserved : left.temp_header_.rsvc_ = right.temp_header_.rsvc_

def Session.ownRead (session : Session) (offset : Option Nat) (count : Nat) : ReadOp :=
  { handler := .handle_read_header
    target := (offset.map fun offset =>
      { buffer := session.temp_header_.buffer_, offset := offset }).map Target.header
    count := count }

/-- The outstanding reads of two sessions that take the same steps. -/
inductive Session.Paired (left right : Session) : ReadOp → ReadOp → Prop
  | header (offset : Option Nat) (count : Nat) (alike : left.Alike right)
      (twin : left.temp_header_.Twin left.heap right.temp_header_ right.heap) :
      Session.Paired left right (left.ownRead offset count) (right.ownRead offset count)
  | control (alike : left.Alike right)
      (twin : left.temp_header_.Twin left.heap right.temp_header_ right.heap)
      (decoded : left.temp_header_.state_ ≠ .FIRST)
      (payload : left.control_.buffer_ = right.control_.buffer_) (count : Nat) :
      Session.Paired left right
        { handler := .handle_control_read
          target := some (.control Control.payload_begin)
          count := count }
        { handler := .handle_control_read
          target := some (.control Control.payload_begin)
          count := count }
  | chunk (alike : left.Alike right)
      (fin : left.header_.is_fin left.heap = right.header_.is_fin right.heap)
      (mask : left.header_.mask left.heap = right.header_.mask right.heap)
      (binary : left.header_.is_binary = right.header_.is_binary)
      (previous : UInt64) (position : Option Position) (count : Nat) :
      Session.Paired left right
        { handler := .read_chunk previous, target := position.map Target.chunk, count := count }
        { handler := .read_chunk previous, target := position.map Target.chunk, count := count }

/-- What two handlers have started: the same operations, and at most one read
each. -/
inductive Session.Continues (left right : Session) : List Action → List Action → Prop
  | stops (actions : List Action) (idle : actions.filterMap Action.read? = []) :
      Session.Continues left right actions actions
  | reads (actions : List Action) (idle : actions.filterMap Action.read? = [])
      (op other : ReadOp) (paired : left.Paired right op other) :
      Session.Continues left right (actions ++ [.async_read op]) (actions ++ [.async_read other])

def Session.Agree (left right : Session × List Action) : Prop :=
  left.1.Continues right.1 left.2 right.2

namespace Session

variable {left right : Session}

theorem agree_cancel_socket (rsvc : left.rsvc_ = right.rsvc_) (code : UInt16) :
    Agree (left, left.cancel_socket code) (right, right.cancel_socket code) := by
  have same : left.cancel_socket code = right.cancel_socket code := by
    unfold Session.cancel_socket
    rw [rsvc]
  unfold Agree
  rw [same]
  exact .stops _ rfl

theorem Paired.async_read_header (alike : left.Alike right)
    (twin : left.temp_header_.Twin left.heap right.temp_header_ right.heap)
    (actions : List Action) (idle : actions.filterMap Action.read? = []) :
    left.Continues right (actions ++ [left.async_read_header])
      (actions ++ [right.async_read_header]) := by
  obtain ⟨offset, here, there⟩ := twin.current_position
  have count : transfer_exactly left.temp_header_.size_left left.temp_header_.next_read_size =
      transfer_exactly right.temp_header_.size_left right.temp_header_.next_read_size := by
    unfold Header.next_read_size
    rw [twin.size_left, twin.size]
  unfold Session.async_read_header
  rw [here, there, ← count]
  exact .reads actions idle _ _ (.header offset _ alike twin)

theorem Alike.read_header (alike : left.Alike right) (actions : List Action)
    (idle : actions.filterMap Action.read? = []) :
    Agree (left.read_header.1, actions ++ left.read_header.2)
      (right.read_header.1, actions ++ right.read_header.2) := by
  have after : left.read_header.1.Alike right.read_header.1 :=
    ⟨alike.rsvc, alike.new_request, alike.gather, alike.buffer, alike.reserved⟩
  have twin : left.read_header.1.temp_header_.Twin left.read_header.1.heap
      right.read_header.1.temp_header_ right.read_header.1.heap :=
    Header.Twin.new_buffer alike.reserved
  exact Paired.async_read_header after twin actions idle

/-! ### The handlers -/

theorem Alike.after_gather (alike : left.Alike right)
    (fin : left.header_.is_fin left.heap = right.header_.is_fin right.heap)
    (mask : left.header_.mask left.heap = right.header_.mask right.heap)
    (binary : left.header_.is_binary = right.header_.is_binary) (rcode : Nat) :
    Agree (left.after_gather rcode) (right.after_gather rcode) := by
  unfold Session.after_gather
  rw [← alike.gather, ← alike.new_request, ← alike.buffer]
  split_ifs with failed unfinished complete
  · exact agree_cancel_socket alike.rsvc _
  · exact .reads [] rfl _ _ (.chunk alike fin mask binary _ _ _)
  · exact alike.read_header [.post left.buffer_] rfl
  · exact alike.read_header [] rfl

theorem Alike.read_chunk (alike : left.Alike right)
    (fin : left.header_.is_fin left.heap = right.header_.is_fin right.heap)
    (mask : left.header_.mask left.heap = right.header_.mask right.heap)
    (binary : left.header_.is_binary = right.header_.is_binary) (previous : UInt64) :
    Option.Rel Agree (left.read_chunk previous false) (right.read_chunk previous false) := by
  have same : left.gather_.read_chunk left.header_ left.heap left.buffer_ previous
        (left.header_.is_fin left.heap) =
      right.gather_.read_chunk right.header_ right.heap right.buffer_ previous
        (right.header_.is_fin right.heap) := by
    unfold Gather.read_chunk Gather.unmask
    rw [alike.gather, alike.buffer, fin, mask, binary]
  unfold Session.read_chunk
  rw [if_neg Bool.noConfusion, if_neg Bool.noConfusion]
  dsimp only
  rw [same]
  cases right.gather_.read_chunk right.header_ right.heap right.buffer_ previous
    (right.header_.is_fin right.heap) with
  | none => exact .none
  | some result =>
      have after : Alike
          { left with
            new_request_ := left.header_.is_fin left.heap
            gather_ := result.2.1
            buffer_ := result.2.2 }
          { right with
            new_request_ := right.header_.is_fin right.heap
            gather_ := result.2.1
            buffer_ := result.2.2 } :=
        ⟨alike.rsvc, fin, rfl, rfl, alike.reserved⟩
      exact .some (after.after_gather fin mask binary result.1)

private theorem Alike.open_message (alike : left.Alike right) {next after : Header}
    {heap store : Heap} (twin : next.Twin heap after store)
    (payload : next.payload_size_ = after.payload_size_) :
    Alike
      { left with
        heap := heap
        temp_header_ := next
        header_ := left.header_.transfer next
        buffer_ := ChunkVector.new CHUNK_VECTOR_DEFAULT_SIZE
        gather_ := left.gather_.reset.more next.payload_size_ }
      { right with
        heap := store
        temp_header_ := after
        header_ := right.header_.transfer after
        buffer_ := ChunkVector.new CHUNK_VECTOR_DEFAULT_SIZE
        gather_ := right.gather_.reset.more after.payload_size_ } := by
  refine ⟨alike.rsvc, alike.new_request, ?_, rfl, twin.rsvc⟩
  rw [alike.gather, payload]

private theorem Alike.continue_message (alike : left.Alike right) {next after : Header}
    {heap store : Heap} (twin : next.Twin heap after store)
    (payload : next.payload_size_ = after.payload_size_) :
    Alike
      { left with
        heap := heap
        temp_header_ := next
        header_ := left.header_.transfer next
        gather_ := left.gather_.more next.payload_size_ }
      { right with
        heap := store
        temp_header_ := after
        header_ := right.header_.transfer after
        gather_ := right.gather_.more after.payload_size_ } := by
  refine ⟨alike.rsvc, alike.new_request, ?_, alike.buffer, twin.rsvc⟩
  rw [alike.gather, payload]

theorem Alike.handle_read_header (alike : left.Alike right)
    (twin : left.temp_header_.Twin left.heap right.temp_header_ right.heap) :
    Option.Rel Agree (left.handle_read_header false) (right.handle_read_header false) := by
  have outcome := twin.process left.new_request_
  have request : right.temp_header_.process right.heap left.new_request_ =
      right.temp_header_.process right.heap right.new_request_ := by
    rw [alike.new_request]
  rw [request] at outcome
  unfold Session.handle_read_header
  rw [if_neg Bool.noConfusion, if_neg Bool.noConfusion]
  generalize left.temp_header_.process left.heap left.new_request_ = here at outcome
  generalize right.temp_header_.process right.heap right.new_request_ = there at outcome
  obtain ⟨rcode, next, heap⟩ := here
  obtain ⟨other, after, store⟩ := there
  obtain ⟨same, settled⟩ := outcome
  dsimp only at same settled ⊢
  subst same
  by_cases zero : rcode = 0
  · obtain ⟨twin, decoded⟩ := settled zero
    rw [if_neg (not_not.mpr zero), if_neg (not_not.mpr zero)]
    have moved : Alike { left with temp_header_ := next, heap := heap }
        { right with temp_header_ := after, heap := store } :=
      ⟨alike.rsvc, alike.new_request, alike.gather, alike.buffer, twin.rsvc⟩
    have fin := twin.is_fin
    have mask := twin.mask decoded
    obtain ⟨payload, binary, -⟩ := twin.decoded decoded
    unfold Header.state
    rw [← twin.state]
    cases state : next.state_ with
    | CONTROL =>
        dsimp only
        rw [← fin]
        by_cases cut : next.is_fin heap = false
        · rw [if_pos cut, if_pos cut]
          apply Option.Rel.some
          apply agree_cancel_socket
          exact alike.rsvc
        · rw [if_neg cut, if_neg cut]
          have count : transfer_exactly Control.capacity.toUInt64 next.payload_size =
              transfer_exactly Control.capacity.toUInt64 after.payload_size := by
            unfold Header.payload_size
            rw [payload]
          rw [← count]
          have reset : Alike
              { left with
                temp_header_ := next
                heap := heap
                control_ := left.control_.new_buffer }
              { right with
                temp_header_ := after
                heap := store
                control_ := right.control_.new_buffer } :=
            ⟨alike.rsvc, alike.new_request, alike.gather, alike.buffer, twin.rsvc⟩
          exact .some (.reads [] rfl _ _ (.control reset twin decoded rfl _))
    | DATA =>
        have opened := alike.open_message twin payload
        have continued := alike.continue_message twin payload
        have requests := alike.new_request
        dsimp only
        by_cases fresh : left.new_request_ = true
        · rw [if_pos fresh, if_pos (requests.symm.trans fresh)]
          exact opened.read_chunk fin mask binary 0
        · rw [if_neg fresh, if_neg (fun same => fresh (requests.trans same))]
          exact continued.read_chunk fin mask binary 0
    | FIRST => exact absurd state decoded
    | SECOND => exact .some (Paired.async_read_header moved twin [] rfl)
    | INVALID => exact .some (Paired.async_read_header moved twin [] rfl)
    | FINISHED => exact .some (Paired.async_read_header moved twin [] rfl)
  · rw [if_pos zero, if_pos zero]
    apply Option.Rel.some
    apply agree_cancel_socket
    exact alike.rsvc

theorem Alike.handle_control_read (alike : left.Alike right)
    (twin : left.temp_header_.Twin left.heap right.temp_header_ right.heap)
    (decoded : left.temp_header_.state_ ≠ .FIRST)
    (payload : left.control_.buffer_ = right.control_.buffer_) :
    Option.Rel Agree (left.handle_control_read false) (right.handle_control_read false) := by
  have processed := twin.control_process decoded payload
  unfold Session.handle_control_read
  rw [if_neg Bool.noConfusion, if_neg Bool.noConfusion]
  cases here : left.control_.process left.temp_header_ left.heap with
  | none =>
      rw [here] at processed
      cases there : right.control_.process right.temp_header_ right.heap with
      | none => exact .none
      | some result =>
          rw [there] at processed
          cases processed
  | some result =>
      rw [here] at processed
      cases there : right.control_.process right.temp_header_ right.heap with
      | none =>
          rw [there] at processed
          cases processed
      | some other =>
          rw [there] at processed
          obtain ⟨rcode, control⟩ := result
          obtain ⟨code, twins⟩ := other
          cases processed with
          | some processed =>
              obtain ⟨same, settled⟩ := processed
              dsimp only at same settled
              subst same
              simp only [Option.bind_eq_bind, Option.bind_some]
              by_cases zero : rcode = 0
              · have equal := settled zero
                subst equal
                rw [if_neg (not_not.mpr zero), if_neg (not_not.mpr zero)]
                have after : Alike { left with control_ := control }
                    { right with control_ := control } :=
                  ⟨alike.rsvc, alike.new_request, alike.gather, alike.buffer, alike.reserved⟩
                cases control.state_ with
                | KILL => exact .some (.stops _ rfl)
                | PONG => exact .some (after.read_header [] rfl)
                | PING => exact .some (after.read_header [.async_write _] rfl)
                | INVALID => exact .some (.stops _ rfl)
              · rw [if_pos zero, if_pos zero]
                apply Option.Rel.some
                apply agree_cancel_socket
                exact alike.rsvc

theorem Paired.receive {op other : ReadOp} (paired : left.Paired right op other)
    (bytes : List UInt8) :
    Option.Rel Agree (left.receive op bytes) (right.receive other bytes) := by
  unfold Session.receive
  cases paired with
  | header offset count alike twin =>
      cases offset with
      | none => exact .none
      | some offset =>
          have stored : Alike
              { left with
                heap := left.heap.save left.temp_header_.buffer_
                  ((left.heap.load left.temp_header_.buffer_).write offset bytes) }
              { right with
                heap := right.heap.save right.temp_header_.buffer_
                  ((right.heap.load right.temp_header_.buffer_).write offset bytes) } :=
            ⟨alike.rsvc, alike.new_request, alike.gather, alike.buffer, alike.reserved⟩
          exact stored.handle_read_header (twin.write offset bytes)
  | control alike twin decoded payload count =>
      have stored : Alike
          { left with
            control_ := { left.control_ with
              buffer_ := left.control_.buffer_.write Control.payload_begin bytes } }
          { right with
            control_ := { right.control_ with
              buffer_ := right.control_.buffer_.write Control.payload_begin bytes } } :=
        ⟨alike.rsvc, alike.new_request, alike.gather, alike.buffer, alike.reserved⟩
      apply stored.handle_control_read twin decoded
      change left.control_.buffer_.write _ bytes = right.control_.buffer_.write _ bytes
      rw [payload]
  | chunk alike fin mask binary previous position count =>
      cases position with
      | none => exact .none
      | some position =>
          simp only [Option.map_some, Session.store, alike.buffer]
          cases right.buffer_.store position bytes with
          | none => exact .none
          | some buffer =>
              have stored : Alike { left with buffer_ := buffer }
                  { right with buffer_ := buffer } :=
                ⟨alike.rsvc, alike.new_request, alike.gather, rfl, alike.reserved⟩
              exact stored.read_chunk fin mask binary previous

end Session

/-- The connections have posted and cancelled alike and their sessions take the
same steps. -/
structure Connection.Twin (left right : Connection) : Prop where
  posted : left.posted = right.posted
  cancels : left.cancels = right.cancels
  reads : (left.reads = [] ∧ right.reads = []) ∨
    ∃ op other, left.reads = [op] ∧ right.reads = [other] ∧
      left.session.Paired right.session op other

theorem Session.Paired.count {left right : Session} {op other : ReadOp}
    (paired : left.Paired right op other) : op.count = other.count := by
  cases paired <;> rfl

namespace Connection

variable {left right : Connection}

theorem cancels_performs (connection : Connection) (actions : List Action) :
    (connection.performs actions).cancels = connection.cancels ++
      ((actions.filterMap Action.write?).map fresh).filterMap fun out =>
        match out.op.handler with
        | .cancel code => some code
        | _ => none := by
  rw [performs_eq]
  exact List.filterMap_append

theorem Twin.performs (posted : left.posted = right.posted)
    (cancels : left.cancels = right.cancels) (idle : left.reads = [] ∧ right.reads = [])
    {actions others : List Action}
    (continues : left.session.Continues right.session actions others) :
    (left.performs actions).Twin (right.performs others) := by
  cases continues with
  | stops actions quiet =>
      refine ⟨?_, ?_, Or.inl ⟨?_, ?_⟩⟩
      · rw [performs_eq, performs_eq, posted]
      · rw [cancels_performs, cancels_performs, cancels]
      · rw [performs_eq, idle.1, quiet, List.append_nil]
      · rw [performs_eq, idle.2, quiet, List.append_nil]
  | reads actions quiet op other paired =>
      have posts (read : ReadOp) : (actions ++ [Action.async_read read]).filterMap
          Action.request? = actions.filterMap Action.request? := by
        rw [List.filterMap_append]
        exact List.append_nil _
      have writes (read : ReadOp) : (actions ++ [Action.async_read read]).filterMap
          Action.write? = actions.filterMap Action.write? := by
        rw [List.filterMap_append]
        exact List.append_nil _
      have reads (read : ReadOp) : (actions ++ [Action.async_read read]).filterMap
          Action.read? = [read] := by
        rw [List.filterMap_append, quiet]
        rfl
      refine ⟨?_, ?_, Or.inr ⟨op, other, ?_, ?_, ?_⟩⟩
      · rw [performs_eq, performs_eq, posts, posts, posted]
      · rw [cancels_performs, cancels_performs, writes, writes, cancels]
      · rw [performs_eq, idle.1, reads, List.nil_append]
      · rw [performs_eq, idle.2, reads, List.nil_append]
      · rw [performs_eq, performs_eq]
        exact paired

theorem Twin.step (both : left.input = right.input ∧ left.Twin right) :
    Option.Rel (fun left right => left.input = right.input ∧ left.Twin right) left.step
      right.step := by
  obtain ⟨input, twin⟩ := both
  rcases twin.reads with ⟨idle, idles⟩ | ⟨op, other, here, there, paired⟩
  · rw [left.step_idle idle, right.step_idle idles]
    exact .none
  · unfold Connection.step complete_read
    rw [here, there, ← input]
    simp only [List.getElem?_cons_zero, Option.bind_eq_bind, Option.bind_some]
    rw [← paired.count]
    by_cases enough : op.count ≤ left.input.length
    · rw [if_pos enough, if_pos enough]
      have received := paired.receive (left.input.take op.count)
      cases first : left.session.receive op (left.input.take op.count) with
      | none =>
          rw [first] at received
          cases second : right.session.receive other (left.input.take op.count) with
          | none => exact .none
          | some result =>
              rw [second] at received
              cases received
      | some result =>
          rw [first] at received
          cases second : right.session.receive other (left.input.take op.count) with
          | none =>
              rw [second] at received
              cases received
          | some results =>
              rw [second] at received
              cases received with
              | some agree =>
                  refine .some ⟨?_, ?_⟩
                  · simp only [performs_eq]
                  · apply Twin.performs
                    · exact twin.posted
                    · exact twin.cancels
                    · exact ⟨rfl, rfl⟩
                    · exact agree
    · rw [if_neg enough, if_neg enough]
      exact .none

theorem Twin.steps {final : Connection} (input : left.input = right.input)
    (twin : left.Twin right) (run : Steps Connection.step left final) :
    ∃ ended, Steps Connection.step right ended ∧ final.input = ended.input ∧ final.Twin ended :=
  run.lockstep (fun left right => left.input = right.input ∧ left.Twin right)
    (fun _ _ both => Twin.step both) ⟨input, twin⟩

theorem Twin.extend (twin : left.Twin right) (extra other : List UInt8) :
    (left.extend extra).Twin (right.extend other) :=
  ⟨twin.posted, twin.cancels, twin.reads⟩

end Connection

end Averyws
