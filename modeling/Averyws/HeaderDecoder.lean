/-
The header reader as a decoder of byte streams.

A header is read in two steps; each waits for the bytes the reader asks for and
processes them.  What comes of it is decided by the bytes at the front of the
stream, and no byte outside the buffer is touched on the way.
-/

import Averyws.HeaderBytes

namespace Averyws

open Library.Bytes Library.Cells Library.Words

/-- The indices of its buffer that a call of `process` may read, write or make
`mask_` point to. -/
def Header.touches (self : Header) (heap : Heap) : List Nat :=
  match self.state_ with
  | .FIRST =>
      if self.byte heap 1 &&& 0x80 = 0 then [0, 1] ++ List.range' 10 4
      else if self.byte heap 1 &&& 0x7F = 126 then [0, 1] ++ List.range' 4 4
      else if self.byte heap 1 &&& 0x7F = 127 then [0, 1] ++ List.range' 10 4
      else [0, 1] ++ List.range' 2 4
  | .SECOND =>
      if self.payload_size_ = 126 then 0 :: List.range' 2 2
      else if self.payload_size_ = 127 then 0 :: List.range' 2 8
      else [0]
  | _ => []

private theorem Header.touches_first {reader : Header} (heap : Heap)
    (state : reader.state_ = .FIRST) :
    0 ∈ reader.touches heap ∧ 1 ∈ reader.touches heap := by
  unfold touches
  rw [state]
  dsimp only
  split_ifs <;> exact ⟨List.mem_cons_self, List.mem_cons_of_mem _ List.mem_cons_self⟩

private theorem Header.touches_second {reader : Header} (heap : Heap)
    (state : reader.state_ = .SECOND) :
    0 ∈ reader.touches heap ∧
      (reader.payload_size_ = 126 → ∀ index, 2 ≤ index → index < 4 →
        index ∈ reader.touches heap) ∧
      (reader.payload_size_ = 127 → ∀ index, 2 ≤ index → index < 10 →
        index ∈ reader.touches heap) := by
  unfold touches
  rw [state]
  dsimp only
  split_ifs with two eight
  · refine ⟨List.mem_cons_self, fun _ index low high => ?_, fun wrong => ?_⟩
    · exact List.mem_cons_of_mem _ (List.mem_range'_1.mpr ⟨low, high⟩)
    · rw [two] at wrong
      exact absurd wrong (by decide)
  · refine ⟨List.mem_cons_self, fun wrong => absurd wrong two, fun _ index low high => ?_⟩
    exact List.mem_cons_of_mem _ (List.mem_range'_1.mpr ⟨low, high⟩)
  · exact ⟨List.mem_cons_self, fun wrong => absurd wrong two, fun wrong => absurd wrong eight⟩

/-- What `process` returns depends on no other byte. -/
theorem Header.process_congr (reader : Header) (heap other : Heap) (new_request : Bool)
    (agree : ∀ index ∈ reader.touches heap, reader.byte other index = reader.byte heap index) :
    (reader.process other new_request).1 = (reader.process heap new_request).1 ∧
      (reader.process other new_request).2.1 = (reader.process heap new_request).2.1 := by
  unfold process
  cases state : reader.state_ with
  | FIRST =>
      obtain ⟨zeroth, first⟩ := touches_first heap state
      dsimp only
      unfold process_state_1
      simp only [getElem_load]
      rw [agree 0 zeroth, agree 1 first]
      split_ifs <;> exact ⟨rfl, rfl⟩
  | SECOND =>
      obtain ⟨zeroth, two, eight⟩ := touches_second heap state
      have length : reader.extended_payload_size other = reader.extended_payload_size heap := by
        unfold extended_payload_size
        simp only [getElem_load]
        split_ifs with short long
        · rw [agree 2 (two short 2 (by decide) (by decide)),
            agree 3 (two short 3 (by decide) (by decide))]
        · have byte (index : Nat) (low : 2 ≤ index) (high : index < 10) :=
            agree index (eight long index low high)
          rw [byte 2 (by decide) (by decide), byte 3 (by decide) (by decide),
            byte 4 (by decide) (by decide), byte 5 (by decide) (by decide),
            byte 6 (by decide) (by decide), byte 7 (by decide) (by decide),
            byte 8 (by decide) (by decide), byte 9 (by decide) (by decide)]
        · rfl
      have same : reader.process_state_2 other new_request =
          reader.process_state_2 heap new_request := by
        have kind : Header.byte { reader with payload_size_ := reader.extended_payload_size heap }
            other 0 = Header.byte { reader with
              payload_size_ := reader.extended_payload_size heap } heap 0 := agree 0 zeroth
        unfold process_state_2
        rw [length]
        simp only [getElem_load]
        rw [agree 0 zeroth]
      dsimp only
      rw [same]
      exact ⟨rfl, rfl⟩
  | CONTROL => exact ⟨rfl, rfl⟩
  | DATA => exact ⟨rfl, rfl⟩
  | INVALID => exact ⟨rfl, rfl⟩
  | FINISHED => exact ⟨rfl, rfl⟩

/-- Only the first phase writes: the four mask bytes at 10, when no mask is announced. -/
private theorem Header.process_heap (reader : Header) (heap : Heap) (new_request : Bool) :
    (reader.process heap new_request).2.2 = heap ∨
      (reader.state_ = .FIRST ∧ reader.byte heap 1 &&& 0x80 = 0 ∧
        (reader.process heap new_request).2.2 =
          heap.receive { buffer := reader.buffer_, offset := 10 } [0, 0, 0, 0]) := by
  unfold process
  cases state : reader.state_ with
  | FIRST =>
      dsimp only
      unfold process_state_1
      dsimp only
      split
      · exact Or.inl rfl
      · split
        · exact Or.inl rfl
        · rename_i unmasked
          exact Or.inr ⟨rfl, not_not.mp unmasked, rfl⟩
  | SECOND => exact Or.inl rfl
  | CONTROL => exact Or.inl rfl
  | DATA => exact Or.inl rfl
  | INVALID => exact Or.inl rfl
  | FINISHED => exact Or.inl rfl

theorem Header.process_writes (reader : Header) (heap : Heap) (new_request : Bool)
    (live : heap.Live reader.buffer_) (index : Nat) (other : index ∉ reader.touches heap) :
    reader.byte (reader.process heap new_request).2.2 index = reader.byte heap index := by
  rcases reader.process_heap heap new_request with same | ⟨state, masked, cleared⟩
  · rw [same]
  · rw [cleared]
    have outside : ¬(10 ≤ index ∧ index < 14) := by
      intro within
      apply other
      unfold touches
      rw [state]
      dsimp only
      rw [if_pos masked]
      exact List.mem_append_right _ (List.mem_range'_1.mpr within)
    rcases Nat.lt_or_ge index 10 with before | after
    · exact reader.byte_receive_before heap 10 index [0, 0, 0, 0] live before
    · apply reader.byte_receive_after heap 10 index [0, 0, 0, 0] live
      simp only [List.length_cons, List.length_nil]
      omega

theorem Header.process_others (reader : Header) (heap : Heap) (new_request : Bool) (ref : Nat)
    (other : ref ≠ reader.buffer_) :
    (reader.process heap new_request).2.2.load ref = heap.load ref := by
  rcases reader.process_heap heap new_request with same | ⟨-, -, cleared⟩
  · rw [same]
  · rw [cleared, heap.load_receive_of_ne _ _ ref other]

/-- What a call of `process` returns is decided by the bytes at the indices it
touches, and it changes no byte of any buffer but these. -/
structure Header.Confined (self : Header) (heap : Heap) (new_request : Bool) : Prop where
  reads : ∀ other : Heap,
    (∀ index ∈ self.touches heap, self.byte other index = self.byte heap index) →
      (self.process other new_request).1 = (self.process heap new_request).1 ∧
        (self.process other new_request).2.1 = (self.process heap new_request).2.1
  writes : heap.Live self.buffer_ → ∀ index, index ∉ self.touches heap →
    self.byte (self.process heap new_request).2.2 index = self.byte heap index
  others : ∀ ref, ref ≠ self.buffer_ →
    (self.process heap new_request).2.2.load ref = heap.load ref

theorem Header.confined (self : Header) (heap : Heap) (new_request : Bool) :
    self.Confined heap new_request :=
  ⟨fun other => self.process_congr heap other new_request,
    self.process_writes heap new_request, self.process_others heap new_request⟩

structure HeaderRead where
  /-- what the calls of `process` have returned -/
  codes : List Nat
  header : Header
  heap : Heap
  rest : List UInt8
  /-- the indices of the buffer used so far -/
  touched : List Nat

/-- The bytes the reader asks for arrive and are processed. -/
def HeaderRead.step (self : HeaderRead) (new_request : Bool) : HeaderRead :=
  match self.header.current_position with
  | none => self
  | some position =>
      let count := self.header.next_read_size.toNat
      if count ≤ self.rest.length then
        let heap := self.heap.receive position (self.rest.take count)
        let (rcode, header, after) := self.header.process heap new_request
        { codes := self.codes ++ [rcode]
          header := header
          heap := after
          rest := self.rest.drop count
          touched :=
            self.touched ++ (List.range' position.offset count ++ self.header.touches heap) }
      else self

/-- A new buffer, and the second step once the first has returned 0. -/
def Header.read_stream (self : Header) (heap : Heap) (new_request : Bool) (stream : List UInt8) :
    HeaderRead :=
  let (header, heap) := self.new_buffer heap
  let opened : HeaderRead :=
    { codes := [], header := header, heap := heap, rest := stream, touched := [] }
  let first := opened.step new_request
  if first.codes = [0] then first.step new_request else first

/-! ### What the bytes say -/

namespace HeaderBytes

def fin (stream : List UInt8) : Bool :=
  stream.getD 0 0 &&& 0x80 != 0

def rsv (stream : List UInt8) : UInt8 :=
  stream.getD 0 0 &&& 0x70

def opcode (stream : List UInt8) : UInt8 :=
  stream.getD 0 0 &&& 0x0F

def masked (stream : List UInt8) : Bool :=
  stream.getD 1 0 &&& 0x80 != 0

def extension (stream : List UInt8) : Nat :=
  if stream.getD 1 0 &&& 0x7F = 126 then 2
  else if stream.getD 1 0 &&& 0x7F = 127 then 8
  else 0

def bigEndian (bytes : List UInt8) : Nat :=
  bytes.foldl (fun number byte => 2 ^ 8 * number + byte.toNat) 0

def length (stream : List UInt8) : Nat :=
  if extension stream = 0 then (stream.getD 1 0 &&& 0x7F).toNat
  else bigEndian ((stream.drop 2).take (extension stream))

def size (stream : List UInt8) : Nat :=
  2 + extension stream + if masked stream then 4 else 0

def mask (stream : List UInt8) : List UInt8 :=
  if masked stream then (stream.drop (2 + extension stream)).take 4 else [0, 0, 0, 0]

end HeaderBytes

structure Acceptable (rsvc : UInt8) (new_request : Bool) (stream : List UInt8) : Prop where
  whole : HeaderBytes.size stream ≤ stream.length
  rsv : HeaderBytes.rsv stream = rsvc
  known : HeaderBytes.opcode stream ∈ [0, 1, 2, 8, 9, 10]
  control : 8 ≤ HeaderBytes.opcode stream →
    HeaderBytes.fin stream = true ∧ HeaderBytes.length stream ≤ 125
  data : HeaderBytes.opcode stream < 8 →
    (HeaderBytes.opcode stream = 0 ↔ new_request = false)

namespace FrameHeader

variable (header : FrameHeader) (rest : List UInt8)

theorem extension_wire : HeaderBytes.extension (header.wire ++ rest) =
    (header.form.extension header.length).length := by
  unfold HeaderBytes.extension
  change (if header.second &&& 0x7F = 126 then 2
    else if header.second &&& 0x7F = 127 then 8 else 0) = _
  rw [header.second_code, header.length_extension]
  rcases header.code_cases with ⟨form, small, -⟩ | ⟨form, -⟩ | ⟨form, -⟩
  · rw [form] at small ⊢
    rw [if_neg, if_neg]
    · intro code
      rw [code] at small
      exact absurd small (by decide)
    · intro code
      rw [code] at small
      exact absurd small (by decide)
  · rw [form]
    rfl
  · rw [form]
    rfl

theorem masked_wire : HeaderBytes.masked (header.wire ++ rest) = header.mask.isSome := by
  unfold HeaderBytes.masked
  change (header.second &&& 0x80 != 0) = _
  rw [Bool.eq_iff_iff, bne_iff_ne]
  exact header.second_mask

theorem size_wire : HeaderBytes.size (header.wire ++ rest) = header.wire.length := by
  have tail := header.length_tail
  have whole : header.wire.length = 2 + header.tail.length := by
    unfold wire
    rw [List.length_append]
    rfl
  unfold HeaderBytes.size
  rw [header.masked_wire, header.extension_wire, whole, tail, Nat.add_assoc]

theorem drop_wire : (header.wire ++ rest).drop 2 = header.tail ++ rest := rfl

theorem length_wire : HeaderBytes.length (header.wire ++ rest) = header.length := by
  have fits := header.fits
  unfold HeaderBytes.length
  rw [header.extension_wire, header.drop_wire]
  unfold tail
  rw [List.append_assoc, List.take_left]
  rcases header.code_cases with ⟨form, -, number⟩ | ⟨form, -⟩ | ⟨form, -⟩
  · have code : (header.wire ++ rest).getD 1 0 &&& 0x7F = header.form.code header.length :=
      header.second_code
    rw [code, if_pos (by rw [header.length_extension, form])]
    rw [UInt8.toNat_toUInt64] at number
    exact number
  · rw [form] at fits ⊢
    rw [if_neg (by simp [LengthForm.extension])]
    simp only [HeaderBytes.bigEndian, LengthForm.extension, List.foldl_cons, List.foldl_nil,
      Nat.mul_zero, Nat.zero_add]
    exact join_digits_two header.length fits
  · rw [form] at fits ⊢
    rw [if_neg (by simp [LengthForm.extension])]
    simp only [HeaderBytes.bigEndian, LengthForm.extension, List.foldl_cons, List.foldl_nil,
      Nat.mul_zero, Nat.zero_add]
    exact join_digits_eight header.length fits

theorem mask_wire : HeaderBytes.mask (header.wire ++ rest) = header.key.toList := by
  unfold HeaderBytes.mask
  rw [header.masked_wire, header.extension_wire, ← List.drop_drop, header.drop_wire]
  unfold tail key
  rw [List.append_assoc, List.drop_left]
  cases header.mask with
  | none => rfl
  | some mask => exact List.take_left' mask.size_toArray

end FrameHeader

private theorem control_iff (opcode : UInt8) (known : KnownOpcode opcode) :
    ControlOpcode opcode ↔ 8 ≤ opcode := by
  rcases known with rfl | rfl | rfl | rfl | rfl | rfl <;> decide

theorem FrameHeader.data_of_verdict (header : FrameHeader) (new_request : Bool)
    (data : ¬ControlOpcode header.opcode) (accepted : header.second_verdict new_request = 0) :
    header.opcode = 0 ↔ new_request = false := by
  unfold second_verdict at accepted
  rw [if_neg data] at accepted
  by_cases start : new_request = true ∧ header.opcode = 0
  · rw [if_pos start] at accepted
    cases accepted
  · rw [if_neg start] at accepted
    by_cases inside : new_request = false ∧ header.opcode ≠ 0
    · rw [if_pos inside] at accepted
      cases accepted
    · cases new_request with
      | true => exact ⟨fun zero => absurd ⟨rfl, zero⟩ start, fun impossible => nomatch impossible⟩
      | false =>
          refine ⟨fun _ => rfl, fun _ => ?_⟩
          by_contra other
          exact inside ⟨rfl, other⟩

/-- The conditions on the bytes of a header are the verdicts of the two phases. -/
theorem acceptable_wire_iff (header : FrameHeader) (rest : List UInt8) (rsvc : UInt8)
    (new_request : Bool) :
    Acceptable rsvc new_request (header.wire ++ rest) ↔
      header.rsv = rsvc ∧ KnownOpcode header.opcode ∧ header.second_verdict new_request = 0 := by
  have opcode : HeaderBytes.opcode (header.wire ++ rest) = header.opcode := rfl
  have known : header.opcode ∈ [0, 1, 2, 8, 9, 10] ↔ KnownOpcode header.opcode := by
    unfold KnownOpcode
    simp only [List.mem_cons, List.not_mem_nil, or_false]
  constructor
  · intro acceptable
    have length := header.length_wire rest
    have among := known.mp acceptable.known
    refine ⟨acceptable.rsv, among, ?_⟩
    by_cases control : ControlOpcode header.opcode
    · obtain ⟨fin, short⟩ := acceptable.control ((control_iff _ among).mp control)
      rw [length] at short
      exact header.second_verdict_control new_request control fin short
    · have low := mt (control_iff _ among).mpr control
      exact header.second_verdict_data new_request control
        (acceptable.data (UInt8.not_le.mp low))
  · rintro ⟨rsv, among, accepted⟩
    refine ⟨?_, rsv, known.mpr among, fun high => ?_, fun low => ?_⟩
    · rw [header.size_wire, List.length_append]
      exact Nat.le_add_right _ _
    · rw [header.length_wire]
      exact header.control_of_verdict new_request ((control_iff _ among).mpr high) accepted
    · have data := mt (control_iff _ among).mp (UInt8.not_le.mpr low)
      exact header.data_of_verdict new_request data accepted

theorem FrameHeader.exists_wire (stream : List UInt8)
    (whole : HeaderBytes.size stream ≤ stream.length) :
    ∃ (header : FrameHeader) (rest : List UInt8), stream = header.wire ++ rest := by
  have two : 2 ≤ HeaderBytes.size stream := by
    unfold HeaderBytes.size
    omega
  match stream, Nat.le_trans two whole with
  | first :: second :: later, _ =>
      obtain ⟨started, rfl, rfl⟩ := FrameHeader.exists_of_two first second
      -- the size is decided by the second byte
      have size : HeaderBytes.size (started.first :: started.second :: later) =
          started.wire.length := started.size_wire []
      rw [size] at whole
      have enough : started.tail.length ≤ later.length := Nat.le_of_succ_le_succ
        (Nat.le_of_succ_le_succ whole)
      obtain ⟨header, alike, tail⟩ := started.exists_of_tail
        (later.take started.tail.length) (List.length_take_of_le enough)
      refine ⟨header, later.drop started.tail.length, ?_⟩
      unfold wire
      rw [← alike.first, ← alike.second, tail]
      simp only [List.cons_append, List.nil_append, List.take_append_drop]

theorem HeaderRead.step_eq {self : HeaderRead} {position : Pointer} (new_request : Bool)
    (here : self.header.current_position = some position) (bytes rest : List UInt8)
    (arrives : self.rest = bytes ++ rest)
    (size : self.header.next_read_size.toNat = bytes.length) :
    let heap := self.heap.receive position bytes
    let outcome := self.header.process heap new_request
    self.step new_request =
      { codes := self.codes ++ [outcome.1]
        header := outcome.2.1
        heap := outcome.2.2
        rest := rest
        touched := self.touched ++
          (List.range' position.offset bytes.length ++ self.header.touches heap) } := by
  intro heap outcome
  have enough : bytes.length ≤ self.rest.length := by
    rw [arrives, List.length_append]
    exact Nat.le_add_right _ _
  unfold step
  simp only [here, size, if_pos enough]
  rw [arrives, List.take_left, List.drop_left]

section Read

variable {self : HeaderRead} {header : FrameHeader} {rest : List UInt8}

theorem HeaderRead.step_first (fresh : self.header.Fresh self.heap) (new_request : Bool)
    (stream : self.rest = [header.first, header.second] ++ rest) :
    (header.rsv ≠ self.header.rsvc_ ∨ ¬KnownOpcode header.opcode →
        (self.step new_request).codes = self.codes ++ [1002]) ∧
      (header.rsv = self.header.rsvc_ → KnownOpcode header.opcode →
        (self.step new_request).codes = self.codes ++ [0] ∧
        (self.step new_request).header.Started (self.step new_request).heap header ∧
        (self.step new_request).rest = rest) := by
  have here : self.header.current_position =
      some { buffer := self.header.buffer_, offset := 0 } := by
    unfold Header.current_position
    rw [fresh.state]
  have size : self.header.next_read_size.toNat = [header.first, header.second].length :=
    congrArg UInt64.toNat fresh.size
  have taken := step_eq new_request here _ rest stream size
  constructor
  · intro refused
    have outcome := fresh.rejected header new_request refused
    unfold Header.opened at outcome
    rw [taken, outcome]
  · intro rsv known
    obtain ⟨next, after, outcome, started, -, -, -, -⟩ :=
      fresh.accepted header new_request rsv known
    unfold Header.opened at outcome
    rw [taken, outcome]
    exact ⟨rfl, started, rfl⟩

theorem Header.process_state_2_mask (reader : Header) (heap : Heap) (new_request : Bool) :
    (reader.process_state_2 heap new_request).2.mask_ = reader.mask_ := by
  unfold process_state_2
  dsimp only
  split_ifs <;> rfl

theorem HeaderRead.step_second (started : self.header.Started self.heap header)
    (new_request : Bool) (stream : self.rest = header.tail ++ rest) :
    (self.step new_request).codes = self.codes ++ [header.second_verdict new_request] ∧
      (self.step new_request).rest = rest ∧
      (self.step new_request).header.mask_ = self.header.mask_ ∧
      (self.step new_request).header.buffer_ = self.header.buffer_ ∧
      (header.second_verdict new_request = 0 →
        (self.step new_request).header.Describes (self.step new_request).heap header ∧
        (self.step new_request).header.state_ =
          if ControlOpcode header.opcode then .CONTROL else .DATA) := by
  have here : self.header.current_position =
      some { buffer := self.header.buffer_, offset := 2 } := by
    unfold Header.current_position
    rw [started.state]
  have taken := step_eq new_request here _ rest stream started.size
  obtain ⟨next, outcome, -, same, described⟩ := Header.process_second started new_request
  have kept : (self.header.process (self.header.filled self.heap header) new_request).2.1.mask_ =
      self.header.mask_ := by
    unfold Header.process
    rw [started.state]
    exact Header.process_state_2_mask _ _ _
  rw [outcome] at kept
  unfold Header.filled at outcome kept described
  rw [taken, outcome]
  exact ⟨rfl, rfl, kept, same, described⟩

end Read

/-- Where `mask_` points once the first two bytes have been processed. -/
def FrameHeader.mask_position (header : FrameHeader) : Nat :=
  if header.mask.isSome then 2 + (header.form.extension header.length).length else 10

theorem Header.Started.mask_pointer {reader : Header} {heap : Heap} {header : FrameHeader}
    (started : reader.Started heap header) :
    reader.mask_ = some { buffer := reader.buffer_, offset := header.mask_position } := by
  unfold FrameHeader.mask_position
  cases given : header.mask.isSome with
  | true => exact started.masked given
  | false => exact (started.unmasked given).1

/-! ### Inside the buffer -/

theorem Header.touches_lt (reader : Header) (heap : Heap) :
    ∀ index ∈ reader.touches heap, index < 14 := by
  intro index member
  unfold touches at member
  split at member
  · split_ifs at member <;>
      simp only [List.mem_append, List.mem_cons, List.not_mem_nil, or_false,
        List.mem_range'_1] at member <;>
      omega
  · split_ifs at member <;>
      simp only [List.mem_cons, List.not_mem_nil, or_false, List.mem_range'_1] at member <;>
      omega
  · cases member

def HeaderRead.Inside (self : HeaderRead) : Prop :=
  ∀ index ∈ self.touched, index < 14

def Header.Room (reader : Header) : Prop :=
  ∀ position, reader.current_position = some position →
    position.offset + reader.next_read_size.toNat ≤ 14

theorem HeaderRead.Inside.step {self : HeaderRead} (inside : self.Inside)
    (room : self.header.Room) (new_request : Bool) : (self.step new_request).Inside := by
  unfold HeaderRead.step
  split
  next => exact inside
  next position here =>
    dsimp only
    split_ifs with enough
    · have fits := room position here
      intro index member
      rcases List.mem_append.mp member with earlier | now
      · exact inside index earlier
      · rcases List.mem_append.mp now with delivered | touched
        · have range := List.mem_range'_1.mp delivered
          omega
        · exact Header.touches_lt _ _ index touched
    · exact inside

theorem Header.Fresh.room {reader : Header} {heap : Heap} (fresh : reader.Fresh heap) :
    reader.Room := by
  intro position here
  unfold current_position at here
  rw [fresh.state] at here
  cases here
  rw [next_read_size, fresh.size]
  exact (by decide : 0 + (2 : UInt64).toNat ≤ 14)

theorem Header.Started.room {reader : Header} {heap : Heap} {header : FrameHeader}
    (started : reader.Started heap header) : reader.Room := by
  intro position here
  have short := header.length_tail_le
  unfold current_position at here
  rw [started.state] at here
  cases here
  rw [next_read_size, started.size]
  dsimp only
  omega

namespace Header

variable (reader : Header) (heap : Heap) (new_request : Bool)

def opening (stream : List UInt8) : HeaderRead :=
  { codes := []
    header := (reader.new_buffer heap).1
    heap := (reader.new_buffer heap).2
    rest := stream
    touched := [] }

theorem inside_opening (stream : List UInt8) :
    ((reader.opening heap stream).step new_request).Inside := by
  have none : (reader.opening heap stream).Inside := fun _ member => nomatch member
  exact none.step (reader.fresh_new_buffer heap).room new_request

theorem read_of_first (stream : List UInt8)
    (going : ((reader.opening heap stream).step new_request).codes = [0]) :
    reader.read_stream heap new_request stream =
      ((reader.opening heap stream).step new_request).step new_request :=
  if_pos going

theorem read_of_stopped (stream : List UInt8)
    (stopped : ((reader.opening heap stream).step new_request).codes ≠ [0]) :
    reader.read_stream heap new_request stream = (reader.opening heap stream).step new_request :=
  if_neg stopped

theorem read_cases (stream : List UInt8) :
    ((reader.read_stream heap new_request stream).codes.length ≤ 1 ∧
        (reader.read_stream heap new_request stream).Inside ∧
        ¬Acceptable reader.rsvc_ new_request stream) ∨
      ∃ (header : FrameHeader) (later : List UInt8) (first : HeaderRead),
        stream = [header.first, header.second] ++ later ∧
        header.rsv = reader.rsvc_ ∧ KnownOpcode header.opcode ∧ first.codes = [0] ∧
        first.header.Started first.heap header ∧ first.rest = later ∧ first.Inside ∧
        reader.read_stream heap new_request stream = first.step new_request := by
  have inside := reader.inside_opening heap new_request stream
  match stream with
  | [] | [_] =>
      left
      refine ⟨Nat.zero_le 1, inside, fun acceptable => ?_⟩
      have whole := acceptable.whole
      unfold HeaderBytes.size at whole
      simp only [List.length_cons, List.length_nil] at whole
      omega
  | first :: second :: later =>
      obtain ⟨header, rfl, rfl⟩ := FrameHeader.exists_of_two first second
      have fresh : (reader.opening heap (header.first :: header.second :: later)).header.Fresh
          (reader.opening heap (header.first :: header.second :: later)).heap :=
        reader.fresh_new_buffer heap
      obtain ⟨refused, begun⟩ :=
        HeaderRead.step_first fresh new_request (.refl ([header.first, header.second] ++ later))
      by_cases wrong : header.rsv ≠ reader.rsvc_ ∨ ¬KnownOpcode header.opcode
      · left
        have codes : ((reader.opening heap (header.first :: header.second :: later)).step
            new_request).codes = [1002] := refused wrong
        rw [read_of_stopped reader heap new_request _ (by rw [codes]; decide), codes]
        refine ⟨Nat.le_refl 1, inside, fun acceptable => ?_⟩
        obtain ⟨started, rest, same⟩ := FrameHeader.exists_wire _ acceptable.whole
        rw [same, acceptable_wire_iff] at acceptable
        obtain ⟨rsv, known, -⟩ := acceptable
        have first : header.first = started.first := congrArg (fun bytes => bytes.getD 0 0) same
        unfold FrameHeader.rsv FrameHeader.opcode at wrong
        rw [first] at wrong
        exact wrong.elim (fun other => other rsv) (fun reserved => reserved known)
      · right
        have rsv := not_not.mp (not_or.mp wrong).1
        have known := not_not.mp (not_or.mp wrong).2
        obtain ⟨codes, started, rest⟩ := begun rsv known
        have going : ((reader.opening heap (header.first :: header.second :: later)).step
            new_request).codes = [0] := codes
        exact ⟨header, later, _, rfl, rsv, known, going, started, rest, inside,
          read_of_first reader heap new_request _ going⟩

end Header

theorem HeaderRead.step_short {self : HeaderRead} {header : FrameHeader}
    (started : self.header.Started self.heap header) (new_request : Bool)
    (short : self.rest.length < header.tail.length) : self.step new_request = self := by
  have here : self.header.current_position =
      some { buffer := self.header.buffer_, offset := 2 } := by
    unfold Header.current_position
    rw [started.state]
  have count : self.header.next_read_size.toNat = header.tail.length := started.size
  unfold step
  simp only [here, count, if_neg (Nat.not_le.mpr short)]

/-- What the reader has decoded from the header at the front of a stream. -/
structure HeaderRead.Decodes (result : HeaderRead) (stream : List UInt8) : Prop where
  state : result.header.state =
    if 8 ≤ HeaderBytes.opcode stream then .CONTROL else .DATA
  payload_size : result.header.payload_size.toNat = HeaderBytes.length stream
  pointer : ∃ offset, result.header.mask_ =
    some { buffer := result.header.buffer_, offset := offset } ∧ offset + 4 ≤ 14
  mask : (result.header.mask result.heap).map Vector.toList = some (HeaderBytes.mask stream)
  consumed : result.rest = stream.drop (HeaderBytes.size stream)

theorem FrameHeader.mask_position_le (header : FrameHeader) : header.mask_position + 4 ≤ 14 := by
  unfold mask_position
  rw [header.length_extension]
  cases header.mask.isSome <;> cases header.form <;> decide

theorem HeaderRead.step_whole {first : HeaderRead} {header : FrameHeader} {rest : List UInt8}
    {rsvc : UInt8} (started : first.header.Started first.heap header) (new_request : Bool)
    (begun : first.codes = [0]) (rsv : header.rsv = rsvc) (known : KnownOpcode header.opcode)
    (stream : first.rest = header.tail ++ rest) :
    ((first.step new_request).codes = [0, 0] ↔
        Acceptable rsvc new_request (header.wire ++ rest)) ∧
      ((first.step new_request).codes = [0, 0] →
        (first.step new_request).Decodes (header.wire ++ rest)) := by
  obtain ⟨codes, last, pointer, same, described⟩ := step_second started new_request stream
  have verdict : (first.step new_request).codes = [0, 0] ↔
      header.second_verdict new_request = 0 := by
    rw [codes, begun]
    simp only [List.cons_append, List.nil_append, List.cons.injEq, and_true, true_and]
  rw [verdict, acceptable_wire_iff]
  refine ⟨⟨fun accepted => ⟨rsv, known, accepted⟩, fun accepted => accepted.2.2⟩,
    fun accepted => ?_⟩
  obtain ⟨describes, state⟩ := described accepted
  have opcode : HeaderBytes.opcode (header.wire ++ rest) = header.opcode := rfl
  have kind := control_iff header.opcode known
  constructor
  · rw [opcode, Header.state, state]
    simp only [kind]
  · rw [header.length_wire]
    exact describes.payload
  · refine ⟨header.mask_position, ?_, header.mask_position_le⟩
    rw [pointer, same]
    exact started.mask_pointer
  · rw [describes.mask, header.mask_wire]
    rfl
  · rw [last, header.size_wire, List.drop_left]

theorem Header.inside_read_stream (reader : Header) (heap : Heap) (new_request : Bool)
    (stream : List UInt8) : (reader.read_stream heap new_request stream).Inside := by
  rcases reader.read_cases heap new_request stream with ⟨-, inside, -⟩ |
    ⟨begun, later, first, -, -, -, -, started, -, inside, taken⟩
  · exact inside
  · rw [taken]
    exact inside.step started.room new_request

theorem Header.read_stream_accepts (reader : Header) (heap : Heap) (new_request : Bool)
    (stream : List UInt8) :
    ((reader.read_stream heap new_request stream).codes = [0, 0] ↔
        Acceptable reader.rsvc_ new_request stream) ∧
      ((reader.read_stream heap new_request stream).codes = [0, 0] →
        (reader.read_stream heap new_request stream).Decodes stream) := by
  rcases reader.read_cases heap new_request stream with ⟨few, -, refused⟩ |
    ⟨begun, later, first, same, rsv, known, codes, started, rest, -, taken⟩
  · have stopped : (reader.read_stream heap new_request stream).codes ≠ [0, 0] := by
      intro both
      rw [both] at few
      exact absurd few (by decide)
    exact ⟨⟨fun both => absurd both stopped, fun accepted => absurd accepted refused⟩,
      fun both => absurd both stopped⟩
  · rw [taken]
    rcases Nat.lt_or_ge later.length begun.tail.length with short | enough
    · rw [HeaderRead.step_short started new_request (by rw [rest]; exact short)]
      have stopped : first.codes ≠ [0, 0] := by
        rw [codes]
        decide
      refine ⟨⟨fun both => absurd both stopped, fun accepted => ?_⟩,
        fun both => absurd both stopped⟩
      -- the size of the header is decided by its second byte
      have size : HeaderBytes.size stream = begun.wire.length := by
        rw [same]
        exact begun.size_wire []
      have whole := accepted.whole
      rw [size, same] at whole
      exact absurd (Nat.le_of_succ_le_succ (Nat.le_of_succ_le_succ whole)) (Nat.not_le.mpr short)
    · obtain ⟨header, alike, tail⟩ := begun.exists_of_tail
        (later.take begun.tail.length) (List.length_take_of_le enough)
      have arrived : first.rest = header.tail ++ later.drop begun.tail.length := by
        rw [rest, tail, List.take_append_drop]
      have wire : stream = header.wire ++ later.drop begun.tail.length := by
        unfold FrameHeader.wire
        rw [same, tail, alike.first, alike.second, List.append_assoc, List.take_append_drop]
      have opcode : header.opcode = begun.opcode := by
        unfold FrameHeader.opcode
        rw [alike.first]
      have bits : header.rsv = reader.rsvc_ := by
        unfold FrameHeader.rsv at rsv ⊢
        rw [← alike.first]
        exact rsv
      rw [wire]
      exact HeaderRead.step_whole (started.alike alike) new_request codes bits
        (by rw [opcode]; exact known) arrived

/-- The two steps return 0 exactly on the headers of the format, whose fields
they decode; the indices they touch are inside the buffer, and no call of `process`
uses any other. -/
theorem header_read_spec (reader : Header) (heap : Heap) (new_request : Bool)
    (stream : List UInt8) :
    let result := reader.read_stream heap new_request stream
    (result.codes = [0, 0] ↔ Acceptable reader.rsvc_ new_request stream) ∧
      (result.codes = [0, 0] → result.Decodes stream) ∧
      (∀ index ∈ result.touched, index < 14) ∧
      ∀ (header : Header) (buffers : Heap), header.Confined buffers new_request := by
  intro result
  obtain ⟨verdict, decodes⟩ := reader.read_stream_accepts heap new_request stream
  exact ⟨verdict, decodes, reader.inside_read_stream heap new_request stream,
    fun header buffers => header.confined buffers new_request⟩

theorem Header.read_stream_describes (reader : Header) (heap : Heap) (new_request : Bool)
    (header : FrameHeader) (rest : List UInt8)
    (accepted : (reader.read_stream heap new_request (header.wire ++ rest)).codes = [0, 0]) :
    (reader.read_stream heap new_request (header.wire ++ rest)).header.Describes
        (reader.read_stream heap new_request (header.wire ++ rest)).heap header ∧
      (reader.read_stream heap new_request (header.wire ++ rest)).rest = rest := by
  obtain ⟨rsv, known, verdict⟩ := (acceptable_wire_iff header rest reader.rsvc_ new_request).mp
    ((reader.read_stream_accepts heap new_request _).1.mp accepted)
  have fresh : (reader.opening heap (header.wire ++ rest)).header.Fresh
      (reader.opening heap (header.wire ++ rest)).heap := reader.fresh_new_buffer heap
  obtain ⟨codes, started, left⟩ := (HeaderRead.step_first fresh new_request
    (.refl ([header.first, header.second] ++ (header.tail ++ rest)))).2 rsv known
  rw [reader.read_of_first heap new_request _ codes]
  obtain ⟨-, last, -, -, described⟩ := HeaderRead.step_second started new_request left
  exact ⟨(described verdict).1, last⟩

end Averyws
