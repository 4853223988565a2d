/-
The header reader on the bytes of a frame header.

The reader is driven as the session drives it: two bytes, `process`, the bytes
asked for, `process`.  Each phase has one lemma that says everything the later
proofs use.
-/

import Mathlib.Data.FinEnum
import Mathlib.Data.Fintype.Basic
import Averyws.Frame
import Averyws.Header
import Averyws.Library.Words

namespace Averyws

open Library.Bytes Library.Cells Library.Words

def KnownOpcode (opcode : UInt8) : Prop :=
  opcode = 0 ∨ opcode = 1 ∨ opcode = 2 ∨ opcode = 8 ∨ opcode = 9 ∨ opcode = 0x0A

instance (opcode : UInt8) : Decidable (KnownOpcode opcode) := by
  unfold KnownOpcode
  exact inferInstance

def ControlOpcode (opcode : UInt8) : Prop :=
  opcode = 0x08 ∨ opcode = 0x09 ∨ opcode = 0x0A

instance (opcode : UInt8) : Decidable (ControlOpcode opcode) := by
  unfold ControlOpcode
  exact inferInstance

private theorem reserved_iff :
    ∀ byte : UInt8,
      (byte &&& 0x0F = 0x03 ∨ byte &&& 0x0F = 0x04 ∨ byte &&& 0x0F = 0x05
        ∨ byte &&& 0x0F = 0x06 ∨ byte &&& 0x0F = 0x07 ∨ byte &&& 0x0F = 0x0B
        ∨ byte &&& 0x0F = 0x0C ∨ byte &&& 0x0F = 0x0D ∨ byte &&& 0x0F = 0x0E
        ∨ byte &&& 0x0F = 0x0F) ↔ ¬KnownOpcode (byte &&& 0x0F) := by
  decide +kernel

private theorem fin_iff :
    ∀ byte : UInt8, byte &&& 0x80 ≠ 0x80 ↔ (byte &&& 0x80 != 0) = false := by
  decide +kernel

private theorem code_bits :
    ∀ code : UInt8, code ≤ 127 →
      (0x80 ||| code) &&& 0x80 ≠ 0 ∧ (0x80 ||| code) &&& 0x7F = code ∧
      (0x00 ||| code) &&& 0x80 = 0 ∧ (0x00 ||| code) &&& 0x7F = code := by
  decide +kernel

namespace FrameHeader

private theorem length_le_of_seven (header : FrameHeader) (form : header.form = .seven) :
    header.length ≤ 125 := by
  have fits := header.fits
  rw [form] at fits
  exact fits

private theorem code_le (header : FrameHeader) : header.form.code header.length ≤ 127 := by
  cases form : header.form with
  | seven =>
      have bound := header.length_le_of_seven form
      rw [UInt8.le_iff_toNat_le, LengthForm.code,
        UInt8.toNat_ofNat_of_lt' (by omega : header.length < 2 ^ 8)]
      simp only [UInt8.reduceToNat]
      omega
  | sixteen => exact (by decide : (126 : UInt8) ≤ 127)
  | sixtyFour => exact (by decide : (127 : UInt8) ≤ 127)

theorem second_code (header : FrameHeader) :
    header.second &&& 0x7F = header.form.code header.length := by
  have bits := code_bits _ header.code_le
  unfold second
  split
  · exact bits.2.1
  · exact bits.2.2.2

theorem second_mask (header : FrameHeader) :
    header.second &&& 0x80 ≠ 0 ↔ header.mask.isSome = true := by
  have bits := code_bits _ header.code_le
  unfold second
  cases header.mask.isSome with
  | true => simpa using bits.1
  | false => simpa using bits.2.2.1

theorem code_cases (header : FrameHeader) :
    let code := (header.form.code header.length).toUInt64
    (header.form = .seven ∧ code ≤ 125 ∧ code.toNat = header.length) ∨
      (header.form = .sixteen ∧ code = 126) ∨ (header.form = .sixtyFour ∧ code = 127) := by
  cases form : header.form with
  | seven =>
      have bound := header.length_le_of_seven form
      have number : (LengthForm.code .seven header.length).toUInt64.toNat = header.length := by
        rw [LengthForm.code, UInt8.toNat_toUInt64,
          UInt8.toNat_ofNat_of_lt' (by omega : header.length < 2 ^ 8)]
      refine Or.inl ⟨rfl, ?_, number⟩
      rw [UInt64.le_iff_toNat_le, number]
      exact bound
  | sixteen => exact Or.inr (Or.inl ⟨rfl, rfl⟩)
  | sixtyFour => exact Or.inr (Or.inr ⟨rfl, rfl⟩)

theorem length_extension (header : FrameHeader) :
    (header.form.extension header.length).length =
      match header.form with
      | .seven => 0
      | .sixteen => 2
      | .sixtyFour => 8 := by
  cases header.form <;> rfl

theorem length_tail (header : FrameHeader) :
    header.tail.length = (header.form.extension header.length).length +
      if header.mask.isSome then 4 else 0 := by
  unfold tail
  rw [List.length_append]
  cases header.mask with
  | none => rfl
  | some mask => simp

theorem length_lt (header : FrameHeader) : header.length < 2 ^ 64 := by
  have fits := header.fits
  cases form : header.form with
  | seven =>
      have bound := header.length_le_of_seven form
      omega
  | sixteen =>
      rw [form] at fits
      have bound : header.length < 2 ^ 16 := fits
      omega
  | sixtyFour =>
      rw [form] at fits
      exact fits

end FrameHeader

/-! ### The states between the phases -/

structure Header.Fresh (reader : Header) (heap : Heap) : Prop where
  state : reader.state_ = .FIRST
  size : reader.next_read_size_ = 2
  live : heap.Live reader.buffer_
  clear : heap.load reader.buffer_ = Block.zero 14

instance (reader : Header) (heap : Heap) : Decidable (reader.Fresh heap) :=
  decidable_of_iff (reader.state_ = .FIRST ∧ reader.next_read_size_ = 2 ∧
      heap.Live reader.buffer_ ∧ heap.load reader.buffer_ = Block.zero 14)
    ⟨fun all => ⟨all.1, all.2.1, all.2.2.1, all.2.2.2⟩,
      fun all => ⟨all.state, all.size, all.live, all.clear⟩⟩

structure Header.Started (reader : Header) (heap : Heap) (header : FrameHeader) : Prop where
  state : reader.state_ = .SECOND
  live : heap.Live reader.buffer_
  first : reader.byte heap 0 = header.first
  second : reader.byte heap 1 = header.second
  size : reader.next_read_size_.toNat = header.tail.length
  payload : reader.payload_size_ = (header.form.code header.length).toUInt64
  binary : reader.is_binary_ = (header.first &&& 0x02 == 0x02)
  masked : header.mask.isSome = true → reader.mask_ =
    some { buffer := reader.buffer_, offset := 2 + (header.form.extension header.length).length }
  unmasked : header.mask.isSome = false →
    reader.mask_ = some { buffer := reader.buffer_, offset := 10 } ∧
      ∀ index, 10 ≤ index → index < 14 → reader.byte heap index = 0

structure Header.Describes (reader : Header) (heap : Heap) (header : FrameHeader) : Prop where
  live : heap.Live reader.buffer_
  first : reader.byte heap 0 = header.first
  second : reader.byte heap 1 = header.second
  payload : reader.payload_size_.toNat = header.length
  mask : reader.mask heap = some header.key
  owner : ∃ offset, reader.mask_ = some { buffer := reader.buffer_, offset := offset }
  binary : reader.is_binary_ = (header.first &&& 0x02 == 0x02)

theorem Header.fresh_new_buffer (self : Header) (heap : Heap) :
    (self.new_buffer heap).1.Fresh (self.new_buffer heap).2 :=
  ⟨rfl, rfl, Store.live_alloc_self _ _, Store.load_alloc_self _ _⟩

def Heap.receive (heap : Heap) (pointer : Pointer) (bytes : List UInt8) : Heap :=
  heap.save pointer.buffer ((heap.load pointer.buffer).write pointer.offset bytes)

theorem Heap.live_receive_iff (heap : Heap) (pointer : Pointer) (bytes : List UInt8) (ref : Nat) :
    (heap.receive pointer bytes).Live ref ↔ heap.Live ref :=
  Store.live_save_iff heap _ ref _

theorem Heap.load_receive_of_ne (heap : Heap) (pointer : Pointer) (bytes : List UInt8)
    (ref : Nat) (other : ref ≠ pointer.buffer) :
    (heap.receive pointer bytes).load ref = heap.load ref :=
  Store.load_save_of_ne heap _ ref _ other

theorem Heap.load_receive_self (heap : Heap) (pointer : Pointer) (bytes : List UInt8)
    (live : heap.Live pointer.buffer) :
    (heap.receive pointer bytes).load pointer.buffer =
      (heap.load pointer.buffer).write pointer.offset bytes :=
  Store.load_save_self heap _ _ live

theorem Header.byte_receive_inside (self : Header) (heap : Heap) (start index : Nat)
    (bytes : List UInt8) (live : heap.Live self.buffer_) (within : start + index < 14)
    (delivered : index < bytes.length) :
    self.byte (heap.receive { buffer := self.buffer_, offset := start } bytes) (start + index) =
      bytes[index] := by
  unfold byte
  rw [Heap.load_receive_self heap { buffer := self.buffer_, offset := start } bytes live,
    Block.byte_write_inside _ start _ bytes (Nat.le_add_right _ _) within (by omega)]
  simp only [Nat.add_sub_cancel_left]

theorem Header.byte_receive_before (self : Header) (heap : Heap) (start index : Nat)
    (bytes : List UInt8) (live : heap.Live self.buffer_) (before : index < start) :
    self.byte (heap.receive { buffer := self.buffer_, offset := start } bytes) index =
      self.byte heap index := by
  unfold byte
  rw [Heap.load_receive_self heap { buffer := self.buffer_, offset := start } bytes live,
    Block.byte_write_before _ start _ bytes before]

theorem Header.byte_receive_after (self : Header) (heap : Heap) (start index : Nat)
    (bytes : List UInt8) (live : heap.Live self.buffer_) (past : start + bytes.length ≤ index) :
    self.byte (heap.receive { buffer := self.buffer_, offset := start } bytes) index =
      self.byte heap index := by
  unfold byte
  rw [Heap.load_receive_self heap { buffer := self.buffer_, offset := start } bytes live,
    Block.byte_write_after _ start _ bytes past]

/-! ### The first phase -/

private theorem Header.process_first_rejected (self : Header) (heap : Heap) (header : FrameHeader)
    (new_request : Bool) (state : self.state_ = .FIRST)
    (first : self.byte heap 0 = header.first)
    (rejected : header.rsv ≠ self.rsvc_ ∨ ¬KnownOpcode header.opcode) :
    self.process heap new_request = (1002, self, heap) := by
  unfold process
  rw [state]
  simp only [process_state_1, Header.getElem_load, first]
  rw [if_pos]
  rcases rejected with wrong | reserved
  · exact Or.inl wrong
  · exact Or.inr ((reserved_iff header.first).mpr reserved)

private theorem extension_size (header : FrameHeader) (size : UInt64)
    (computed : size =
      if (header.form.code header.length).toUInt64 ≤ 125 then (0 : UInt64)
      else if (header.form.code header.length).toUInt64 = 126 then 2
      else if (header.form.code header.length).toUInt64 = 127 then 8
      else 0) :
    size.toNat = (header.form.extension header.length).length ∧
      (size + 4).toNat = (header.form.extension header.length).length + 4 := by
  rw [header.length_extension]
  rcases header.code_cases with ⟨form, small, -⟩ | ⟨form, code⟩ | ⟨form, code⟩
  · rw [if_pos small] at computed
    rw [computed, form]
    exact ⟨rfl, rfl⟩
  · rw [code] at computed
    rw [computed, form]
    exact ⟨rfl, rfl⟩
  · rw [code] at computed
    rw [computed, form]
    exact ⟨rfl, rfl⟩

private theorem Header.process_first_accepted (self : Header) (heap : Heap) (header : FrameHeader)
    (new_request : Bool) (state : self.state_ = .FIRST) (live : heap.Live self.buffer_)
    (first : self.byte heap 0 = header.first) (second : self.byte heap 1 = header.second)
    (rsv : header.rsv = self.rsvc_) (known : KnownOpcode header.opcode) :
    ∃ next after, self.process heap new_request = (0, next, after) ∧
      next.Started after header ∧ next.rsvc_ = self.rsvc_ ∧ next.buffer_ = self.buffer_ ∧
      (∀ ref, ref ≠ self.buffer_ → after.load ref = heap.load ref) ∧
      (∀ ref, after.Live ref ↔ heap.Live ref) := by
  have matching : self.byte heap 0 &&& 0x70 = self.rsvc_ := by
    rw [first]
    exact rsv
  have unreserved := mt (reserved_iff header.first).mp (not_not.mpr known)
  unfold process
  rw [state]
  simp only [process_state_1, Header.getElem_load, Block.put]
  rw [if_neg (not_or.mpr ⟨not_not.mpr matching, by rw [first]; exact unreserved⟩), second,
    header.second_code]
  obtain ⟨size, grown⟩ := extension_size header _ rfl
  by_cases masked : header.mask.isSome = true
  · rw [if_pos (header.second_mask.mpr masked)]
    refine ⟨_, _, rfl, ?_, rfl, rfl, fun _ _ => rfl, fun _ => Iff.rfl⟩
    refine ⟨rfl, live, first, second, ?_, rfl, ?_, ?_, ?_⟩
    · rw [header.length_tail, if_pos masked]
      exact grown
    · exact congrArg (fun byte => byte &&& 0x02 == 0x02) first
    · intro _
      rw [← size]
    · intro absent
      rw [absent] at masked
      cases masked
  · rw [if_neg (mt header.second_mask.mp masked)]
    rw [Bool.not_eq_true] at masked
    have cleared (index : Nat) (low : index < 10) :
        self.byte (heap.receive { buffer := self.buffer_, offset := 10 } [0, 0, 0, 0]) index =
          self.byte heap index :=
      self.byte_receive_before heap 10 index [0, 0, 0, 0] live low
    refine ⟨_, heap.receive { buffer := self.buffer_, offset := 10 } [0, 0, 0, 0], rfl, ?_,
      rfl, rfl, fun ref => heap.load_receive_of_ne { buffer := self.buffer_, offset := 10 } _ ref,
      heap.live_receive_iff _ _⟩
    refine ⟨rfl, (heap.live_receive_iff _ _ _).mpr live, ?_, ?_, ?_, rfl, ?_, ?_, ?_⟩
    · exact (cleared 0 (by decide)).trans first
    · exact (cleared 1 (by decide)).trans second
    · rw [header.length_tail, masked]
      exact size
    · exact congrArg (fun byte => byte &&& 0x02 == 0x02) first
    · intro present
      rw [present] at masked
      cases masked
    · intro _
      refine ⟨rfl, fun index low high => ?_⟩
      have inside := self.byte_receive_inside heap 10 (index - 10) [0, 0, 0, 0] live
        (by omega) (by simp only [List.length_cons, List.length_nil]; omega)
      rw [Nat.add_sub_cancel' low] at inside
      have zero : ∀ value ∈ List.replicate 4 (0 : UInt8), value = 0 :=
        fun _ => List.eq_of_mem_replicate
      exact inside.trans (zero _ (List.getElem_mem _))

section FirstPhase

variable {reader : Header} {heap : Heap}

def Header.opened (reader : Header) (heap : Heap) (header : FrameHeader) : Heap :=
  heap.receive { buffer := reader.buffer_, offset := 0 } [header.first, header.second]

theorem Header.Fresh.byte_first (fresh : reader.Fresh heap) (header : FrameHeader) :
    reader.byte (reader.opened heap header) 0 = header.first :=
  reader.byte_receive_inside heap 0 0 [header.first, header.second] fresh.live (by decide)
    (Nat.zero_lt_succ _)

theorem Header.Fresh.byte_second (fresh : reader.Fresh heap) (header : FrameHeader) :
    reader.byte (reader.opened heap header) 1 = header.second :=
  reader.byte_receive_inside heap 0 1 [header.first, header.second] fresh.live (by decide)
    (Nat.lt_succ_self _)

theorem Header.Fresh.rejected (fresh : reader.Fresh heap) (header : FrameHeader)
    (new_request : Bool) (rejected : header.rsv ≠ reader.rsvc_ ∨ ¬KnownOpcode header.opcode) :
    reader.process (reader.opened heap header) new_request =
      (1002, reader, reader.opened heap header) :=
  process_first_rejected reader _ header new_request fresh.state (fresh.byte_first header)
    rejected

theorem Header.Fresh.accepted (fresh : reader.Fresh heap) (header : FrameHeader)
    (new_request : Bool) (rsv : header.rsv = reader.rsvc_) (known : KnownOpcode header.opcode) :
    ∃ next after, reader.process (reader.opened heap header) new_request = (0, next, after) ∧
      next.Started after header ∧ next.rsvc_ = reader.rsvc_ ∧ next.buffer_ = reader.buffer_ ∧
      (∀ ref, ref ≠ reader.buffer_ → after.load ref = heap.load ref) ∧
      (∀ ref, after.Live ref ↔ heap.Live ref) := by
  obtain ⟨next, after, result, started, kept, same, others, alive⟩ :=
    process_first_accepted reader (reader.opened heap header) header new_request fresh.state
      ((heap.live_receive_iff _ _ _).mpr fresh.live) (fresh.byte_first header)
      (fresh.byte_second header) rsv known
  refine ⟨next, after, result, started, kept, same, fun ref other => ?_, fun ref => ?_⟩
  · rw [others ref other]
    exact heap.load_receive_of_ne { buffer := reader.buffer_, offset := 0 } _ ref other
  · rw [alive ref]
    exact heap.live_receive_iff _ _ ref

end FirstPhase

/-! ### The second phase -/

/-- The code of the second phase. -/
def FrameHeader.second_verdict (header : FrameHeader) (new_request : Bool) : Nat :=
  if ControlOpcode header.opcode then
    if header.fin = false then 1007
    else if header.length > 125 then 1002
    else 0
  else if new_request = true ∧ header.opcode = 0 then 1002
  else if new_request = false ∧ header.opcode ≠ 0 then 1002
  else 0

theorem FrameHeader.second_verdict_control (header : FrameHeader) (new_request : Bool)
    (control : ControlOpcode header.opcode) (fin : header.fin = true)
    (short : header.length ≤ 125) : header.second_verdict new_request = 0 := by
  unfold second_verdict
  rw [if_pos control, fin, if_neg Bool.noConfusion, if_neg (Nat.not_lt.mpr short)]

theorem FrameHeader.second_verdict_data (header : FrameHeader) (new_request : Bool)
    (data : ¬ControlOpcode header.opcode) (continues : header.opcode = 0 ↔ new_request = false) :
    header.second_verdict new_request = 0 := by
  unfold second_verdict
  rw [if_neg data, if_neg, if_neg]
  · rintro ⟨inside, start⟩
    exact start (continues.mpr inside)
  · rintro ⟨between, continuation⟩
    rw [continues.mp continuation] at between
    cases between

theorem FrameHeader.control_of_verdict (header : FrameHeader) (new_request : Bool)
    (control : ControlOpcode header.opcode) (accepted : header.second_verdict new_request = 0) :
    header.fin = true ∧ header.length ≤ 125 := by
  unfold second_verdict at accepted
  rw [if_pos control] at accepted
  cases fin : header.fin with
  | false =>
      rw [fin, if_pos rfl] at accepted
      cases accepted
  | true =>
      rw [fin, if_neg Bool.noConfusion] at accepted
      by_cases long : header.length > 125
      · rw [if_pos long] at accepted
        cases accepted
      · exact ⟨rfl, Nat.not_lt.mp long⟩

theorem FrameHeader.length_tail_le (header : FrameHeader) : header.tail.length ≤ 12 := by
  rw [header.length_tail, header.length_extension]
  cases header.form <;> cases header.mask.isSome <;> decide

theorem FrameHeader.length_tail_unmasked (header : FrameHeader)
    (unmasked : header.mask.isSome = false) : header.tail.length ≤ 8 := by
  rw [header.length_tail, header.length_extension, unmasked]
  cases header.form <;> decide

private theorem vector_four (mask : Mask) :
    #v[mask[0], mask[1], mask[2], mask[3]] = mask := by
  apply Vector.ext
  intro index within
  have cases : index = 0 ∨ index = 1 ∨ index = 2 ∨ index = 3 := by omega
  rcases cases with rfl | rfl | rfl | rfl <;> rfl

section SecondPhase

variable {reader : Header} {heap : Heap} {header : FrameHeader}

def Header.filled (reader : Header) (heap : Heap) (header : FrameHeader) : Heap :=
  heap.receive { buffer := reader.buffer_, offset := 2 } header.tail

theorem Header.Started.byte_tail (started : reader.Started heap header) (index : Nat)
    (value : UInt8) (found : header.tail[index]? = some value) :
    reader.byte (reader.filled heap header) (2 + index) = value := by
  obtain ⟨within, same⟩ := List.getElem?_eq_some_iff.mp found
  have small := header.length_tail_le
  rw [← same]
  exact reader.byte_receive_inside heap 2 index header.tail started.live (by omega) within

theorem Header.Started.byte_extension (started : reader.Started heap header) (index : Nat)
    (value : UInt8) (found : (header.form.extension header.length)[index]? = some value) :
    reader.byte (reader.filled heap header) (2 + index) = value := by
  apply started.byte_tail
  obtain ⟨within, -⟩ := List.getElem?_eq_some_iff.mp found
  unfold FrameHeader.tail
  rw [List.getElem?_append_left within, found]

theorem Header.Started.byte_first (started : reader.Started heap header) :
    reader.byte (reader.filled heap header) 0 = header.first := by
  unfold filled
  rw [reader.byte_receive_before heap 2 0 header.tail started.live (by decide), started.first]

theorem Header.Started.byte_second (started : reader.Started heap header) :
    reader.byte (reader.filled heap header) 1 = header.second := by
  unfold filled
  rw [reader.byte_receive_before heap 2 1 header.tail started.live (by decide), started.second]

theorem Header.mask_of_pointer {offset : Nat} (inside : offset + 3 < 14)
    (pointer : reader.mask_ = some { buffer := reader.buffer_, offset := offset }) :
    reader.mask heap = some #v[reader.byte heap (offset + 0), reader.byte heap (offset + 1),
      reader.byte heap (offset + 2), reader.byte heap (offset + 3)] := by
  unfold mask
  simp only [pointer, Option.bind_eq_bind, Option.bind_some, dif_pos inside, getElem_load]
  rfl

theorem Header.Started.owner (started : reader.Started heap header) :
    ∃ offset, reader.mask_ = some { buffer := reader.buffer_, offset := offset } := by
  cases given : header.mask.isSome with
  | true => exact ⟨_, started.masked given⟩
  | false => exact ⟨_, (started.unmasked given).1⟩

/-- The mask pointer set in the first phase reads the mask of the frame. -/
theorem Header.Started.mask_eq (started : reader.Started heap header) :
    reader.mask (reader.filled heap header) = some header.key := by
  cases given : header.mask with
  | some mask =>
      have pointer := started.masked (by rw [given]; rfl)
      have masked (index : Nat) (within : index < 4) :
          reader.byte (reader.filled heap header)
            (2 + (header.form.extension header.length).length + index) = mask[index] := by
        rw [Nat.add_assoc]
        apply started.byte_tail
        unfold FrameHeader.tail
        rw [List.getElem?_append_right (Nat.le_add_right _ _), Nat.add_sub_cancel_left, given]
        exact List.getElem?_eq_getElem (by simpa using within)
      have zeroth := masked 0 (by decide)
      have first := masked 1 (by decide)
      have second := masked 2 (by decide)
      have third := masked 3 (by decide)
      have inside : 2 + (header.form.extension header.length).length + 3 < 14 := by
        rw [header.length_extension]
        cases header.form <;> decide
      rw [Header.mask_of_pointer inside pointer, zeroth, first, second, third, vector_four,
        FrameHeader.key, given, Option.getD_some]
  | none =>
      have absent : header.mask.isSome = false := by rw [given]; rfl
      obtain ⟨pointer, zero⟩ := started.unmasked absent
      have short := header.length_tail_unmasked absent
      have clear (index : Nat) (low : 10 ≤ index) (high : index < 14) :
          reader.byte (reader.filled heap header) index = 0 := by
        have kept := reader.byte_receive_after heap 2 index header.tail started.live (by omega)
        exact kept.trans (zero index low high)
      rw [Header.mask_of_pointer (by decide) pointer, clear (10 + 0) (by decide) (by decide),
        clear (10 + 1) (by decide) (by decide), clear (10 + 2) (by decide) (by decide),
        clear (10 + 3) (by decide) (by decide), FrameHeader.key, given, Option.getD_none]

theorem Header.Started.payload_eq (started : reader.Started heap header) :
    (reader.extended_payload_size (reader.filled heap header)).toNat = header.length := by
  have extension := started.byte_extension
  have fits := header.fits
  unfold extended_payload_size
  simp only [getElem_load]
  rw [started.payload]
  rcases header.code_cases with ⟨-, small, number⟩ | ⟨form, code⟩ | ⟨form, code⟩
  · have below : (header.form.code header.length).toUInt64 ≠ 126 := by
      intro equal
      rw [equal] at small
      exact absurd small (by decide)
    have distinct : (header.form.code header.length).toUInt64 ≠ 127 := by
      intro equal
      rw [equal] at small
      exact absurd small (by decide)
    simp only [if_neg below, if_neg distinct]
    exact number
  · rw [code]
    simp only [if_true]
    rw [form] at extension fits
    rw [extension 0 _ rfl, extension 1 _ rfl, join_two]
    exact join_digits_two header.length fits
  · rw [code]
    simp only [if_neg (by decide : ¬(127 : UInt64) = 126), if_true]
    rw [form] at extension fits
    rw [extension 0 _ rfl, extension 1 _ rfl, extension 2 _ rfl, extension 3 _ rfl,
      extension 4 _ rfl, extension 5 _ rfl, extension 6 _ rfl, extension 7 _ rfl, join_eight]
    exact join_digits_eight header.length fits

private theorem Header.process_state_2_spec (started : reader.Started heap header)
    (new_request : Bool) :
    ∃ next, reader.process_state_2 (reader.filled heap header) new_request =
        (header.second_verdict new_request, next) ∧
      next.rsvc_ = reader.rsvc_ ∧ next.buffer_ = reader.buffer_ ∧
      (header.second_verdict new_request = 0 →
        next.Describes (reader.filled heap header) header ∧
        next.state_ = if ControlOpcode header.opcode then .CONTROL else .DATA) := by
  have payload := started.payload_eq
  let decoded : Header :=
    { reader with payload_size_ := reader.extended_payload_size (reader.filled heap header) }
  have first : decoded.byte (reader.filled heap header) 0 = header.first := started.byte_first
  have control : (decoded.byte (reader.filled heap header) 0 &&& 0x0F = 0x08
      ∨ decoded.byte (reader.filled heap header) 0 &&& 0x0F = 0x09
      ∨ decoded.byte (reader.filled heap header) 0 &&& 0x0F = 0x0A) ↔
        ControlOpcode header.opcode := by
    rw [first]
    rfl
  have opcode : decoded.byte (reader.filled heap header) 0 &&& 0x0F = header.opcode := by
    rw [first]
    rfl
  have fin : decoded.byte (reader.filled heap header) 0 &&& 0x80 ≠ 0x80 ↔
      header.fin = false := by
    rw [first]
    exact fin_iff header.first
  have large : decoded.payload_size_ > 125 ↔ header.length > 125 := by
    rw [← payload]
    exact UInt64.lt_iff_toNat_lt
  have describes (state : HeaderState) : Describes { decoded with state_ := state }
      (reader.filled heap header) header :=
    { live := (heap.live_receive_iff _ _ _).mpr started.live
      first := started.byte_first
      second := started.byte_second
      payload := payload
      mask := started.mask_eq
      owner := started.owner
      binary := started.binary }
  have computed : reader.process_state_2 (reader.filled heap header) new_request =
      if decoded.byte (reader.filled heap header) 0 &&& 0x0F = 0x08
          ∨ decoded.byte (reader.filled heap header) 0 &&& 0x0F = 0x09
          ∨ decoded.byte (reader.filled heap header) 0 &&& 0x0F = 0x0A then
        if decoded.byte (reader.filled heap header) 0 &&& 0x80 ≠ 0x80 then (1007, decoded)
        else if decoded.payload_size_ > 125 then (1002, decoded)
        else (0, { decoded with state_ := .CONTROL })
      else if new_request = true ∧
          decoded.byte (reader.filled heap header) 0 &&& 0x0F = 0x00 then (1002, decoded)
      else if new_request = false ∧
          decoded.byte (reader.filled heap header) 0 &&& 0x0F ≠ 0x00 then (1002, decoded)
      else (0, { decoded with state_ := .DATA }) := rfl
  rw [computed]
  unfold FrameHeader.second_verdict
  by_cases isControl : ControlOpcode header.opcode
  · rw [if_pos (control.mpr isControl), if_pos isControl, if_pos isControl]
    by_cases unfinished : header.fin = false
    · rw [if_pos (fin.mpr unfinished), if_pos unfinished]
      exact ⟨_, rfl, rfl, rfl, fun zero => absurd zero (by decide)⟩
    · rw [if_neg (mt fin.mp unfinished), if_neg unfinished]
      by_cases long : header.length > 125
      · rw [if_pos (large.mpr long), if_pos long]
        exact ⟨_, rfl, rfl, rfl, fun zero => absurd zero (by decide)⟩
      · rw [if_neg (mt large.mp long), if_neg long]
        exact ⟨_, rfl, rfl, rfl, fun _ => ⟨describes .CONTROL, rfl⟩⟩
  · rw [if_neg (mt control.mp isControl), if_neg isControl, if_neg isControl, opcode]
    by_cases starts : new_request = true ∧ header.opcode = 0
    · rw [if_pos starts, if_pos starts]
      exact ⟨_, rfl, rfl, rfl, fun zero => absurd zero (by decide)⟩
    · rw [if_neg starts, if_neg starts]
      by_cases continues : new_request = false ∧ header.opcode ≠ 0
      · rw [if_pos continues, if_pos continues]
        exact ⟨_, rfl, rfl, rfl, fun zero => absurd zero (by decide)⟩
      · rw [if_neg continues, if_neg continues]
        exact ⟨_, rfl, rfl, rfl, fun _ => ⟨describes .DATA, rfl⟩⟩

theorem Header.process_second (started : reader.Started heap header) (new_request : Bool) :
    ∃ next, reader.process (reader.filled heap header) new_request =
        (header.second_verdict new_request, next, reader.filled heap header) ∧
      next.rsvc_ = reader.rsvc_ ∧ next.buffer_ = reader.buffer_ ∧
      (header.second_verdict new_request = 0 →
        next.Describes (reader.filled heap header) header ∧
        next.state_ = if ControlOpcode header.opcode then .CONTROL else .DATA) := by
  obtain ⟨next, result, rest⟩ := process_state_2_spec started new_request
  refine ⟨next, ?_, rest⟩
  unfold process
  rw [started.state]
  simp only [result]

end SecondPhase

end Averyws
