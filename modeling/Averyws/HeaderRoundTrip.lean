/-
The header encoder against the header reader.

What `makeHeader` writes is the header of a frame in its shortest length form,
`reserve` is the size of the unmasked ones, and the reader recovers every header
a client may send.
-/

import Averyws.HeaderReader
import Averyws.Utilities.Websocket

namespace Averyws

open Library.Bytes Library.Cells Library.Words
open Utilities

def Header.read_phase (reader : Header) (heap : Heap) (new_request : Bool)
    (input : List UInt8) : Option (Nat × Header × Heap × List UInt8) := do
  let pointer ← reader.current_position
  let count := reader.next_read_size.toNat
  if count ≤ input.length then
    let heap := heap.receive pointer (input.take count)
    let (rcode, reader, heap) := reader.process heap new_request
    return (rcode, reader, heap, input.drop count)
  else
    none

/-- Both phases from a new buffer: the code, the header, the buffers and the
bytes left unread. -/
def Header.read (reader : Header) (heap : Heap) (new_request : Bool)
    (input : List UInt8) : Option (Nat × Header × Heap × List UInt8) := do
  let (reader, heap) := reader.new_buffer heap
  let (rcode, reader, heap, input) ← reader.read_phase heap new_request input
  if rcode ≠ 0 then
    return (rcode, reader, heap, input)
  else
    reader.read_phase heap new_request input

section Phases

variable {reader : Header} {heap : Heap} {header : FrameHeader}

theorem Header.Fresh.read_phase (fresh : reader.Fresh heap) (new_request : Bool)
    (rsv : header.rsv = reader.rsvc_) (known : KnownOpcode header.opcode)
    (rest : List UInt8) :
    ∃ next after, reader.read_phase heap new_request ([header.first, header.second] ++ rest) =
        some (0, next, after, rest) ∧ next.Started after header := by
  obtain ⟨next, after, result, started, -⟩ := fresh.accepted header new_request rsv known
  have position : reader.current_position = some { buffer := reader.buffer_, offset := 0 } := by
    unfold current_position
    rw [fresh.state]
  have enough : (2 : UInt64).toNat ≤ ([header.first, header.second] ++ rest).length :=
    Nat.le_add_left 2 rest.length
  refine ⟨next, after, ?_, started⟩
  unfold Header.read_phase
  rw [position, next_read_size, fresh.size]
  simp only [Option.bind_eq_bind, Option.bind_some]
  rw [if_pos enough]
  change (let (rcode, reader, heap) := reader.process (reader.opened heap header) new_request
    some (rcode, reader, heap, rest)) = _
  rw [result]

theorem Header.Started.read_phase (started : reader.Started heap header) (new_request : Bool)
    (accepted : header.second_verdict new_request = 0) (rest : List UInt8) :
    ∃ next, reader.read_phase heap new_request (header.tail ++ rest) =
        some (0, next, reader.filled heap header, rest) ∧
      next.Describes (reader.filled heap header) header ∧
      next.state_ = if ControlOpcode header.opcode then .CONTROL else .DATA := by
  obtain ⟨next, result, -, -, described⟩ := process_second started new_request
  rw [accepted] at result
  have position : reader.current_position = some { buffer := reader.buffer_, offset := 2 } := by
    unfold current_position
    rw [started.state]
  have enough : reader.next_read_size.toNat ≤ (header.tail ++ rest).length := by
    rw [List.length_append]
    exact started.size ▸ Nat.le_add_right _ _
  refine ⟨next, ?_, described accepted⟩
  unfold Header.read_phase
  rw [position]
  simp only [Option.bind_eq_bind, Option.bind_some]
  rw [if_pos enough, next_read_size, started.size, List.take_left, List.drop_left]
  change (let (rcode, reader, heap) := reader.process (reader.filled heap header) new_request
    some (rcode, reader, heap, rest)) = _
  rw [result]

/-- The reader recovers every header that passes both phases. -/
theorem Header.read_wire (reader : Header) (heap : Heap) (header : FrameHeader)
    (new_request : Bool) (rsv : header.rsv = reader.rsvc_) (known : KnownOpcode header.opcode)
    (accepted : header.second_verdict new_request = 0) (rest : List UInt8) :
    ∃ next after, reader.read heap new_request (header.wire ++ rest) =
        some (0, next, after, rest) ∧
      next.Describes after header ∧
      next.state_ = if ControlOpcode header.opcode then .CONTROL else .DATA := by
  have fresh := Header.fresh_new_buffer reader heap
  obtain ⟨started, middle, first, phase⟩ :=
    fresh.read_phase new_request rsv known (header.tail ++ rest)
  obtain ⟨next, second, described⟩ := phase.read_phase new_request accepted rest
  refine ⟨next, _, ?_, described⟩
  unfold Header.read FrameHeader.wire
  rw [List.append_assoc]
  simp only [first, Option.bind_eq_bind, Option.bind_some, ne_eq, not_true_eq_false, if_false]
  exact second

end Phases

/-! ### The encoder -/

def flagsFirst (flags : UInt16) : UInt8 :=
  ((flags &&& 0xff00) >>> 8).toUInt8

/-- The second header byte the flags ask for; only its mask bit is used. -/
def flagsSecond (flags : UInt16) : UInt8 :=
  ((flags &&& 0x00ff) >>> 0).toUInt8

def flagsMasked (flags : UInt16) : Bool :=
  flagsSecond flags &&& 0x80 != 0

def LengthForm.minimal (length : UInt64) : LengthForm :=
  if length ≤ 125 then .seven
  else if length ≤ 65535 then .sixteen
  else .sixtyFour

theorem LengthForm.fits_minimal (length : UInt64) :
    (LengthForm.minimal length).Fits length.toNat := by
  unfold minimal
  split_ifs with short medium
  · exact UInt64.le_iff_toNat_le.mp short
  · exact Nat.lt_succ_of_le (UInt64.le_iff_toNat_le.mp medium)
  · exact length.toNat_lt

def encodedHeader (random_bytes : Mask) (length : UInt64) (flags : UInt16) : FrameHeader :=
  { first := flagsFirst flags
    form := .minimal length
    mask := if flagsMasked flags then some random_bytes else none
    length := length.toNat
    fits := LengthForm.fits_minimal length }

/-- The header that `makeHeader` writes: the bits copied from the flags leave
out `0x04`, which no known opcode has. -/
def writtenHeader (random_bytes : Mask) (length : UInt64) (flags : UInt16) : FrameHeader :=
  { encodedHeader random_bytes length flags with first := flagsFirst flags &&& 0xFB }

private theorem first_bits :
    ∀ byte : UInt8,
      ((byte &&& 0x80) ||| (byte &&& 0x40) ||| (byte &&& 0x20) ||| (byte &&& 0x10)
        ||| (byte &&& 0x00) ||| (byte &&& 0x01) ||| (byte &&& 0x02) ||| (byte &&& 0x03)
        ||| (byte &&& 0x09) ||| (byte &&& 0x0A)) = byte &&& 0xFB := by
  decide +kernel

private theorem known_bits :
    ∀ byte : UInt8, KnownOpcode (byte &&& 0x0F) → byte &&& 0xFB = byte := by
  decide +kernel

theorem writtenHeader_of_known (random_bytes : Mask) (length : UInt64) (flags : UInt16)
    (known : KnownOpcode (flagsFirst flags &&& 0x0F)) :
    writtenHeader random_bytes length flags = encodedHeader random_bytes length flags := by
  unfold writtenHeader
  rw [known_bits _ known]
  rfl

private theorem mask_bit :
    ∀ byte : UInt8, byte &&& 0x80 = if byte &&& 0x80 != 0 then 0x80 else 0x00 := by
  decide +kernel

private theorem cleared_bits :
    ∀ byte : UInt8, ((byte &&& 0x7F) &&& 0x7F ||| 0x80) &&& 0x80 = 0x80 ∧
      ((byte &&& 0x7F) &&& 0x7F ||| 0x00) &&& 0x80 = 0x00 := by
  decide +kernel

/-- The flags set the first byte and the mask bit; the other bits of the second
byte are those of the memory it was written to. -/
theorem flags2header_eq (first second : UInt8) (rest : List UInt8) (flags : UInt16) :
    ∃ byte, Websocket.flags2header (first :: second :: rest) flags =
        (flagsFirst flags &&& 0xFB) :: byte :: rest ∧
      byte &&& 0x80 = if flagsMasked flags then 0x80 else 0x00 := by
  have low := mask_bit (flagsSecond flags)
  have bits := first_bits (flagsFirst flags)
  refine ⟨(second &&& 0x7F) &&& 0x7F ||| flagsSecond flags &&& 0x80, ?_, ?_⟩
  · unfold flagsFirst at bits
    unfold Websocket.flags2header flagsFirst
    simp only [List.set_cons_zero, List.set_cons_succ, List.getD_cons_succ,
      List.getD_cons_zero, bits]
    rfl
  · rw [low]
    unfold flagsMasked
    split
    · exact (cleared_bits second).1
    · exact (cleared_bits second).2

private theorem two_in_front (bytes : List UInt8) (room : 2 ≤ bytes.length) :
    ∃ front back rest, bytes = front :: back :: rest := by
  obtain ⟨front, later, rfl⟩ := List.exists_cons_of_length_pos (Nat.lt_of_lt_of_le Nat.two_pos room)
  obtain ⟨back, rest, rfl⟩ := List.exists_cons_of_length_pos (Nat.lt_of_succ_lt_succ room)
  exact ⟨front, back, rest, rfl⟩

theorem length2header_eq (first byte : UInt8) (rest : List UInt8) (length : UInt64)
    (room : ((LengthForm.minimal length).extension length.toNat).length ≤ rest.length) :
    let extension := (LengthForm.minimal length).extension length.toNat
    Websocket.length2header (first :: byte :: rest) length =
      (first :: ((byte &&& 0x80) ||| (LengthForm.minimal length).code length.toNat) ::
        (extension ++ rest.drop extension.length), UInt8.ofNat (1 + extension.length)) := by
  unfold LengthForm.minimal at room ⊢
  unfold Websocket.length2header
  simp only [List.set_cons_zero, List.set_cons_succ, List.getD_cons_succ, List.getD_cons_zero]
  split_ifs at room ⊢ with short medium
  · simp only [LengthForm.extension, LengthForm.code, UInt64.toUInt8_or,
      UInt8.toUInt8_toUInt64, List.nil_append, List.length_nil, List.drop_zero]
    rw [UInt8.or_comm]
    rfl
  · obtain ⟨_, _, rest, rfl⟩ := two_in_front rest room
    simp only [List.set_cons_zero, List.set_cons_succ, LengthForm.extension, LengthForm.code]
    rw [UInt8.or_comm, masked_digit length 0x000000000000ff00 8 (by decide) (by decide),
      masked_digit length 0x00000000000000ff 0 (by decide) (by decide)]
    simp only [UInt64.reduceToNat, Nat.pow_zero, Nat.div_one]
    rfl
  · have eight : 8 ≤ rest.length := room
    obtain ⟨_, _, rest, rfl⟩ := two_in_front rest (by omega)
    obtain ⟨_, _, rest, rfl⟩ := two_in_front rest (by simp only [List.length_cons] at eight; omega)
    obtain ⟨_, _, rest, rfl⟩ := two_in_front rest (by simp only [List.length_cons] at eight; omega)
    obtain ⟨_, _, rest, rfl⟩ := two_in_front rest (by simp only [List.length_cons] at eight; omega)
    simp only [List.set_cons_zero, List.set_cons_succ, LengthForm.extension, LengthForm.code]
    rw [UInt8.or_comm, masked_digit length 0xff00000000000000 56 (by decide) (by decide),
      masked_digit length 0x00ff000000000000 48 (by decide) (by decide),
      masked_digit length 0x0000ff0000000000 40 (by decide) (by decide),
      masked_digit length 0x000000ff00000000 32 (by decide) (by decide),
      masked_digit length 0x00000000ff000000 24 (by decide) (by decide),
      masked_digit length 0x0000000000ff0000 16 (by decide) (by decide),
      masked_digit length 0x000000000000ff00 8 (by decide) (by decide),
      masked_digit length 0x00000000000000ff 0 (by decide) (by decide)]
    simp only [UInt64.reduceToNat, Nat.pow_zero, Nat.div_one]
    rfl

def FrameHeader.unmasked (header : FrameHeader) : List UInt8 :=
  header.first :: header.second :: header.form.extension header.length

theorem FrameHeader.wire_eq (header : FrameHeader) :
    header.wire = header.unmasked ++ header.mask.elim [] Vector.toList := by
  unfold wire tail unmasked
  rfl

theorem FrameHeader.length_unmasked (header : FrameHeader) :
    2 ≤ header.unmasked.length ∧ header.unmasked.length ≤ 10 := by
  unfold unmasked
  rw [List.length_cons, List.length_cons, header.length_extension]
  cases header.form <;> decide

private theorem generateMask_append (front rest : List UInt8) (random_bytes : Mask) :
    Websocket.generateMask (front ++ rest) front.length random_bytes =
      front ++ random_bytes.toList ++ rest.drop 4 := by
  unfold Websocket.generateMask overwrite
  rw [List.take_left, List.drop_append, List.drop_of_length_le (Nat.le_add_right _ _),
    Nat.add_sub_cancel_left, Vector.length_toList, List.nil_append]

private theorem unmasked_eq (random_bytes : Mask) (data : List UInt8) (length : UInt64)
    (flags : UInt16)
    (room : (writtenHeader random_bytes length flags).unmasked.length ≤ data.length) :
    Websocket.length2header (Websocket.flags2header data flags) length =
      ((writtenHeader random_bytes length flags).unmasked ++
          data.drop (writtenHeader random_bytes length flags).unmasked.length,
        UInt8.ofNat ((writtenHeader random_bytes length flags).unmasked.length - 1)) := by
  obtain ⟨first, second, rest, rfl⟩ : ∃ first second rest, data = first :: second :: rest := by
    have two := (writtenHeader random_bytes length flags).length_unmasked.1
    rcases data with _ | ⟨first, _ | ⟨second, rest⟩⟩
    · exact absurd (two.trans room) (by simp)
    · exact absurd (two.trans room) (by simp)
    · exact ⟨first, second, rest, rfl⟩
  obtain ⟨byte, flagged, bit⟩ := flags2header_eq first second rest flags
  have sized := length2header_eq (flagsFirst flags &&& 0xFB) byte rest length
    (Nat.le_of_add_le_add_right (b := 2) room)
  have masked : (writtenHeader random_bytes length flags).mask.isSome = flagsMasked flags := by
    unfold writtenHeader encodedHeader
    cases flagsMasked flags <;> rfl
  have written : (byte &&& 0x80) ||| (LengthForm.minimal length).code length.toNat =
      (writtenHeader random_bytes length flags).second := by
    unfold FrameHeader.second
    rw [bit, masked]
    rfl
  rw [flagged, sized, written, Nat.add_comm 1]
  rfl

theorem makeHeader_written (random_bytes : Mask) (data : List UInt8) (data_size length : UInt64)
    (flags : UInt16)
    (room : (writtenHeader random_bytes length flags).wire.length ≤ data.length) :
    Websocket.makeHeader random_bytes data data_size length flags =
      ((writtenHeader random_bytes length flags).wire ++
          data.drop (writtenHeader random_bytes length flags).wire.length,
        UInt8.ofNat (writtenHeader random_bytes length flags).wire.length) := by
  have whole := (writtenHeader random_bytes length flags).wire_eq
  have fits : (writtenHeader random_bytes length flags).unmasked.length ≤ data.length := by
    rw [whole, List.length_append] at room
    omega
  have written := unmasked_eq random_bytes data length flags fits
  obtain ⟨two, ten⟩ := (writtenHeader random_bytes length flags).length_unmasked
  have masked := (writtenHeader random_bytes length flags).second_mask
  have key : (writtenHeader random_bytes length flags).mask =
      if flagsMasked flags then some random_bytes else none := rfl
  generalize writtenHeader random_bytes length flags = header at *
  have size : 1 + UInt8.ofNat (header.unmasked.length - 1) =
      UInt8.ofNat header.unmasked.length := by
    rw [← UInt8.ofNat_one, ← UInt8.ofNat_add, Nat.add_sub_cancel' (by omega)]
  have offset : (UInt8.ofNat header.unmasked.length).toNat = header.unmasked.length :=
    UInt8.toNat_ofNat_of_lt' (Nat.lt_of_le_of_lt ten (by decide))
  have second (rest : List UInt8) : (header.unmasked ++ rest).getD 1 0 = header.second := rfl
  unfold Websocket.makeHeader
  simp only [written, second, size, offset, generateMask_append]
  cases wanted : flagsMasked flags with
  | true =>
      rw [wanted] at key
      change header.mask = some random_bytes at key
      rw [if_pos (masked.mpr (by rw [key]; rfl)), whole, key]
      rw [List.length_append, UInt8.ofNat_add, Option.elim_some, Vector.length_toList,
        List.drop_drop]
      rfl
  | false =>
      rw [wanted] at key
      change header.mask = none at key
      rw [if_neg (mt masked.mp (by rw [key]; exact Bool.noConfusion)), whole, key]
      simp only [Option.elim_none, List.append_nil]

theorem makeHeader_eq (random_bytes : Mask) (data : List UInt8) (data_size length : UInt64)
    (flags : UInt16) (known : KnownOpcode (flagsFirst flags &&& 0x0F))
    (room : (encodedHeader random_bytes length flags).wire.length ≤ data.length) :
    Websocket.makeHeader random_bytes data data_size length flags =
      ((encodedHeader random_bytes length flags).wire ++
          data.drop (encodedHeader random_bytes length flags).wire.length,
        UInt8.ofNat (encodedHeader random_bytes length flags).wire.length) := by
  rw [← writtenHeader_of_known random_bytes length flags known] at room ⊢
  exact makeHeader_written random_bytes data data_size length flags room

/-- The shift in `reserve` leaves nothing of the flags: it never counts a mask. -/
theorem reserve_eq (random_bytes : Mask) (length : UInt64) (flags : UInt16) :
    (Websocket.reserve length flags).toNat =
      (writtenHeader random_bytes length flags).unmasked.length := by
  have shifted : ((flags &&& 0x00ff) >>> 8).toUInt8 = 0 := by
    have none : (flags &&& 0x00ff) >>> 8 = 0 := by
      apply UInt16.toNat_inj.mp
      rw [UInt16.toNat_shiftRight, UInt16.toNat_and]
      change (flags.toNat &&& 2 ^ 8 - 1) >>> 8 = 0
      rw [Nat.and_two_pow_sub_one_eq_mod, Nat.shiftRight_eq_div_pow]
      exact Nat.div_eq_of_lt (Nat.mod_lt _ (by decide))
    rw [none]
    rfl
  have size : (writtenHeader random_bytes length flags).unmasked.length =
      ((LengthForm.minimal length).extension length.toNat).length + 2 := rfl
  rw [size]
  unfold Websocket.reserve LengthForm.minimal
  simp only [shifted, UInt8.zero_and, ne_eq, not_true_eq_false, if_false]
  by_cases short : length ≤ 125
  · rw [if_pos short, if_neg (UInt64.not_lt.mpr short)]
    rfl
  · rw [if_neg short, if_pos (UInt64.not_le.mp short)]
    by_cases medium : length ≤ 65535
    · rw [if_pos medium, if_neg (UInt64.not_lt.mpr medium)]
      rfl
    · rw [if_neg medium, if_pos (UInt64.not_le.mp medium)]
      rfl

/-- `makeHeader` writes every byte of a buffer of the reserved size, whatever it
held before, and none behind it. -/
def FillsReserved (random_bytes : Mask) (length : UInt64) (flags : UInt16) : Prop :=
  ∃ header : List UInt8, header.length = (Websocket.reserve length flags).toNat ∧
    ∀ reserved behind data_size, reserved.length = header.length →
      Websocket.makeHeader random_bytes (reserved ++ behind) data_size length flags =
        (header ++ behind, UInt8.ofNat header.length)

theorem flagsMasked_iff (flags : UInt16) : flagsMasked flags = true ↔ flags &&& 0x0080 ≠ 0 := by
  have low : (flags.toNat &&& 0xff) % 256 = flags.toNat &&& 0xff :=
    Nat.mod_eq_of_lt (Nat.lt_of_le_of_lt Nat.and_le_right (by decide))
  have second : (flagsSecond flags &&& 0x80).toNat = (flags &&& 0x0080).toNat := by
    unfold flagsSecond
    rw [UInt8.toNat_and, UInt16.toNat_toUInt8, UInt16.toNat_shiftRight, UInt16.toNat_and,
      UInt16.toNat_and]
    change (flags.toNat &&& 0xff) % 256 &&& 0x80 = flags.toNat &&& 0x80
    rw [low, Nat.and_assoc]
    rfl
  unfold flagsMasked
  rw [bne_iff_ne, not_iff_not, ← UInt8.toNat_inj, ← UInt16.toNat_inj, second]
  rfl

/-- Exactly the unmasked headers fit: the mask of any other is written behind the
reserved bytes. -/
theorem makeHeader_fills_iff (random_bytes : Mask) (length : UInt64) (flags : UInt16) :
    FillsReserved random_bytes length flags ↔ flags &&& 0x0080 = 0 := by
  have whole := (writtenHeader random_bytes length flags).wire_eq
  have reserved_size := reserve_eq random_bytes length flags
  have key : (writtenHeader random_bytes length flags).mask =
      if flagsMasked flags then some random_bytes else none := rfl
  have ten := (writtenHeader random_bytes length flags).length_unmasked.2
  rw [← not_iff_not, ← ne_eq (flags &&& 0x0080), ← flagsMasked_iff]
  constructor
  · intro broken
    by_contra plain
    rw [if_neg plain] at key
    rw [key, Option.elim_none, List.append_nil] at whole
    refine broken ⟨(writtenHeader random_bytes length flags).wire, ?_, ?_⟩
    · rw [whole, reserved_size]
    · intro reserved behind data_size size
      have room : (writtenHeader random_bytes length flags).wire.length ≤
          (reserved ++ behind).length := by
        rw [List.length_append, size]
        exact Nat.le_add_right _ _
      rw [makeHeader_written _ _ _ _ _ room, ← size, List.drop_left]
  · rintro masked ⟨header, size, fills⟩
    rw [if_pos masked] at key
    rw [key, Option.elim_some] at whole
    have long : (writtenHeader random_bytes length flags).wire.length =
        header.length + random_bytes.toList.length := by
      rw [whole, List.length_append, size, reserved_size]
    rw [Vector.length_toList] at long
    have fill := fills (List.replicate header.length 0) (List.replicate 4 0) 0 List.length_replicate
    rw [makeHeader_written _ _ _ _ _ (by simp only [long, List.length_append, List.length_replicate,
      Nat.le_refl])] at fill
    have counted : UInt8.ofNat (header.length + 4) = UInt8.ofNat header.length := by
      rw [← long]
      exact congrArg Prod.snd fill
    have small : header.length ≤ 10 := by
      rw [size, reserved_size]
      exact ten
    have equal := congrArg UInt8.toNat counted
    rw [UInt8.toNat_ofNat_of_lt' (Nat.lt_of_le_of_lt (Nat.add_le_add_right small 4) (by decide)),
      UInt8.toNat_ofNat_of_lt' (Nat.lt_of_le_of_lt small (by decide))] at equal
    omega

/-- A masked header with a short payload takes six bytes, and `reserve` says two. -/
theorem makeHeader_overruns :
    (Websocket.reserve 5 0x8180).toNat = 2 ∧
      (Websocket.makeHeader #v[1, 2, 3, 4] [0, 0, 0xAA, 0xAA, 0xAA, 0xAA] 2 5 0x8180) =
        ([0x81, 0x85, 1, 2, 3, 4], 6) := by
  decide +kernel

private theorem fin_of_bit : ∀ byte : UInt8, byte &&& 0x80 ≠ 0 → (byte &&& 0x80 != 0) = true := by
  decide +kernel

private theorem data_not_control (opcode : UInt8)
    (data : opcode = 0 ∨ opcode = 1 ∨ opcode = 2) : ¬ControlOpcode opcode := by
  rcases data with rfl | rfl | rfl <;> decide

/-- The reader accepts what the encoder wrote, recovers the flags, the length and
the mask, and reads exactly the bytes of the header. -/
theorem read_makeHeader (random_bytes : Mask) (data : List UInt8) (data_size length : UInt64)
    (flags : UInt16) (reader : Header) (heap : Heap) (new_request : Bool) (rest : List UInt8)
    (rsv : flagsFirst flags &&& 0x70 = 0)
    (kind : (flagsFirst flags &&& 0x0F = 0 ∨ flagsFirst flags &&& 0x0F = 1
        ∨ flagsFirst flags &&& 0x0F = 2)
      ∨ (ControlOpcode (flagsFirst flags &&& 0x0F) ∧ flagsFirst flags &&& 0x80 ≠ 0
        ∧ length ≤ 125))
    (continues : flagsFirst flags &&& 0x0F = 0 → new_request = false)
    (begins : flagsFirst flags &&& 0x0F = 1 ∨ flagsFirst flags &&& 0x0F = 2 →
      new_request = true)
    (unset : reader.rsvc_ = 0)
    (room : (encodedHeader random_bytes length flags).wire.length ≤ data.length) :
    let encoded := Websocket.makeHeader random_bytes data data_size length flags
    ∃ next after,
      reader.read heap new_request (encoded.1.take encoded.2.toNat ++ rest) =
        some (0, next, after, rest) ∧
      next.is_fin after = (flagsFirst flags &&& 0x80 != 0) ∧
      next.byte after 0 &&& 0x0F = flagsFirst flags &&& 0x0F ∧
      next.payload_size = length ∧
      next.mask after = some (if flagsMasked flags then random_bytes else #v[0, 0, 0, 0]) ∧
      next.state =
        if ControlOpcode (flagsFirst flags &&& 0x0F) then .CONTROL else .DATA := by
  have known : KnownOpcode (flagsFirst flags &&& 0x0F) := by
    rcases kind with (zero | one | two) | ⟨eight | nine | ten, -⟩
    · exact Or.inl zero
    · exact Or.inr (Or.inl one)
    · exact Or.inr (Or.inr (Or.inl two))
    · exact Or.inr (Or.inr (Or.inr (Or.inl eight)))
    · exact Or.inr (Or.inr (Or.inr (Or.inr (Or.inl nine))))
    · exact Or.inr (Or.inr (Or.inr (Or.inr (Or.inr ten))))
  have accepted :
      (encodedHeader random_bytes length flags).second_verdict new_request = 0 := by
    rcases kind with data | ⟨control, fin, short⟩
    · refine FrameHeader.second_verdict_data _ _ (data_not_control _ data) ⟨continues, ?_⟩
      intro inside
      rcases data with zero | other
      · exact zero
      · rw [begins other] at inside
        cases inside
    · exact FrameHeader.second_verdict_control _ _ control (fin_of_bit _ fin)
        (UInt64.le_iff_toNat_le.mp short)
  have written := makeHeader_eq random_bytes data data_size length flags known room
  obtain ⟨next, after, result, described, state⟩ :=
    Header.read_wire reader heap (encodedHeader random_bytes length flags) new_request
      (rsv.trans unset.symm) known accepted rest
  have short : (encodedHeader random_bytes length flags).wire.length < 256 := by
    rw [FrameHeader.wire_eq, List.length_append]
    have ten := (encodedHeader random_bytes length flags).length_unmasked.2
    have four :
        ((encodedHeader random_bytes length flags).mask.elim [] Vector.toList).length ≤ 4 := by
      cases (encodedHeader random_bytes length flags).mask <;> simp
    omega
  refine ⟨next, after, ?_, ?_, ?_, ?_, ?_, state⟩
  · rw [written]
    simp only
    rw [UInt8.toNat_ofNat_of_lt' short, List.take_left]
    exact result
  · rw [Header.is_fin_eq, described.first]
    rfl
  · rw [described.first]
    rfl
  · exact UInt64.toNat_inj.mp described.payload
  · rw [described.mask]
    unfold FrameHeader.key encodedHeader
    cases flagsMasked flags <;> rfl

theorem read_makeHeader_text :
    let encoded := Websocket.makeHeader #v[1, 2, 3, 4] (List.replicate 14 0xAA) 14 300 0x8180
    ∃ next after,
      Header.init.read Store.empty true (encoded.1.take encoded.2.toNat ++ [7]) =
        some (0, next, after, [7]) ∧
      next.is_fin after = (flagsFirst 0x8180 &&& 0x80 != 0) ∧
      next.byte after 0 &&& 0x0F = flagsFirst 0x8180 &&& 0x0F ∧
      next.payload_size = 300 ∧
      next.mask after = some (if flagsMasked 0x8180 then #v[1, 2, 3, 4] else #v[0, 0, 0, 0]) ∧
      next.state =
        if ControlOpcode (flagsFirst 0x8180 &&& 0x0F) then .CONTROL else .DATA :=
  read_makeHeader #v[1, 2, 3, 4] (List.replicate 14 0xAA) 14 300 0x8180 Header.init Store.empty
    true [7] (by decide) (Or.inl (Or.inr (Or.inl (by decide))))
    (fun continuation => absurd continuation (by decide)) (fun _ => rfl) rfl (by decide)

end Averyws
