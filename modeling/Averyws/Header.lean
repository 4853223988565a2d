/-
The two-phase frame header reader of `ws_header.cpp`.

The fourteen-byte buffer is shared between headers through references into a
store, as the source shares it through `shared_ptr`; `mask_` points into such a
buffer.  The processing steps index it with proofs that they stay inside, where
the source has the checked `at`.
-/

import Averyws.Library.Cells

namespace Averyws

open Library.Bytes Library.Cells

/-- The buffers ever handed out by `make_shared<array<uint8_t,14>>`. -/
abbrev Heap := Store (Block 14)

inductive HeaderState
  | FIRST
  | SECOND
  | CONTROL
  | DATA
  | INVALID
  | FINISHED
  deriving DecidableEq

structure Pointer where
  buffer : Nat
  offset : Nat
  deriving DecidableEq

structure Header where
  state_ : HeaderState
  rsvc_ : UInt8
  next_read_size_ : UInt64
  payload_size_ : UInt64
  mask_ : Option Pointer
  buffer_ : Nat
  is_binary_ : Bool
  deriving DecidableEq

namespace Header

/-- The fields the source leaves unset; all are written before they are read. -/
def init : Header :=
  { state_ := .INVALID
    rsvc_ := 0
    next_read_size_ := 0
    payload_size_ := 0
    mask_ := none
    buffer_ := 0
    is_binary_ := false }

def new_buffer (self : Header) (heap : Heap) : Header × Heap :=
  let (buffer, heap) := heap.alloc (Block.zero 14)
  ({ self with buffer_ := buffer, next_read_size_ := 2, state_ := .FIRST }, heap)

def byte (self : Header) (heap : Heap) (index : Nat) : UInt8 :=
  (heap.load self.buffer_).byte index

theorem getElem_load (self : Header) (heap : Heap) (index : Nat) (inside : index < 14) :
    (heap.load self.buffer_)[index] = self.byte heap index :=
  (dif_pos inside).symm

def is_fin (self : Header) (heap : Heap) : Bool :=
  (heap.load self.buffer_)[0] &&& 0x80 != 0

theorem is_fin_eq (self : Header) (heap : Heap) :
    self.is_fin heap = (self.byte heap 0 &&& 0x80 != 0) :=
  rfl

def size : UInt64 := 14

def current_position (self : Header) : Option Pointer :=
  match self.state_ with
  | .FIRST => some { buffer := self.buffer_, offset := 0 }
  | .SECOND => some { buffer := self.buffer_, offset := 2 }
  | _ => none

def size_left (self : Header) : UInt64 :=
  match self.state_ with
  | .FIRST => size
  | .SECOND => size - 2
  | _ => size - self.next_read_size_

def next_read_size (self : Header) : UInt64 :=
  self.next_read_size_

def is_binary (self : Header) : Bool :=
  self.is_binary_

def state (self : Header) : HeaderState :=
  self.state_

def payload_size (self : Header) : UInt64 :=
  self.payload_size_

def mask (self : Header) (heap : Heap) : Option Mask := do
  let pointer ← self.mask_
  let block := heap.load pointer.buffer
  if inside : pointer.offset + 3 < 14 then
    some #v[block[pointer.offset], block[pointer.offset + 1], block[pointer.offset + 2],
      block[pointer.offset + 3]]
  else none

def transfer (self header : Header) : Header :=
  { self with
    buffer_ := header.buffer_
    mask_ := header.mask_
    payload_size_ := header.payload_size_
    is_binary_ := header.is_binary_ }

def process_state_1 (self : Header) (heap : Heap) (_new_request : Bool) :
    Nat × Header × Heap :=
  let buffer_ := heap.load self.buffer_
  if buffer_[0] &&& 0x70 ≠ self.rsvc_
      ∨ buffer_[0] &&& 0x0F = 0x03
      ∨ buffer_[0] &&& 0x0F = 0x04
      ∨ buffer_[0] &&& 0x0F = 0x05
      ∨ buffer_[0] &&& 0x0F = 0x06
      ∨ buffer_[0] &&& 0x0F = 0x07
      ∨ buffer_[0] &&& 0x0F = 0x0B
      ∨ buffer_[0] &&& 0x0F = 0x0C
      ∨ buffer_[0] &&& 0x0F = 0x0D
      ∨ buffer_[0] &&& 0x0F = 0x0E
      ∨ buffer_[0] &&& 0x0F = 0x0F then
    (1002, self, heap)
  else
    let is_binary := buffer_[0] &&& 0x02 == 0x02
    let payload_size : UInt64 := (buffer_[1] &&& 0x7F).toUInt64
    let next_read_size : UInt64 :=
      if payload_size ≤ 125 then 0
      else if payload_size = 126 then 2
      else if payload_size = 127 then 8
      else 0
    if buffer_[1] &&& 0x80 ≠ 0 then
      (0,
        { self with
          is_binary_ := is_binary
          payload_size_ := payload_size
          mask_ := some { buffer := self.buffer_, offset := 2 + next_read_size.toNat }
          next_read_size_ := next_read_size + 4
          state_ := .SECOND },
        heap)
    else
      (0,
        { self with
          is_binary_ := is_binary
          payload_size_ := payload_size
          mask_ := some { buffer := self.buffer_, offset := 10 }
          next_read_size_ := next_read_size
          state_ := .SECOND },
        heap.save self.buffer_ (buffer_.put 10 [0, 0, 0, 0] (by decide)))

/-- The payload length once the length bytes are in the buffer. -/
def extended_payload_size (self : Header) (heap : Heap) : UInt64 :=
  let buffer_ := heap.load self.buffer_
  if self.payload_size_ = 126 then
    (buffer_[2].toUInt64 <<< 8) ||| (buffer_[3].toUInt64 <<< 0)
  else if self.payload_size_ = 127 then
    (buffer_[2].toUInt64 <<< 56)
      ||| (buffer_[3].toUInt64 <<< 48)
      ||| (buffer_[4].toUInt64 <<< 40)
      ||| (buffer_[5].toUInt64 <<< 32)
      ||| (buffer_[6].toUInt64 <<< 24)
      ||| (buffer_[7].toUInt64 <<< 16)
      ||| (buffer_[8].toUInt64 <<< 8)
      ||| (buffer_[9].toUInt64 <<< 0)
  else self.payload_size_

def process_state_2 (self : Header) (heap : Heap) (new_request : Bool) : Nat × Header :=
  let buffer_ := heap.load self.buffer_
  let self := { self with payload_size_ := self.extended_payload_size heap }
  if buffer_[0] &&& 0x0F = 0x08
      ∨ buffer_[0] &&& 0x0F = 0x09
      ∨ buffer_[0] &&& 0x0F = 0x0A then
    if buffer_[0] &&& 0x80 ≠ 0x80 then (1007, self)
    else if self.payload_size_ > 125 then (1002, self)
    else (0, { self with state_ := .CONTROL })
  else if new_request = true ∧ buffer_[0] &&& 0x0F = 0x00 then (1002, self)
  else if new_request = false ∧ buffer_[0] &&& 0x0F ≠ 0x00 then (1002, self)
  else (0, { self with state_ := .DATA })

/-- The result code, with the header and the buffers as the call leaves them. -/
def process (self : Header) (heap : Heap) (new_request : Bool) : Nat × Header × Heap :=
  match self.state_ with
  | .FIRST => self.process_state_1 heap new_request
  | .SECOND =>
      let (rcode, self) := self.process_state_2 heap new_request
      (rcode, self, heap)
  | _ => (1002, self, heap)

end Header

end Averyws
