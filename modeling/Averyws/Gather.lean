/-
The gatherer of `ws_gather.cpp`: it cuts the frames of a message into reads
that fill the chunks of the message buffer one after the other.

`read_chunk` first unmasks and validates what the previous read delivered and
then plans the next read.  A call that throws, or dereferences a null pointer,
has no result.
-/

import Averyws.Header
import Averyws.Utilities.ChunkVector
import Averyws.Utilities.Websocket

namespace Averyws

open Utilities

structure Gather where
  utf8_ : Utf8.Byte
  mask_offset_ : UInt8
  total_size_ : UInt64
  total_consumed_ : UInt64
  next_consume_ : UInt64
  buffer_position_ : Option Position
  deriving DecidableEq

namespace Gather

def reset (_self : Gather) : Gather :=
  { utf8_ := Utf8.Byte.init
    mask_offset_ := 0
    total_size_ := 0
    total_consumed_ := 0
    next_consume_ := 0
    buffer_position_ := none }

/-- The fields the source leaves unset until the first `reset`. -/
def init : Gather :=
  { utf8_ := Utf8.Byte.init
    mask_offset_ := 0
    total_size_ := 0
    total_consumed_ := 0
    next_consume_ := 0
    buffer_position_ := none }

def more (self : Gather) (size : UInt64) : Gather :=
  { self with total_size_ := self.total_size_ + size, mask_offset_ := 0 }

/-- The call of `applyMask` on the bytes just read into `buffer_position_`. -/
def unmask (self : Gather) (header : Header) (heap : Heap) (buffer : ChunkVector)
    (amount_consumed : UInt64) : Option (Gather × ChunkVector) := do
  let position ← self.buffer_position_
  let mask ← header.mask heap
  let data ← buffer.load position amount_consumed.toNat
  let masked :=
    Websocket.applyMask data mask self.mask_offset_ (!header.is_binary) self.utf8_
  let buffer ← buffer.store position masked.data
  return ({ self with mask_offset_ := masked.mask_offset, utf8_ := masked.utf8 }, buffer)

def grow (self : Gather) (buffer : ChunkVector) : Option ChunkVector :=
  if self.total_consumed_ = buffer.size then buffer.new_chunk.map Prod.fst else some buffer

/-- The rest of `read_chunk`: finish the message, or plan the next read. -/
def plan (self : Gather) (buffer : ChunkVector) (new_request : Bool) :
    Option (Nat × Gather × ChunkVector) :=
  if self.total_size_ = self.total_consumed_ then
    if new_request then
      if self.utf8_.complete = false then
        some (1007, self, buffer)
      else
        let count := (buffer.chunk_size + self.total_size_ - 1) % buffer.chunk_size + 1
        some (0, { self with next_consume_ := 0 }, buffer.close_last_chunk count)
    else
      some (0, { self with next_consume_ := 0 }, buffer)
  else do
    let buffer ← self.grow buffer
    let position ← buffer.at_ self.total_consumed_
    let next_consume :=
      if self.total_size_ > buffer.size then buffer.size - self.total_consumed_
      else self.total_size_ - self.total_consumed_
    return (0, { self with buffer_position_ := some position, next_consume_ := next_consume },
      buffer)

def read_chunk (self : Gather) (header : Header) (heap : Heap) (buffer : ChunkVector)
    (amount_consumed : UInt64) (new_request : Bool) : Option (Nat × Gather × ChunkVector) :=
  if amount_consumed ≠ 0 then do
    let (self, buffer) ← self.unmask header heap buffer amount_consumed
    if self.utf8_.valid = false then
      return (1007, self, buffer)
    else
      let self := { self with total_consumed_ := self.total_consumed_ + amount_consumed }
      self.plan buffer new_request
  else
    self.plan buffer new_request

end Gather

end Averyws
