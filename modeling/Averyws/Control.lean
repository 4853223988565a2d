/-
The control frame processor of `ws_control.cpp`.

The reply to a ping or a close frame is built in place: the two header bytes
are copied before the payload that was read behind them.
-/

import Averyws.Header
import Averyws.Utilities.Websocket

namespace Averyws

open Library.Bytes Library.Cells
open Utilities

inductive ControlState
  | KILL
  | PING
  | PONG
  | INVALID
  deriving DecidableEq

structure Control where
  buffer_ : Block 129
  size_ : UInt8
  state_ : ControlState
  deriving DecidableEq

namespace Control

def init : Control :=
  { buffer_ := Block.zero 129, size_ := 0, state_ := .INVALID }

def new_buffer (self : Control) : Control :=
  { self with buffer_ := Block.zero 129 }

def payload_begin : Nat := 2

def capacity : UInt8 := 129

/-- The bytes `begin()[0 .. size())`. -/
def reply (self : Control) : List UInt8 :=
  self.buffer_.read 0 self.size_.toNat

def applyMask (buffer : Block 129) (start count : Nat) (mask : Mask) (mask_offset : UInt8)
    (is_utf8 : Bool) (utf8 : Utf8.Byte) : Block 129 × UInt8 × Utf8.Byte :=
  let masked := Websocket.applyMask (buffer.read start count) mask mask_offset is_utf8 utf8
  (buffer.write start masked.data, masked.mask_offset, masked.utf8)

def known_code (code : UInt16) : Bool :=
  !(decide (code < 1000)
    || (decide (code < 3000)
      && code != 1000 && code != 1001 && code != 1002 && code != 1003
      && code != 1007 && code != 1008 && code != 1009 && code != 1010
      && code != 1011)
    || decide (code > 4999))

/-- The end of the close branch: the mask bit is cleared and the status code
replaced when it is not one to repeat. -/
def kill (self : Control) (buffer : Block 129) : Control :=
  let buffer := buffer.write 1 [buffer.byte 1 &&& 0x7F]
  let code : UInt16 := ((buffer.byte 2).toUInt16 <<< 8) ||| ((buffer.byte 3).toUInt16 <<< 0)
  let buffer := if known_code code then buffer else buffer.write 2 [0x03, 0xEA]
  { self with buffer_ := buffer, state_ := .KILL }

def process (self : Control) (header : Header) (heap : Heap) : Option (Nat × Control) := do
  let self := { self with size_ := (header.payload_size + 2).toUInt8 }
  let utf8 := Utf8.Byte.init
  let mask_offset : UInt8 := 0
  let buffer := self.buffer_.write 0 [header.byte heap 0, header.byte heap 1]
  if buffer.byte 0 &&& 0x0F = 0x08 then
    if header.payload_size ≥ 2 then
      let mask ← header.mask heap
      let (buffer, mask_offset, utf8) :=
        applyMask buffer 2 2 mask mask_offset false utf8
      let (buffer, _, utf8) :=
        applyMask buffer 4 (header.payload_size - 2).toNat mask mask_offset true utf8
      if utf8.complete = false then
        return (1007, { self with buffer_ := buffer })
      else
        return (0, self.kill buffer)
    else
      return (0, self.kill buffer)
  else if buffer.byte 0 &&& 0x0F = 0x09 then
    let mask ← header.mask heap
    let (buffer, _, utf8) :=
      applyMask buffer 2 header.payload_size.toNat mask mask_offset false utf8
    if utf8.complete = false then
      return (1007, { self with buffer_ := buffer })
    else
      let buffer := buffer.write 0 [(buffer.byte 0 &&& 0xF0) ||| 0x0A]
      let buffer := buffer.write 1 [buffer.byte 1 &&& 0x7F]
      return (0, { self with buffer_ := buffer, state_ := .PING })
  else if buffer.byte 0 &&& 0x0F = 0x0A then
    return (0, { self with buffer_ := buffer, state_ := .PONG })
  else
    return (0, { self with buffer_ := buffer, state_ := .INVALID })

end Control

end Averyws
