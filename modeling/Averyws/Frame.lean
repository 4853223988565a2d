/-
Frames as a client sends them.

A frame is any first byte, any of the three length forms the payload fits, and
an optional mask.  `wire` is the byte string the header reader sees; the mask is
applied to the payload there.
-/

import Mathlib.Algebra.Group.Nat.Defs
import Averyws.Library.Bytes

namespace Averyws

open Library.Bytes

inductive LengthForm
  | seven
  | sixteen
  | sixtyFour
  deriving DecidableEq

def LengthForm.Fits (form : LengthForm) (length : Nat) : Prop :=
  match form with
  | .seven => length ≤ 125
  | .sixteen => length < 2 ^ 16
  | .sixtyFour => length < 2 ^ 64

instance (form : LengthForm) (length : Nat) : Decidable (form.Fits length) := by
  unfold LengthForm.Fits
  cases form <;> exact inferInstance

def LengthForm.code (form : LengthForm) (length : Nat) : UInt8 :=
  match form with
  | .seven => UInt8.ofNat length
  | .sixteen => 126
  | .sixtyFour => 127

def LengthForm.extension (form : LengthForm) (length : Nat) : List UInt8 :=
  match form with
  | .seven => []
  | .sixteen => [UInt8.ofNat (length / 2 ^ 8), UInt8.ofNat length]
  | .sixtyFour =>
      [UInt8.ofNat (length / 2 ^ 56), UInt8.ofNat (length / 2 ^ 48),
        UInt8.ofNat (length / 2 ^ 40), UInt8.ofNat (length / 2 ^ 32),
        UInt8.ofNat (length / 2 ^ 24), UInt8.ofNat (length / 2 ^ 16),
        UInt8.ofNat (length / 2 ^ 8), UInt8.ofNat length]

structure FrameHeader where
  first : UInt8
  form : LengthForm
  mask : Option Mask
  length : Nat
  fits : form.Fits length
  deriving DecidableEq

namespace FrameHeader

def fin (header : FrameHeader) : Bool :=
  header.first &&& 0x80 != 0

def rsv (header : FrameHeader) : UInt8 :=
  header.first &&& 0x70

def opcode (header : FrameHeader) : UInt8 :=
  header.first &&& 0x0F

def second (header : FrameHeader) : UInt8 :=
  (if header.mask.isSome then 0x80 else 0x00) ||| header.form.code header.length

def key (header : FrameHeader) : Mask :=
  header.mask.getD #v[0, 0, 0, 0]

def tail (header : FrameHeader) : List UInt8 :=
  header.form.extension header.length ++ (header.mask.elim [] Vector.toList)

def wire (header : FrameHeader) : List UInt8 :=
  [header.first, header.second] ++ header.tail

end FrameHeader

structure Frame where
  first : UInt8
  form : LengthForm
  mask : Option Mask
  payload : List UInt8
  fits : form.Fits payload.length
  deriving DecidableEq

namespace Frame

def header (frame : Frame) : FrameHeader :=
  { first := frame.first
    form := frame.form
    mask := frame.mask
    length := frame.payload.length
    fits := frame.fits }

def fin (frame : Frame) : Bool :=
  frame.header.fin

def rsv (frame : Frame) : UInt8 :=
  frame.header.rsv

def opcode (frame : Frame) : UInt8 :=
  frame.header.opcode

def wire (frame : Frame) : List UInt8 :=
  frame.header.wire ++ xorMask frame.header.key 0 frame.payload

def short (first : UInt8) (mask : Option Mask) (payload : List UInt8)
    (fits : payload.length ≤ 125) : Frame :=
  { first := first, form := .seven, mask := mask, payload := payload, fits := fits }

def stream (frames : List Frame) : List UInt8 :=
  frames.flatMap wire

end Frame

end Averyws
