/-
The encoders of `lib/base64.hpp`.

Both overloads size the string beforehand, each with a formula of its own, and
write it through an index; a write outside it, a failed assertion or a thrown
`length_error` leaves no result.  `std::string::max_size` is not modelled, which on
some libraries is below 2 ^ 64: where it is 2 ^ 62, sizing the string throws from
about 3 * 2 ^ 60 bytes on.
-/

import Mathlib.Algebra.Group.Nat.Defs

namespace Averyws.Utilities.Base64

def ascii (text : String) : List UInt8 :=
  text.toList.map fun letter => letter.toNat.toUInt8

def b64_table : List UInt8 :=
  ascii "ABCDEFGHIJKLMNOPQRSTUVWXYZabcdefghijklmnopqrstuvwxyz0123456789+/"

/-- The local variables of `base64_encode`. -/
structure Encoder where
  retval : List UInt8
  outpos : Nat
  bits_collected : Nat
  accumulator : UInt32
  deriving DecidableEq

namespace Encoder

/-- `retval[outpos++] = b64_table[sextet & 0x3f]` -/
def put (self : Encoder) (sextet : UInt32) : Option Encoder :=
  if self.outpos < self.retval.length then
    some { self with
      retval := self.retval.set self.outpos (b64_table.getD (sextet &&& 0x3f).toNat 0)
      outpos := self.outpos + 1 }
  else none

/-- The inner loop.  Six bits go each time, so `bits_collected` bounds the fuel. -/
def drain (self : Encoder) : Nat → Option Encoder
  | 0 => some self
  | fuel + 1 =>
      if 6 ≤ self.bits_collected then do
        let bits_collected := self.bits_collected - 6
        let self ← { self with bits_collected := bits_collected }.put
          (self.accumulator >>> UInt32.ofNat bits_collected)
        self.drain fuel
      else some self

def take (self : Encoder) (byte : UInt8) : Option Encoder :=
  let self := { self with
    accumulator := (self.accumulator <<< 8) ||| (byte.toUInt32 &&& 0xff)
    bits_collected := self.bits_collected + 8 }
  self.drain self.bits_collected

def flush (self : Encoder) : Option Encoder :=
  if 0 < self.bits_collected then
    if self.bits_collected < 6 then
      let accumulator := self.accumulator <<< UInt32.ofNat (6 - self.bits_collected)
      { self with accumulator := accumulator }.put accumulator
    else none
  else some self

end Encoder

/-- The body of both overloads, on a string of `size` padding characters. -/
def collect (size : UInt64) (bindata : List UInt8) : Option (List UInt8) := do
  let start : Encoder :=
    { retval := List.replicate size.toNat 0x3D
      outpos := 0
      bits_collected := 0
      accumulator := 0 }
  let encoder ← bindata.foldlM Encoder.take start
  let encoder ← encoder.flush
  -- the two assertions behind the loop, the first one in 64-bit arithmetic
  if (UInt64.ofNat encoder.retval.length - 2).toNat ≤ encoder.outpos
      ∧ encoder.outpos ≤ encoder.retval.length then
    return encoder.retval
  else
    none

/-- The overload on a pointer and a length. -/
def base64_encode (bindata : List UInt8) : Option (List UInt8) :=
  if bindata.length > (2 ^ 64 - 1) / 4 * 3 then
    none
  else
    collect ((UInt64.ofNat bindata.length + 1) * 4 / 3) bindata

/-- The overload on a string. -/
def base64_encode_string (bindata : List UInt8) : Option (List UInt8) :=
  if bindata.length > (2 ^ 64 - 1) / 4 * 3 then
    none
  else
    collect ((UInt64.ofNat bindata.length + 1) / 3 * 4) bindata

namespace Encoder

theorem length_put {self next : Encoder} {sextet : UInt32}
    (done : self.put sextet = some next) : next.retval.length = self.retval.length := by
  unfold put at done
  split at done
  · cases done
    exact List.length_set
  · cases done

theorem length_drain {self next : Encoder} (fuel : Nat) (done : self.drain fuel = some next) :
    next.retval.length = self.retval.length := by
  induction fuel generalizing self with
  | zero =>
      cases done
      rfl
  | succ fuel ih =>
      unfold drain at done
      split at done
      · obtain ⟨middle, put, rest⟩ := Option.bind_eq_some_iff.mp done
        have kept := length_put put
        exact (ih rest).trans kept
      · cases done
        rfl

theorem length_flush {self next : Encoder} (done : self.flush = some next) :
    next.retval.length = self.retval.length := by
  unfold flush at done
  split at done
  · split at done
    · have kept := length_put done
      exact kept
    · cases done
  · cases done
    rfl

theorem length_foldlM {self next : Encoder} (bindata : List UInt8)
    (done : bindata.foldlM take self = some next) :
    next.retval.length = self.retval.length := by
  induction bindata generalizing self with
  | nil =>
      cases done
      rfl
  | cons byte rest ih =>
      rw [List.foldlM_cons] at done
      obtain ⟨middle, taken, later⟩ := Option.bind_eq_some_iff.mp done
      have kept := length_drain _ taken
      exact (ih later).trans kept

end Encoder

theorem length_collect {size : UInt64} {bindata b64 : List UInt8}
    (done : collect size bindata = some b64) : b64.length = size.toNat := by
  obtain ⟨taken, folded, done⟩ := Option.bind_eq_some_iff.mp done
  obtain ⟨flushed, last, done⟩ := Option.bind_eq_some_iff.mp done
  split at done
  · cases done
    rw [Encoder.length_flush last, Encoder.length_foldlM _ folded, List.length_replicate]
  · cases done

theorem length_base64_encode {bindata b64 : List UInt8}
    (done : base64_encode bindata = some b64) :
    b64.length = ((UInt64.ofNat bindata.length + 1) * 4 / 3).toNat := by
  unfold base64_encode at done
  split at done
  · cases done
  · exact length_collect done

end Averyws.Utilities.Base64
