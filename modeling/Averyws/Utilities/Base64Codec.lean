/-
The decoder of `lib/base64.hpp` and what both encoders give it.

The padding is whatever of the string the encoding loop has not written.
-/

import Averyws.Library.Base64
import Averyws.Utilities.Base64

namespace Averyws.Utilities.Base64

open Library.Base64

def reverse_table : List UInt8 :=
  [64, 64, 64, 64, 64, 64, 64, 64, 64, 64, 64, 64, 64, 64, 64, 64,
   64, 64, 64, 64, 64, 64, 64, 64, 64, 64, 64, 64, 64, 64, 64, 64,
   64, 64, 64, 64, 64, 64, 64, 64, 64, 64, 64, 62, 64, 64, 64, 63,
   52, 53, 54, 55, 56, 57, 58, 59, 60, 61, 64, 64, 64, 64, 64, 64,
   64,  0,  1,  2,  3,  4,  5,  6,  7,  8,  9, 10, 11, 12, 13, 14,
   15, 16, 17, 18, 19, 20, 21, 22, 23, 24, 25, 64, 64, 64, 64, 64,
   64, 26, 27, 28, 29, 30, 31, 32, 33, 34, 35, 36, 37, 38, 39, 40,
   41, 42, 43, 44, 45, 46, 47, 48, 49, 50, 51, 64, 64, 64, 64, 64]

/-- Blank, tabulators, line and form feed and carriage return, as in the C locale. -/
def isspace (c : UInt8) : Bool :=
  c == 0x20 || (0x09 ≤ c && c ≤ 0x0D)

/-- The local variables of `base64_decode`. -/
structure Decoder where
  retval : List UInt8
  bits_collected : Nat
  accumulator : UInt32
  deriving DecidableEq

/-- One character; one from `0x80` on is negative as a `char` and is not legal. -/
def Decoder.take (self : Decoder) (c : UInt8) : Option Decoder :=
  if isspace c || c == 0x3D then
    some self
  else if c > 127 ∨ reverse_table.getD c.toNat 64 > 63 then
    none
  else
    let accumulator := (self.accumulator <<< 6) ||| (reverse_table.getD c.toNat 64).toUInt32
    let bits_collected := self.bits_collected + 6
    if 8 ≤ bits_collected then
      let bits_collected := bits_collected - 8
      some
        { retval :=
            self.retval ++ [((accumulator >>> UInt32.ofNat bits_collected) &&& 0xff).toUInt8]
          bits_collected := bits_collected
          accumulator := accumulator }
    else
      some { self with bits_collected := bits_collected, accumulator := accumulator }

def base64_decode (ascdata : List UInt8) : Option (List UInt8) := do
  let decoder ← ascdata.foldlM Decoder.take { retval := [], bits_collected := 0, accumulator := 0 }
  return decoder.retval

/-! ### The loop of the encoders -/

/-- The string after `written`, and the bits still to be written. -/
structure Encoder.Holds (encoder : Encoder) (total : Nat) (written : List UInt8)
    (count value : Nat) : Prop where
  retval : encoder.retval = written ++ List.replicate (total - written.length) 0x3D
  outpos : encoder.outpos = written.length
  fits : written.length ≤ total
  bits : encoder.bits_collected = count
  pending : Pending encoder.accumulator count value

def Writes (result : Option Encoder) (total : Nat) (text : List UInt8) : Prop :=
  if text.length ≤ total then
    ∃ last, result = some last ∧ last.outpos = text.length ∧
      last.retval = text ++ List.replicate (total - text.length) 0x3D
  else
    result = none

private theorem symbol_eq : ∀ sextet : Fin 64, b64_table.getD sextet.val 0 = symbol sextet.val := by
  decide +kernel

section Encoder

variable {encoder : Encoder} {total count value : Nat} {written : List UInt8}

private theorem low_six (word : UInt32) : (word &&& 0x3f).toNat = word.toNat % 2 ^ 6 := by
  rw [UInt32.toNat_and]
  exact Nat.and_two_pow_sub_one_eq_mod word.toNat 6

theorem Encoder.Holds.put (holds : encoder.Holds total written count value) (word : UInt32)
    (sextet : Nat) (low : word.toNat % 2 ^ 6 = sextet) (rest : Encoder → Option Encoder)
    (later : List UInt8)
    (continues : ∀ next : Encoder, next.Holds total (written ++ [symbol sextet]) count value →
      Writes (rest next) total (written ++ [symbol sextet] ++ later)) :
    Writes (encoder.put word >>= rest) total (written ++ symbol sextet :: later) := by
  rw [List.append_cons]
  have letter : b64_table.getD (word &&& 0x3f).toNat 0 = symbol sextet := by
    rw [low_six, low]
    exact symbol_eq ⟨sextet, by rw [← low]; exact Nat.mod_lt _ (by decide)⟩
  have length : encoder.retval.length = total := by
    have fits := holds.fits
    rw [holds.retval, List.length_append, List.length_replicate]
    omega
  unfold Encoder.put
  rw [length, letter, holds.outpos]
  by_cases room : written.length < total
  · rw [if_pos room]
    apply continues
    have left : total - written.length = total - (written ++ [symbol sextet]).length + 1 := by
      rw [List.length_append, List.length_singleton]
      omega
    refine ⟨?_, ?_, ?_, holds.bits, holds.pending⟩
    · simp only
      rw [holds.retval, left, List.replicate_succ, List.set_append_right _ _ (Nat.le_refl _),
        Nat.sub_self, List.set_cons_zero, List.append_assoc, List.singleton_append]
    · rw [List.length_append, List.length_singleton]
    · rw [List.length_append, List.length_singleton]
      exact room
  · rw [if_neg room]
    unfold Writes
    rw [if_neg]
    · rfl
    · rw [List.length_append, List.length_append, List.length_singleton]
      omega

theorem Encoder.drain_short (encoder : Encoder) (fuel : Nat) (short : encoder.bits_collected < 6) :
    encoder.drain fuel = some encoder := by
  cases fuel with
  | zero => rfl
  | succ fuel =>
      unfold drain
      rw [if_neg (Nat.not_le.mpr short)]

/-- One turn of the inner loop writes the six oldest of the pending bits. -/
theorem Encoder.Holds.drain (holds : encoder.Holds total written (count + 6) value)
    (small : count < 32) (fuel : Nat) (rest : Encoder → Option Encoder) (later : List UInt8)
    (continues : ∀ next : Encoder,
      next.Holds total (written ++ [symbol (value / 2 ^ count)]) count (value % 2 ^ count) →
      Writes (next.drain fuel >>= rest) total (written ++ [symbol (value / 2 ^ count)] ++ later)) :
    Writes (encoder.drain (fuel + 1) >>= rest) total
      (written ++ symbol (value / 2 ^ count) :: later) := by
  obtain ⟨low, pending⟩ := holds.pending.pop 6 small
  have left : encoder.bits_collected - 6 = count := by
    rw [holds.bits, Nat.add_sub_cancel]
  have begun : ({ encoder with bits_collected := count } : Encoder).Holds total written count
      (value % 2 ^ count) := ⟨holds.retval, holds.outpos, holds.fits, rfl, pending⟩
  unfold Encoder.drain
  rw [if_pos (by rw [holds.bits]; exact Nat.le_add_left 6 count)]
  simp only [left, Option.bind_eq_bind, Option.bind_assoc]
  exact begun.put _ _ low _ later continues

theorem Encoder.Holds.push (holds : encoder.Holds total written count value) (byte : UInt8)
    (room : count ≤ 24) :
    ({ encoder with
      accumulator := (encoder.accumulator <<< 8) ||| (byte.toUInt32 &&& 0xff)
      bits_collected := encoder.bits_collected + 8 } : Encoder).Holds total written (count + 8)
        (256 * value + byte.toNat) := by
  have digit : (byte.toUInt32 &&& 0xff).toNat = byte.toNat := by
    rw [UInt32.toNat_and, UInt8.toNat_toUInt32]
    exact (Nat.and_two_pow_sub_one_eq_mod byte.toNat 8).trans (Nat.mod_eq_of_lt byte.toNat_lt)
  have pushed := holds.pending.push 8 (byte.toUInt32 &&& 0xff)
    (show 8 + count ≤ 32 by omega) (by decide) (by rw [digit]; exact byte.toNat_lt)
  rw [digit, Nat.add_comm] at pushed
  refine ⟨holds.retval, holds.outpos, holds.fits, ?_, pushed⟩
  simp only [holds.bits]

theorem Encoder.Holds.take_one (holds : encoder.Holds total written count value)
    (few : count < 4) (byte : UInt8) (rest : Encoder → Option Encoder) (later : List UInt8)
    (sextet remaining : Nat) (high : (256 * value + byte.toNat) / 2 ^ (count + 2) = sextet)
    (low : (256 * value + byte.toNat) % 2 ^ (count + 2) = remaining)
    (continues : ∀ next : Encoder,
      next.Holds total (written ++ [symbol sextet]) (count + 2) remaining →
      Writes (rest next) total (written ++ [symbol sextet] ++ later)) :
    Writes (encoder.take byte >>= rest) total (written ++ symbol sextet :: later) := by
  subst high low
  have pushed := holds.push byte (by omega)
  unfold Encoder.take
  apply Encoder.Holds.drain pushed (by omega)
  intro next held
  rw [next.drain_short _ (by rw [held.bits]; omega)]
  exact continues next held

theorem Encoder.Holds.take_two (holds : encoder.Holds total written 4 value)
    (byte : UInt8) (rest : Encoder → Option Encoder) (later : List UInt8) (sextet : Nat)
    (high : (256 * value + byte.toNat) / 2 ^ 6 = sextet)
    (continues : ∀ next : Encoder,
      next.Holds total (written ++ [symbol sextet] ++ [symbol (byte.toNat % 64)]) 0 0 →
      Writes (rest next) total
        (written ++ [symbol sextet] ++ [symbol (byte.toNat % 64)] ++ later)) :
    Writes (encoder.take byte >>= rest) total
      (written ++ symbol sextet :: symbol (byte.toNat % 64) :: later) := by
  have second : (256 * value + byte.toNat) % 2 ^ 6 / 2 ^ 0 = byte.toNat % 64 := by omega
  have none : (256 * value + byte.toNat) % 2 ^ 6 % 2 ^ 0 = 0 := by omega
  have pushed := holds.push byte (by omega)
  unfold Encoder.take
  rw [← high, ← second]
  apply Encoder.Holds.drain pushed (by decide)
  intro middle half
  apply Encoder.Holds.drain half (by decide)
  intro next held
  rw [next.drain_short _ (by rw [held.bits]; omega)]
  rw [none, second, high] at held
  rw [second, high]
  exact continues next held

theorem Encoder.Holds.writes (holds : encoder.Holds total written count value) :
    Writes (some encoder) total written := by
  unfold Writes
  rw [if_pos holds.fits]
  exact ⟨encoder, rfl, holds.outpos, holds.retval⟩

theorem Encoder.Holds.flush_none (holds : encoder.Holds total written 0 value) :
    Writes encoder.flush total written := by
  unfold Encoder.flush
  rw [holds.bits, if_neg (Nat.lt_irrefl 0)]
  exact holds.writes

theorem Encoder.Holds.flush_some (holds : encoder.Holds total written count value)
    (trailing : 0 < count) (few : count < 6) (sextet : Nat)
    (shifted : 2 ^ (6 - count) * value = sextet) :
    Writes encoder.flush total (written ++ [symbol sextet]) := by
  have width : (UInt32.ofNat (6 - count)).toNat = 6 - count :=
    UInt32.toNat_ofNat_of_lt' (Nat.lt_of_le_of_lt (Nat.sub_le 6 count) (by decide))
  have pending := holds.pending.shift (UInt32.ofNat (6 - count)) (by omega) (by omega)
  rw [width, Nat.sub_add_cancel (Nat.le_of_lt few), shifted] at pending
  have held : ({ encoder with
      accumulator := encoder.accumulator <<< UInt32.ofNat (6 - count) } : Encoder).Holds total
        written count _ := ⟨holds.retval, holds.outpos, holds.fits, holds.bits, rfl⟩
  have last := held.put _ sextet pending some [] (fun next done => by
    rw [List.append_nil]
    exact done.writes)
  rw [Option.bind_eq_bind, Option.bind_fun_some] at last
  unfold Encoder.flush
  rw [if_pos (by rw [holds.bits]; exact trailing), if_pos (by rw [holds.bits]; exact few)]
  simp only [holds.bits] at last ⊢
  exact last

theorem Encoder.Holds.foldlM (holds : encoder.Holds total written 0 0) (bindata : List UInt8) :
    Writes (bindata.foldlM Encoder.take encoder >>= Encoder.flush) total
      (written ++ (sextets bindata).map symbol) := by
  induction bindata using sextets.induct generalizing encoder written with
  | case1 =>
      rw [sextets, List.map_nil, List.append_nil]
      exact holds.flush_none
  | case2 a =>
      simp only [List.foldlM_cons, List.foldlM_nil, bind_assoc, pure_bind, sextets,
        List.map_cons, List.map_nil]
      apply holds.take_one (by decide) a _ _ _ (a.toNat % 4) (by omega) (by omega)
      intro one first
      exact first.flush_some (by decide) (by decide) _ (by omega)
  | case3 a b =>
      simp only [List.foldlM_cons, List.foldlM_nil, bind_assoc, pure_bind, sextets,
        List.map_cons, List.map_nil]
      apply holds.take_one (by decide) a _ _ _ (a.toNat % 4) (by omega) (by omega)
      intro one first
      apply first.take_one (by decide) b _ _ _ (b.toNat % 16) (by omega) (by omega)
      intro two second
      exact second.flush_some (by decide) (by decide) _ (by omega)
  | case4 a b c rest ih =>
      simp only [List.foldlM_cons, bind_assoc, sextets, List.map_cons]
      apply holds.take_one (by decide) a _ _ _ (a.toNat % 4) (by omega) (by omega)
      intro one first
      apply first.take_one (by decide) b _ _ _ (b.toNat % 16) (by omega) (by omega)
      intro two second
      apply second.take_two c _ _ _ (by omega)
      intro three third
      exact ih third

end Encoder

def letters (bindata : List UInt8) : List UInt8 :=
  (sextets bindata).map symbol

theorem length_letters (bindata : List UInt8) :
    (letters bindata).length = (4 * bindata.length + 2) / 3 := by
  unfold letters
  rw [List.length_map, length_sextets]

theorem collect_eq (size : UInt64) (bindata : List UInt8) :
    collect size bindata =
      if (letters bindata).length ≤ size.toNat ∧ (size - 2).toNat ≤ (letters bindata).length then
        some (letters bindata ++
          List.replicate (size.toNat - (letters bindata).length) 0x3D)
      else none := by
  have start : ({ retval := List.replicate size.toNat 0x3D, outpos := 0, bits_collected := 0
                  accumulator := 0 } : Encoder).Holds size.toNat [] 0 0 :=
    ⟨rfl, rfl, Nat.zero_le _, rfl, rfl⟩
  have written := start.foldlM bindata
  rw [List.nil_append] at written
  change Writes _ size.toNat (letters bindata) at written
  unfold collect
  rw [← bind_assoc]
  generalize bindata.foldlM Encoder.take _ >>= Encoder.flush = result at written ⊢
  unfold Writes at written
  by_cases room : (letters bindata).length ≤ size.toNat
  · rw [if_pos room] at written
    obtain ⟨last, rfl, outpos, retval⟩ := written
    have length : last.retval.length = size.toNat := by
      rw [retval, List.length_append, List.length_replicate]
      omega
    simp only [Option.bind_eq_bind, Option.bind_some, length, outpos, UInt64.ofNat_toNat]
    by_cases near : (size - 2).toNat ≤ (letters bindata).length
    · rw [if_pos ⟨near, room⟩, if_pos ⟨room, near⟩, retval]
      rfl
    · rw [if_neg (fun both => near both.1), if_neg (fun both => near both.2)]
  · rw [if_neg room] at written
    rw [written, if_neg (fun both => room both.1)]
    rfl

/-- The text is right exactly for the right size, and never for no bytes: there
the first assertion wraps. -/
theorem collect_encode_iff (size : UInt64) (bindata : List UInt8) :
    collect size bindata = some (encode bindata) ↔
      bindata ≠ [] ∧ size.toNat = 4 * ((bindata.length + 2) / 3) := by
  have text := length_letters bindata
  have whole : encode bindata =
      letters bindata ++ List.replicate (padding bindata.length) 0x3D := rfl
  have pads := length_encode bindata
  rw [whole, List.length_append, List.length_replicate, text] at pads
  have some_bytes : bindata ≠ [] ↔ bindata.length ≠ 0 := by
    rw [ne_eq, ne_eq, List.length_eq_zero_iff]
  have below := size.toNat_lt
  have moved : (size - 2).toNat = (2 ^ 64 - 2 + size.toNat) % 2 ^ 64 := by
    rw [UInt64.toNat_sub]
    rfl
  rw [collect_eq, whole, some_bytes, text, moved]
  constructor
  · intro same
    split_ifs at same with fits
    have tail := List.append_cancel_left (Option.some.inj same)
    have count := congrArg List.length tail
    rw [List.length_replicate, List.length_replicate] at count
    omega
  · rintro ⟨positive, exactly⟩
    have few : padding bindata.length ≤ 2 := by
      unfold padding
      omega
    have large : 4 ≤ size.toNat := by omega
    have unwrapped : (2 ^ 64 - 2 + size.toNat) % 2 ^ 64 = size.toNat - 2 := by omega
    rw [unwrapped, if_pos (by omega)]
    have count : size.toNat - (4 * bindata.length + 2) / 3 = padding bindata.length := by omega
    rw [count]

theorem pointer_size (length : Nat) :
    ((UInt64.ofNat length + 1) * 4 / 3).toNat = (length + 1) * 4 % 2 ^ 64 / 3 := by
  rw [UInt64.toNat_div, UInt64.toNat_mul, UInt64.toNat_add, UInt64.toNat_ofNat', Nat.mod_add_mod,
    Nat.mod_mul_mod]
  rfl

theorem base64_encode_encode_iff (bindata : List UInt8) :
    base64_encode bindata = some (encode bindata) ↔
      bindata.length % 3 = 2 ∧ bindata.length + 1 < 2 ^ 62 := by
  have some_bytes : bindata ≠ [] ↔ bindata.length ≠ 0 := by
    rw [ne_eq, ne_eq, List.length_eq_zero_iff]
  unfold base64_encode
  by_cases large : bindata.length > (2 ^ 64 - 1) / 4 * 3
  · rw [if_pos large]
    constructor
    · intro impossible
      cases impossible
    · omega
  · rw [if_neg large, collect_encode_iff, some_bytes, pointer_size]
    constructor <;> intro both <;> omega

theorem base64_encode_string_encode_iff (bindata : List UInt8) :
    base64_encode_string bindata = some (encode bindata) ↔
      bindata.length % 3 ≠ 1 ∧ bindata ≠ [] ∧ bindata.length ≤ (2 ^ 64 - 1) / 4 * 3 := by
  have some_bytes : bindata ≠ [] ↔ bindata.length ≠ 0 := by
    rw [ne_eq, ne_eq, List.length_eq_zero_iff]
  have size : ((UInt64.ofNat bindata.length + 1) / 3 * 4).toNat =
      (bindata.length + 1) % 2 ^ 64 / 3 * 4 % 2 ^ 64 := by
    rw [UInt64.toNat_mul, UInt64.toNat_div, UInt64.toNat_add, UInt64.toNat_ofNat', Nat.mod_add_mod]
    rfl
  unfold base64_encode_string
  by_cases large : bindata.length > (2 ^ 64 - 1) / 4 * 3
  · rw [if_pos large]
    constructor
    · intro impossible
      cases impossible
    · omega
  · have small : (bindata.length + 1) % 2 ^ 64 = bindata.length + 1 := by omega
    have unwrapped : (bindata.length + 1) / 3 * 4 % 2 ^ 64 = (bindata.length + 1) / 3 * 4 := by
      omega
    rw [if_neg large, collect_encode_iff, some_bytes, size, small, unwrapped]
    constructor <;> intro both <;> omega

/-- Both overloads give the padded encoding for exactly the lengths that leave two
bytes behind the last three. -/
theorem base64_encode_iff (bindata : List UInt8) :
    (base64_encode bindata = some (encode bindata) ∧
        base64_encode_string bindata = some (encode bindata)) ↔
      bindata.length % 3 = 2 ∧ bindata.length + 1 < 2 ^ 62 := by
  have some_bytes : bindata ≠ [] ↔ bindata.length ≠ 0 := by
    rw [ne_eq, ne_eq, List.length_eq_zero_iff]
  rw [base64_encode_encode_iff, base64_encode_string_encode_iff, some_bytes]
  omega

/-- Three bytes get one padding character too many, one byte gets none of its two
from one overload and is written outside the string by the other. -/
theorem base64_encode_padding :
    encode (ascii "abc") = ascii "YWJj" ∧
      base64_encode (ascii "abc") = some (ascii "YWJj=") ∧
      encode (ascii "a") = ascii "YQ==" ∧
      base64_encode (ascii "a") = some (ascii "YQ") ∧
      base64_encode_string (ascii "a") = none := by
  decide +kernel

/-! ### The loop of the decoder -/

structure Decoder.Holds (decoder : Decoder) (out : List UInt8) (count value : Nat) : Prop where
  retval : decoder.retval = out
  bits : decoder.bits_collected = count
  pending : Pending decoder.accumulator count value

private theorem reverse_symbol : ∀ sextet : Fin 64,
    (isspace (symbol sextet.val) || symbol sextet.val == 0x3D) = false ∧
      ¬symbol sextet.val > 127 ∧
      reverse_table.getD (symbol sextet.val).toNat 64 = UInt8.ofNat sextet.val ∧
      ¬UInt8.ofNat sextet.val > 63 := by
  decide +kernel

section Decoder

variable {decoder : Decoder} {out : List UInt8} {count value sextet : Nat}

private theorem low_byte (word : UInt32) (byte : Nat) (low : word.toNat % 2 ^ 8 = byte) :
    (word &&& 0xff).toUInt8 = UInt8.ofNat byte := by
  have masked : (word &&& 0xff).toNat = byte := by
    rw [UInt32.toNat_and, ← low]
    exact Nat.and_two_pow_sub_one_eq_mod word.toNat 8
  apply UInt8.toNat_inj.mp
  rw [UInt32.toNat_toUInt8, masked, UInt8.toNat_ofNat']

theorem Decoder.Holds.take (holds : decoder.Holds out count value) (few : count ≤ 6)
    (small : sextet < 64) :
    ∃ next, decoder.take (symbol sextet) = some next ∧
      if 2 ≤ count then
        next.Holds (out ++ [UInt8.ofNat ((64 * value + sextet) / 2 ^ (count - 2))]) (count - 2)
          ((64 * value + sextet) % 2 ^ (count - 2))
      else next.Holds out (count + 6) (64 * value + sextet) := by
  obtain ⟨other, ascii, found, legal⟩ := reverse_symbol ⟨sextet, small⟩
  have digit : (UInt8.ofNat sextet).toUInt32.toNat = sextet := by
    rw [UInt8.toNat_toUInt32, UInt8.toNat_ofNat_of_lt' (Nat.lt_trans small (by decide))]
  have pushed := holds.pending.push 6 (UInt8.ofNat sextet).toUInt32
    (show 6 + count ≤ 32 by omega) (by decide) (by rw [digit]; exact small)
  rw [digit] at pushed
  unfold Decoder.take
  simp only at other ascii found legal
  simp only [other, Bool.false_eq_true, if_false, found, ascii, legal, or_self, holds.bits]
  by_cases enough : 2 ≤ count
  · have split : count - 2 + 8 = 6 + count := by omega
    have left : count + 6 - 8 = count - 2 := by omega
    obtain ⟨low, pending⟩ := (split ▸ pushed : Pending _ (count - 2 + 8) _).pop 8 (by omega)
    simp only [show 8 ≤ count + 6 by omega, enough, if_true, left]
    refine ⟨_, rfl, ?_, rfl, pending⟩
    rw [holds.retval, low_byte _ _ low]
    rfl
  · simp only [show ¬8 ≤ count + 6 by omega, enough, if_false]
    refine ⟨_, rfl, holds.retval, rfl, ?_⟩
    rw [Nat.add_comm count]
    exact pushed

theorem Decoder.Holds.take_byte (holds : decoder.Holds out count value) (few : count ≤ 6)
    (enough : 2 ≤ count) (small : sextet < 64) (byte remaining : Nat)
    (high : (64 * value + sextet) / 2 ^ (count - 2) = byte)
    (low : (64 * value + sextet) % 2 ^ (count - 2) = remaining) :
    ∃ next, decoder.take (symbol sextet) = some next ∧
      next.Holds (out ++ [UInt8.ofNat byte]) (count - 2) remaining := by
  obtain ⟨next, taken, held⟩ := holds.take few small
  rw [if_pos enough, high, low] at held
  exact ⟨next, taken, held⟩

theorem Decoder.Holds.foldlM (holds : decoder.Holds out 0 0) (text : List Nat)
    (small : ∀ sextet ∈ text, sextet < 64) :
    ∃ last, (text.map symbol).foldlM Decoder.take decoder = some last ∧
      last.retval = out ++ joined text := by
  induction text using joined.induct generalizing decoder out with
  | case1 => exact ⟨decoder, rfl, by rw [holds.retval, joined, List.append_nil]⟩
  | case2 s =>
      simp only [List.forall_mem_cons] at small
      obtain ⟨next, taken, held⟩ := holds.take (Nat.zero_le 6) small.1
      refine ⟨next, ?_, ?_⟩
      · simp only [List.map_cons, List.map_nil, List.foldlM_cons, taken, List.foldlM_nil]
        rfl
      · rw [joined, List.append_nil]
        exact held.retval
  | case3 s t =>
      simp only [List.forall_mem_cons] at small
      obtain ⟨one, first, held⟩ := holds.take (Nat.zero_le 6) small.1
      obtain ⟨two, second, held⟩ := Decoder.Holds.take_byte held (by decide) (by decide) small.2.1
        (s * 4 + t / 16) _ (by omega) rfl
      refine ⟨two, ?_, held.retval⟩
      simp only [List.map_cons, List.map_nil, List.foldlM_cons, Option.bind_eq_bind, first, second,
        Option.bind_some, List.foldlM_nil]
      rfl
  | case4 s t u =>
      simp only [List.forall_mem_cons] at small
      obtain ⟨one, first, held⟩ := holds.take (Nat.zero_le 6) small.1
      obtain ⟨two, second, held⟩ := Decoder.Holds.take_byte held (by decide) (by decide) small.2.1
        (s * 4 + t / 16) (t % 16) (by omega) (by omega)
      obtain ⟨three, third, held⟩ := held.take_byte (by decide) (by decide) small.2.2.1
        (t % 16 * 16 + u / 4) _ (by omega) rfl
      refine ⟨three, ?_, ?_⟩
      · simp only [List.map_cons, List.map_nil, List.foldlM_cons, Option.bind_eq_bind, first,
          second, third, Option.bind_some, List.foldlM_nil]
        rfl
      · rw [held.retval, List.append_assoc]
        rfl
  | case5 s t u v rest ih =>
      simp only [List.forall_mem_cons] at small
      obtain ⟨one, first, held⟩ := holds.take (Nat.zero_le 6) small.1
      obtain ⟨two, second, held⟩ := Decoder.Holds.take_byte held (by decide) (by decide) small.2.1
        (s * 4 + t / 16) (t % 16) (by omega) (by omega)
      obtain ⟨three, third, held⟩ := held.take_byte (by decide) (by decide) small.2.2.1
        (t % 16 * 16 + u / 4) (u % 4) (by omega) (by omega)
      obtain ⟨four, fourth, held⟩ := held.take_byte (by decide) (by decide) small.2.2.2.1
        (u % 4 * 64 + v) 0 (by omega) (by omega)
      obtain ⟨last, later, whole⟩ := ih held small.2.2.2.2
      refine ⟨last, ?_, ?_⟩
      · simp only [List.map_cons, List.foldlM_cons, Option.bind_eq_bind, first, second, third,
          fourth, Option.bind_some]
        exact later
      · rw [whole]
        simp only [joined, List.append_assoc, List.cons_append, List.nil_append]

end Decoder

theorem base64_decode_text (text : List Nat) (small : ∀ sextet ∈ text, sextet < 64) (pads : Nat) :
    base64_decode (text.map symbol ++ List.replicate pads 0x3D) = some (joined text) := by
  have start : ({ retval := [], bits_collected := 0, accumulator := 0 } : Decoder).Holds [] 0 0 :=
    ⟨rfl, rfl, rfl⟩
  obtain ⟨last, taken, whole⟩ := start.foldlM text small
  have skipped : (List.replicate pads 0x3D).foldlM Decoder.take last = some last := by
    induction pads with
    | zero => rfl
    | succ pads ih =>
        rw [List.replicate_succ, List.foldlM_cons]
        exact ih
  unfold base64_decode
  rw [List.foldlM_append, taken]
  simp only [Option.bind_eq_bind, Option.bind_some, skipped, whole, List.nil_append]
  rfl

theorem base64_encode_of_short (bindata : List UInt8) (nonempty : bindata ≠ [])
    (short : bindata.length + 1 < 2 ^ 62) :
    ∃ pads, base64_encode bindata = some (letters bindata ++ List.replicate pads 0x3D) := by
  have positive : bindata.length ≠ 0 := fun zero => nonempty (List.length_eq_zero_iff.mp zero)
  have large : ¬bindata.length > (2 ^ 64 - 1) / 4 * 3 := by omega
  have size := pointer_size bindata.length
  have moved : ∀ word : UInt64, (word - 2).toNat = (2 ^ 64 - 2 + word.toNat) % 2 ^ 64 := by
    intro word
    rw [UInt64.toNat_sub]
    rfl
  unfold base64_encode
  rw [if_neg large, collect_eq, length_letters, if_pos]
  · exact ⟨_, rfl⟩
  · have unwrapped : (bindata.length + 1) * 4 % 2 ^ 64 = (bindata.length + 1) * 4 := by omega
    rw [unwrapped] at size
    have lowered : (2 ^ 64 - 2 + (bindata.length + 1) * 4 / 3) % 2 ^ 64 =
        (bindata.length + 1) * 4 / 3 - 2 := by omega
    rw [moved, size, lowered]
    omega

/-- From `2 ^ 62 - 1` bytes on, which the guard admits, the product wraps and the
string is too short. -/
theorem base64_encode_of_long (bindata : List UInt8) (long : 2 ^ 62 ≤ bindata.length + 1) :
    base64_encode bindata = none := by
  unfold base64_encode
  by_cases large : bindata.length > (2 ^ 64 - 1) / 4 * 3
  · rw [if_pos large]
  · have wrapped : (bindata.length + 1) * 4 % 2 ^ 64 + 2 ^ 64 ≤ (bindata.length + 1) * 4 := by omega
    have outside : (bindata.length + 1) * 4 % 2 ^ 64 / 3 < (4 * bindata.length + 2) / 3 := by omega
    rw [if_neg large, collect_eq, length_letters, pointer_size,
      if_neg (fun both => Nat.not_le.mpr outside both.1)]

/-- Every string of bytes comes back as long as the size of its encoding does not
wrap, whether its padding is right or not. -/
theorem base64_decode_encode_iff (bindata : List UInt8) (nonempty : bindata ≠ []) :
    (base64_encode bindata).bind base64_decode = some bindata ↔ bindata.length + 1 < 2 ^ 62 := by
  rcases Nat.lt_or_ge (bindata.length + 1) (2 ^ 62) with short | long
  · obtain ⟨pads, encoded⟩ := base64_encode_of_short bindata nonempty short
    rw [encoded, Option.bind_some, letters, base64_decode_text _ (sextets_lt bindata),
      joined_sextets]
    exact iff_of_true rfl short
  · rw [base64_encode_of_long bindata long, Option.bind_none]
    exact iff_of_false (fun impossible => nomatch impossible) (Nat.not_lt.mpr long)

def sampleBytes : List UInt8 :=
  [0x4D, 0x61, 0x6E, 0x00, 0xFF, 0x10, 0x83, 0xC2]

theorem base64_decode_encode_iff_groups :
    (base64_encode (sampleBytes.take 6)).bind base64_decode = some (sampleBytes.take 6) ∧
      (base64_encode (sampleBytes.take 7)).bind base64_decode = some (sampleBytes.take 7) ∧
      (base64_encode sampleBytes).bind base64_decode = some sampleBytes :=
  ⟨(base64_decode_encode_iff (sampleBytes.take 6) (by decide)).mpr (by decide),
    (base64_decode_encode_iff (sampleBytes.take 7) (by decide)).mpr (by decide),
    (base64_decode_encode_iff sampleBytes (by decide)).mpr (by decide)⟩

theorem base64_encode_wraps :
    List.replicate (2 ^ 62) (0 : UInt8) ≠ [] ∧
      (List.replicate (2 ^ 62) (0 : UInt8)).length ≤ (2 ^ 64 - 1) / 4 * 3 ∧
      (base64_encode (List.replicate (2 ^ 62) 0)).bind base64_decode ≠
        some (List.replicate (2 ^ 62) 0) := by
  have count : (List.replicate (2 ^ 62) (0 : UInt8)).length = 2 ^ 62 := List.length_replicate
  generalize List.replicate (2 ^ 62) (0 : UInt8) = bindata at count ⊢
  rw [base64_encode_of_long bindata (by omega), Option.bind_none]
  refine ⟨?_, by omega, fun impossible => nomatch impossible⟩
  rintro rfl
  rw [List.length_nil] at count
  omega

def skipped (c : UInt8) : Bool :=
  isspace c || c == 0x3D

theorem foldlM_take_filter (decoder : Decoder) (ascdata : List UInt8) :
    ascdata.foldlM Decoder.take decoder =
      (ascdata.filter fun c => !skipped c).foldlM Decoder.take decoder := by
  induction ascdata generalizing decoder with
  | nil => rfl
  | cons c rest ih =>
      rw [List.foldlM_cons]
      cases here : skipped c with
      | true =>
          have same : decoder.take c = some decoder := if_pos here
          rw [same, List.filter_cons_of_neg (by rw [here]; decide)]
          exact ih decoder
      | false =>
          rw [List.filter_cons_of_pos (by rw [here]; rfl), List.foldlM_cons]
          cases decoder.take c with
          | none => rfl
          | some next => exact ih next

private theorem symbol_of_code : ∀ code : Fin 256,
    reverse_table.getD code.val 64 ≤ 63 → (reverse_table.getD code.val 64).toNat < 64 ∧
      symbol (reverse_table.getD code.val 64).toNat = UInt8.ofNat code.val := by
  decide +kernel

theorem symbol_of_take {decoder next : Decoder} {c : UInt8} (counted : skipped c = false)
    (taken : decoder.take c = some next) : ∃ sextet < 64, symbol sextet = c := by
  have other : ¬(isspace c || c == 0x3D) = true := by
    rw [show (isspace c || c == 0x3D) = false from counted]
    exact Bool.false_ne_true
  unfold Decoder.take at taken
  rw [if_neg other] at taken
  by_cases foreign : c > 127 ∨ reverse_table.getD c.toNat 64 > 63
  · rw [if_pos foreign] at taken
    cases taken
  · obtain ⟨-, legal⟩ := not_or.mp foreign
    obtain ⟨small, same⟩ := symbol_of_code ⟨c.toNat, c.toNat_lt⟩ (UInt8.not_lt.mp legal)
    rw [UInt8.ofNat_toNat] at same
    exact ⟨_, small, same⟩

theorem symbols_of_foldlM {decoder last : Decoder} {counted : List UInt8}
    (plain : ∀ c ∈ counted, skipped c = false)
    (taken : counted.foldlM Decoder.take decoder = some last) :
    ∃ text : List Nat, (∀ sextet ∈ text, sextet < 64) ∧ text.map symbol = counted := by
  induction counted generalizing decoder with
  | nil => exact ⟨[], fun _ member => absurd member List.not_mem_nil, rfl⟩
  | cons c counted ih =>
      rw [List.foldlM_cons] at taken
      obtain ⟨next, here, later⟩ := Option.bind_eq_some_iff.mp taken
      obtain ⟨sextet, small, same⟩ := symbol_of_take (plain c List.mem_cons_self) here
      obtain ⟨text, rest, spelled⟩ :=
        ih (fun other member => plain other (List.mem_cons_of_mem _ member)) later
      refine ⟨sextet :: text, List.forall_mem_cons.mpr ⟨small, rest⟩, ?_⟩
      rw [List.map_cons, same, spelled]

/-- A text is decoded when it is made of symbols, with white space and padding anywhere
between them, and then to the bytes of its sextets; any other text is refused. -/
theorem base64_decode_iff (ascdata bindata : List UInt8) :
    base64_decode ascdata = some bindata ↔
      ∃ text : List Nat, (∀ sextet ∈ text, sextet < 64) ∧
        (ascdata.filter fun c => !skipped c) = text.map symbol ∧ joined text = bindata := by
  have start : ({ retval := [], bits_collected := 0, accumulator := 0 } : Decoder).Holds [] 0 0 :=
    ⟨rfl, rfl, rfl⟩
  unfold base64_decode
  rw [foldlM_take_filter]
  constructor
  · intro decoded
    obtain ⟨last, taken, same⟩ := Option.bind_eq_some_iff.mp decoded
    cases same
    have plain : ∀ c ∈ ascdata.filter (fun c => !skipped c), skipped c = false := by
      intro c member
      exact Bool.not_eq_true' _ |>.mp (List.mem_filter.mp member).2
    obtain ⟨text, small, spelled⟩ := symbols_of_foldlM plain taken
    obtain ⟨other, again, whole⟩ := start.foldlM text small
    rw [spelled, taken] at again
    cases again
    exact ⟨text, small, spelled.symm, whole.symm⟩
  · rintro ⟨text, small, spelled, rfl⟩
    obtain ⟨last, taken, whole⟩ := start.foldlM text small
    rw [spelled, taken]
    exact congrArg some whole

end Averyws.Utilities.Base64
