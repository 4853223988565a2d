/-
UTF-8 as a language of byte strings.

A well-formed string is a concatenation of encoded Unicode scalar values.  The
same language is described a second time through the byte ranges that remain
open after a prefix, which is the form a byte-at-a-time recognizer follows.
-/

import Mathlib.Data.Char
import Mathlib.Data.List.Forall2

namespace Averyws.Library.Utf8

/-- The encodings of a list of Unicode scalar values, one after the other. -/
def WellFormed (bytes : List UInt8) : Prop :=
  ∃ scalars : List Char, bytes = scalars.flatMap String.utf8EncodeChar

structure ByteRange where
  low : UInt8
  high : UInt8
  ordered : low ≤ high
  deriving DecidableEq

def ByteRange.Has (range : ByteRange) (byte : UInt8) : Prop :=
  range.low ≤ byte ∧ byte ≤ range.high

instance (range : ByteRange) (byte : UInt8) : Decidable (range.Has byte) :=
  inferInstanceAs (Decidable (_ ∧ _))

def tail : ByteRange := ⟨0x80, 0xBF, by decide⟩

/-- The ranges of the bytes that must follow a leading byte, or nothing when
no scalar value is encoded with that leading byte. -/
def following (lead : UInt8) : Option (List ByteRange) :=
  if lead ≤ 0x7F then some []
  else if lead ≤ 0xC1 then none
  else if lead ≤ 0xDF then some [tail]
  else if lead = 0xE0 then some [⟨0xA0, 0xBF, by decide⟩, tail]
  else if lead = 0xED then some [⟨0x80, 0x9F, by decide⟩, tail]
  else if lead ≤ 0xEF then some [tail, tail]
  else if lead = 0xF0 then some [⟨0x90, 0xBF, by decide⟩, tail, tail]
  else if lead ≤ 0xF3 then some [tail, tail, tail]
  else if lead = 0xF4 then some [⟨0x80, 0x8F, by decide⟩, tail, tail]
  else none

/-- The bytes finish the character whose open ranges are given and continue
with whole characters. -/
def Completes : List ByteRange → List UInt8 → Prop
  | [], [] => True
  | [], lead :: rest => ∃ ranges, following lead = some ranges ∧ Completes ranges rest
  | _ :: _, [] => False
  | range :: ranges, byte :: rest => range.Has byte ∧ Completes ranges rest

@[simp] theorem completes_nil : Completes [] [] := trivial

theorem completes_append_iff (ranges : List ByteRange) (bytes rest : List UInt8)
    (fits : List.Forall₂ ByteRange.Has ranges bytes) :
    Completes ranges (bytes ++ rest) ↔ Completes [] rest := by
  induction fits with
  | nil => rfl
  | cons has _ ih =>
      simp only [List.cons_append, Completes, has, true_and]
      exact ih

theorem completes_split (ranges : List ByteRange) (bytes : List UInt8)
    (completes : Completes ranges bytes) :
    ∃ first rest, bytes = first ++ rest ∧
      List.Forall₂ ByteRange.Has ranges first ∧ Completes [] rest := by
  induction ranges generalizing bytes with
  | nil => exact ⟨[], bytes, rfl, .nil, completes⟩
  | cons range ranges ih =>
      cases bytes with
      | nil => exact completes.elim
      | cons byte bytes =>
          obtain ⟨has, later⟩ := completes
          obtain ⟨first, rest, rfl, fits, whole⟩ := ih bytes later
          exact ⟨byte :: first, rest, rfl, .cons has fits, whole⟩

theorem completes_exists (ranges : List ByteRange) :
    ∃ bytes, Completes ranges bytes := by
  induction ranges with
  | nil => exact ⟨[], trivial⟩
  | cons range ranges ih =>
      obtain ⟨bytes, completes⟩ := ih
      exact ⟨range.low :: bytes, ⟨UInt8.le_refl _, range.ordered⟩, completes⟩

/-! ### Scalar values and byte ranges -/

private theorem has_iff (range : ByteRange) (byte : UInt8) :
    range.Has byte ↔ range.low.toNat ≤ byte.toNat ∧ byte.toNat ≤ range.high.toNat := by
  simp only [ByteRange.Has, UInt8.le_iff_toNat_le]

private theorem byte_eq_iff (left right : UInt8) : left = right ↔ left.toNat = right.toNat :=
  UInt8.toNat_inj.symm

theorem encode_following (scalar : Char) :
    ∃ lead bytes ranges, String.utf8EncodeChar scalar = lead :: bytes ∧
      following lead = some ranges ∧ List.Forall₂ ByteRange.Has ranges bytes := by
  have valid := scalar.valid
  simp only [UInt32.isValidChar, Nat.isValidChar] at valid
  unfold String.utf8EncodeChar
  simp only
  generalize scalar.val.toNat = value at valid
  have bounds (range : ByteRange) (number : Nat) (small : number < 256)
      (low : range.low.toNat ≤ number) (high : number ≤ range.high.toNat) :
      range.Has (UInt8.ofNat number) := by
    rw [has_iff, UInt8.toNat_ofNat_of_lt' small]
    exact ⟨low, high⟩
  have continuation (number : Nat) : tail.Has (UInt8.ofNat (number % 64 + 0x80)) :=
    bounds _ _ (by omega) (by simp [tail]) (by simp [tail]; omega)
  split
  · refine ⟨_, _, [], rfl, ?_, .nil⟩
    simp only [following, UInt8.le_iff_toNat_le, UInt8.toNat_ofNat', UInt8.reduceToNat]
    rw [if_pos (by omega)]
  split
  · refine ⟨_, _, [tail], rfl, ?_, .cons (continuation _) .nil⟩
    simp only [following, UInt8.le_iff_toNat_le, UInt8.toNat_ofNat', UInt8.reduceToNat]
    rw [if_neg (by omega), if_neg (by omega), if_pos (by omega)]
  split
  · have leadBound : value / 4096 % 16 + 0xe0 < 256 := by omega
    by_cases overlong : value < 0x1000
    · refine ⟨_, _, [⟨0xA0, 0xBF, by decide⟩, tail], rfl, ?_,
        .cons (bounds _ _ ?_ ?_ ?_) (.cons (continuation _) .nil)⟩
      · simp only [following, UInt8.le_iff_toNat_le, byte_eq_iff,
          UInt8.toNat_ofNat_of_lt' leadBound, UInt8.reduceToNat]
        rw [if_neg (by omega), if_neg (by omega), if_neg (by omega), if_pos (by omega)]
      · omega
      · simp only [UInt8.reduceToNat]; omega
      · simp only [UInt8.reduceToNat]; omega
    · by_cases surrogate : value / 4096 = 13
      · refine ⟨_, _, [⟨0x80, 0x9F, by decide⟩, tail], rfl, ?_,
          .cons (bounds _ _ ?_ ?_ ?_) (.cons (continuation _) .nil)⟩
        · simp only [following, UInt8.le_iff_toNat_le, byte_eq_iff,
            UInt8.toNat_ofNat_of_lt' leadBound, UInt8.reduceToNat]
          rw [if_neg (by omega), if_neg (by omega), if_neg (by omega), if_neg (by omega),
            if_pos (by omega)]
        · omega
        · simp only [UInt8.reduceToNat]; omega
        · simp only [UInt8.reduceToNat]; omega
      · refine ⟨_, _, [tail, tail], rfl, ?_,
          .cons (continuation _) (.cons (continuation _) .nil)⟩
        simp only [following, UInt8.le_iff_toNat_le, byte_eq_iff,
          UInt8.toNat_ofNat_of_lt' leadBound, UInt8.reduceToNat]
        rw [if_neg (by omega), if_neg (by omega), if_neg (by omega), if_neg (by omega),
          if_neg (by omega), if_pos (by omega)]
  · have leadBound : value / 262144 % 8 + 0xf0 < 256 := by omega
    by_cases overlong : value < 0x40000
    · refine ⟨_, _, [⟨0x90, 0xBF, by decide⟩, tail, tail], rfl, ?_,
        .cons (bounds _ _ ?_ ?_ ?_) (.cons (continuation _) (.cons (continuation _) .nil))⟩
      · simp only [following, UInt8.le_iff_toNat_le, byte_eq_iff,
          UInt8.toNat_ofNat_of_lt' leadBound, UInt8.reduceToNat]
        rw [if_neg (by omega), if_neg (by omega), if_neg (by omega), if_neg (by omega),
          if_neg (by omega), if_neg (by omega), if_pos (by omega)]
      · omega
      · simp only [UInt8.reduceToNat]; omega
      · simp only [UInt8.reduceToNat]; omega
    · by_cases last : value / 262144 = 4
      · refine ⟨_, _, [⟨0x80, 0x8F, by decide⟩, tail, tail], rfl, ?_,
          .cons (bounds _ _ ?_ ?_ ?_) (.cons (continuation _) (.cons (continuation _) .nil))⟩
        · simp only [following, UInt8.le_iff_toNat_le, byte_eq_iff,
            UInt8.toNat_ofNat_of_lt' leadBound, UInt8.reduceToNat]
          rw [if_neg (by omega), if_neg (by omega), if_neg (by omega), if_neg (by omega),
            if_neg (by omega), if_neg (by omega), if_neg (by omega), if_neg (by omega),
            if_pos (by omega)]
        · omega
        · simp only [UInt8.reduceToNat]; omega
        · simp only [UInt8.reduceToNat]; omega
      · refine ⟨_, _, [tail, tail, tail], rfl, ?_,
          .cons (continuation _) (.cons (continuation _) (.cons (continuation _) .nil))⟩
        simp only [following, UInt8.le_iff_toNat_le, byte_eq_iff,
          UInt8.toNat_ofNat_of_lt' leadBound, UInt8.reduceToNat]
        rw [if_neg (by omega), if_neg (by omega), if_neg (by omega), if_neg (by omega),
          if_neg (by omega), if_neg (by omega), if_neg (by omega), if_pos (by omega)]

private theorem char_exists (value : Nat) (valid : Nat.isValidChar value) :
    ∃ scalar : Char, scalar.val.toNat = value := by
  have small : value < 2 ^ 32 := by
    simp only [Nat.isValidChar] at valid
    omega
  have number : (UInt32.ofNat value).toNat = value := UInt32.toNat_ofNat_of_lt' small
  refine ⟨⟨UInt32.ofNat value, ?_⟩, number⟩
  rw [UInt32.isValidChar, number]
  exact valid

private theorem encode_one (first : UInt8) (upper : first.toNat ≤ 0x7F) :
    ∃ scalar, String.utf8EncodeChar scalar = [first] := by
  obtain ⟨scalar, same⟩ := char_exists first.toNat (Or.inl (by omega))
  refine ⟨scalar, ?_⟩
  unfold String.utf8EncodeChar
  simp only [same, if_pos upper, UInt8.ofNat_toNat]

private theorem encode_two (first second : UInt8)
    (lower : 0xC2 ≤ first.toNat) (upper : first.toNat ≤ 0xDF) (secondTail : tail.Has second) :
    ∃ scalar, String.utf8EncodeChar scalar = [first, second] := by
  simp only [has_iff, tail, UInt8.reduceToNat] at secondTail
  obtain ⟨scalar, same⟩ := char_exists
    ((first.toNat - 0xC0) * 64 + (second.toNat - 0x80)) (Or.inl (by omega))
  refine ⟨scalar, ?_⟩
  unfold String.utf8EncodeChar
  simp only [same]
  rw [if_neg (by omega), if_pos (by omega)]
  simp only [List.cons.injEq, byte_eq_iff, UInt8.toNat_ofNat', and_true]
  constructor <;> omega

private theorem encode_three (first second third : UInt8)
    (lower : 0xE0 ≤ first.toNat) (upper : first.toNat ≤ 0xEF)
    (secondTail : tail.Has second) (thirdTail : tail.Has third)
    (long : first.toNat = 0xE0 → 0xA0 ≤ second.toNat)
    (scalar : first.toNat = 0xED → second.toNat ≤ 0x9F) :
    ∃ scalar, String.utf8EncodeChar scalar = [first, second, third] := by
  simp only [has_iff, tail, UInt8.reduceToNat] at secondTail thirdTail
  obtain ⟨scalar, same⟩ := char_exists
    ((first.toNat - 0xE0) * 4096 + (second.toNat - 0x80) * 64 + (third.toNat - 0x80))
    (by simp only [Nat.isValidChar]; omega)
  refine ⟨scalar, ?_⟩
  unfold String.utf8EncodeChar
  simp only [same]
  rw [if_neg (by omega), if_neg (by omega), if_pos (by omega)]
  simp only [List.cons.injEq, byte_eq_iff, UInt8.toNat_ofNat', and_true]
  refine ⟨?_, ?_, ?_⟩ <;> omega

private theorem encode_four (first second third fourth : UInt8)
    (lower : 0xF0 ≤ first.toNat) (upper : first.toNat ≤ 0xF4)
    (secondTail : tail.Has second) (thirdTail : tail.Has third) (fourthTail : tail.Has fourth)
    (long : first.toNat = 0xF0 → 0x90 ≤ second.toNat)
    (small : first.toNat = 0xF4 → second.toNat ≤ 0x8F) :
    ∃ scalar, String.utf8EncodeChar scalar = [first, second, third, fourth] := by
  simp only [has_iff, tail, UInt8.reduceToNat] at secondTail thirdTail fourthTail
  obtain ⟨scalar, same⟩ := char_exists
    ((first.toNat - 0xF0) * 262144 + (second.toNat - 0x80) * 4096 +
      (third.toNat - 0x80) * 64 + (fourth.toNat - 0x80))
    (by simp only [Nat.isValidChar]; omega)
  refine ⟨scalar, ?_⟩
  unfold String.utf8EncodeChar
  simp only [same]
  rw [if_neg (by omega), if_neg (by omega), if_neg (by omega)]
  simp only [List.cons.injEq, byte_eq_iff, UInt8.toNat_ofNat', and_true]
  refine ⟨?_, ?_, ?_, ?_⟩ <;> omega

theorem following_encode (lead : UInt8) (bytes : List UInt8) (ranges : List ByteRange)
    (announced : following lead = some ranges)
    (fits : List.Forall₂ ByteRange.Has ranges bytes) :
    ∃ scalar, String.utf8EncodeChar scalar = lead :: bytes := by
  simp only [following, UInt8.le_iff_toNat_le, byte_eq_iff, UInt8.reduceToNat] at announced
  have widen (low high byte : UInt8) (ordered : low ≤ high)
      (has : ByteRange.Has ⟨low, high, ordered⟩ byte)
      (inside : 0x80 ≤ low.toNat ∧ high.toNat ≤ 0xBF) : tail.Has byte := by
    simp only [has_iff, tail, UInt8.reduceToNat] at has ⊢
    omega
  split_ifs at announced <;>
    cases announced <;>
    simp only [List.forall₂_cons_left_iff, List.forall₂_nil_left_iff] at fits
  · subst bytes
    exact encode_one lead (by omega)
  · obtain ⟨second, _, has, rfl, rfl⟩ := fits
    exact encode_two lead second (by omega) (by omega) has
  · obtain ⟨second, _, has, ⟨third, _, thirdTail, rfl, rfl⟩, rfl⟩ := fits
    have bound := (has_iff _ _).mp has
    simp only [UInt8.reduceToNat] at bound
    exact encode_three lead second third (by omega) (by omega)
      (widen _ _ _ _ has (by decide)) thirdTail (by omega) (by omega)
  · obtain ⟨second, _, has, ⟨third, _, thirdTail, rfl, rfl⟩, rfl⟩ := fits
    have bound := (has_iff _ _).mp has
    simp only [UInt8.reduceToNat] at bound
    exact encode_three lead second third (by omega) (by omega)
      (widen _ _ _ _ has (by decide)) thirdTail (by omega) (by omega)
  · obtain ⟨second, _, has, ⟨third, _, thirdTail, rfl, rfl⟩, rfl⟩ := fits
    exact encode_three lead second third (by omega) (by omega) has thirdTail
      (by omega) (by omega)
  · obtain ⟨second, _, has, ⟨third, _, thirdTail, ⟨fourth, _, fourthTail, rfl, rfl⟩, rfl⟩, rfl⟩ :=
      fits
    have bound := (has_iff _ _).mp has
    simp only [UInt8.reduceToNat] at bound
    exact encode_four lead second third fourth (by omega) (by omega)
      (widen _ _ _ _ has (by decide)) thirdTail fourthTail (by omega) (by omega)
  · obtain ⟨second, _, has, ⟨third, _, thirdTail, ⟨fourth, _, fourthTail, rfl, rfl⟩, rfl⟩, rfl⟩ :=
      fits
    exact encode_four lead second third fourth (by omega) (by omega) has thirdTail fourthTail
      (by omega) (by omega)
  · obtain ⟨second, _, has, ⟨third, _, thirdTail, ⟨fourth, _, fourthTail, rfl, rfl⟩, rfl⟩, rfl⟩ :=
      fits
    have bound := (has_iff _ _).mp has
    simp only [UInt8.reduceToNat] at bound
    exact encode_four lead second third fourth (by omega) (by omega)
      (widen _ _ _ _ has (by decide)) thirdTail fourthTail (by omega) (by omega)

private theorem completes_of_scalars (scalars : List Char) :
    Completes [] (scalars.flatMap String.utf8EncodeChar) := by
  induction scalars with
  | nil => exact completes_nil
  | cons scalar scalars ih =>
      obtain ⟨lead, bytes, ranges, encoded, announced, fits⟩ := encode_following scalar
      rw [List.flatMap_cons, encoded, List.cons_append]
      refine ⟨ranges, announced, ?_⟩
      exact (completes_append_iff ranges bytes _ fits).mpr ih

private theorem scalars_of_completes (size : Nat) (bytes : List UInt8)
    (bounded : bytes.length ≤ size) (completes : Completes [] bytes) :
    WellFormed bytes := by
  induction size generalizing bytes with
  | zero =>
      have empty : bytes = [] := List.eq_nil_of_length_eq_zero (Nat.eq_zero_of_le_zero bounded)
      exact ⟨[], empty⟩
  | succ size ih =>
      cases bytes with
      | nil => exact ⟨[], rfl⟩
      | cons lead later =>
          obtain ⟨ranges, announced, open_⟩ := completes
          obtain ⟨first, rest, rfl, fits, whole⟩ := completes_split ranges later open_
          obtain ⟨scalar, encoded⟩ := following_encode lead first ranges announced fits
          have shorter : rest.length ≤ size := by
            simp only [List.length_cons, List.length_append] at bounded
            omega
          obtain ⟨scalars, rfl⟩ := ih rest shorter whole
          exact ⟨scalar :: scalars, by simp only [List.flatMap_cons, encoded, List.cons_append]⟩

theorem wellFormed_iff_completes (bytes : List UInt8) :
    WellFormed bytes ↔ Completes [] bytes := by
  constructor
  · rintro ⟨scalars, rfl⟩
    exact completes_of_scalars scalars
  · exact scalars_of_completes bytes.length bytes (Nat.le_refl _)

end Averyws.Library.Utf8
