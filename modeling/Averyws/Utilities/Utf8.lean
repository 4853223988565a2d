/-
The incremental UTF-8 validator of `lib/utilities_utf8.cpp`.

The first half is the class `Byte` as the source computes it.  The second half
reads its three fields as the byte ranges a well-formed string may still
continue with, and identifies the accepted byte sequences.
-/

import Mathlib.Data.FinEnum
import Mathlib.Data.Fintype.Basic
import Averyws.Library.Utf8

namespace Averyws.Utilities.Utf8

open Library.Utf8

/-- The fields of `Byte`.  `it_` is negative exactly after a rejection. -/
structure Byte where
  length_ : UInt8
  it_ : Int8
  previous_byte_ : UInt8
  deriving DecidableEq

/-- The default constructor.  The source leaves `previous_byte_` unset; no
comparison reads it before `set_length` has written it. -/
def Byte.init : Byte :=
  { length_ := 0, it_ := 0, previous_byte_ := 0 }

def Byte.valid (self : Byte) : Bool :=
  decide (self.it_ ≥ 0)

def Byte.complete (self : Byte) : Bool :=
  self.it_ == 0

def Byte.set_length (self : Byte) (byte : UInt8) : Bool × Byte :=
  if byte &&& 0x80 = 0x00 then
    (true, { self with length_ := 1, it_ := 0 })
  else if byte &&& 0xE0 = 0xC0 then
    if byte = 0xC1 ∨ byte = 0xC0 then
      (false, { self with it_ := -1 })
    else
      (true, { self with length_ := 2, it_ := 1 })
  else if byte &&& 0xF0 = 0xE0 then
    (true, { length_ := 3, it_ := 2, previous_byte_ := byte })
  else if byte &&& 0xF8 = 0xF0 then
    if byte > 0xF4 then
      (false, { self with it_ := -1 })
    else
      (true, { length_ := 4, it_ := 3, previous_byte_ := byte })
  else if byte &&& 0xC0 = 0x80 then
    (false, { self with it_ := -1 })
  else
    (false, { self with it_ := -1 })

def Byte.validate (self : Byte) (byte : UInt8) : Bool × Byte :=
  if self.it_ = 0 then
    self.set_length byte
  else if byte &&& 0xC0 ≠ 0x80 then
    (false, { self with it_ := -1 })
  else if self.length_ = 4 ∧ self.it_ = 3 ∧ self.previous_byte_ = 0xF0 ∧ byte ≤ 0x8F then
    (false, { self with it_ := -1 })
  else if self.length_ = 3 ∧ self.it_ = 2 ∧ self.previous_byte_ = 0xE0 ∧ byte ≤ 0x9F then
    (false, { self with it_ := -1 })
  else if self.length_ = 4 ∧ self.it_ = 3 ∧ self.previous_byte_ = 0xF4 ∧ byte ≥ 0x90 then
    (false, { self with it_ := -1 })
  else if self.length_ = 3 ∧ self.it_ = 2 ∧ self.previous_byte_ = 0xED ∧ byte ≥ 0xA0 then
    (false, { self with it_ := -1 })
  else
    (true, { self with it_ := self.it_ - 1 })

/-- Bytes fed one at a time until one is rejected, as every caller feeds them. -/
def Byte.feed (self : Byte) : List UInt8 → Byte
  | [] => self
  | byte :: rest =>
      match self.validate byte with
      | (true, next) => next.feed rest
      | (false, next) => next

def Byte.accepts (self : Byte) : List UInt8 → Bool
  | [] => true
  | byte :: rest =>
      match self.validate byte with
      | (true, next) => next.accepts rest
      | (false, _) => false

/-! ### The fields as open byte ranges -/

private theorem ordered_E0 : (0xA0 : UInt8) ≤ 0xBF := by decide

private theorem ordered_ED : (0x80 : UInt8) ≤ 0x9F := by decide

private theorem ordered_F0 : (0x90 : UInt8) ≤ 0xBF := by decide

private theorem ordered_F4 : (0x80 : UInt8) ≤ 0x8F := by decide

/-- The range of the byte read while `it_` counts `count` remaining bytes. -/
def openRange (length previous : UInt8) (count : Nat) : ByteRange :=
  if length = 4 ∧ count = 3 ∧ previous = 0xF0 then ⟨0x90, 0xBF, ordered_F0⟩
  else if length = 3 ∧ count = 2 ∧ previous = 0xE0 then ⟨0xA0, 0xBF, ordered_E0⟩
  else if length = 4 ∧ count = 3 ∧ previous = 0xF4 then ⟨0x80, 0x8F, ordered_F4⟩
  else if length = 3 ∧ count = 2 ∧ previous = 0xED then ⟨0x80, 0x9F, ordered_ED⟩
  else tail

def openRanges (length previous : UInt8) : Nat → List ByteRange
  | 0 => []
  | count + 1 => openRange length previous (count + 1) :: openRanges length previous count

def Byte.remaining (self : Byte) : Nat :=
  self.it_.toInt.toNat

def Byte.pending (self : Byte) : List ByteRange :=
  openRanges self.length_ self.previous_byte_ self.remaining

private theorem int8_eq_iff (it value : Int8) (nonneg : it ≥ 0) (positive : value ≥ 0) :
    it = value ↔ it.toInt.toNat = value.toInt.toNat := by
  rw [ge_iff_le, Int8.le_iff_toInt_le, Int8.toInt_zero] at nonneg positive
  rw [← Int8.toInt_inj]
  omega

private theorem int8_decrement (it : Int8) (nonneg : it ≥ 0) (started : it ≠ 0) :
    it - 1 ≥ 0 ∧ (it - 1).toInt.toNat + 1 = it.toInt.toNat := by
  rw [ne_eq, ← Int8.toInt_inj, Int8.toInt_zero] at started
  rw [ge_iff_le, Int8.le_iff_toInt_le, Int8.toInt_zero] at *
  have bound := it.toInt_lt
  have less : (it - 1).toInt = it.toInt - 1 := by
    rw [Int8.toInt_sub, Int8.toInt_one]
    apply Int.bmod_eq_of_le <;> omega
  rw [less]
  omega

theorem Byte.valid_iff (self : Byte) : self.valid = true ↔ self.it_ ≥ 0 := by
  simp only [valid, decide_eq_true_eq]

theorem Byte.complete_iff (self : Byte) : self.complete = true ↔ self.it_ = 0 := by
  simp only [complete, beq_iff_eq]

theorem Byte.valid_of_complete (self : Byte) (complete : self.complete = true) :
    self.valid = true := by
  rw [valid_iff, (complete_iff self).mp complete]
  decide

theorem Byte.valid_of_rejected (self : Byte) (rejected : self.it_ = -1) :
    self.valid = false := by
  unfold valid
  rw [rejected]
  decide

theorem Byte.pending_eq_nil_iff (self : Byte) (valid : self.valid = true) :
    self.pending = [] ↔ self.complete = true := by
  rw [complete_iff, int8_eq_iff _ 0 ((valid_iff self).mp valid) (by decide)]
  unfold pending remaining
  change _ ↔ self.it_.toInt.toNat = 0
  cases self.it_.toInt.toNat with
  | zero => simp only [openRanges]
  | succ count => simp only [openRanges, reduceCtorEq, Nat.add_one_ne_zero]

private theorem mask_iff : ∀ byte : UInt8,
    (byte &&& 0x80 = 0x00 ↔ byte ≤ 0x7F) ∧
    (byte &&& 0xE0 = 0xC0 ↔ 0xC0 ≤ byte ∧ byte ≤ 0xDF) ∧
    (byte &&& 0xF0 = 0xE0 ↔ 0xE0 ≤ byte ∧ byte ≤ 0xEF) ∧
    (byte &&& 0xF8 = 0xF0 ↔ 0xF0 ≤ byte ∧ byte ≤ 0xF7) ∧
    (byte &&& 0xC0 = 0x80 ↔ tail.Has byte) := by
  decide +kernel

private theorem mask_tail_iff (byte : UInt8) : byte &&& 0xC0 = 0x80 ↔ tail.Has byte :=
  (mask_iff byte).2.2.2.2

private theorem following_two (byte : UInt8) (low : 0xC2 ≤ byte) (high : byte ≤ 0xDF) :
    following byte = some [tail] := by
  unfold following
  rw [if_neg (by grind), if_neg (by grind), if_pos high]

private theorem following_three (byte : UInt8) (low : 0xE0 ≤ byte) (high : byte ≤ 0xEF) :
    following byte = some [openRange 3 byte 2, tail] := by
  unfold following
  rw [if_neg (by grind), if_neg (by grind), if_neg (by grind)]
  by_cases first : byte = 0xE0
  · subst first
    rfl
  by_cases surrogate : byte = 0xED
  · subst surrogate
    rfl
  · rw [if_neg first, if_neg surrogate, if_pos high]
    simp [openRange, first, surrogate]

private theorem following_four (byte : UInt8) (low : 0xF0 ≤ byte) (high : byte ≤ 0xF4) :
    following byte = some [openRange 4 byte 3, tail, tail] := by
  unfold following
  rw [if_neg (by grind), if_neg (by grind), if_neg (by grind), if_neg (by grind),
    if_neg (by grind), if_neg (by grind)]
  by_cases first : byte = 0xF0
  · subst first
    rfl
  by_cases last : byte = 0xF4
  · subst last
    rfl
  · rw [if_neg first, if_pos (by grind)]
    simp [openRange, first, last]

private theorem following_none (byte : UInt8)
    (outside : 0x80 ≤ byte ∧ byte ≤ 0xC1 ∨ 0xF5 ≤ byte) : following byte = none := by
  unfold following
  rw [if_neg (by grind)]
  rcases outside with ⟨-, stray⟩ | beyond
  · rw [if_pos stray]
  · rw [if_neg (by grind), if_neg (by grind), if_neg (by grind), if_neg (by grind),
      if_neg (by grind), if_neg (by grind), if_neg (by grind), if_neg (by grind)]

private theorem openRanges_two (previous : UInt8) : openRanges 2 previous 1 = [tail] := by
  simp [openRanges, openRange]

private theorem openRanges_three (previous : UInt8) :
    openRanges 3 previous 2 = [openRange 3 previous 2, tail] := by
  simp [openRanges, openRange]

private theorem openRanges_four (previous : UInt8) :
    openRanges 4 previous 3 = [openRange 4 previous 3, tail, tail] := by
  simp [openRanges, openRange]

theorem Byte.set_length_spec (self : Byte) (byte : UInt8) :
    match following byte with
    | some ranges => (self.set_length byte).1 = true ∧
        (self.set_length byte).2.valid = true ∧ (self.set_length byte).2.pending = ranges
    | none => (self.set_length byte).1 = false ∧ (self.set_length byte).2.it_ = -1 := by
  obtain ⟨mask_ascii, mask_two, mask_three, mask_four, -⟩ := mask_iff byte
  unfold Byte.set_length
  simp only [mask_ascii, mask_two, mask_three, mask_four]
  split_ifs with ascii two overlong three four large
  · unfold following
    rw [if_pos ascii]
    exact ⟨rfl, rfl, rfl⟩
  · rw [following_none byte (by grind)]
    exact ⟨rfl, rfl⟩
  · rw [following_two byte (by grind) two.2]
    exact ⟨rfl, rfl, openRanges_two _⟩
  · rw [following_three byte three.1 three.2]
    exact ⟨rfl, rfl, openRanges_three _⟩
  · rw [following_none byte (by grind)]
    exact ⟨rfl, rfl⟩
  · rw [following_four byte four.1 (by grind)]
    exact ⟨rfl, rfl, openRanges_four _⟩
  -- the two last branches of the source reject alike
  · rw [following_none byte (by grind)]
    exact ⟨rfl, rfl⟩
  · rw [following_none byte (by grind)]
    exact ⟨rfl, rfl⟩

theorem Byte.pending_decrement (self : Byte) (valid : self.valid = true)
    (started : self.it_ ≠ 0) :
    self.pending = openRange self.length_ self.previous_byte_ self.remaining ::
      Byte.pending { self with it_ := self.it_ - 1 } := by
  have count := (int8_decrement self.it_ ((valid_iff self).mp valid) started).2
  unfold pending remaining
  rw [← count]
  rfl

private theorem tail_of_openRange (length previous byte : UInt8) (count : Nat)
    (has : (openRange length previous count).Has byte) : tail.Has byte := by
  unfold openRange at has
  unfold tail ByteRange.Has at *
  split_ifs at has <;> grind

/-- The four comparisons of `validate` on a continuation byte are the bounds of
the range that is open. -/
theorem Byte.has_openRange_iff (self : Byte) (valid : self.valid = true) (byte : UInt8)
    (continuation : tail.Has byte) :
    (openRange self.length_ self.previous_byte_ self.remaining).Has byte ↔
      ¬(self.length_ = 4 ∧ self.it_ = 3 ∧ self.previous_byte_ = 0xF0 ∧ byte ≤ 0x8F) ∧
      ¬(self.length_ = 3 ∧ self.it_ = 2 ∧ self.previous_byte_ = 0xE0 ∧ byte ≤ 0x9F) ∧
      ¬(self.length_ = 4 ∧ self.it_ = 3 ∧ self.previous_byte_ = 0xF4 ∧ byte ≥ 0x90) ∧
      ¬(self.length_ = 3 ∧ self.it_ = 2 ∧ self.previous_byte_ = 0xED ∧ byte ≥ 0xA0) := by
  rw [int8_eq_iff _ 2 ((valid_iff self).mp valid) (by decide),
    int8_eq_iff _ 3 ((valid_iff self).mp valid) (by decide)]
  change _ ↔ ¬(_ ∧ self.remaining = 3 ∧ _) ∧ ¬(_ ∧ self.remaining = 2 ∧ _) ∧
    ¬(_ ∧ self.remaining = 3 ∧ _) ∧ ¬(_ ∧ self.remaining = 2 ∧ _)
  unfold openRange
  unfold tail ByteRange.Has at *
  split_ifs <;> grind

theorem Byte.validate_continuation (self : Byte) (valid : self.valid = true)
    (started : self.it_ ≠ 0) (byte : UInt8) :
    self.validate byte =
      if (openRange self.length_ self.previous_byte_ self.remaining).Has byte then
        (true, { self with it_ := self.it_ - 1 })
      else
        (false, { self with it_ := -1 }) := by
  unfold validate
  rw [if_neg started]
  by_cases continuation : tail.Has byte
  · have bounds := has_openRange_iff self valid byte continuation
    rw [if_neg (not_not.mpr ((mask_tail_iff byte).mpr continuation))]
    by_cases has : (openRange self.length_ self.previous_byte_ self.remaining).Has byte
    · obtain ⟨first, second, third, fourth⟩ := bounds.mp has
      rw [if_neg first, if_neg second, if_neg third, if_neg fourth, if_pos has]
    · rw [if_neg has]
      split_ifs with first second third fourth
      iterate 4 rfl
      exact (has (bounds.mpr ⟨first, second, third, fourth⟩)).elim
  · rw [if_pos (fun same => continuation ((mask_tail_iff byte).mp same)),
      if_neg (fun has => continuation (tail_of_openRange _ _ byte _ has))]

/-- One call either moves along the language of continuations or leaves it
without a way back. -/
theorem Byte.validate_spec (self : Byte) (valid : self.valid = true) (byte : UInt8)
    (rest : List UInt8) :
    match self.validate byte with
    | (true, next) => next.valid = true ∧
        (Completes self.pending (byte :: rest) ↔ Completes next.pending rest)
    | (false, next) => next.it_ = -1 ∧ ¬Completes self.pending (byte :: rest) := by
  by_cases started : self.it_ = 0
  · have whole : self.pending = [] :=
      (pending_eq_nil_iff self valid).mpr ((complete_iff self).mpr started)
    have step : self.validate byte = self.set_length byte := by
      unfold validate
      rw [if_pos started]
    have spec := set_length_spec self byte
    rw [step, whole]
    cases announced : following byte with
    | none =>
        rw [announced] at spec
        rcases result : self.set_length byte with ⟨accepted, next⟩
        rw [result] at spec
        obtain ⟨rfl, rejected⟩ := spec
        refine ⟨rejected, ?_⟩
        rintro ⟨ranges, impossible, -⟩
        rw [announced] at impossible
        cases impossible
    | some ranges =>
        rw [announced] at spec
        rcases result : self.set_length byte with ⟨accepted, next⟩
        rw [result] at spec
        obtain ⟨rfl, nextValid, nextPending⟩ := spec
        refine ⟨nextValid, ?_⟩
        simp only [Completes, announced, Option.some.injEq, exists_eq_left', nextPending]
  · rw [validate_continuation self valid started, pending_decrement self valid started]
    have count := int8_decrement self.it_ ((valid_iff self).mp valid) started
    by_cases has : (openRange self.length_ self.previous_byte_ self.remaining).Has byte
    · rw [if_pos has]
      exact ⟨(valid_iff _).mpr count.1, by simp only [Completes, has, true_and]⟩
    · rw [if_neg has]
      exact ⟨rfl, fun completes => has completes.1⟩

@[simp] theorem Byte.feed_nil (self : Byte) : self.feed [] = self := rfl

theorem Byte.feed_accepted (self next : Byte) (byte : UInt8) (rest : List UInt8)
    (accepted : self.validate byte = (true, next)) :
    self.feed (byte :: rest) = next.feed rest := by
  simp only [feed, accepted]

theorem Byte.feed_rejected (self next : Byte) (byte : UInt8) (rest : List UInt8)
    (rejected : self.validate byte = (false, next)) :
    self.feed (byte :: rest) = next := by
  simp only [feed, rejected]

theorem Byte.feed_step (self : Byte) (valid : self.valid = true) (byte : UInt8) :
    (∃ next, self.validate byte = (true, next) ∧ next.valid = true ∧
        (∀ rest, self.feed (byte :: rest) = next.feed rest) ∧
        ∀ rest, Completes self.pending (byte :: rest) ↔ Completes next.pending rest) ∨
      (∃ next, self.validate byte = (false, next) ∧ next.valid = false ∧
        (∀ rest, self.feed (byte :: rest) = next) ∧
        ∀ rest, ¬Completes self.pending (byte :: rest)) := by
  have spec := validate_spec self valid byte
  rcases result : self.validate byte with ⟨_ | _, next⟩
  · right
    rw [result] at spec
    exact ⟨next, rfl, valid_of_rejected next (spec []).1,
      fun rest => feed_rejected self next byte rest result, fun rest => (spec rest).2⟩
  · left
    rw [result] at spec
    exact ⟨next, rfl, (spec []).1, fun rest => feed_accepted self next byte rest result,
      fun rest => (spec rest).2⟩

theorem Byte.feed_completes_iff (self : Byte) (valid : self.valid = true)
    (bytes rest : List UInt8) (accepted : (self.feed bytes).valid = true) :
    Completes self.pending (bytes ++ rest) ↔ Completes (self.feed bytes).pending rest := by
  induction bytes generalizing self with
  | nil => rfl
  | cons byte bytes ih =>
      rcases feed_step self valid byte with ⟨next, -, good, onward, along⟩ | ⟨next, -, bad, ends, -⟩
      · rw [onward] at accepted ⊢
        exact (along _).trans (ih next good accepted)
      · rw [ends, bad] at accepted
        cases accepted

theorem Byte.feed_not_completes (self : Byte) (valid : self.valid = true)
    (bytes rest : List UInt8) (rejected : (self.feed bytes).valid = false) :
    ¬Completes self.pending (bytes ++ rest) := by
  induction bytes generalizing self with
  | nil =>
      rw [feed_nil, valid] at rejected
      cases rejected
  | cons byte bytes ih =>
      rcases feed_step self valid byte with ⟨next, -, good, onward, along⟩ | ⟨next, -, -, -, never⟩
      · rw [onward] at rejected
        exact fun completes => ih next good rejected ((along _).mp completes)
      · exact never _

theorem Byte.accepts_eq_valid (self : Byte) (valid : self.valid = true) (bytes : List UInt8) :
    self.accepts bytes = (self.feed bytes).valid := by
  induction bytes generalizing self with
  | nil => exact valid.symm
  | cons byte bytes ih =>
      rcases feed_step self valid byte with
        ⟨next, result, good, onward, -⟩ | ⟨next, result, bad, ends, -⟩
      · rw [onward, ← ih next good]
        simp only [accepts, result]
      · rw [ends, bad]
        simp only [accepts, result]

theorem Byte.feed_append (self : Byte) (valid : self.valid = true)
    (first second : List UInt8) (accepted : (self.feed first).valid = true) :
    self.feed (first ++ second) = (self.feed first).feed second := by
  induction first generalizing self with
  | nil => rfl
  | cons byte bytes ih =>
      rcases feed_step self valid byte with ⟨next, -, good, onward, -⟩ | ⟨next, -, bad, ends, -⟩
      · rw [onward] at accepted ⊢
        rw [List.cons_append, onward]
        exact ih next good accepted
      · rw [ends, bad] at accepted
        cases accepted

theorem Byte.feed_append_rejected (self : Byte) (valid : self.valid = true)
    (first second : List UInt8) (rejected : (self.feed first).valid = false) :
    self.feed (first ++ second) = self.feed first := by
  induction first generalizing self with
  | nil =>
      rw [feed_nil, valid] at rejected
      cases rejected
  | cons byte bytes ih =>
      rcases feed_step self valid byte with ⟨next, -, good, onward, -⟩ | ⟨next, -, -, ends, -⟩
      · rw [onward] at rejected ⊢
        rw [List.cons_append, onward]
        exact ih next good rejected
      · rw [List.cons_append, ends, ends]

theorem Byte.pending_of_complete (self : Byte) (between : self.complete = true) :
    self.pending = [] :=
  (pending_eq_nil_iff self (valid_of_complete self between)).mpr between

theorem Byte.feed_complete_iff (self : Byte) (between : self.complete = true)
    (bytes : List UInt8) : (self.feed bytes).complete = true ↔ WellFormed bytes := by
  have start := valid_of_complete self between
  rw [wellFormed_iff_completes, ← pending_of_complete self between]
  cases accepted : (self.feed bytes).valid with
  | false =>
      have dead := feed_not_completes self start bytes [] accepted
      rw [List.append_nil] at dead
      constructor
      · intro complete
        rw [valid_of_complete _ complete] at accepted
        cases accepted
      · exact fun completes => (dead completes).elim
  | true =>
      have moved := feed_completes_iff self start bytes [] accepted
      rw [List.append_nil] at moved
      rw [moved, ← pending_eq_nil_iff _ accepted]
      cases (self.feed bytes).pending with
      | nil => simp only [completes_nil]
      | cons range ranges => simp only [Completes, reduceCtorEq]

theorem Byte.feed_valid_iff (self : Byte) (between : self.complete = true)
    (bytes : List UInt8) :
    (self.feed bytes).valid = true ↔ ∃ rest, WellFormed (bytes ++ rest) := by
  have start := valid_of_complete self between
  constructor
  · intro accepted
    obtain ⟨rest, completes⟩ := completes_exists (self.feed bytes).pending
    refine ⟨rest, (wellFormed_iff_completes _).mpr ?_⟩
    rw [← pending_of_complete self between]
    exact (feed_completes_iff self start bytes rest accepted).mpr completes
  · rintro ⟨rest, whole⟩
    have completes := (wellFormed_iff_completes _).mp whole
    rw [← pending_of_complete self between] at completes
    cases accepted : (self.feed bytes).valid with
    | true => rfl
    | false => exact (feed_not_completes self start bytes rest accepted completes).elim

theorem Byte.feed_init_complete_iff (bytes : List UInt8) :
    (Byte.init.feed bytes).complete = true ↔ WellFormed bytes :=
  Byte.feed_complete_iff Byte.init rfl bytes

instance (bytes : List UInt8) : Decidable (WellFormed bytes) :=
  decidable_of_iff _ (Byte.feed_init_complete_iff bytes)

theorem Byte.feed_init_valid_iff (bytes : List UInt8) :
    (Byte.init.feed bytes).valid = true ↔ ∃ rest, WellFormed (bytes ++ rest) :=
  Byte.feed_valid_iff Byte.init rfl bytes

/-- A fresh validator, whatever its unset `previous_byte_` holds, recognizes
UTF-8: it accepts exactly the prefixes of well-formed strings and is complete
after exactly the well-formed strings. -/
theorem validator_recognizes (previous_byte : UInt8) (bytes : List UInt8) :
    let fresh : Byte := { Byte.init with previous_byte_ := previous_byte }
    (fresh.accepts bytes = true ↔ ∃ rest, WellFormed (bytes ++ rest)) ∧
      ((fresh.feed bytes).complete = true ↔ WellFormed bytes) := by
  intro fresh
  have between : fresh.complete = true := rfl
  constructor
  · rw [Byte.accepts_eq_valid fresh rfl]
    exact Byte.feed_valid_iff fresh between bytes
  · exact Byte.feed_complete_iff fresh between bytes

/-! ### After a rejection -/

/-- Bytes fed one at a time whatever the calls return. -/
def Byte.validates (self : Byte) : List UInt8 → Byte
  | [] => self
  | byte :: rest => (self.validate byte).2.validates rest

theorem Byte.validate_rejected (self : Byte) (byte : UInt8)
    (rejected : (self.validate byte).1 = false) : (self.validate byte).2.it_ = -1 := by
  unfold validate set_length at *
  split_ifs at * <;> rfl

/-- A negative counter answers every continuation byte by counting on. -/
theorem Byte.validate_counts (self : Byte) (negative : self.it_.toInt < 0) (byte : UInt8)
    (continuation : tail.Has byte) :
    self.validate byte = (true, { self with it_ := self.it_ - 1 }) := by
  have started : self.it_ ≠ 0 := by
    intro zero
    rw [zero] at negative
    exact absurd negative (by decide)
  have three : self.it_ ≠ 3 := by
    intro three
    rw [three] at negative
    exact absurd negative (by decide)
  have two : self.it_ ≠ 2 := by
    intro two
    rw [two] at negative
    exact absurd negative (by decide)
  unfold validate
  rw [if_neg started, if_neg (not_not.mpr ((mask_tail_iff byte).mpr continuation))]
  simp only [three, two, false_and, and_false, if_false]

theorem Byte.validate_restarts (self : Byte) (negative : self.it_.toInt < 0) (byte : UInt8)
    (other : ¬tail.Has byte) : (self.validate byte).2.it_ = -1 := by
  have started : self.it_ ≠ 0 := by
    intro zero
    rw [zero] at negative
    exact absurd negative (by decide)
  unfold validate
  rw [if_neg started, if_pos (fun same => other ((mask_tail_iff byte).mp same))]

theorem Byte.valid_iff_toInt (self : Byte) : self.valid = true ↔ 0 ≤ self.it_.toInt := by
  rw [valid_iff, ge_iff_le, Int8.le_iff_toInt_le, Int8.toInt_zero]

/-- What a rejection should mean for the bytes fed after it. -/
def Byte.StaysRejected (self : Byte) (bytes : List UInt8) : Prop :=
  ∀ fed, fed <+: bytes →
    (self.validates fed).valid = false ∧ (self.validates fed).complete = false

def ContinuationRunsBelow (limit : Nat) (bytes : List UInt8) : Prop :=
  ∀ run, run <:+: bytes → (∀ byte ∈ run, byte &&& 0xC0 = 0x80) → run.length < limit

theorem Byte.staysRejected_nil_iff (self : Byte) :
    self.StaysRejected [] ↔ self.it_.toInt < 0 := by
  constructor
  · intro stays
    have invalid := (stays [] (List.prefix_refl _)).1
    rw [validates, Bool.eq_false_iff, ne_eq, valid_iff_toInt] at invalid
    omega
  · intro negative fed start
    rw [List.prefix_nil.mp start, validates]
    have invalid : self.valid = false := by
      rw [Bool.eq_false_iff, ne_eq, valid_iff_toInt]
      omega
    refine ⟨invalid, ?_⟩
    rw [Bool.eq_false_iff]
    intro complete
    rw [valid_of_complete self complete] at invalid
    cases invalid

theorem Byte.staysRejected_cons_iff (self : Byte) (byte : UInt8) (rest : List UInt8) :
    self.StaysRejected (byte :: rest) ↔
      self.it_.toInt < 0 ∧ (self.validate byte).2.StaysRejected rest := by
  rw [← staysRejected_nil_iff]
  constructor
  · intro stays
    constructor
    · intro fed start
      rw [List.prefix_nil.mp start]
      exact stays [] List.nil_prefix
    · intro fed start
      exact stays (byte :: fed) (List.cons_prefix_cons.mpr ⟨rfl, start⟩)
  · rintro ⟨now, later⟩ fed start
    cases fed with
    | nil => exact now [] (List.prefix_refl _)
    | cons first fed =>
        obtain ⟨rfl, within⟩ := List.cons_prefix_cons.mp start
        exact later fed within

private theorem infix_on_one_side (run left right : List UInt8) (byte : UInt8)
    (outside : byte ∉ run) (inside : run <:+: left ++ byte :: right) :
    run <:+: left ∨ run <:+: right := by
  obtain ⟨before, after, whole⟩ := inside
  rcases List.append_eq_append_iff.mp whole with ⟨gap, earlier, -⟩ | ⟨rest, crossing, split⟩
  · exact Or.inl ⟨before, gap, earlier.symm⟩
  cases rest with
  | nil =>
      rw [List.append_nil] at crossing
      exact Or.inl ⟨before, [], by rw [List.append_nil, crossing]⟩
  | cons first rest =>
      rw [List.cons_append, List.cons.injEq] at split
      obtain ⟨rfl, split⟩ := split
      rcases List.append_eq_append_iff.mp crossing with ⟨gap, -, reach⟩ | ⟨gap, -, later⟩
      · rw [reach] at outside
        exact (outside (List.mem_append_right _ List.mem_cons_self)).elim
      cases gap with
      | nil =>
          rw [List.nil_append] at later
          rw [← later] at outside
          exact (outside List.mem_cons_self).elim
      | cons second gap =>
          rw [List.cons_append, List.cons.injEq] at later
          exact Or.inr ⟨gap, after, by rw [← later.2, split]⟩

private theorem counts_on (it : Int8) (streak : Nat) (short : streak < 127)
    (count : it.toInt = -1 - streak) : (it - 1).toInt = -1 - (streak + 1 : Nat) := by
  have less : (it - 1).toInt = it.toInt - 1 := by
    rw [Int8.toInt_sub, Int8.toInt_one]
    apply Int.bmod_eq_of_le <;> omega
  omega

private theorem counts_over (it : Int8) (count : it.toInt = -1 - 127) :
    (it - 1).toInt = 127 := by
  rw [Int8.toInt_sub, Int8.toInt_one, count]
  decide

/-- `streak` holds the continuation bytes fed since the counter was last set to
`-1`; it counts them downwards. -/
private theorem Byte.stays_rejected_iff (self : Byte) (streak bytes : List UInt8)
    (continued : ∀ byte ∈ streak, byte &&& 0xC0 = 0x80) (short : streak.length < 128)
    (count : self.it_.toInt = -1 - streak.length) :
    self.StaysRejected bytes ↔ ContinuationRunsBelow 128 (streak ++ bytes) := by
  induction bytes generalizing self streak with
  | nil =>
      rw [staysRejected_nil_iff, List.append_nil]
      constructor
      · intro _ run inside _
        have within := inside.length_le
        omega
      · intro _
        omega
  | cons byte rest ih =>
      have negative : self.it_.toInt < 0 := by omega
      rw [staysRejected_cons_iff]
      by_cases continuation : byte &&& 0xC0 = 0x80
      · rw [validate_counts self negative byte ((mask_tail_iff byte).mp continuation)]
        have longer : ∀ other ∈ streak ++ [byte], other &&& 0xC0 = 0x80 := by
          intro other member
          rcases List.mem_append.mp member with earlier | last
          · exact continued other earlier
          · rw [List.mem_singleton.mp last]
            exact continuation
        have regroup : streak ++ byte :: rest = streak ++ [byte] ++ rest := by
          rw [List.append_assoc, List.singleton_append]
        rcases Nat.lt_or_ge streak.length 127 with room | full
        · have next := counts_on self.it_ streak.length room count
          have length : (streak ++ [byte]).length = streak.length + 1 :=
            List.length_append
          rw [regroup, ← ih { self with it_ := self.it_ - 1 } (streak ++ [byte]) longer
            (by omega) (by rw [length]; exact next)]
          exact and_iff_right negative
        · have length : streak.length = 127 := by omega
          rw [length] at count
          have wrapped := counts_over self.it_ count
          constructor
          · rintro ⟨-, stays⟩
            have still := (staysRejected_nil_iff _).mp
              (fun fed start => stays fed (start.trans List.nil_prefix))
            simp only [wrapped] at still
            omega
          · intro runs
            have beyond := runs (streak ++ [byte]) ⟨[], rest, by rw [regroup]; rfl⟩ longer
            rw [List.length_append, length] at beyond
            exact absurd beyond (Nat.lt_irrefl 128)
      · have other : ¬tail.Has byte := fun has => continuation ((mask_tail_iff byte).mpr has)
        have restarted := validate_restarts self negative byte other
        rw [ih _ [] (fun _ none => absurd none List.not_mem_nil) (by decide)
          (by rw [restarted]; decide), List.nil_append]
        constructor
        · rintro ⟨-, runs⟩ run inside all
          have outside : byte ∉ run := fun member => continuation (all byte member)
          rcases infix_on_one_side run streak rest byte outside inside with here | there
          · have within := here.length_le
            omega
          · exact runs run there all
        · intro runs
          refine ⟨negative, fun run inside all => runs run ?_ all⟩
          exact inside.trans ((List.suffix_cons byte rest).isInfix.trans
            (List.suffix_append _ _).isInfix)

/-- A rejection is final for exactly the bytes without 128 continuation bytes in
a row: these count `it_` from `-1` down past `-128` to `127`. -/
theorem rejection_permanent_iff (self : Byte) (byte : UInt8) (bytes : List UInt8)
    (rejected : (self.validate byte).1 = false) :
    (self.validate byte).2.StaysRejected bytes ↔ ContinuationRunsBelow 128 bytes := by
  have negative := Byte.validate_rejected self byte rejected
  exact Byte.stays_rejected_iff _ [] bytes (fun _ none => absurd none List.not_mem_nil)
    (by decide) (by rw [negative]; decide)

theorem rejection_permanent_iff_overlong :
    (Byte.init.validate 0xC0).1 = false ∧
      ((Byte.init.validate 0xC0).2.StaysRejected [0x80, 0x41] ↔
        ContinuationRunsBelow 128 [0x80, 0x41]) :=
  ⟨by decide, rejection_permanent_iff Byte.init 0xC0 [0x80, 0x41] (by decide)⟩

/-- After `0xFF` is rejected, 128 continuation bytes make the validator valid
again, and 127 more make it complete. -/
theorem rejection_not_permanent :
    (Byte.init.validate 0xFF).1 = false ∧
      ((Byte.init.validate 0xFF).2.validates (List.replicate 128 0x80)).valid = true ∧
      ((Byte.init.validate 0xFF).2.validates (List.replicate 255 0x80)).complete = true := by
  decide +kernel

end Averyws.Utilities.Utf8
