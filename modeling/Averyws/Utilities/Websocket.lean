/-
The frame helpers of `lib/utilities_websocket.cpp`: the header encoder and the
unmasking loop.

A pointer argument is the list of bytes it points to.  The random bytes that
`generateMask` takes from the system are an argument.
-/

import Averyws.Library.Bytes
import Averyws.Utilities.Utf8

namespace Averyws.Utilities.Websocket

open Library.Bytes

def reserve (length : UInt64) (flags : UInt16) : UInt64 :=
  let base_required : UInt64 := 2
  let flags_8bit : UInt8 := ((flags &&& 0x00ff) >>> 8).toUInt8
  let base_required := if flags_8bit &&& 0x80 ≠ 0 then base_required + 4 else base_required
  if length > 125 then
    if length > 65535 then base_required + 8 else base_required + 2
  else base_required

def flags2header (data : List UInt8) (flags : UInt16) : List UInt8 :=
  let data := data.set 0 0x00
  let data := data.set 1 (data.getD 1 0 &&& 0x7F)
  let flags_8bit : UInt8 := ((flags &&& 0xff00) >>> 8).toUInt8
  let data := data.set 0
    ((flags_8bit &&& 0x80)
      ||| (flags_8bit &&& 0x40)
      ||| (flags_8bit &&& 0x20)
      ||| (flags_8bit &&& 0x10)
      ||| (flags_8bit &&& 0x00)
      ||| (flags_8bit &&& 0x01)
      ||| (flags_8bit &&& 0x02)
      ||| (flags_8bit &&& 0x03)
      ||| (flags_8bit &&& 0x09)
      ||| (flags_8bit &&& 0x0A))
  let flags_8bit : UInt8 := ((flags &&& 0x00ff) >>> 0).toUInt8
  data.set 1 ((data.getD 1 0 &&& 0x7F) ||| (flags_8bit &&& 0x80))

def length2header (data : List UInt8) (length : UInt64) : List UInt8 × UInt8 :=
  if length ≤ 125 then
    (data.set 1 (length ||| (data.getD 1 0 &&& 0x80).toUInt64).toUInt8, 1)
  else if length ≤ 65535 then
    let data := data.set 1 (126 ||| (data.getD 1 0 &&& 0x80))
    let data := data.set 2 ((length &&& 0x000000000000ff00) >>> 8).toUInt8
    let data := data.set 3 ((length &&& 0x00000000000000ff) >>> 0).toUInt8
    (data, 3)
  else
    let data := data.set 1 (127 ||| (data.getD 1 0 &&& 0x80))
    let data := data.set 2 ((length &&& 0xff00000000000000) >>> 56).toUInt8
    let data := data.set 3 ((length &&& 0x00ff000000000000) >>> 48).toUInt8
    let data := data.set 4 ((length &&& 0x0000ff0000000000) >>> 40).toUInt8
    let data := data.set 5 ((length &&& 0x000000ff00000000) >>> 32).toUInt8
    let data := data.set 6 ((length &&& 0x00000000ff000000) >>> 24).toUInt8
    let data := data.set 7 ((length &&& 0x0000000000ff0000) >>> 16).toUInt8
    let data := data.set 8 ((length &&& 0x000000000000ff00) >>> 8).toUInt8
    let data := data.set 9 ((length &&& 0x00000000000000ff) >>> 0).toUInt8
    (data, 9)

def generateMask (data : List UInt8) (start : Nat) (random_bytes : Mask) : List UInt8 :=
  overwrite data start random_bytes.toList

/-- The written bytes and the final value of the local `header_size`.  The
comparison of `reserve` with the buffer size has no effect in the source. -/
def makeHeader (random_bytes : Mask) (data : List UInt8) (_data_size : UInt64)
    (length : UInt64) (flags : UInt16) : List UInt8 × UInt8 :=
  let header_size : UInt8 := 1
  let data := flags2header data flags
  let (data, length_size) := length2header data length
  let header_size := header_size + length_size
  if data.getD 1 0 &&& 0x80 ≠ 0 then
    (generateMask data header_size.toNat random_bytes, header_size + 4)
  else
    (data, header_size)

structure Masked where
  data : List UInt8
  mask_offset : UInt8
  utf8 : Utf8.Byte
  deriving DecidableEq

def maskTail (mask : Mask) (mask_offset : UInt8) (is_utf8 : Bool) (utf8 : Utf8.Byte) :
    List UInt8 → Masked
  | [] => { data := [], mask_offset := mask_offset, utf8 := utf8 }
  | byte :: rest =>
      let byte := byte ^^^ mask.byte mask_offset.toNat
      if is_utf8 then
        match utf8.validate byte with
        | (false, utf8) => { data := byte :: rest, mask_offset := mask_offset, utf8 := utf8 }
        | (true, utf8) =>
            let result := maskTail mask (mask_offset + 1) is_utf8 utf8 rest
            { result with data := byte :: result.data }
      else
        let result := maskTail mask (mask_offset + 1) is_utf8 utf8 rest
        { result with data := byte :: result.data }

/-- The loop over blocks of four, which does not move `mask_offset`, and the
loop over what it leaves. -/
def maskBlocks (mask : Mask) (mask_offset : UInt8) (is_utf8 : Bool) (utf8 : Utf8.Byte) :
    List UInt8 → Masked
  | first :: second :: third :: fourth :: rest =>
      let block :=
        [first ^^^ mask.byte (mask_offset.toNat + 0),
          second ^^^ mask.byte (mask_offset.toNat + 1),
          third ^^^ mask.byte (mask_offset.toNat + 2),
          fourth ^^^ mask.byte (mask_offset.toNat + 3)]
      if is_utf8 then
        if utf8.accepts block then
          let result := maskBlocks mask mask_offset is_utf8 (utf8.feed block) rest
          { result with data := block ++ result.data }
        else
          { data := block ++ rest, mask_offset := mask_offset, utf8 := utf8.feed block }
      else
        let result := maskBlocks mask mask_offset is_utf8 utf8 rest
        { result with data := block ++ result.data }
  | rest => maskTail mask mask_offset is_utf8 utf8 rest

def applyMask (data : List UInt8) (mask : Mask) (mask_offset : UInt8) (is_utf8 : Bool)
    (utf8 : Utf8.Byte) : Masked :=
  if data.length = 0 then
    { data := data, mask_offset := mask_offset, utf8 := utf8 }
  else if mask.byte 0 = 0x00 ∧ mask.byte 1 = 0x00 ∧ mask.byte 2 = 0x00 ∧ mask.byte 3 = 0x00 then
    if is_utf8 = false then
      { data := data, mask_offset := mask_offset, utf8 := utf8 }
    else
      { data := data, mask_offset := mask_offset, utf8 := utf8.feed data }
  else
    maskBlocks mask mask_offset is_utf8 utf8 data

/-- The outcome of unmasking `data` from a position of the mask: the validator
saw the plain bytes in order and, unless it rejected one, every byte is plain
and the offset has moved past them. -/
structure Masked.Unmasks (result : Masked) (mask : Mask) (phase : Nat) (is_utf8 : Bool)
    (utf8 : Utf8.Byte) (data : List UInt8) : Prop where
  size : result.data.length = data.length
  validator : result.utf8 = if is_utf8 then utf8.feed (xorMask mask phase data) else utf8
  plain : result.utf8.valid = true → result.data = xorMask mask phase data
  offset : result.utf8.valid = true →
    mask.SamePhase result.mask_offset.toNat (phase + data.length)

private theorem offset_succ (mask : Mask) (offset : UInt8) :
    mask.SamePhase (offset + 1).toNat (offset.toNat + 1) := by
  apply Mask.samePhase_of_mod
  rw [UInt8.toNat_add]
  simp only [UInt8.reduceToNat]
  omega

private theorem Masked.Unmasks.prepend {mask : Mask} {phase later : Nat} {is_utf8 : Bool}
    {utf8 next : Utf8.Byte} (first : List UInt8) {rest : List UInt8} {result : Masked}
    (valid : utf8.valid = true)
    (fed : next = if is_utf8 then utf8.feed (xorMask mask phase first) else utf8)
    (accepted : next.valid = true)
    (moved : mask.SamePhase later (phase + first.length))
    (unmasks : result.Unmasks mask later is_utf8 next rest) :
    ({ result with data := xorMask mask phase first ++ result.data } : Masked).Unmasks
      mask phase is_utf8 utf8 (first ++ rest) := by
  have reference : xorMask mask phase (first ++ rest) =
      xorMask mask phase first ++ xorMask mask later rest := by
    rw [xorMask_append, xorMask_congr mask later (phase + first.length) rest moved]
  refine ⟨?_, ?_, ?_, ?_⟩
  · simp only [List.length_append, length_xorMask, unmasks.size]
  · change result.utf8 = _
    rw [unmasks.validator, reference]
    cases is_utf8 with
    | false => simpa using fed
    | true =>
        simp only [if_true] at fed ⊢
        rw [fed] at accepted ⊢
        exact (Utf8.Byte.feed_append utf8 valid _ _ accepted).symm
  · intro final
    change xorMask mask phase first ++ result.data = _
    rw [unmasks.plain final, reference]
  · intro final
    change mask.SamePhase result.mask_offset.toNat _
    rw [List.length_append, ← Nat.add_assoc]
    exact (unmasks.offset final).trans (moved.add rest.length)

private theorem Masked.Unmasks.stop {mask : Mask} {phase : Nat} {utf8 : Utf8.Byte}
    (first : List UInt8) {rest : List UInt8} {offset : UInt8} (valid : utf8.valid = true)
    (rejected : (utf8.feed (xorMask mask phase first)).valid = false) :
    ({ data := xorMask mask phase first ++ rest, mask_offset := offset
       utf8 := utf8.feed (xorMask mask phase first) } : Masked).Unmasks
      mask phase true utf8 (first ++ rest) := by
  refine ⟨?_, ?_, ?_, ?_⟩
  · simp only [List.length_append, length_xorMask]
  · simp only [if_true, xorMask_append]
    exact (Utf8.Byte.feed_append_rejected utf8 valid _ _ rejected).symm
  · intro accepted
    rw [rejected] at accepted
    cases accepted
  · intro accepted
    rw [rejected] at accepted
    cases accepted

theorem maskTail_unmasks (mask : Mask) (mask_offset : UInt8) (is_utf8 : Bool)
    (utf8 : Utf8.Byte) (valid : utf8.valid = true) (data : List UInt8) :
    (maskTail mask mask_offset is_utf8 utf8 data).Unmasks
      mask mask_offset.toNat is_utf8 utf8 data := by
  induction data generalizing mask_offset utf8 with
  | nil =>
      refine ⟨rfl, ?_, fun _ => rfl, fun _ => Mask.samePhase_refl _ _⟩
      cases is_utf8 <;> rfl
  | cons byte rest ih =>
      cases is_utf8 with
      | false =>
          exact Masked.Unmasks.prepend [byte] valid rfl valid
            (offset_succ mask mask_offset) (ih (mask_offset + 1) utf8 valid)
      | true =>
          have spec := Utf8.Byte.validate_spec utf8 valid
            (byte ^^^ mask.byte mask_offset.toNat) []
          simp only [maskTail, if_true]
          rcases result : utf8.validate (byte ^^^ mask.byte mask_offset.toNat) with ⟨_ | _, next⟩
          · rw [result] at spec
            have fed : utf8.feed (xorMask mask mask_offset.toNat [byte]) = next :=
              Utf8.Byte.feed_rejected utf8 next _ [] result
            have rejected := Utf8.Byte.valid_of_rejected next spec.1
            rw [← fed] at rejected ⊢
            exact Masked.Unmasks.stop [byte] valid rejected
          · rw [result] at spec
            have fed : utf8.feed (xorMask mask mask_offset.toNat [byte]) = next :=
              Utf8.Byte.feed_accepted utf8 next _ [] result
            exact Masked.Unmasks.prepend [byte] valid fed.symm spec.1
              (offset_succ mask mask_offset) (ih (mask_offset + 1) next spec.1)

private theorem samePhase_block (mask : Mask) (phase : Nat) (first second third fourth : UInt8) :
    mask.SamePhase phase (phase + [first, second, third, fourth].length) := by
  apply Mask.samePhase_of_mod
  simp only [List.length_cons, List.length_nil]
  omega

theorem maskBlocks_unmasks (mask : Mask) (mask_offset : UInt8) (is_utf8 : Bool)
    (utf8 : Utf8.Byte) (valid : utf8.valid = true) (data : List UInt8) :
    (maskBlocks mask mask_offset is_utf8 utf8 data).Unmasks
      mask mask_offset.toNat is_utf8 utf8 data := by
  fun_induction maskBlocks mask mask_offset is_utf8 utf8 data with
  | case1 utf8 first second third fourth rest block isUtf8 accepted result ih =>
      rw [Utf8.Byte.accepts_eq_valid utf8 valid] at accepted
      subst isUtf8
      exact Masked.Unmasks.prepend [first, second, third, fourth] valid rfl
        accepted (samePhase_block mask _ first second third fourth) (ih accepted)
  | case2 utf8 first second third fourth rest block isUtf8 rejected =>
      rw [Utf8.Byte.accepts_eq_valid utf8 valid, Bool.not_eq_true] at rejected
      subst isUtf8
      exact Masked.Unmasks.stop [first, second, third, fourth] valid rejected
  | case3 utf8 first second third fourth rest block isUtf8 result ih =>
      rw [Bool.not_eq_true] at isUtf8
      subst isUtf8
      exact Masked.Unmasks.prepend [first, second, third, fourth] valid rfl
        valid (samePhase_block mask _ first second third fourth) (ih valid)
  | case4 utf8 rest short => exact maskTail_unmasks mask mask_offset is_utf8 utf8 valid rest

private theorem byte_zero (mask : Mask)
    (zero : mask.byte 0 = 0x00 ∧ mask.byte 1 = 0x00 ∧ mask.byte 2 = 0x00 ∧ mask.byte 3 = 0x00)
    (index : Nat) : mask.byte index = 0 := by
  have cases : index % 4 = 0 ∨ index % 4 = 1 ∨ index % 4 = 2 ∨ index % 4 = 3 := by omega
  obtain ⟨zeroth, first, second, third⟩ := zero
  rcases cases with phase | phase | phase | phase
  · exact (mask.byte_congr index 0 phase).trans zeroth
  · exact (mask.byte_congr index 1 phase).trans first
  · exact (mask.byte_congr index 2 phase).trans second
  · exact (mask.byte_congr index 3 phase).trans third

/-- The three paths of `applyMask` agree with one reference. -/
theorem applyMask_unmasks (data : List UInt8) (mask : Mask) (mask_offset : UInt8)
    (is_utf8 : Bool) (utf8 : Utf8.Byte) (valid : utf8.valid = true) :
    (applyMask data mask mask_offset is_utf8 utf8).Unmasks
      mask mask_offset.toNat is_utf8 utf8 data := by
  unfold applyMask
  split_ifs with empty zero plain
  · have none : data = [] := List.eq_nil_of_length_eq_zero empty
    subst none
    refine ⟨rfl, ?_, fun _ => rfl, fun _ => Mask.samePhase_refl _ _⟩
    cases is_utf8 <;> rfl
  · have same := xorMask_zero mask mask_offset.toNat data (byte_zero mask zero)
    refine ⟨rfl, ?_, fun _ => same.symm, fun _ index => ?_⟩
    · simp only [plain, Bool.false_eq_true, if_false]
    · rw [byte_zero mask zero, byte_zero mask zero]
  · have same := xorMask_zero mask mask_offset.toNat data (byte_zero mask zero)
    rw [Bool.not_eq_false] at plain
    refine ⟨rfl, ?_, fun _ => same.symm, fun _ index => ?_⟩
    · simp only [plain, if_true, same]
    · rw [byte_zero mask zero, byte_zero mask zero]
  · exact maskBlocks_unmasks mask mask_offset is_utf8 utf8 valid data

/-- One call for each segment, with the offset and the validator the call before
left, until the validator is invalid; the segments after that stay as they are. -/
def applyMasks (mask : Mask) (is_utf8 : Bool) :
    List (List UInt8) → UInt8 → Utf8.Byte → Masked
  | [], mask_offset, utf8 => { data := [], mask_offset := mask_offset, utf8 := utf8 }
  | segment :: rest, mask_offset, utf8 =>
      let masked := applyMask segment mask mask_offset is_utf8 utf8
      if masked.utf8.valid = false then
        { masked with data := masked.data ++ rest.flatten }
      else
        let later := applyMasks mask is_utf8 rest masked.mask_offset masked.utf8
        { later with data := masked.data ++ later.data }

private theorem Masked.Unmasks.rejected {result : Masked} {mask : Mask} {phase : Nat}
    {is_utf8 : Bool} {utf8 : Utf8.Byte} {first : List UInt8} (valid : utf8.valid = true)
    (unmasks : result.Unmasks mask phase is_utf8 utf8 first)
    (broken : result.utf8.valid = false) (rest : List UInt8) :
    ({ result with data := result.data ++ rest } : Masked).Unmasks
      mask phase is_utf8 utf8 (first ++ rest) := by
  have validator := unmasks.validator
  have size : (result.data ++ rest).length = (first ++ rest).length := by
    rw [List.length_append, List.length_append, unmasks.size]
  refine ⟨size, ?_, fun accepted => ?_, fun accepted => ?_⟩
  · cases is_utf8 with
    | false =>
        simp only [Bool.false_eq_true, if_false] at validator
        rw [validator, valid] at broken
        cases broken
    | true =>
        simp only [if_true] at validator ⊢
        rw [validator] at broken ⊢
        rw [xorMask_append]
        exact (Utf8.Byte.feed_append_rejected utf8 valid _ _ broken).symm
  · rw [broken] at accepted
    cases accepted
  · rw [broken] at accepted
    cases accepted

theorem applyMasks_unmasks (mask : Mask) (is_utf8 : Bool) (segments : List (List UInt8))
    (mask_offset : UInt8) (utf8 : Utf8.Byte) (valid : utf8.valid = true) :
    (applyMasks mask is_utf8 segments mask_offset utf8).Unmasks
      mask mask_offset.toNat is_utf8 utf8 segments.flatten := by
  induction segments generalizing mask_offset utf8 with
  | nil =>
      refine ⟨rfl, ?_, fun _ => rfl, fun _ => Mask.samePhase_refl _ _⟩
      cases is_utf8 <;> rfl
  | cons segment rest ih =>
      have head := applyMask_unmasks segment mask mask_offset is_utf8 utf8 valid
      unfold applyMasks
      rw [List.flatten_cons]
      dsimp only
      cases outcome : (applyMask segment mask mask_offset is_utf8 utf8).utf8.valid with
      | false =>
          rw [if_pos rfl]
          exact head.rejected valid outcome rest.flatten
      | true =>
          rw [if_neg Bool.noConfusion, head.plain outcome]
          exact Masked.Unmasks.prepend segment valid head.validator outcome
            (head.offset outcome) (ih _ _ outcome)

/-- Whatever the cut into segments, the calls unmask a payload as one loop over
its bytes does. -/
theorem segments_unmask_payload (mask : Mask) (segments : List (List UInt8))
    (mask_offset : UInt8) (utf8 : Utf8.Byte) (valid : utf8.it_ ≥ 0) :
    let payload := segments.flatten
    let plain := fun index : Nat =>
      payload[index]?.map fun byte => byte ^^^ mask.get (Fin.ofNat 4 (mask_offset.toNat + index))
    let binary := applyMasks mask false segments mask_offset utf8
    let text := applyMasks mask true segments mask_offset utf8
    ((∀ index, binary.data[index]? = plain index) ∧ binary.utf8 = utf8) ∧
      ∃ fed : List UInt8, (∀ index, fed[index]? = plain index) ∧
        text.utf8 = utf8.feed fed ∧ (utf8.accepts fed = true → text.data = fed) := by
  intro payload plain binary text
  have start := (Utf8.Byte.valid_iff utf8).mpr valid
  have reference (index : Nat) :
      (xorMask mask mask_offset.toNat payload)[index]? = plain index :=
    getElem?_xorMask mask mask_offset.toNat index payload
  have untouched := applyMasks_unmasks mask false segments mask_offset utf8 start
  have checked := applyMasks_unmasks mask true segments mask_offset utf8 start
  have kept : binary.utf8 = utf8 := untouched.validator
  refine ⟨⟨fun index => ?_, kept⟩, xorMask mask mask_offset.toNat payload, reference,
    checked.validator, fun accepted => ?_⟩
  · have whole : binary.data = xorMask mask mask_offset.toNat payload :=
      untouched.plain (by rw [kept]; exact start)
    rw [whole]
    exact reference index
  · have fed : text.utf8 = utf8.feed (xorMask mask mask_offset.toNat payload) := checked.validator
    apply checked.plain
    rw [fed, ← Utf8.Byte.accepts_eq_valid utf8 start]
    exact accepted

theorem segments_unmask_wrapped :
    (0 : Int8) ≥ 0 ∧
      (applyMasks #v[1, 2, 3, 4] true [[0x65], [], [0x60, 0x60, 0x60, 0x60, 0x60]] 255
        Utf8.Byte.init).data = [0x61, 0x61, 0x62, 0x63, 0x64, 0x61] := by
  have valid : Utf8.Byte.init.it_ ≥ 0 := by decide
  have unmasked := segments_unmask_payload #v[1, 2, 3, 4]
    [[0x65], [], [0x60, 0x60, 0x60, 0x60, 0x60]] 255 Utf8.Byte.init valid
  obtain ⟨-, fed, plain, -, whole⟩ := unmasked
  have same : fed = [0x61, 0x61, 0x62, 0x63, 0x64, 0x61] := by
    apply List.ext_getElem?
    intro index
    rw [plain index]
    match index with
    | 0 | 1 | 2 | 3 | 4 | 5 => rfl
    | _ + 6 => rfl
  refine ⟨valid, ?_⟩
  rw [whole (by rw [same]; decide), same]

end Averyws.Utilities.Websocket
