/-
Frames are the words of a complete prefix code.

The first two bytes fix the length form and whether there is a mask, the bytes
behind them the length and the mask, and these the payload: no frame begins
another one, and every byte string begins with a frame or begins one.
-/

import Averyws.HeaderBytes
import Averyws.Library.Code

namespace Averyws

open Library.Bytes Library.Code

namespace FrameHeader

variable {header other : FrameHeader}

private theorem form_of_code
    (same : header.form.code header.length = other.form.code other.length) :
    header.form = other.form := by
  have mine := header.code_cases
  have its := other.code_cases
  simp only [same] at mine
  simp only at its
  generalize (other.form.code other.length).toUInt64 = code at mine its
  rcases mine with ⟨form, small, -⟩ | ⟨form, here⟩ | ⟨form, here⟩ <;>
    rcases its with ⟨again, few, -⟩ | ⟨again, there⟩ | ⟨again, there⟩ <;>
    first
      | exact form.trans again.symm
      | (subst_vars; contradiction)

theorem alike_of_two (first : header.first = other.first) (second : header.second = other.second) :
    header.Alike other := by
  have code : header.form.code header.length = other.form.code other.length := by
    rw [← header.second_code, ← other.second_code, second]
  refine ⟨first, form_of_code code, ?_, code⟩
  have masks := header.second_mask
  rw [second] at masks
  exact Bool.eq_iff_iff.mpr (masks.symm.trans other.second_mask)

private theorem digit {left right : Nat} (same : UInt8.ofNat left = UInt8.ofNat right) :
    left % 2 ^ 8 = right % 2 ^ 8 := by
  have numbers := congrArg UInt8.toNat same
  rw [UInt8.toNat_ofNat', UInt8.toNat_ofNat'] at numbers
  exact numbers

theorem Alike.length_eq (alike : header.Alike other)
    (same : header.form.extension header.length = other.form.extension other.length) :
    header.length = other.length := by
  have fits := header.fits
  have within := other.fits
  have mine := header.code_cases
  have its := other.code_cases
  rw [alike.form] at fits same
  cases form : other.form with
  | seven =>
      have seven : header.form = .seven := alike.form.trans form
      have code := alike.code
      rw [seven, form] at code
      simp only [seven, form, reduceCtorEq, false_and, or_false, true_and, code] at mine its
      exact mine.2.symm.trans its.2
  | sixteen =>
      rw [form] at fits within same
      change header.length < 2 ^ 16 at fits
      change other.length < 2 ^ 16 at within
      simp only [LengthForm.extension, List.cons.injEq, and_true] at same
      have high := digit same.1
      have low := digit same.2
      omega
  | sixtyFour =>
      rw [form] at fits within same
      change header.length < 2 ^ 64 at fits
      change other.length < 2 ^ 64 at within
      simp only [LengthForm.extension, List.cons.injEq, and_true] at same
      obtain ⟨a, b, c, d, e, f, g, h⟩ := same
      have ha := digit a
      have hb := digit b
      have hc := digit c
      have hd := digit d
      have he := digit e
      have hf := digit f
      have hg := digit g
      have hh := digit h
      omega

theorem Alike.eq_of_tail (alike : header.Alike other) (same : header.tail = other.tail) :
    header = other := by
  obtain ⟨extension, masks⟩ := List.append_inj same alike.size_extension
  have length := alike.length_eq extension
  have mask : header.mask = other.mask := by
    have present := alike.masked
    cases mine : header.mask <;> cases its : other.mask <;> rw [mine, its] at masks present
    · cases present
    · cases present
    · exact congrArg some (Vector.toList_inj.mp masks)
  have first := alike.first
  have form := alike.form
  cases header
  cases other
  simp only [mk.injEq]
  exact ⟨first, form, mask, length⟩

theorem eq_of_append {rest later : List UInt8} (same : header.wire ++ rest = other.wire ++ later) :
    header = other ∧ rest = later := by
  have bytes : header.first :: header.second :: (header.tail ++ rest) =
      other.first :: other.second :: (other.tail ++ later) := same
  simp only [List.cons.injEq] at bytes
  obtain ⟨first, second, more⟩ := bytes
  have alike := alike_of_two first second
  obtain ⟨tail, behind⟩ := List.append_inj more alike.size_tail
  exact ⟨alike.eq_of_tail tail, behind⟩

def frame (header : FrameHeader) (data : List UInt8) (size : data.length = header.length) :
    Frame :=
  { first := header.first
    form := header.form
    mask := header.mask
    payload := xorMask header.key 0 data
    fits := by rw [length_xorMask, size]; exact header.fits }

theorem header_frame (header : FrameHeader) (data : List UInt8)
    (size : data.length = header.length) : (header.frame data size).header = header := by
  unfold frame Frame.header
  simp only [length_xorMask, size]

theorem wire_frame (header : FrameHeader) (data : List UInt8)
    (size : data.length = header.length) :
    (header.frame data size).wire = header.wire ++ data := by
  unfold Frame.wire
  rw [header_frame]
  exact congrArg _ (xorMask_xorMask header.key 0 data)

end FrameHeader

theorem Frame.eq_of_header {left right : Frame} (headers : left.header = right.header)
    (payloads : left.payload = right.payload) : left = right := by
  have first := congrArg FrameHeader.first headers
  have form := congrArg FrameHeader.form headers
  have mask := congrArg FrameHeader.mask headers
  cases left
  cases right
  simp only [mk.injEq]
  exact ⟨first, form, mask, payloads⟩

theorem Frame.payload_of_wire {frame : Frame} {header : FrameHeader} {data : List UInt8}
    (begins : header.wire ++ data <+: frame.wire) :
    frame.header = header ∧ ∃ later, frame.payload = xorMask header.key 0 (data ++ later) := by
  obtain ⟨later, whole⟩ := begins
  rw [List.append_assoc] at whole
  obtain ⟨rfl, rest⟩ := FrameHeader.eq_of_append whole
  refine ⟨rfl, later, ?_⟩
  rw [rest, xorMask_xorMask]

theorem Frame.eq_of_append {frame : Frame} {header : FrameHeader} {data later : List UInt8}
    (size : data.length = header.length) (whole : header.wire ++ data ++ later = frame.wire) :
    frame.header = header ∧ frame.payload = xorMask header.key 0 data ∧ later = [] := by
  rw [List.append_assoc] at whole
  obtain ⟨rfl, rest⟩ := FrameHeader.eq_of_append whole
  have lengths := congrArg List.length rest
  rw [List.length_append, length_xorMask] at lengths
  have none : later = [] := by
    apply List.eq_nil_of_length_eq_zero
    change data.length = frame.payload.length at size
    omega
  subst none
  rw [List.append_nil] at rest
  exact ⟨rfl, by rw [rest, xorMask_xorMask], rfl⟩

theorem Frame.prefix_free (left right : Frame) (begins : left.wire <+: right.wire) :
    left = right := by
  obtain ⟨later, whole⟩ := begins
  have size : (xorMask left.header.key 0 left.payload).length = left.header.length :=
    length_xorMask _ _ _
  obtain ⟨headers, payloads, -⟩ := Frame.eq_of_append size whole
  rw [xorMask_xorMask] at payloads
  exact (Frame.eq_of_header headers payloads).symm

def Frame.code : PrefixCode Frame UInt8 where
  encode := Frame.wire
  nonempty := fun _ => List.cons_ne_nil _ _
  prefix_free := Frame.prefix_free

theorem Frame.stream_eq (frames : List Frame) : Frame.stream frames = Frame.code.stream frames :=
  rfl

/-- No whole frame lies at the front of the bytes. -/
def Frame.Unfinished (bytes : List UInt8) : Prop :=
  ∀ frame : Frame, ¬frame.wire <+: bytes

theorem FrameHeader.begins (header : FrameHeader) (data : List UInt8)
    (within : data.length ≤ header.length) :
    ∃ frame : Frame, header.wire ++ data <+: frame.wire := by
  have size : (data ++ List.replicate (header.length - data.length) 0).length =
      header.length := by
    rw [List.length_append, List.length_replicate]
    omega
  refine ⟨header.frame _ size, List.replicate (header.length - data.length) 0, ?_⟩
  rw [header.wire_frame, List.append_assoc]

theorem FrameHeader.begins_two (header : FrameHeader) :
    ∃ frame : Frame, [header.first, header.second] <+: frame.wire := by
  obtain ⟨frame, begins⟩ := header.begins [] (Nat.zero_le _)
  rw [List.append_nil] at begins
  exact ⟨frame, (List.prefix_append _ header.tail).trans begins⟩

private theorem FrameHeader.frame_or_part (header : FrameHeader) (bytes : List UInt8) :
    (∃ frame : Frame, frame.wire <+: header.wire ++ bytes) ∨
      ∃ frame : Frame, header.wire ++ bytes <+: frame.wire := by
  rcases Nat.le_total header.length bytes.length with enough | few
  · left
    have size : (bytes.take header.length).length = header.length := List.length_take_of_le enough
    refine ⟨header.frame _ size, bytes.drop header.length, ?_⟩
    rw [header.wire_frame, List.append_assoc, List.take_append_drop]
  · exact Or.inr (header.begins bytes few)

private theorem FrameHeader.wire_of_alike {header other : FrameHeader}
    (alike : header.Alike other) :
    other.wire = [header.first, header.second] ++ other.tail := by
  unfold FrameHeader.wire
  rw [alike.first, alike.second]

theorem Frame.complete : Frame.code.Complete := by
  intro bytes
  match bytes with
  | [] => exact Or.inr ⟨Frame.short 0 none [] (Nat.zero_le _), List.nil_prefix⟩
  | [first] =>
      exact Or.inr ⟨Frame.short first none [] (Nat.zero_le _), _, rfl⟩
  | first :: second :: more =>
      obtain ⟨header, rfl, rfl⟩ := FrameHeader.exists_of_two first second
      rcases Nat.le_total header.tail.length more.length with enough | few
      · obtain ⟨other, alike, tail⟩ := header.exists_of_tail (more.take header.tail.length)
          (List.length_take_of_le enough)
        have bytes : header.first :: header.second :: more =
            other.wire ++ more.drop header.tail.length := by
          rw [FrameHeader.wire_of_alike alike, tail, List.append_assoc, List.take_append_drop]
          rfl
        rw [bytes]
        exact other.frame_or_part _
      · right
        obtain ⟨other, alike, tail⟩ := header.exists_of_tail
          (more ++ List.replicate (header.tail.length - more.length) 0)
          (by rw [List.length_append, List.length_replicate]; omega)
        refine ⟨other.frame (List.replicate other.length 0) List.length_replicate, ?_⟩
        change _ <+: (other.frame _ _).wire
        rw [other.wire_frame, FrameHeader.wire_of_alike alike, tail]
        exact ⟨List.replicate (header.tail.length - more.length) 0 ++
          List.replicate other.length 0, by simp⟩

/-- What a peer sends is whole frames and an unfinished one, in exactly one way. -/
theorem Frame.existsUnique_parse (bytes : List UInt8) :
    ∃! parse : List Frame × List UInt8,
      bytes = Frame.stream parse.1 ++ parse.2 ∧ Frame.Unfinished parse.2 :=
  Frame.code.existsUnique_parse bytes

/-- An unfinished frame is the beginning of some frame, with bytes missing. -/
theorem Frame.Unfinished.begins {bytes : List UInt8} (unfinished : Frame.Unfinished bytes) :
    ∃ (frame : Frame) (missing : List UInt8), missing ≠ [] ∧ frame.wire = bytes ++ missing :=
  Frame.complete.begins unfinished

end Averyws
