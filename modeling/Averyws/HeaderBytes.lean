/-
Every byte string the header reader asks for is the header of some frame.

The two phases of the reader fix the first byte, the length form and whether
there is a mask; any bytes of the right number can follow.
-/

import Averyws.HeaderReader

namespace Averyws

open Library.Bytes Library.Cells

namespace FrameHeader

/-- Two headers the first phase does not tell apart. -/
structure Alike (header other : FrameHeader) : Prop where
  first : header.first = other.first
  form : header.form = other.form
  masked : header.mask.isSome = other.mask.isSome
  code : header.form.code header.length = other.form.code other.length

theorem Alike.second {header other : FrameHeader} (alike : header.Alike other) :
    header.second = other.second := by
  unfold FrameHeader.second
  rw [alike.masked, alike.code]

theorem Alike.size_extension {header other : FrameHeader} (alike : header.Alike other) :
    (header.form.extension header.length).length =
      (other.form.extension other.length).length := by
  rw [header.length_extension, other.length_extension, alike.form]

theorem Alike.size_tail {header other : FrameHeader} (alike : header.Alike other) :
    header.tail.length = other.tail.length := by
  rw [header.length_tail, other.length_tail, alike.size_extension, alike.masked]

private theorem second_bits : ∀ second : UInt8,
    (if second &&& 0x80 ≠ 0 then 0x80 else 0x00) ||| second &&& 0x7F = second := by
  decide +kernel

private theorem code_values : ∀ code : UInt8, code &&& 0x7F = code →
    code ≤ 125 ∨ code = 126 ∨ code = 127 := by
  decide +kernel

private theorem code_range : ∀ second : UInt8,
    (second &&& 0x7F) &&& 0x7F = second &&& 0x7F := by
  decide +kernel

private theorem exists_of_code (first code : UInt8) (mask : Option Mask)
    (range : code ≤ 125 ∨ code = 126 ∨ code = 127) :
    ∃ header : FrameHeader, header.first = first ∧ header.mask = mask ∧
      header.form.code header.length = code := by
  rcases range with small | rfl | rfl
  · have fits : LengthForm.seven.Fits code.toNat := by
      have bound := UInt8.le_iff_toNat_le.mp small
      exact bound
    refine ⟨⟨first, .seven, mask, code.toNat, fits⟩, rfl, rfl, ?_⟩
    exact UInt8.ofNat_toNat
  · exact ⟨⟨first, .sixteen, mask, 0, by decide⟩, rfl, rfl, rfl⟩
  · exact ⟨⟨first, .sixtyFour, mask, 0, by decide⟩, rfl, rfl, rfl⟩

theorem exists_of_two (first second : UInt8) :
    ∃ header : FrameHeader, header.first = first ∧ header.second = second := by
  have range := code_values _ (code_range second)
  have bits := second_bits second
  by_cases masked : second &&& 0x80 ≠ 0
  · obtain ⟨header, start, mask, code⟩ :=
      exists_of_code first (second &&& 0x7F) (some #v[0, 0, 0, 0]) range
    refine ⟨header, start, ?_⟩
    rw [if_pos masked] at bits
    unfold FrameHeader.second
    rw [mask, code]
    exact bits
  · obtain ⟨header, start, mask, code⟩ := exists_of_code first (second &&& 0x7F) none range
    refine ⟨header, start, ?_⟩
    rw [if_neg masked] at bits
    unfold FrameHeader.second
    rw [mask, code]
    exact bits

private theorem eq_ofNat (byte : UInt8) (number : Nat) (digit : number % 2 ^ 8 = byte.toNat) :
    UInt8.ofNat number = byte := by
  rw [← UInt8.toNat_inj, UInt8.toNat_ofNat', digit]

private theorem extension_surjective (header : FrameHeader) (bytes : List UInt8)
    (size : bytes.length = (header.form.extension header.length).length) :
    ∃ length, header.form.Fits length ∧ header.form.code length = header.form.code header.length ∧
      header.form.extension length = bytes := by
  rw [header.length_extension] at size
  cases form : header.form with
  | seven =>
      rw [form] at size
      have fits := header.fits
      rw [form] at fits
      refine ⟨header.length, fits, rfl, ?_⟩
      exact (List.eq_nil_of_length_eq_zero size).symm
  | sixteen =>
      rw [form] at size
      match bytes, size with
      | [high, low], _ =>
          have h := high.toNat_lt
          have l := low.toNat_lt
          refine ⟨2 ^ 8 * high.toNat + low.toNat, ?_, rfl, ?_⟩
          · change _ < 2 ^ 16
            omega
          · unfold LengthForm.extension
            simp only [List.cons.injEq, and_true]
            exact ⟨eq_ofNat high _ (by omega), eq_ofNat low _ (by omega)⟩
  | sixtyFour =>
      rw [form] at size
      match bytes, size with
      | [a, b, c, d, e, f, g, h], _ =>
          have ha := a.toNat_lt
          have hb := b.toNat_lt
          have hc := c.toNat_lt
          have hd := d.toNat_lt
          have he := e.toNat_lt
          have hf := f.toNat_lt
          have hg := g.toNat_lt
          have hh := h.toNat_lt
          refine ⟨2 ^ 56 * a.toNat + 2 ^ 48 * b.toNat + 2 ^ 40 * c.toNat + 2 ^ 32 * d.toNat +
            2 ^ 24 * e.toNat + 2 ^ 16 * f.toNat + 2 ^ 8 * g.toNat + h.toNat, ?_, rfl, ?_⟩
          · change _ < 2 ^ 64
            omega
          · unfold LengthForm.extension
            simp only [List.cons.injEq, and_true]
            exact ⟨eq_ofNat a _ (by omega), eq_ofNat b _ (by omega), eq_ofNat c _ (by omega),
              eq_ofNat d _ (by omega), eq_ofNat e _ (by omega), eq_ofNat f _ (by omega),
              eq_ofNat g _ (by omega), eq_ofNat h _ (by omega)⟩

private theorem mask_surjective (header : FrameHeader) (bytes : List UInt8)
    (size : bytes.length = if header.mask.isSome then 4 else 0) :
    ∃ mask : Option Mask,
      mask.isSome = header.mask.isSome ∧ mask.elim [] Vector.toList = bytes := by
  cases present : header.mask.isSome with
  | true =>
      rw [present] at size
      exact ⟨some ⟨bytes.toArray, size⟩, rfl, rfl⟩
  | false =>
      rw [present] at size
      exact ⟨none, rfl, (List.eq_nil_of_length_eq_zero size).symm⟩

/-- Any bytes of the right number are the rest of a header the first phase does
not tell apart. -/
theorem exists_of_tail (header : FrameHeader) (bytes : List UInt8)
    (size : bytes.length = header.tail.length) :
    ∃ other : FrameHeader, header.Alike other ∧ other.tail = bytes := by
  have sizes := header.length_tail
  obtain ⟨length, fits, code, extension⟩ := header.extension_surjective
    (bytes.take (header.form.extension header.length).length)
    (List.length_take_of_le (by omega))
  obtain ⟨mask, masked, key⟩ := header.mask_surjective
    (bytes.drop (header.form.extension header.length).length)
    (by rw [List.length_drop]; omega)
  refine ⟨⟨header.first, header.form, mask, length, fits⟩,
    ⟨rfl, rfl, masked.symm, code.symm⟩, ?_⟩
  unfold tail
  change header.form.extension length ++ mask.elim [] Vector.toList = bytes
  rw [extension, key, List.take_append_drop]

end FrameHeader

theorem Header.Started.alike {reader : Header} {heap : Heap} {header other : FrameHeader}
    (started : reader.Started heap header) (alike : header.Alike other) :
    reader.Started heap other where
  state := started.state
  live := started.live
  first := started.first.trans alike.first
  second := started.second.trans alike.second
  size := started.size.trans alike.size_tail
  payload := by rw [started.payload, alike.code]
  binary := by rw [started.binary, alike.first]
  masked := by
    intro masked
    rw [← alike.size_extension]
    exact started.masked (alike.masked.trans masked)
  unmasked := by
    intro unmasked
    exact started.unmasked (alike.masked.trans unmasked)

end Averyws
