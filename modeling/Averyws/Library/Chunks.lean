/-
A byte sequence kept in chunks of one size.

The cell at `index` of the whole sequence is the cell `index % size` of the
chunk `index / size`, and a region that stays inside one chunk is the same
region of the whole sequence.  The last chunk may be shorter.
-/

import Averyws.Library.Bytes

namespace Averyws.Library.Chunks

open Bytes

variable {α : Type}

def Uniform (size : Nat) (chunks : List (List α)) : Prop :=
  ∀ chunk, chunk ∈ chunks → chunk.length = size

theorem Uniform.nil (size : Nat) : Uniform size ([] : List (List α)) :=
  fun _ member => absurd member List.not_mem_nil

theorem Uniform.append_single {size : Nat} {chunks : List (List α)} {chunk : List α}
    (uniform : Uniform size chunks) (fits : chunk.length = size) :
    Uniform size (chunks ++ [chunk]) := by
  intro other member
  rcases List.mem_append.mp member with earlier | last
  · exact uniform other earlier
  · rw [List.mem_singleton.mp last]
    exact fits

theorem Uniform.set {size : Nat} {chunks : List (List α)} {chunk : List α}
    (uniform : Uniform size chunks) (index : Nat) (fits : chunk.length = size) :
    Uniform size (chunks.set index chunk) := by
  intro other member
  rcases List.mem_or_eq_of_mem_set member with earlier | same
  · exact uniform other earlier
  · rw [same]
    exact fits

theorem Uniform.length_flatten {size : Nat} {chunks : List (List α)}
    (uniform : Uniform size chunks) : chunks.flatten.length = chunks.length * size := by
  induction chunks with
  | nil => simp only [List.flatten_nil, List.length_nil, Nat.zero_mul]
  | cons chunk rest ih =>
      have first := uniform chunk List.mem_cons_self
      have later := ih (fun other member => uniform other (List.mem_cons_of_mem chunk member))
      simp only [List.flatten_cons, List.length_append, List.length_cons, first, later]
      rw [Nat.succ_mul, Nat.add_comm]

theorem Uniform.split {size : Nat} {chunks : List (List α)} (uniform : Uniform size chunks)
    (index : Nat) (inside : index < chunks.length) :
    ∃ before chunk after, chunks = before ++ chunk :: after ∧ before.length = index ∧
      chunk.length = size ∧ before.flatten.length = index * size := by
  refine ⟨chunks.take index, chunks[index], chunks.drop (index + 1), ?_, ?_, ?_, ?_⟩
  · rw [List.getElem_cons_drop, List.take_append_drop]
  · rw [List.length_take, Nat.min_eq_left (Nat.le_of_lt inside)]
  · exact uniform _ (List.getElem_mem inside)
  · have taken : Uniform size (chunks.take index) :=
      fun other member => uniform other (List.mem_of_mem_take member)
    rw [taken.length_flatten, List.length_take, Nat.min_eq_left (Nat.le_of_lt inside)]

/-- Writing inside one chunk is writing the whole sequence at the matching place. -/
theorem Uniform.flatten_set_overwrite {size : Nat} {chunks : List (List α)}
    (uniform : Uniform size chunks) (index offset : Nat) (chunk values : List α)
    (found : chunks[index]? = some chunk) (inside : offset + values.length ≤ size) :
    (chunks.set index (overwrite chunk offset values)).flatten =
      overwrite chunks.flatten (index * size + offset) values := by
  obtain ⟨bound, at_⟩ := List.getElem?_eq_some_iff.mp found
  obtain ⟨before, middle, after, rfl, position, fits, skipped⟩ := uniform.split index bound
  subst position
  have same : middle = chunk := by simpa using at_
  subst same
  have whole : overwrite (before.flatten ++ (middle ++ after.flatten))
      (before.flatten.length + offset) values =
      before.flatten ++ (overwrite middle offset values ++ after.flatten) := by
    unfold overwrite
    rw [List.take_append, List.take_of_length_le (Nat.le_add_right _ _),
      Nat.add_sub_cancel_left, List.drop_append, Nat.add_assoc,
      List.drop_of_length_le (Nat.le_add_right _ _), Nat.add_sub_cancel_left,
      List.take_append_of_le_length (by omega), List.drop_append_of_le_length (by omega)]
    simp only [List.append_assoc, List.nil_append]
  rw [← skipped]
  simp only [List.set_append_right _ _ (Nat.le_refl _), Nat.sub_self, List.set_cons_zero,
    List.flatten_append, List.flatten_cons, whole]

theorem Uniform.slice_flatten {size : Nat} {chunks : List (List α)}
    (uniform : Uniform size chunks) (index offset count : Nat) (chunk : List α)
    (found : chunks[index]? = some chunk) (inside : offset + count ≤ size) :
    slice chunks.flatten (index * size + offset) count = slice chunk offset count := by
  obtain ⟨bound, at_⟩ := List.getElem?_eq_some_iff.mp found
  obtain ⟨before, middle, after, rfl, position, fits, skipped⟩ := uniform.split index bound
  subst position
  have same : middle = chunk := by simpa using at_
  subst same
  unfold slice
  rw [List.flatten_append, List.flatten_cons, ← skipped, List.drop_append,
    List.drop_of_length_le (Nat.le_add_right _ _), List.nil_append, Nat.add_sub_cancel_left,
    List.drop_append_of_le_length (by omega), List.take_append_of_le_length]
  rw [List.length_drop]
  omega

/-- Every chunk but the last has the given size, which the last does not exceed. -/
inductive Packed (size : Nat) : List (List α) → Prop
  | nil : Packed size []
  | last (chunk : List α) (fits : chunk.length ≤ size) : Packed size [chunk]
  | cons (chunk : List α) (rest : List (List α)) (full : chunk.length = size)
      (packed : Packed size rest) : Packed size (chunk :: rest)

theorem Uniform.packed_concat {size : Nat} {chunks : List (List α)}
    (uniform : Uniform size chunks) (last : List α) (fits : last.length ≤ size) :
    Packed size (chunks ++ [last]) := by
  induction chunks with
  | nil => exact .last last fits
  | cons chunk rest ih =>
      have packed := ih (fun other member => uniform other (List.mem_cons_of_mem chunk member))
      exact .cons chunk (rest ++ [last]) (uniform chunk List.mem_cons_self) packed

theorem Uniform.packed {size : Nat} {chunks : List (List α)} (uniform : Uniform size chunks) :
    Packed size chunks := by
  induction chunks with
  | nil => exact .nil
  | cons chunk rest ih =>
      have packed := ih (fun other member => uniform other (List.mem_cons_of_mem chunk member))
      exact .cons chunk rest (uniform chunk List.mem_cons_self) packed

theorem Packed.uniform_front {size : Nat} {front : List (List α)} {last : List α}
    (packed : Packed size (front ++ [last])) : Uniform size front ∧ last.length ≤ size := by
  induction front with
  | nil =>
      refine ⟨Uniform.nil size, ?_⟩
      cases packed with
      | last _ fits => exact fits
      | cons _ _ full _ => exact Nat.le_of_eq full
  | cons chunk front ih =>
      have inner : front ++ [last] ≠ [] :=
        List.append_ne_nil_of_right_ne_nil _ (List.cons_ne_nil _ _)
      rw [List.cons_append] at packed
      have parts : chunk.length = size ∧ Packed size (front ++ [last]) := by
        generalize front ++ [last] = rest at packed inner
        cases packed with
        | last _ _ => exact absurd rfl inner
        | cons _ _ full packed => exact ⟨full, packed⟩
      obtain ⟨uniform, fits⟩ := ih parts.2
      refine ⟨?_, fits⟩
      intro other member
      rcases List.mem_cons.mp member with rfl | later
      · exact parts.1
      · exact uniform other later

theorem Packed.length_flatten {size : Nat} {chunks : List (List α)} (packed : Packed size chunks)
    (last : List α) (found : chunks.getLast? = some last) :
    chunks.flatten.length = (chunks.length - 1) * size + last.length := by
  obtain ⟨front, rfl⟩ := List.getLast?_eq_some_iff.mp found
  rw [List.flatten_append, List.flatten_singleton, List.length_append,
    packed.uniform_front.1.length_flatten, List.length_append, List.length_singleton,
    Nat.add_sub_cancel]

theorem Packed.length_flatten_le {size : Nat} {chunks : List (List α)}
    (packed : Packed size chunks) : chunks.flatten.length ≤ chunks.length * size := by
  induction packed with
  | nil => exact Nat.zero_le _
  | last chunk fits =>
      rw [List.flatten_singleton, List.length_singleton, Nat.one_mul]
      exact fits
  | cons chunk rest full _ ih =>
      rw [List.flatten_cons, List.length_append, List.length_cons, Nat.succ_mul, full]
      omega

theorem Packed.locate {size : Nat} {chunks : List (List α)} (packed : Packed size chunks)
    (positive : 0 < size) (index : Nat) (within : index < chunks.flatten.length) :
    ∃ chunk, chunks[index / size]? = some chunk ∧ index % size < chunk.length ∧
      chunk[index % size]? = chunks.flatten[index]? := by
  induction packed generalizing index with
  | nil => exact absurd within (Nat.not_lt_zero index)
  | last chunk fits =>
      rw [List.flatten_singleton] at within ⊢
      have inside := Nat.lt_of_lt_of_le within fits
      rw [Nat.div_eq_of_lt inside, Nat.mod_eq_of_lt inside]
      exact ⟨chunk, rfl, within, rfl⟩
  | cons chunk rest full _ ih =>
      rw [List.flatten_cons, List.length_append, full] at within
      rw [List.flatten_cons]
      by_cases here : index < size
      · rw [Nat.div_eq_of_lt here, Nat.mod_eq_of_lt here]
        have inside : index < chunk.length := by omega
        exact ⟨chunk, rfl, inside, (List.getElem?_append_left inside).symm⟩
      · obtain ⟨index, rfl⟩ := Nat.exists_eq_add_of_le (Nat.le_of_not_lt here)
        obtain ⟨other, found, inside, same⟩ := ih index (by omega)
        rw [Nat.add_div_left _ positive, Nat.add_mod_left]
        refine ⟨other, found, inside, ?_⟩
        rw [same, List.getElem?_append_right (by omega), full, Nat.add_sub_cancel_left]

theorem Packed.set {size : Nat} {chunks : List (List α)} (packed : Packed size chunks)
    (positive : 0 < size) (index : Nat) (chunk : List α)
    (found : chunks[index / size]? = some chunk) (inside : index % size < chunk.length)
    (value : α) :
    let stored := chunks.set (index / size) (chunk.set (index % size) value)
    Packed size stored ∧ stored.map List.length = chunks.map List.length ∧
      stored.flatten = chunks.flatten.set index value := by
  induction packed generalizing index with
  | nil => cases found
  | last only fits =>
      cases place : index / size with
      | succ _ =>
          rw [place] at found
          cases found
      | zero =>
          rw [place] at found
          cases found
          have small : index < size := (Nat.div_eq_zero_iff_lt positive).mp place
          rw [Nat.mod_eq_of_lt small] at inside ⊢
          refine ⟨.last _ (by rw [List.length_set]; exact fits), ?_, ?_⟩
          · simp only [List.set_cons_zero, List.map_cons, List.map_nil, List.length_set]
          · simp only [List.set_cons_zero, List.flatten_singleton]
  | cons first rest full packed ih =>
      by_cases here : index < size
      · rw [Nat.div_eq_of_lt here] at found ⊢
        cases found
        rw [Nat.mod_eq_of_lt here] at inside ⊢
        refine ⟨.cons _ _ (by rw [List.length_set]; exact full) packed, ?_, ?_⟩
        · simp only [List.set_cons_zero, List.map_cons, List.length_set]
        · simp only [List.set_cons_zero, List.flatten_cons, List.set_append_left _ _ inside]
      · obtain ⟨index, rfl⟩ := Nat.exists_eq_add_of_le (Nat.le_of_not_lt here)
        rw [Nat.add_div_left _ positive] at found ⊢
        rw [Nat.add_mod_left] at inside ⊢
        obtain ⟨kept, lengths, same⟩ := ih index found inside
        refine ⟨.cons _ _ full kept, ?_, ?_⟩
        · rw [List.set_cons_succ, List.map_cons, List.map_cons, lengths]
        · rw [List.set_cons_succ, List.flatten_cons, List.flatten_cons, same,
            List.set_append_right _ _ (by omega), full, Nat.add_sub_cancel_left]

end Averyws.Library.Chunks
