/-
The scattered buffer under any sequence of its operations.

`size` and `at` compute with the chunk size alone.  They are right because every
chunk but the last keeps that size: only the last chunk is ever resized, and the
vector that did it grows no more.
-/

import Averyws.Library.Run
import Averyws.Utilities.ChunkVector

namespace Averyws.Utilities.ChunkVector

open Library.Bytes Library.Chunks Library.Run

inductive Operation
  | new_chunk
  /-- `at(i) = value` -/
  | write (i : UInt64) (value : UInt8)
  | close_last_chunk (chunk_size : UInt64)
  deriving DecidableEq

def step (self : ChunkVector) : Operation → Option ChunkVector
  | .new_chunk => self.new_chunk.map Prod.fst
  | .write i value => do
      let position ← self.at_ i
      self.store position [value]
  | .close_last_chunk chunk_size => some (self.close_last_chunk chunk_size)

/-- Writes stay below `size()`, and a chunk is not closed above the chunk size. -/
def Permitted (self : ChunkVector) : Operation → Prop
  | .new_chunk => True
  | .write i _ => i < self.size
  | .close_last_chunk chunk_size => chunk_size ≤ self.chunk_size_

instance (self : ChunkVector) : ∀ operation, Decidable (self.Permitted operation)
  | .new_chunk => .isTrue trivial
  | .write i _ => inferInstanceAs (Decidable (i < self.size))
  | .close_last_chunk chunk_size => inferInstanceAs (Decidable (chunk_size ≤ self.chunk_size_))

/-- Every chunk but the last has the chunk size, the last has it too while the
vector is open, and the chunks fit into the address space. -/
structure Sound (vector : ChunkVector) : Prop where
  positive : 0 < vector.chunk_size_.toNat
  packed : Packed vector.chunk_size_.toNat vector.chunk_vector_
  full : vector.open_ = true → Uniform vector.chunk_size_.toNat vector.chunk_vector_
  room : vector.chunk_vector_.length * vector.chunk_size_.toNat < 2 ^ 64

theorem sound_new (chunk_size : UInt64) (positive : 0 < chunk_size.toNat) :
    (new chunk_size).Sound where
  positive := positive
  packed := .nil
  full := fun _ => Uniform.nil _
  room := by
    change 0 * chunk_size.toNat < 2 ^ 64
    rw [Nat.zero_mul]
    decide

section Sound

variable {self : ChunkVector}

theorem Sound.length_bytes_lt (sound : self.Sound) : self.bytes.length < 2 ^ 64 :=
  Nat.lt_of_le_of_lt sound.packed.length_flatten_le sound.room

theorem Sound.size_toNat (sound : self.Sound) : self.size.toNat = self.bytes.length := by
  have small := sound.length_bytes_lt
  unfold size bytes at *
  cases found : self.chunk_vector_.getLast? with
  | none =>
      rw [List.getLast?_eq_none_iff.mp found]
      rfl
  | some back =>
      have length := sound.packed.length_flatten back found
      obtain ⟨front, whole⟩ := List.getLast?_eq_some_iff.mp found
      have counted : UInt64.ofNat self.chunk_vector_.length - 1 = UInt64.ofNat front.length := by
        rw [whole, List.length_append, List.length_singleton, UInt64.ofNat_add]
        exact UInt64.add_sub_cancel _ _
      have many : self.chunk_vector_.length - 1 = front.length := by
        rw [whole, List.length_append, List.length_singleton, Nat.add_sub_cancel]
      rw [many] at length
      rw [length] at small ⊢
      simp only [counted]
      have sum : UInt64.ofNat front.length * self.chunk_size_ + UInt64.ofNat back.length =
          UInt64.ofNat (front.length * self.chunk_size_.toNat + back.length) := by
        rw [UInt64.ofNat_add, UInt64.ofNat_mul, UInt64.ofNat_toNat]
      rw [sum, UInt64.toNat_ofNat_of_lt' small]

theorem Sound.at_eq (sound : self.Sound) (i : UInt64) (within : i < self.size) :
    ∃ chunk, self.at_ i = some (self.position i.toNat) ∧
      self.chunk_vector_[i.toNat / self.chunk_size_.toNat]? = some chunk ∧
      i.toNat % self.chunk_size_.toNat < chunk.length ∧
      chunk[i.toNat % self.chunk_size_.toNat]? = self.bytes[i.toNat]? := by
  have inside : i.toNat < self.bytes.length := by
    rw [← sound.size_toNat]
    exact UInt64.lt_iff_toNat_lt.mp within
  obtain ⟨chunk, found, offset, same⟩ := sound.packed.locate sound.positive i.toNat inside
  refine ⟨chunk, ?_, found, offset, same⟩
  unfold at_ position
  rw [UInt64.toNat_div, UInt64.toNat_mod, found]
  exact if_pos offset

theorem Sound.load_eq (sound : self.Sound) (i : UInt64) (within : i < self.size) :
    ∃ value, self.bytes[i.toNat]? = some value ∧
      self.load (self.position i.toNat) 1 = some [value] := by
  obtain ⟨chunk, -, found, offset, same⟩ := sound.at_eq i within
  have cell := List.getElem?_eq_getElem offset
  refine ⟨chunk[i.toNat % self.chunk_size_.toNat], by rw [← same, cell], ?_⟩
  unfold load position slice
  simp only [found]
  rw [if_pos (Nat.succ_le_of_lt offset), List.take_one_drop_eq_of_lt_length offset]
  rfl

private theorem overwrite_cell (memory : List UInt8) (index : Nat) (value : UInt8)
    (inside : index < memory.length) : overwrite memory index [value] = memory.set index value := by
  rw [List.set_eq_take_append_cons_drop, if_pos inside]
  unfold overwrite
  rw [List.append_assoc, List.singleton_append, List.length_singleton]

theorem Sound.write_eq (sound : self.Sound) (i : UInt64) (value : UInt8)
    (within : i < self.size) :
    ∃ stored, self.step (.write i value) = some stored ∧ stored.Sound ∧
      stored.open_ = self.open_ ∧ stored.chunk_size_ = self.chunk_size_ ∧
      stored.chunk_vector_.map List.length = self.chunk_vector_.map List.length ∧
      stored.bytes = self.bytes.set i.toNat value := by
  obtain ⟨chunk, position, found, offset, -⟩ := sound.at_eq i within
  obtain ⟨packed, lengths, bytes⟩ :=
    sound.packed.set sound.positive i.toNat chunk found offset value
  have count : (self.chunk_vector_.set (i.toNat / self.chunk_size_.toNat)
      (chunk.set (i.toNat % self.chunk_size_.toNat) value)).length = self.chunk_vector_.length :=
    List.length_set
  refine ⟨{ self with
    chunk_vector_ := self.chunk_vector_.set (i.toNat / self.chunk_size_.toNat)
      (chunk.set (i.toNat % self.chunk_size_.toNat) value) }, ?_, ⟨sound.positive, packed, ?_, ?_⟩,
    rfl, rfl, lengths, bytes⟩
  · simp only [step, position, Option.bind_eq_bind, Option.bind_some, store,
      ChunkVector.position, found, List.length_singleton]
    rw [if_pos (Nat.succ_le_of_lt offset), overwrite_cell _ _ _ offset]
  · intro opened
    exact (sound.full opened).set _ (by
      rw [List.length_set]
      exact sound.full opened chunk (List.mem_of_getElem? found))
  · change (self.chunk_vector_.set _ _).length * _ < _
    rw [count]
    exact sound.room

theorem Sound.new_chunk_cases (sound : self.Sound) {grown : ChunkVector} {last : Position}
    (done : self.new_chunk = some (grown, last)) :
    grown.Sound ∧ self.open_ = true ∧ grown.chunk_size_ = self.chunk_size_ ∧
      grown.chunk_vector_ =
        self.chunk_vector_ ++ [List.replicate self.chunk_size_.toNat 0] := by
  unfold new_chunk at done
  split_ifs at done with closed large
  have opened : self.open_ = true := (Bool.not_eq_false _).mp closed
  have full := sound.full opened
  obtain ⟨position, -, same⟩ := Option.map_eq_some_iff.mp done
  cases same
  have whole : Uniform self.chunk_size_.toNat
      (self.chunk_vector_ ++ [List.replicate self.chunk_size_.toNat 0]) :=
    full.append_single List.length_replicate
  refine ⟨⟨sound.positive, whole.packed, fun _ => whole, ?_⟩, opened, rfl, rfl⟩
  have counted : self.bytes.length = _ := full.length_flatten
  rw [counted] at large
  rw [List.length_append, List.length_singleton, Nat.add_mul, Nat.one_mul]
  exact Nat.not_le.mp large

theorem Sound.new_chunk_iff (sound : self.Sound) :
    self.new_chunk.isSome = true ↔
      self.open_ = true ∧ self.bytes.length + self.chunk_size_.toNat < 2 ^ 64 := by
  constructor
  · intro done
    unfold new_chunk at done
    split_ifs at done with closed large
    · cases done
    · cases done
    · exact ⟨(Bool.not_eq_false _).mp closed, Nat.not_le.mp large⟩
  · rintro ⟨opened, room⟩
    have full : self.Full := ⟨sound.positive, sound.full opened⟩
    obtain ⟨grown, last, done, -⟩ := full.new_chunk_eq opened room
    rw [done]
    rfl

theorem close_last_chunk_nil (count : UInt64) (empty : self.chunk_vector_ = []) :
    (self.close_last_chunk count).chunk_vector_ = [] := by
  unfold close_last_chunk
  simp only [empty, List.getLast?_nil]

theorem close_last_chunk_concat (count : UInt64) {front : List (List UInt8)} {last : List UInt8}
    (whole : self.chunk_vector_ = front ++ [last]) :
    (self.close_last_chunk count).chunk_vector_ = front ++ [resize last count.toNat] := by
  unfold close_last_chunk
  simp only [whole, List.getLast?_concat, List.dropLast_concat]

theorem length_resize (chunk : List UInt8) (count : Nat) : (resize chunk count).length = count := by
  unfold resize
  rw [List.length_append, List.length_take, List.length_replicate]
  omega

theorem take_resize (chunk : List UInt8) (count : Nat) :
    (resize chunk count).take (min chunk.length count) = chunk.take (min chunk.length count) := by
  unfold resize
  rw [List.take_append_of_le_length (by rw [List.length_take]; omega), List.take_take,
    Nat.min_eq_left (Nat.min_le_right _ _)]

theorem Sound.close_last_chunk (sound : self.Sound) (count : UInt64)
    (small : count ≤ self.chunk_size_) : (self.close_last_chunk count).Sound := by
  have closed : ∀ chunks : List (List UInt8), (self.close_last_chunk count).open_ = true →
      Uniform self.chunk_size_.toNat chunks := fun _ opened => Bool.noConfusion opened
  cases found : self.chunk_vector_.getLast? with
  | none =>
      have same := close_last_chunk_nil count (List.getLast?_eq_none_iff.mp found)
      refine ⟨sound.positive, ?_, closed _, ?_⟩
      · rw [same]
        exact .nil
      · rw [same, List.length_nil, Nat.zero_mul]
        decide
  | some last =>
      obtain ⟨front, whole⟩ := List.getLast?_eq_some_iff.mp found
      have same := close_last_chunk_concat count whole
      have packed := sound.packed
      have room := sound.room
      rw [whole] at packed
      rw [whole, List.length_append] at room
      refine ⟨sound.positive, ?_, closed _, ?_⟩
      · rw [same]
        apply packed.uniform_front.1.packed_concat
        rw [length_resize]
        exact UInt64.le_iff_toNat_le.mp small
      · rw [same, List.length_append]
        exact room

theorem Sound.step (sound : self.Sound) {operation : Operation} {next : ChunkVector}
    (permitted : self.Permitted operation) (taken : self.step operation = some next) :
    next.Sound ∧ (self.open_ = false → next.open_ = false) ∧
      next.chunk_size_ = self.chunk_size_ := by
  cases operation with
  | new_chunk =>
      obtain ⟨⟨grown, last⟩, done, rfl⟩ := Option.map_eq_some_iff.mp taken
      obtain ⟨kept, opened, size, -⟩ := sound.new_chunk_cases done
      refine ⟨kept, fun closed => ?_, size⟩
      rw [opened] at closed
      cases closed
  | write i value =>
      obtain ⟨stored, done, kept, opened, size, -⟩ := sound.write_eq i value permitted
      cases done.symm.trans taken
      exact ⟨kept, fun closed => opened.trans closed, size⟩
  | close_last_chunk chunk_size =>
      cases taken
      exact ⟨sound.close_last_chunk chunk_size permitted, fun _ => rfl, rfl⟩

end Sound

/-! ### Runs -/

theorem sound_of_run {start self : ChunkVector} (sound : start.Sound)
    (run : Reaches step Permitted start self) :
    self.Sound ∧ (start.open_ = false → self.open_ = false) ∧
      self.chunk_size_ = start.chunk_size_ := by
  induction run with
  | start => exact ⟨sound, id, rfl⟩
  | next operation _ permitted taken ih =>
      obtain ⟨before, closed, size⟩ := ih
      obtain ⟨after, later, same⟩ := before.step permitted taken
      exact ⟨after, fun shut => later (closed shut), same.trans size⟩

/-- What the gatherer and the dealer rely on. -/
structure Contiguous (vector : ChunkVector) : Prop where
  size_sum : vector.size.toNat = (vector.chunk_vector_.map List.length).sum
  at_element : ∀ i, i < vector.size → ∃ position value, vector.at_ i = some position ∧
    vector.bytes[i.toNat]? = some value ∧ vector.load position 1 = some [value]
  write_element : ∀ i value, i < vector.size →
    ∃ stored, vector.step (.write i value) = some stored ∧
      stored.chunk_vector_.map List.length = vector.chunk_vector_.map List.length ∧
      stored.bytes = vector.bytes.set i.toNat value
  new_chunk_iff : vector.new_chunk.isSome = true ↔
    vector.open_ = true ∧ vector.bytes.length + vector.chunk_size_.toNat < 2 ^ 64
  new_chunk_keeps : ∀ grown last, vector.new_chunk = some (grown, last) →
    grown.chunk_vector_ = vector.chunk_vector_ ++ [List.replicate vector.chunk_size_.toNat 0]
  new_chunk_full : vector.new_chunk.isSome = true →
    ∀ chunk ∈ vector.chunk_vector_, chunk.length = vector.chunk_size_.toNat
  close_empty : ∀ n, vector.chunk_vector_ = [] →
    (vector.close_last_chunk n).chunk_vector_ = []
  close_keeps : ∀ n front last, n ≤ vector.chunk_size_ → vector.chunk_vector_ = front ++ [last] →
    ∃ closed, (vector.close_last_chunk n).chunk_vector_ = front ++ [closed] ∧
      closed.length = n.toNat ∧
      closed.take (min last.length n.toNat) = last.take (min last.length n.toNat)
  closed_stays : ∀ n later, n ≤ vector.chunk_size_ →
    Reaches step Permitted (vector.close_last_chunk n) later → later.new_chunk = none

/-- Every operation keeps the chunks contiguous, in any order of operations. -/
theorem contiguous_of_run {chunk_size : UInt64} (positive : 1 ≤ chunk_size)
    {self : ChunkVector} (run : Reaches step Permitted (new chunk_size) self) :
    self.chunk_size_ = chunk_size ∧ self.Contiguous := by
  obtain ⟨sound, -, size⟩ := sound_of_run
    (sound_new chunk_size (UInt64.le_iff_toNat_le.mp positive)) run
  refine ⟨size, ?_⟩
  constructor
  case size_sum =>
    rw [sound.size_toNat, bytes, List.length_flatten]
  case at_element =>
    intro i within
    obtain ⟨chunk, position, -⟩ := sound.at_eq i within
    obtain ⟨value, element, loaded⟩ := sound.load_eq i within
    exact ⟨_, value, position, element, loaded⟩
  case write_element =>
    intro i value within
    obtain ⟨stored, done, -, -, -, lengths, bytes⟩ := sound.write_eq i value within
    exact ⟨stored, done, lengths, bytes⟩
  case new_chunk_iff =>
    exact sound.new_chunk_iff
  case new_chunk_keeps =>
    intro grown last done
    exact (sound.new_chunk_cases done).2.2.2
  case new_chunk_full =>
    intro done
    obtain ⟨⟨grown, last⟩, result⟩ := Option.isSome_iff_exists.mp done
    exact sound.full (sound.new_chunk_cases result).2.1
  case close_empty =>
    exact fun n empty => close_last_chunk_nil n empty
  case close_keeps =>
    intro n front last small whole
    exact ⟨_, close_last_chunk_concat n whole, length_resize _ _, take_resize _ _⟩
  case closed_stays =>
    intro n later small after
    have closed := (sound_of_run (sound.close_last_chunk n small) after).2.1 rfl
    unfold new_chunk
    rw [if_pos closed]

def sampleOperations : List Operation :=
  [.new_chunk, .write 2 7, .new_chunk, .write 3 9, .close_last_chunk 1, .write 3 8,
    .close_last_chunk 2]

theorem contiguous_of_run_sample : ∃ vector : ChunkVector,
    vector.chunk_vector_ = [[0, 0, 7], [8, 0]] ∧
      vector.chunk_size_ = 3 ∧ vector.Contiguous := by
  obtain ⟨start, vector, same, run, here⟩ := Reaches.of_trace_any step Permitted (some (new 3))
    (fun vector => decide (vector.chunk_vector_ = [[0, 0, 7], [8, 0]])) sampleOperations
    (by decide +kernel)
  cases same
  exact ⟨vector, of_decide_eq_true here, contiguous_of_run (by decide) run⟩

/-! ### The chunks of a message -/

structure Cut (vector : ChunkVector) (chunk_size total : Nat) : Prop where
  closed : vector.open_ = false
  count : vector.chunk_vector_.length = (total + chunk_size - 1) / chunk_size
  front : ∀ chunk ∈ vector.chunk_vector_.dropLast, chunk.length = chunk_size
  back : ∀ chunk ∈ vector.chunk_vector_.getLast?, chunk.length = (total - 1) % chunk_size + 1
  size : vector.size.toNat = total

private theorem ceil_eq {used size chunks : Nat} (positive : 0 < size)
    (low : used ≤ chunks * size) (high : chunks * size < used + size) :
    (used + size - 1) / size = chunks := by
  apply Nat.div_eq_of_lt_le
  · omega
  · rw [Nat.succ_mul]
    omega

theorem Full.sound {self : ChunkVector} (full : self.Full) (width : self.bytes.length < 2 ^ 64) :
    self.Sound where
  positive := full.1
  packed := full.2.packed
  full := fun _ => full.2
  room := by
    rw [← full.length_bytes]
    exact width

theorem Full.cut {self : ChunkVector} (full : self.Full) (width : self.bytes.length < 2 ^ 64)
    {used : Nat} (low : used ≤ self.bytes.length)
    (high : self.bytes.length < used + self.chunk_size_.toNat) {count : UInt64}
    (last : count.toNat =
      (self.chunk_size_.toNat + used - 1) % self.chunk_size_.toNat + 1) :
    (self.close_last_chunk count).Cut self.chunk_size_.toNat used := by
  have length := full.length_bytes
  have positive := full.1
  have small : count ≤ self.chunk_size_ := by
    rw [UInt64.le_iff_toNat_le, last]
    exact Nat.mod_lt _ positive
  have sound := (full.sound width).close_last_chunk count small
  rcases List.eq_nil_or_concat self.chunk_vector_ with empty | ⟨front, back, whole⟩
  · have same := close_last_chunk_nil count empty
    have none : used = 0 := by
      rw [empty, List.length_nil, Nat.zero_mul] at length
      omega
    refine ⟨rfl, ?_, ?_, ?_, ?_⟩
    · rw [same, none, Nat.zero_add, Nat.div_eq_of_lt (Nat.sub_one_lt_of_lt positive),
        List.length_nil]
    · rw [same]
      exact fun _ member => absurd member List.not_mem_nil
    · rw [same]
      exact fun _ member => nomatch member
    · rw [sound.size_toNat, bytes, same, none]
      rfl
  · rw [List.concat_eq_append] at whole
    have same := close_last_chunk_concat count whole
    have many : self.chunk_vector_.length = front.length + 1 := by
      rw [whole, List.length_append, List.length_singleton]
    have some : 0 < used := by
      rw [many, Nat.succ_mul] at length
      omega
    have kept : count.toNat = (used - 1) % self.chunk_size_.toNat + 1 := by
      rw [last, Nat.add_sub_assoc some, Nat.add_mod_left]
    refine ⟨rfl, ?_, ?_, ?_, ?_⟩
    · rw [same, ceil_eq positive (by rw [← length]; exact low) (by rw [← length]; exact high),
        many, List.length_append, List.length_singleton]
    · rw [same, List.dropLast_concat]
      intro chunk member
      apply full.2
      rw [whole]
      exact List.mem_append_left _ member
    · rw [same, List.getLast?_concat]
      intro chunk member
      cases member
      rw [length_resize, kept]
    · rw [sound.size_toNat, full.bytes_close_last_chunk used count low high some kept,
        List.length_take, Nat.min_eq_left low]

end Averyws.Utilities.ChunkVector
