/-
The scattered buffer of `lib/utilities_chunk_vector.cpp`.

References into a chunk are positions: the chunk and the offset inside it.  A
call that throws, or that indexes outside a vector, has no result.
-/

import Mathlib.Tactic.Ring
import Averyws.Library.Chunks

namespace Averyws.Utilities

open Library.Bytes Library.Chunks

def CHUNK_VECTOR_DEFAULT_SIZE : UInt64 := 1024

structure ChunkVector where
  chunk_vector_ : List (List UInt8)
  open_ : Bool
  chunk_size_ : UInt64
  deriving DecidableEq

/-- A byte inside a chunk, as the references and pointers of the source name it. -/
structure Position where
  chunk : Nat
  offset : Nat
  deriving DecidableEq

namespace ChunkVector

def new (chunk_size : UInt64) : ChunkVector :=
  { chunk_vector_ := [], open_ := true, chunk_size_ := chunk_size }

def size (self : ChunkVector) : UInt64 :=
  match self.chunk_vector_.getLast? with
  | none => 0
  | some back =>
      (UInt64.ofNat self.chunk_vector_.length - 1) * self.chunk_size_ + UInt64.ofNat back.length

def chunk_size (self : ChunkVector) : UInt64 :=
  self.chunk_size_

def last_chunk (self : ChunkVector) : Option Position :=
  match self.chunk_vector_.getLast? with
  | none => none
  | some back =>
      if 0 < back.length then
        some { chunk := self.chunk_vector_.length - 1, offset := 0 }
      else none

def bytes (self : ChunkVector) : List UInt8 :=
  self.chunk_vector_.flatten

/-- Throws when the vector is closed.  The allocation throws at the latest when
the chunks would fill the 64-bit address space. -/
def new_chunk (self : ChunkVector) : Option (ChunkVector × Position) :=
  if self.open_ = false then
    none
  else if 2 ^ 64 ≤ self.bytes.length + self.chunk_size_.toNat then
    none
  else
    let self := { self with
      chunk_vector_ := self.chunk_vector_ ++ [List.replicate self.chunk_size_.toNat 0] }
    self.last_chunk.map fun last => (self, last)

def resize (chunk : List UInt8) (count : Nat) : List UInt8 :=
  chunk.take count ++ List.replicate (count - chunk.length) 0

def close_last_chunk (self : ChunkVector) (chunk_size : UInt64) : ChunkVector :=
  let chunks :=
    match self.chunk_vector_.getLast? with
    | none => self.chunk_vector_
    | some back => self.chunk_vector_.dropLast ++ [resize back chunk_size.toNat]
  { self with chunk_vector_ := chunks, open_ := false }

def at_ (self : ChunkVector) (i : UInt64) : Option Position :=
  match self.chunk_vector_[(i / self.chunk_size_).toNat]? with
  | none => none
  | some chunk =>
      if (i % self.chunk_size_).toNat < chunk.length then
        some
          { chunk := (i / self.chunk_size_).toNat
            offset := (i % self.chunk_size_).toNat }
      else none

def Inside (self : ChunkVector) (position : Position) (count : Nat) : Prop :=
  ∃ chunk, self.chunk_vector_[position.chunk]? = some chunk ∧
    position.offset + count ≤ chunk.length

def load (self : ChunkVector) (position : Position) (count : Nat) : Option (List UInt8) :=
  match self.chunk_vector_[position.chunk]? with
  | none => none
  | some chunk =>
      if position.offset + count ≤ chunk.length then
        some (slice chunk position.offset count)
      else none

def store (self : ChunkVector) (position : Position) (bytes : List UInt8) :
    Option ChunkVector :=
  match self.chunk_vector_[position.chunk]? with
  | none => none
  | some chunk =>
      if position.offset + bytes.length ≤ chunk.length then
        some { self with
          chunk_vector_ :=
            self.chunk_vector_.set position.chunk (overwrite chunk position.offset bytes) }
      else none

/-- Every chunk has the chunk size, as long as none has been closed. -/
def Full (self : ChunkVector) : Prop :=
  0 < self.chunk_size_.toNat ∧ Uniform self.chunk_size_.toNat self.chunk_vector_

theorem full_new (chunk_size : UInt64) (positive : 0 < chunk_size.toNat) :
    (new chunk_size).Full :=
  ⟨positive, Uniform.nil _⟩

theorem Full.length_bytes {self : ChunkVector} (full : self.Full) :
    self.bytes.length = self.chunk_vector_.length * self.chunk_size_.toNat :=
  full.2.length_flatten

/-- `size` counts the bytes of the chunks, modulo the width of its type. -/
theorem Full.size_eq {self : ChunkVector} (full : self.Full) :
    self.size = UInt64.ofNat self.bytes.length := by
  unfold size
  rw [full.length_bytes, UInt64.ofNat_mul, UInt64.ofNat_toNat]
  cases found : self.chunk_vector_.getLast? with
  | none =>
      have empty : self.chunk_vector_ = [] := List.getLast?_eq_none_iff.mp found
      rw [empty, List.length_nil]
      exact UInt64.zero_mul.symm
  | some back =>
      have fits : back.length = self.chunk_size_.toNat :=
        full.2 back (List.mem_of_getLast? found)
      change (UInt64.ofNat self.chunk_vector_.length - 1) * self.chunk_size_ +
        UInt64.ofNat back.length = _
      rw [fits, UInt64.ofNat_toNat]
      grind

theorem Full.size_toNat {self : ChunkVector} (full : self.Full)
    (small : self.bytes.length < 2 ^ 64) : self.size.toNat = self.bytes.length := by
  rw [full.size_eq, UInt64.toNat_ofNat_of_lt' small]

def position (self : ChunkVector) (i : Nat) : Position :=
  { chunk := i / self.chunk_size_.toNat, offset := i % self.chunk_size_.toNat }

theorem Full.chunk_exists {self : ChunkVector} (full : self.Full) (i : Nat)
    (within : i < self.bytes.length) :
    ∃ chunk, self.chunk_vector_[i / self.chunk_size_.toNat]? = some chunk ∧
      chunk.length = self.chunk_size_.toNat := by
  have bound : i / self.chunk_size_.toNat < self.chunk_vector_.length := by
    rw [full.length_bytes] at within
    exact Nat.div_lt_of_lt_mul (by rw [Nat.mul_comm]; exact within)
  exact ⟨_, List.getElem?_eq_getElem bound, full.2 _ (List.getElem_mem bound)⟩

theorem Full.at_eq {self : ChunkVector} (full : self.Full) (i : UInt64)
    (within : i.toNat < self.bytes.length) :
    self.at_ i = some (self.position i.toNat) := by
  obtain ⟨chunk, found, fits⟩ := full.chunk_exists i.toNat within
  have offset : i.toNat % self.chunk_size_.toNat < self.chunk_size_.toNat :=
    Nat.mod_lt _ full.1
  unfold at_ position
  rw [UInt64.toNat_div, UInt64.toNat_mod, found]
  simp only [fits, if_pos offset]

theorem position_index (self : ChunkVector) (i : Nat) :
    i / self.chunk_size_.toNat * self.chunk_size_.toNat + i % self.chunk_size_.toNat = i := by
  rw [Nat.mul_comm]
  exact Nat.div_add_mod i self.chunk_size_.toNat

theorem Full.inside_position {self : ChunkVector} (full : self.Full) (i count : Nat)
    (within : i < self.bytes.length)
    (one : i % self.chunk_size_.toNat + count ≤ self.chunk_size_.toNat) :
    self.Inside (self.position i) count := by
  obtain ⟨chunk, found, fits⟩ := full.chunk_exists i within
  exact ⟨chunk, found, by rw [fits]; exact one⟩

theorem Full.load_eq {self : ChunkVector} (full : self.Full) (i count : Nat)
    (within : i < self.bytes.length)
    (one : i % self.chunk_size_.toNat + count ≤ self.chunk_size_.toNat) :
    self.load (self.position i) count = some (slice self.bytes i count) := by
  obtain ⟨chunk, found, fits⟩ := full.chunk_exists i within
  have region := full.2.slice_flatten _ _ count chunk found one
  rw [position_index] at region
  unfold load position
  simp only [found, fits, if_pos one]
  rw [bytes, region]

theorem Full.store_eq {self : ChunkVector} (full : self.Full) (i : Nat) (values : List UInt8)
    (within : i < self.bytes.length)
    (one : i % self.chunk_size_.toNat + values.length ≤ self.chunk_size_.toNat) :
    ∃ stored, self.store (self.position i) values = some stored ∧ stored.Full ∧
      stored.open_ = self.open_ ∧ stored.chunk_size_ = self.chunk_size_ ∧
      stored.chunk_vector_.length = self.chunk_vector_.length ∧
      stored.bytes = overwrite self.bytes i values := by
  obtain ⟨chunk, found, fits⟩ := full.chunk_exists i within
  have region := full.2.flatten_set_overwrite _ _ chunk values found one
  rw [position_index] at region
  unfold store position
  simp only [found, fits, if_pos one]
  refine ⟨_, rfl, ⟨full.1, ?_⟩, rfl, rfl, List.length_set, region⟩
  apply full.2.set
  rw [length_overwrite _ _ _ (by rw [fits]; exact one), fits]

theorem Full.new_chunk_eq {self : ChunkVector} (full : self.Full) (opened : self.open_ = true)
    (room : self.bytes.length + self.chunk_size_.toNat < 2 ^ 64) :
    ∃ grown last, self.new_chunk = some (grown, last) ∧ grown.Full ∧
      grown.open_ = true ∧ grown.chunk_size_ = self.chunk_size_ ∧
      grown.chunk_vector_.length = self.chunk_vector_.length + 1 ∧
      grown.bytes = self.bytes ++ List.replicate self.chunk_size_.toNat 0 := by
  unfold new_chunk
  rw [if_neg (by rw [opened]; exact Bool.noConfusion), if_neg (Nat.not_le.mpr room)]
  simp only [last_chunk, List.getLast?_append, List.getLast?_singleton, Option.some_or,
    List.length_replicate, if_pos full.1, Option.map_some]
  refine ⟨_, _, rfl, ⟨full.1, ?_⟩, opened, rfl, ?_, ?_⟩
  · exact full.2.append_single List.length_replicate
  · simp only [List.length_append, List.length_cons, List.length_nil]
  · simp only [bytes, List.flatten_append, List.flatten_cons, List.flatten_nil, List.append_nil]

theorem Full.bytes_close_last_chunk {self : ChunkVector} (full : self.Full) (used : Nat)
    (count : UInt64) (total : used ≤ self.bytes.length)
    (last : self.bytes.length < used + self.chunk_size_.toNat)
    (positive : 0 < used)
    (kept : count.toNat = (used - 1) % self.chunk_size_.toNat + 1) :
    (self.close_last_chunk count).bytes = self.bytes.take used := by
  have size := full.length_bytes
  cases found : self.chunk_vector_.getLast? with
  | none =>
      have empty : self.chunk_vector_ = [] := List.getLast?_eq_none_iff.mp found
      rw [size, empty, List.length_nil, Nat.zero_mul] at total
      omega
  | some back =>
      obtain ⟨init, whole⟩ := List.getLast?_eq_some_iff.mp found
      have fits : back.length = self.chunk_size_.toNat :=
        full.2 back (List.mem_of_getLast? found)
      have before : init.flatten.length = init.length * self.chunk_size_.toNat :=
        Uniform.length_flatten fun chunk member =>
          full.2 chunk (by rw [whole]; exact List.mem_append_left _ member)
      have joined : self.bytes = init.flatten ++ back := by
        rw [bytes, whole, List.flatten_append, List.flatten_singleton]
      have sum : self.bytes.length = init.flatten.length + self.chunk_size_.toNat := by
        rw [joined, List.length_append, fits]
      have remainder : (used - 1) % self.chunk_size_.toNat = used - 1 - init.flatten.length := by
        have aligned : used - 1 = used - 1 - init.flatten.length +
            init.length * self.chunk_size_.toNat := by omega
        rw [aligned, Nat.add_mul_mod_self_right, Nat.mod_eq_of_lt (by omega)]
        omega
      have rest : count.toNat = used - init.flatten.length := by omega
      have shrunk : resize back count.toNat = back.take count.toNat := by
        unfold resize
        rw [Nat.sub_eq_zero_of_le (by omega), List.replicate_zero, List.append_nil]
      have keep : init.flatten.take used = init.flatten :=
        List.take_of_length_le (by omega)
      unfold close_last_chunk
      simp only [bytes, whole, List.getLast?_concat, List.dropLast_concat]
      rw [List.flatten_append, List.flatten_singleton, shrunk, rest, List.flatten_append,
        List.flatten_singleton, List.take_append, keep]

end ChunkVector

end Averyws.Utilities
