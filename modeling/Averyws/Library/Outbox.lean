/-
Parcels put on one wire.

A parcel is sent piece by piece.  When every parcel but the last is whole before
the last one is begun, what is on the wire is a beginning of the parcels one
after the other.
-/

import Mathlib.Data.List.Basic

namespace Averyws.Library.Outbox

/-- Some labelled content of which the first `sent` cells are on the wire. -/
structure Parcel (ι α : Type) where
  label : ι
  content : List α
  sent : Nat

variable {ι α : Type}

namespace Parcel

def onWire (parcel : Parcel ι α) : List α :=
  parcel.content.take parcel.sent

def Whole (parcel : Parcel ι α) : Prop :=
  parcel.sent = parcel.content.length

theorem onWire_prefix (parcel : Parcel ι α) : parcel.onWire <+: parcel.content :=
  List.take_prefix _ _

theorem Whole.onWire_eq {parcel : Parcel ι α} (whole : parcel.Whole) :
    parcel.onWire = parcel.content := by
  unfold onWire
  rw [whole, List.take_length]

theorem onWire_posted (label : ι) (content : List α) :
    (Parcel.mk label content 0).onWire = [] :=
  List.take_zero

theorem onWire_add (parcel : Parcel ι α) (count : Nat) :
    { parcel with sent := parcel.sent + count }.onWire =
      parcel.onWire ++ (parcel.content.drop parcel.sent).take count :=
  List.take_add

end Parcel

def InTurn (parcels : List (Parcel ι α)) : Prop :=
  ∀ parcel ∈ parcels.dropLast, parcel.Whole

theorem InTurn.nil : InTurn ([] : List (Parcel ι α)) :=
  fun _ member => absurd member List.not_mem_nil

theorem InTurn.post {parcels : List (Parcel ι α)} (whole : ∀ parcel ∈ parcels, parcel.Whole)
    (posted : Parcel ι α) : InTurn (parcels ++ [posted]) := by
  intro parcel member
  rw [List.dropLast_concat] at member
  exact whole parcel member

theorem InTurn.front {front : List (Parcel ι α)} {last : Parcel ι α}
    (inTurn : InTurn (front ++ [last])) : ∀ parcel ∈ front, parcel.Whole := by
  intro parcel member
  apply inTurn
  rw [List.dropLast_concat]
  exact member

theorem InTurn.unfinished {parcels : List (Parcel ι α)} (inTurn : InTurn parcels) {index : Nat}
    {parcel : Parcel ι α} (found : parcels[index]? = some parcel) (rest : ¬parcel.Whole) :
    ∃ front, parcels = front ++ [parcel] ∧ front.length = index := by
  rcases List.eq_nil_or_concat' parcels with rfl | ⟨front, last, rfl⟩
  · cases found
  · rcases Nat.lt_or_ge index front.length with before | behind
    · rw [List.getElem?_append_left before] at found
      exact absurd (inTurn.front _ (List.mem_of_getElem? found)) rest
    · rw [List.getElem?_append_right behind] at found
      obtain ⟨bound, same⟩ := List.getElem?_eq_some_iff.mp found
      have last_index : index - front.length = 0 := Nat.lt_one_iff.mp bound
      refine ⟨front, ?_, by omega⟩
      simp only [last_index, List.getElem_cons_zero] at same
      rw [same]

theorem InTurn.wire_prefix {parcels : List (Parcel ι α)} (inTurn : InTurn parcels) :
    parcels.flatMap Parcel.onWire <+: parcels.flatMap Parcel.content := by
  rcases List.eq_nil_or_concat' parcels with rfl | ⟨front, last, rfl⟩
  · exact List.prefix_refl _
  · have same : front.flatMap Parcel.onWire = front.flatMap Parcel.content := by
      apply List.flatMap_congr
      intro parcel member
      exact (inTurn.front parcel member).onWire_eq
    rw [List.flatMap_append, List.flatMap_append, same, List.flatMap_singleton,
      List.flatMap_singleton]
    exact (List.prefix_append_right_inj _).mpr last.onWire_prefix

theorem InTurn.suffix {early late : List (Parcel ι α)} (inTurn : InTurn (early ++ late)) :
    InTurn late := by
  intro parcel member
  apply inTurn
  rcases List.eq_nil_or_concat' late with rfl | ⟨front, last, rfl⟩
  · cases member
  · rw [List.dropLast_concat] at member
    rw [← List.append_assoc, List.dropLast_concat]
    exact List.mem_append_right _ member

end Averyws.Library.Outbox
