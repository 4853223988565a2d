/-
Codes that are read from the front of a stream.

No word of a prefix code begins another one, so a list of symbols is a stream of
whole words and an unfinished rest in exactly one way.  In a complete code every
unfinished rest is the beginning of some word.
-/

import Mathlib.Data.List.Infix

namespace Averyws.Library.Code

structure PrefixCode (α β : Type) where
  encode : α → List β
  nonempty : ∀ item, encode item ≠ []
  prefix_free : ∀ left right, encode left <+: encode right → left = right

namespace PrefixCode

variable {α β : Type} (code : PrefixCode α β)

def stream (items : List α) : List β :=
  items.flatMap code.encode

/-- No word can be read from the front. -/
def Unfinished (rest : List β) : Prop :=
  ∀ item, ¬code.encode item <+: rest

/-- Every list of symbols begins with a word or begins one. -/
def Complete : Prop :=
  ∀ symbols, (∃ item, code.encode item <+: symbols) ∨ ∃ item, symbols <+: code.encode item

theorem stream_cons (item : α) (items : List α) :
    code.stream (item :: items) = code.encode item ++ code.stream items :=
  List.flatMap_cons

theorem unfinished_nil : code.Unfinished [] := by
  intro item begins
  exact code.nonempty item (List.prefix_nil.mp begins)

variable {code}

theorem same_word {left right : α} {symbols : List β} (first : code.encode left <+: symbols)
    (second : code.encode right <+: symbols) : left = right := by
  rcases List.prefix_or_prefix_of_prefix first second with shorter | longer
  · exact code.prefix_free left right shorter
  · exact (code.prefix_free right left longer).symm

theorem stream_prefix {items others : List α} {rest : List β} (unfinished : code.Unfinished rest)
    (begins : code.stream items <+: code.stream others ++ rest) : items <+: others := by
  induction items generalizing others with
  | nil => exact List.nil_prefix
  | cons item items ih =>
      rw [stream_cons] at begins
      have front := (List.prefix_append _ _).trans begins
      cases others with
      | nil => exact absurd front (unfinished item)
      | cons other others =>
          rw [stream_cons, List.append_assoc] at begins front
          have same := same_word front (List.prefix_append (code.encode other) _)
          subst same
          exact (List.prefix_cons_inj item).mpr
            (ih ((List.prefix_append_right_inj _).mp begins))

theorem parse_unique {items others : List α} {rest tail : List β}
    (unfinished : code.Unfinished rest) (other : code.Unfinished tail)
    (same : code.stream items ++ rest = code.stream others ++ tail) :
    items = others ∧ rest = tail := by
  have forward : items <+: others := stream_prefix other (by
    rw [← same]
    exact List.prefix_append _ _)
  have backward : others <+: items := stream_prefix unfinished (by
    rw [same]
    exact List.prefix_append _ _)
  have equal : items = others := forward.eq_of_length_le backward.length_le
  subst equal
  exact ⟨rfl, List.append_cancel_left same⟩

theorem exists_parse (code : PrefixCode α β) (symbols : List β) :
    ∃ items rest, symbols = code.stream items ++ rest ∧ code.Unfinished rest := by
  -- every word takes a symbol at least
  induction size : symbols.length using Nat.strong_induction_on generalizing symbols with
  | _ size ih =>
      by_cases unfinished : code.Unfinished symbols
      · exact ⟨[], symbols, rfl, unfinished⟩
      · obtain ⟨item, begins⟩ := not_forall_not.mp unfinished
        obtain ⟨later, rfl⟩ := begins
        have positive := List.length_pos_of_ne_nil (code.nonempty item)
        rw [List.length_append] at size
        obtain ⟨items, rest, rfl, last⟩ := ih later.length (by omega) later rfl
        exact ⟨item :: items, rest, by rw [stream_cons, List.append_assoc], last⟩

theorem existsUnique_parse (code : PrefixCode α β) (symbols : List β) :
    ∃! parse : List α × List β,
      symbols = code.stream parse.1 ++ parse.2 ∧ code.Unfinished parse.2 := by
  obtain ⟨items, rest, whole, unfinished⟩ := code.exists_parse symbols
  refine ⟨(items, rest), ⟨whole, unfinished⟩, ?_⟩
  rintro ⟨others, tail⟩ ⟨again, last⟩
  obtain ⟨rfl, rfl⟩ := parse_unique last unfinished (again.symm.trans whole)
  rfl

theorem Complete.begins (complete : code.Complete) {rest : List β}
    (unfinished : code.Unfinished rest) :
    ∃ item missing, missing ≠ [] ∧ code.encode item = rest ++ missing := by
  rcases complete rest with ⟨item, finished⟩ | ⟨item, missing, whole⟩
  · exact absurd finished (unfinished item)
  · refine ⟨item, missing, ?_, whole.symm⟩
    rintro rfl
    rw [List.append_nil] at whole
    exact unfinished item (by rw [whole])

end PrefixCode

end Averyws.Library.Code
