/-
Runs of partial step functions.

`Steps` is the run of a deterministic machine; a halted state ends every run
that reaches it.  `Reaches` is the run of a machine that is offered events, all
of them allowed by a condition on the state before the step.
-/

import Mathlib.Logic.Relation

namespace Averyws.Library.Run

variable {σ ε : Type}

def Steps (step : σ → Option σ) : σ → σ → Prop :=
  Relation.ReflTransGen fun before after => step before = some after

def Ends (step : σ → Option σ) (start final : σ) : Prop :=
  Steps step start final ∧ step final = none

theorem Steps.refl {step : σ → Option σ} (state : σ) : Steps step state state :=
  Relation.ReflTransGen.refl

theorem Steps.single {step : σ → Option σ} {before after : σ}
    (taken : step before = some after) : Steps step before after :=
  Relation.ReflTransGen.single taken

theorem Steps.trans {step : σ → Option σ} {start middle final : σ}
    (first : Steps step start middle) (second : Steps step middle final) :
    Steps step start final :=
  Relation.ReflTransGen.trans first second

theorem Steps.head {step : σ → Option σ} {start next final : σ}
    (taken : step start = some next) (rest : Steps step next final) :
    Steps step start final :=
  Relation.ReflTransGen.head taken rest

theorem Steps.comparable {step : σ → Option σ} {start left right : σ}
    (first : Steps step start left) (second : Steps step start right) :
    Steps step left right ∨ Steps step right left := by
  induction first with
  | refl => exact Or.inl second
  | tail _ taken ih =>
      rcases ih with ahead | behind
      · cases ahead using Relation.ReflTransGen.head_induction_on with
        | refl => exact Or.inr (Steps.single taken)
        | head other rest _ =>
            have same := other.symm.trans taken
            cases same
            exact Or.inl rest
      · exact Or.inr (behind.trans (Steps.single taken))

theorem Steps.eq_of_halted {step : σ → Option σ} {start final : σ}
    (halted : step start = none) (run : Steps step start final) : start = final := by
  cases run using Relation.ReflTransGen.head_induction_on with
  | refl => rfl
  | head taken _ _ =>
      rw [halted] at taken
      cases taken

theorem Ends.unique {step : σ → Option σ} {start left right : σ}
    (first : Ends step start left) (second : Ends step start right) : left = right := by
  rcases first.1.comparable second.1 with ahead | behind
  · exact Steps.eq_of_halted first.2 ahead
  · exact (Steps.eq_of_halted second.2 behind).symm

theorem Ends.head {step : σ → Option σ} {start middle final : σ}
    (run : Steps step start middle) (ends : Ends step middle final) : Ends step start final :=
  ⟨run.trans ends.1, ends.2⟩

/-- Two machines that keep a relation step by step keep it over a run. -/
theorem Steps.lockstep {τ : Type} {step : σ → Option σ} {other : τ → Option τ}
    (relates : σ → τ → Prop)
    (moves : ∀ left right, relates left right → Option.Rel relates (step left) (other right))
    {start final : σ} {begun : τ} (run : Steps step start final) (initially : relates start begun) :
    ∃ ended, Steps other begun ended ∧ relates final ended := by
  induction run with
  | refl => exact ⟨begun, Steps.refl begun, initially⟩
  | tail _ taken ih =>
      obtain ⟨middle, behind, here⟩ := ih
      have pair := moves _ _ here
      rw [taken] at pair
      cases next : other middle with
      | none =>
          rw [next] at pair
          cases pair
      | some ended =>
          rw [next] at pair
          cases pair with
          | some relates => exact ⟨ended, behind.trans (Steps.single next), relates⟩

def StepsWhile (step : σ → Option σ) (holds : σ → Prop) : σ → σ → Prop :=
  Relation.ReflTransGen fun before after => holds before ∧ step before = some after

theorem StepsWhile.refl {step : σ → Option σ} {holds : σ → Prop} (state : σ) :
    StepsWhile step holds state state :=
  Relation.ReflTransGen.refl

theorem StepsWhile.head {step : σ → Option σ} {holds : σ → Prop} {start next final : σ}
    (initially : holds start) (taken : step start = some next)
    (rest : StepsWhile step holds next final) : StepsWhile step holds start final :=
  Relation.ReflTransGen.head ⟨initially, taken⟩ rest

theorem StepsWhile.steps {step : σ → Option σ} {holds : σ → Prop} {start final : σ}
    (run : StepsWhile step holds start final) : Steps step start final := by
  induction run with
  | refl => exact Steps.refl _
  | tail _ taken ih => exact ih.trans (Steps.single taken.2)

/-- A state of the run lies before the end, and keeps the property, or behind it. -/
theorem StepsWhile.place {step : σ → Option σ} {holds : σ → Prop} {start final state : σ}
    (run : StepsWhile step holds start final) (reached : Steps step start state) :
    (holds state ∧ ∃ next, step state = some next ∧ StepsWhile step holds next final) ∨
      Steps step final state := by
  induction run using Relation.ReflTransGen.head_induction_on with
  | refl => exact Or.inr reached
  | head taken rest ih =>
      cases reached using Relation.ReflTransGen.head_induction_on with
      | refl => exact Or.inl ⟨taken.1, _, taken.2, rest⟩
      | head other later _ =>
          have same := other.symm.trans taken.2
          cases same
          exact ih later

/-! ### Runs under events -/

/-- The states reached from a start by allowed events. -/
inductive Reaches (step : σ → ε → Option σ) (allowed : σ → ε → Prop) (start : σ) : σ → Prop
  | start : Reaches step allowed start start
  | next {before after : σ} (event : ε) (reached : Reaches step allowed start before)
      (permitted : allowed before event) (taken : step before event = some after) :
      Reaches step allowed start after

def anyEvent (_ : σ) (_ : ε) : Prop := True

theorem Reaches.invariant {step : σ → ε → Option σ} {allowed : σ → ε → Prop} (holds : σ → Prop)
    (preserved : ∀ before event after, holds before → allowed before event →
      step before event = some after → holds after)
    {start final : σ} (run : Reaches step allowed start final) (initially : holds start) :
    holds final := by
  induction run with
  | start => exact initially
  | next event _ permitted taken ih => exact preserved _ event _ ih permitted taken

theorem Reaches.trans {step : σ → ε → Option σ} {allowed : σ → ε → Prop} {start middle final : σ}
    (first : Reaches step allowed start middle) (second : Reaches step allowed middle final) :
    Reaches step allowed start final := by
  induction second with
  | start => exact first
  | next event _ permitted taken ih => exact .next event ih permitted taken

instance (state : σ) (event : ε) : Decidable (anyEvent state event) :=
  .isTrue trivial

section Trace

variable (step : σ → ε → Option σ) (allowed : σ → ε → Prop)
  [∀ state event, Decidable (allowed state event)]

def trace : σ → List ε → Option σ
  | state, [] => some state
  | state, event :: rest =>
      if allowed state event then
        match step state event with
        | none => none
        | some next => trace next rest
      else none

variable {step allowed}

theorem Reaches.of_trace {start final : σ} (events : List ε)
    (result : trace step allowed start events = some final) :
    Reaches step allowed start final := by
  induction events generalizing start with
  | nil =>
      cases result
      exact .start
  | cons event rest ih =>
      unfold trace at result
      split at result
      next permitted =>
        cases taken : step start event with
        | none =>
            rw [taken] at result
            cases result
        | some next =>
            rw [taken] at result
            exact (Reaches.next event .start permitted taken).trans (ih result)
      next => cases result

theorem Reaches.of_trace_any (step : σ → ε → Option σ) (allowed : σ → ε → Prop)
    [∀ state event, Decidable (allowed state event)] (origin : Option σ) (holds : σ → Bool)
    (events : List ε)
    (result : (origin.bind fun start => trace step allowed start events).any holds = true) :
    ∃ start final, origin = some start ∧ Reaches step allowed start final ∧ holds final = true := by
  obtain ⟨final, ended, here⟩ := (Option.any_eq_true _ _).mp result
  obtain ⟨start, begun, traced⟩ := Option.bind_eq_some_iff.mp ended
  exact ⟨start, final, begun, .of_trace events traced, here⟩

end Trace

end Averyws.Library.Run
