/-
Runs on a list of events.

`Runs` is the run of a machine that takes the events of a list one after the
other, so that statements about a run can speak of the events it has taken and of
what was noted when they were.  A potential that pays for every event bounds what
all of them cost.
-/

import Mathlib.Algebra.GroupWithZero.Nat
import Averyws.Library.Run

namespace Averyws.Library.Run

variable {σ ε : Type}

inductive Runs (step : σ → ε → Option σ) (start : σ) : List ε → σ → Prop
  | start : Runs step start [] start
  | next {events : List ε} {before after : σ} (event : ε) (run : Runs step start events before)
      (taken : step before event = some after) : Runs step start (events ++ [event]) after

theorem Runs.reaches {step : σ → ε → Option σ} {start final : σ} {events : List ε}
    (run : Runs step start events final) : Reaches step anyEvent start final := by
  induction run with
  | start => exact .start
  | next event _ taken ih => exact .next event ih trivial taken

theorem Runs.head {step : σ → ε → Option σ} {start middle final : σ} {events : List ε}
    (event : ε) (taken : step start event = some middle) (run : Runs step middle events final) :
    Runs step start (event :: events) final := by
  induction run with
  | start => exact .next event .start taken
  | next last _ after ih => exact .next last ih after

theorem Runs.invariant {step : σ → ε → Option σ} (holds : List ε → σ → Prop)
    {start final : σ} {events : List ε} (initially : holds [] start)
    (preserved : ∀ events before event after, Runs step start events before →
      holds events before → step before event = some after → holds (events ++ [event]) after)
    (run : Runs step start events final) : holds events final := by
  induction run with
  | start => exact initially
  | next event path taken ih => exact preserved _ _ event _ path ih taken

theorem Runs.of_trace {step : σ → ε → Option σ} {start final : σ} (events : List ε)
    (result : trace step anyEvent start events = some final) : Runs step start events final := by
  induction events generalizing start with
  | nil =>
      cases result
      exact .start
  | cons event rest ih =>
      unfold trace at result
      rw [if_pos (show anyEvent start event from trivial)] at result
      cases taken : step start event with
      | none =>
          rw [taken] at result
          cases result
      | some next =>
          rw [taken] at result
          exact .head event taken (ih result)

theorem Runs.of_trace_any (step : σ → ε → Option σ) (origin : Option σ) (holds : σ → Bool)
    (events : List ε)
    (result : (origin.bind fun start => trace step anyEvent start events).any holds = true) :
    ∃ start final, origin = some start ∧ Runs step start events final ∧ holds final = true := by
  obtain ⟨final, ended, here⟩ := (Option.any_eq_true _ _).mp result
  obtain ⟨start, begun, traced⟩ := Option.bind_eq_some_iff.mp ended
  exact ⟨start, final, begun, .of_trace events traced, here⟩

theorem Runs.trans {step : σ → ε → Option σ} {start middle final : σ} {events later : List ε}
    (run : Runs step start events middle) (rest : Runs step middle later final) :
    Runs step start (events ++ later) final := by
  induction rest with
  | start =>
      rw [List.append_nil]
      exact run
  | next event _ taken ih =>
      rw [← List.append_assoc]
      exact .next event ih taken

/-- What is noted of each event, in the state in which it is taken. -/
def observed {α : Type} (step : σ → ε → Option σ) (note : σ → ε → List α) (start : σ) :
    List ε → List α
  | [] => []
  | event :: rest =>
      note start event ++
        match step start event with
        | none => []
        | some next => observed step note next rest

theorem Runs.observed_append {α : Type} {step : σ → ε → Option σ} (note : σ → ε → List α)
    {start middle : σ} {events : List ε} (run : Runs step start events middle) (later : List ε) :
    observed step note start (events ++ later) =
      observed step note start events ++ observed step note middle later := by
  induction run generalizing later with
  | start => rfl
  | @next events before after event _ taken ih =>
      have one : observed step note before [event] = note before event := by
        unfold observed
        rw [taken]
        exact List.append_nil _
      have more : observed step note before (event :: later) =
          note before event ++ observed step note after later := by
        rw [observed, taken]
      rw [List.append_assoc, List.singleton_append, ih, ih, more, one, List.append_assoc]

theorem Runs.observed_next {α : Type} {step : σ → ε → Option σ} (note : σ → ε → List α)
    {start before after : σ} {events : List ε} (run : Runs step start events before) {event : ε}
    (taken : step before event = some after) :
    observed step note start (events ++ [event]) =
      observed step note start events ++ note before event := by
  rw [run.observed_append, observed, taken]
  exact congrArg _ (List.append_nil _)

theorem Runs.total_le {step : σ → ε → Option σ} {start final : σ} {events : List ε}
    (cost : ε → Nat) (potential : σ → Nat)
    (paid : ∀ events before event after, Runs step start events before →
      step before event = some after → cost event + potential after ≤ potential before)
    (run : Runs step start events final) :
    (events.map cost).sum + potential final ≤ potential start := by
  induction run with
  | start => exact Nat.le_of_eq (Nat.zero_add _)
  | next event path taken ih =>
      have step := paid _ _ event _ path taken
      rw [List.map_append, List.sum_append, List.map_singleton, List.sum_singleton]
      omega

/-- A machine whose potential every step lowers comes to an end. -/
theorem Ends.of_potential {step : σ → Option σ} (potential : σ → Nat) (holds : σ → Prop)
    (lowers : ∀ before after, holds before → step before = some after →
      holds after ∧ potential after < potential before) {start : σ} (initially : holds start) :
    ∃ final, Ends step start final ∧ holds final := by
  induction size : potential start using Nat.strongRecOn generalizing start with
  | _ size ih =>
      cases taken : step start with
      | none => exact ⟨start, ⟨.refl start, taken⟩, initially⟩
      | some next =>
          obtain ⟨still, lower⟩ := lowers start next initially taken
          obtain ⟨final, ends, last⟩ := ih (potential next) (by omega) still rfl
          exact ⟨final, .head (.single taken) ends, last⟩

end Averyws.Library.Run
