import Mathlib.Logic.Basic

/-!
# Transition systems

A transition system has initial states and steps.  A run is a sequence of steps,
counted; the states that runs from initial states reach are the reachable ones.

The rules below are the invariant rule, the bound that a decreasing measure puts on
the length of a run, and the existence of a stuck state behind every state of a
system with such a measure.  For steps that are a function of an event there are, in
addition, the rules for what holds along a given sequence of events.
-/

namespace CubeSatComm
namespace Lib

/-- Initial states and steps. -/
structure TransitionSystem (σ : Type*) where
  Init : σ → Prop
  Step : σ → σ → Prop

namespace TransitionSystem

variable {σ : Type*} (T : TransitionSystem σ)

/-- `T.Run k s s'`: some sequence of `k` steps leads from `s` to `s'`. -/
inductive Run : Nat → σ → σ → Prop where
  | refl (s : σ) : Run 0 s s
  | tail {k : Nat} {s s' s'' : σ} :
      Run k s s' → T.Step s' s'' → Run (k + 1) s s''

/-- A run from an initial state leads to `s`. -/
def Reachable (s : σ) : Prop := ∃ s₀ k, T.Init s₀ ∧ T.Run k s₀ s

/-- No step is possible. -/
def Stuck (s : σ) : Prop := ∀ s', ¬ T.Step s s'

/-- In every reachable state that is not final some step is possible. -/
def DeadlockFree (final : σ → Prop) : Prop :=
  ∀ s, T.Reachable s → final s ∨ ∃ s', T.Step s s'

/-- Every run can be continued to a final state, and no run goes on for ever. -/
def AlwaysFinishes (final : σ → Prop) : Prop :=
  T.DeadlockFree final ∧
    ∃ bound, ∀ s₀ k s, T.Init s₀ → T.Run k s₀ s → k ≤ bound

/-- No run reaches a final state. -/
def NeverFinishes (final : σ → Prop) : Prop :=
  ∀ s, T.Reachable s → ¬ final s

section Rules

variable {T}

theorem reachable_init {s : σ} (hInit : T.Init s) : T.Reachable s :=
  ⟨s, 0, hInit, .refl s⟩

theorem Reachable.step {s s' : σ} (hReach : T.Reachable s)
    (hStep : T.Step s s') : T.Reachable s' := by
  obtain ⟨s₀, k, hInit, hRun⟩ := hReach
  exact ⟨s₀, k + 1, hInit, hRun.tail hStep⟩

/-- The invariant rule. -/
theorem Reachable.invariant {motive : σ → Prop}
    (hInit : ∀ s, T.Init s → motive s)
    (hStep : ∀ s s', motive s → T.Step s s' → motive s') {s : σ}
    (hReach : T.Reachable s) : motive s := by
  obtain ⟨s₀, k, hStart, hRun⟩ := hReach
  induction hRun with
  | refl s => exact hInit s hStart
  | tail _ hLast ih => exact hStep _ _ (ih hStart) hLast

variable {measure : σ → Nat}
  (hDec : ∀ s s', T.Step s s' → measure s' < measure s)

include hDec

/-- A run is no longer than the measure drops. -/
theorem Run.length_add_le {k : Nat} {s s' : σ} (hRun : T.Run k s s') :
    k + measure s' ≤ measure s := by
  induction hRun with
  | refl s => omega
  | tail _ hLast ih =>
      have hDrop := hDec _ _ hLast
      omega

/-- Behind every reachable state there is one that is stuck. -/
theorem Reachable.exists_stuck {s : σ} (hReach : T.Reachable s) :
    ∃ s', T.Reachable s' ∧ T.Stuck s' := by
  induction hSize : measure s using Nat.strongRecOn generalizing s with
  | _ size ih =>
      by_cases hStuck : T.Stuck s
      · exact ⟨s, hReach, hStuck⟩
      · obtain ⟨s', hStep⟩ := not_forall_not.mp hStuck
        have hDrop := hDec s s' hStep
        exact ih (measure s') (by omega) (hReach.step hStep) rfl

end Rules

end TransitionSystem

/-! ## Sequences of events

A step function says where an event leads, or that it is not possible.  A sequence of
events is run until one of them is not possible.
-/

section Events

variable {ε σ : Type*}

/-- `P` holds in every state that the events lead through. -/
def Always (step : ε → σ → Option σ) (P : σ → Prop) : List ε → σ → Prop
  | [], s => P s
  | e :: es, s => P s ∧ ∀ s', step e s = some s' → Always step P es s'

/-- `R` holds of every step that the events make. -/
def EachStep (step : ε → σ → Option σ) (R : ε → σ → σ → Prop) : List ε → σ → Prop
  | [], _ => True
  | e :: es, s => ∀ s', step e s = some s' → R e s s' ∧ EachStep step R es s'

variable {step : ε → σ → Option σ} {P Inv : σ → Prop} {G R : ε → σ → σ → Prop}

theorem Always.start {es : List ε} {s : σ} (hAlways : Always step P es s) : P s := by
  cases es with
  | nil => exact hAlways
  | cons => exact hAlways.1

variable (hKeep : ∀ e s s', Inv s → step e s = some s' → G e s s' → Inv s')

include hKeep

/-- An invariant that is kept by the steps with the property `G` holds of what such steps
do. -/
theorem EachStep.of_invariant
    (hStep : ∀ e s s', Inv s → step e s = some s' → G e s s' → R e s s') {es : List ε}
    {s : σ} (hInv : Inv s) (hGuarded : EachStep step G es s) : EachStep step R es s := by
  induction es generalizing s with
  | nil => trivial
  | cons e es ih =>
      intro s' hEvent
      obtain ⟨hGuard, hRest⟩ := hGuarded s' hEvent
      exact ⟨hStep e s s' hInv hEvent hGuard, ih (hKeep e s s' hInv hEvent hGuard) hRest⟩

/-- If every step without the property `G` breaks `P`, then `P` holds throughout exactly
if all steps have the property. -/
theorem always_iff_eachStep (hGood : ∀ s, Inv s → P s)
    (hBreak : ∀ e s s', Inv s → step e s = some s' → ¬ G e s s' → ¬ P s') {s : σ}
    (hInv : Inv s) (es : List ε) : Always step P es s ↔ EachStep step G es s := by
  induction es generalizing s with
  | nil => exact iff_of_true (hGood s hInv) trivial
  | cons e es ih =>
      constructor
      · rintro ⟨-, hRest⟩ s' hEvent
        have hGuard : G e s s' := by
          apply Classical.byContradiction
          intro hNot
          exact hBreak e s s' hInv hEvent hNot (hRest s' hEvent).start
        exact ⟨hGuard, (ih (hKeep e s s' hInv hEvent hGuard)).mp (hRest s' hEvent)⟩
      · intro hSteps
        refine ⟨hGood s hInv, fun s' hEvent => ?_⟩
        obtain ⟨hGuard, hRest⟩ := hSteps s' hEvent
        exact (ih (hKeep e s s' hInv hEvent hGuard)).mpr hRest

end Events

end Lib
end CubeSatComm
