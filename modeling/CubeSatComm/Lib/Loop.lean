import Mathlib.Logic.Basic

/-!
# Loops as iterated bodies

A `while` loop is given by its body: a function that looks at the loop state and
says whether the loop goes on (`again`), is left with a result (`leave`), or
waits for something that never arrives (`blocked`).  The test of the loop is
part of the body.

* `Loop.run` runs a body whose passes decrease a measure; it is total.
* `Loop.settle` is the state in which such a loop ends, also where it waits for ever.
* `Loop.runFor` runs a body for a bounded number of passes and serves the loops
  that may go on for ever.
* `Loop.Passes` relates a state to the one that a number of passes lead to: the
  states in which the test of the loop is made.
* `Loop.Keeps` says what holds in all of these, and what relates the last one to the
  result.
* `Loop.Follows` relates two loops of which the second does what the first does, for as
  long as the first does not wait.

The rules below are the ones a proof about a loop needs: one equation for each
kind of pass, an induction principle over the passes, and what the passes carry from
the end of a run back to its start.
-/

namespace CubeSatComm
namespace Lib

/-- What one pass through a loop body does. -/
inductive Pass (σ ρ : Type) where
  | again (s : σ)
  | leave (r : ρ)
  | blocked
  deriving DecidableEq, Repr

/-- The same pass of a body over other states and results. -/
def Pass.map {σ ρ σ' ρ' : Type} (f : σ → σ') (g : ρ → ρ') : Pass σ ρ → Pass σ' ρ'
  | .again s => .again (f s)
  | .leave r => .leave (g r)
  | .blocked => .blocked

namespace Loop

variable {σ ρ : Type}

/-- Every pass that goes on makes the measure smaller. -/
def Decreases (body : σ → Pass σ ρ) (measure : σ → Nat) : Prop :=
  ∀ s s', body s = .again s' → measure s' < measure s

/-- Run a loop to its end; `none` means that it waits for ever. -/
def run (body : σ → Pass σ ρ) (measure : σ → Nat)
    (hDec : Decreases body measure) (s : σ) : Option ρ :=
  match _hBody : body s with
  | .again s' => run body measure hDec s'
  | .leave r => some r
  | .blocked => none
termination_by measure s
decreasing_by exact hDec _ _ _hBody

/-- The state in which a loop ends: the one it is left with, or the one in which it
waits for ever. -/
def settle (body : σ → Pass σ σ) (measure : σ → Nat)
    (hDec : Decreases body measure) (s : σ) : σ :=
  match _hBody : body s with
  | .again s' => settle body measure hDec s'
  | .leave s' => s'
  | .blocked => s
termination_by measure s
decreasing_by exact hDec _ _ _hBody

/-- Run a loop for at most `fuel` passes; `none` means that it has not been left
by then. -/
def runFor (body : σ → Pass σ ρ) : Nat → σ → Option ρ
  | 0, _ => none
  | fuel + 1, s =>
      match body s with
      | .again s' => runFor body fuel s'
      | .leave r => some r
      | .blocked => none

/-- `Passes body k s s'`: `k` passes that go on lead from `s` to `s'`. -/
inductive Passes (body : σ → Pass σ ρ) : Nat → σ → σ → Prop where
  | refl (s : σ) : Passes body 0 s s
  | again {k : Nat} {s s' s'' : σ} :
      body s = .again s' → Passes body k s' s'' → Passes body (k + 1) s s''

section Run

variable {body : σ → Pass σ ρ} {measure : σ → Nat}
  {hDec : Decreases body measure} {s s' : σ} {r : ρ}

theorem run_again (h : body s = .again s') :
    run body measure hDec s = run body measure hDec s' := by
  rw [run]
  split <;> simp_all

theorem run_leave (h : body s = .leave r) :
    run body measure hDec s = some r := by
  rw [run]
  split <;> simp_all

theorem run_blocked (h : body s = .blocked) :
    run body measure hDec s = none := by
  rw [run]
  split <;> simp_all

/-- Induction over the passes of a run. -/
theorem run_induction {motive : σ → Option ρ → Prop}
    (hLeave : ∀ s r, body s = .leave r → motive s (some r))
    (hBlocked : ∀ s, body s = .blocked → motive s none)
    (hAgain : ∀ s s', body s = .again s' →
      motive s' (run body measure hDec s') →
      motive s (run body measure hDec s'))
    (s : σ) : motive s (run body measure hDec s) := by
  induction hSize : measure s using Nat.strongRecOn generalizing s with
  | _ size ih =>
      cases hBody : body s with
      | again s' =>
          rw [run_again hBody]
          have hSmaller : measure s' < size := hSize ▸ hDec _ _ hBody
          exact hAgain s s' hBody (ih _ hSmaller s' rfl)
      | leave r =>
          rw [run_leave hBody]
          exact hLeave s r hBody
      | blocked =>
          rw [run_blocked hBody]
          exact hBlocked s hBody

/-- What relates the state of a last pass to the result, and is carried back
over every other pass, relates every state to the result of its run. -/
theorem run_relates {motive : σ → ρ → Prop}
    (hLeave : ∀ s r, body s = .leave r → motive s r)
    (hAgain : ∀ s s' r, body s = .again s' → motive s' r → motive s r)
    (hRun : run body measure hDec s = some r) : motive s r := by
  -- the motive of the induction has the result, not the run, as its variable
  have hGeneral : ∀ r, run body measure hDec s = some r → motive s r := by
    refine run_induction
      (motive := fun s out => ∀ r, out = some r → motive s r) ?_ ?_ ?_ s
    · intro s r hBody r' hOut
      cases hOut
      exact hLeave s r hBody
    · intro s _ r hOut
      cases hOut
    · intro s s' hBody ih r hOut
      exact hAgain s s' r hBody (ih r hOut)
  exact hGeneral r hRun

end Run

section Settle

variable {body : σ → Pass σ σ} {measure : σ → Nat}
  {hDec : Decreases body measure} {s s' : σ}

theorem settle_again (h : body s = .again s') :
    settle body measure hDec s = settle body measure hDec s' := by
  rw [settle]
  split <;> simp_all

theorem settle_leave (h : body s = .leave s') :
    settle body measure hDec s = s' := by
  rw [settle]
  split <;> simp_all

theorem settle_blocked (h : body s = .blocked) :
    settle body measure hDec s = s := by
  rw [settle]
  split <;> simp_all

/-- Induction over the passes of a loop that is run until it ends or waits. -/
theorem settle_induction {motive : σ → σ → Prop}
    (hLeave : ∀ s s', body s = .leave s' → motive s s')
    (hBlocked : ∀ s, body s = .blocked → motive s s)
    (hAgain : ∀ s s', body s = .again s' →
      motive s' (settle body measure hDec s') →
      motive s (settle body measure hDec s'))
    (s : σ) : motive s (settle body measure hDec s) := by
  induction hSize : measure s using Nat.strongRecOn generalizing s with
  | _ size ih =>
      cases hBody : body s with
      | again s' =>
          rw [settle_again hBody]
          have hSmaller : measure s' < size := hSize ▸ hDec _ _ hBody
          exact hAgain s s' hBody (ih _ hSmaller s' rfl)
      | leave s' =>
          rw [settle_leave hBody]
          exact hLeave s s' hBody
      | blocked =>
          rw [settle_blocked hBody]
          exact hBlocked s hBody

end Settle

section RunFor

variable {body : σ → Pass σ ρ} {s s' : σ} {r : ρ} {fuel : Nat}

theorem runFor_again (h : body s = .again s') :
    runFor body (fuel + 1) s = runFor body fuel s' := by
  simp [runFor, h]

theorem runFor_leave (h : body s = .leave r) :
    runFor body (fuel + 1) s = some r := by
  simp [runFor, h]

theorem runFor_blocked (h : body s = .blocked) : runFor body fuel s = none := by
  cases fuel with
  | zero => rfl
  | succ fuel => simp [runFor, h]

/-- Two bounded runs that end have the same result. -/
theorem runFor_unique {fuel' : Nat} {r' : ρ} (h : runFor body fuel s = some r)
    (h' : runFor body fuel' s = some r') : r = r' := by
  induction fuel generalizing s fuel' with
  | zero => cases h
  | succ fuel ih =>
      cases fuel' with
      | zero => cases h'
      | succ fuel' =>
          cases hBody : body s with
          | again s' =>
              rw [runFor_again hBody] at h h'
              exact ih h h'
          | leave r'' =>
              rw [runFor_leave hBody] at h h'
              exact Option.some.inj (h.symm.trans h')
          | blocked =>
              rw [runFor_blocked hBody] at h
              cases h

/-- A loop never ends from a state with a property that makes every pass go on and that
every pass keeps. -/
theorem runFor_eq_none {motive : σ → Prop}
    (hStep : ∀ s, motive s → ∃ s', body s = .again s' ∧ motive s') (hStart : motive s)
    (fuel : Nat) : runFor body fuel s = none := by
  induction fuel generalizing s with
  | zero => rfl
  | succ fuel ih =>
      obtain ⟨s', hBody, hNext⟩ := hStep s hStart
      rw [runFor_again hBody, ih hNext]

end RunFor

section Passes

variable {body : σ → Pass σ ρ} {s s' s'' : σ} {j k : Nat}

theorem Passes.trans (hFirst : Passes body j s s') (hLater : Passes body k s' s'') :
    Passes body (j + k) s s'' := by
  induction hFirst with
  | refl s =>
      rw [Nat.zero_add]
      exact hLater
  | again hBody _ ih =>
      rw [Nat.add_right_comm]
      exact .again hBody (ih hLater)

theorem Passes.single (hBody : body s = .again s') : Passes body 1 s s' :=
  .again hBody (.refl s')

/-- The state after `k` passes is determined. -/
theorem Passes.unique (h₁ : Passes body k s s') (h₂ : Passes body k s s'') :
    s' = s'' := by
  induction h₁ with
  | refl s =>
      cases h₂
      rfl
  | again hBody _ ih =>
      cases h₂ with
      | again hBody' hRest =>
          rw [hBody] at hBody'
          obtain rfl := Pass.again.inj hBody'
          exact ih hRest

/-- What the passes preserve holds of every state they lead to. -/
theorem Passes.invariant {motive : Nat → σ → Prop} (hStart : motive 0 s)
    (hStep : ∀ k s s', motive k s → body s = .again s' → motive (k + 1) s')
    (hPasses : Passes body k s s') : motive k s' := by
  -- the passes of `hPasses` come behind `offset` others
  have hGeneral : ∀ offset, motive offset s → motive (offset + k) s' := by
    clear hStart
    induction hPasses with
    | refl s => exact fun _ h => h
    | again hBody _ ih =>
        intro offset hOffset
        have hNext := ih (offset + 1) (hStep _ _ _ hOffset hBody)
        rwa [Nat.add_right_comm] at hNext
  simpa using hGeneral 0 hStart

/-- A run is one that starts behind some of its passes. -/
theorem run_passes {measure : σ → Nat} {hDec : Decreases body measure}
    (hPasses : Passes body k s s') :
    run body measure hDec s = run body measure hDec s' := by
  induction hPasses with
  | refl s => rfl
  | again hBody _ ih => rw [run_again hBody, ih]

/-- A run that waits does so in the state behind some of its passes. -/
theorem run_eq_none {measure : σ → Nat} {hDec : Decreases body measure} {s : σ}
    (hRun : run body measure hDec s = none) :
    ∃ k s', Passes body k s s' ∧ body s' = .blocked := by
  have hGeneral : ∀ out, out = run body measure hDec s → out = none →
      ∃ k s', Passes body k s s' ∧ body s' = .blocked := by
    rintro _ rfl
    refine run_induction (motive := fun s out => out = none →
      ∃ k s', Passes body k s s' ∧ body s' = .blocked) ?_ ?_ ?_ s
    · intro s r _ hNone
      cases hNone
    · intro s hBlocked _
      exact ⟨0, s, .refl s, hBlocked⟩
    · intro s s₁ hBody ih hNone
      obtain ⟨k, s', hPasses, hBlocked⟩ := ih hNone
      exact ⟨k + 1, s', .again hBody hPasses, hBlocked⟩
  exact hGeneral _ rfl hRun

/-- A run that ends is left in the state behind some of its passes. -/
theorem run_eq_some {measure : σ → Nat} {hDec : Decreases body measure} {s : σ}
    {r : ρ} (hRun : run body measure hDec s = some r) :
    ∃ k s', Passes body k s s' ∧ body s' = .leave r := by
  refine run_relates (motive := fun s r =>
    ∃ k s', Passes body k s s' ∧ body s' = .leave r) ?_ ?_ hRun
  · intro s r hBody
    exact ⟨0, s, .refl s, hBody⟩
  · intro s s₁ r hBody ih
    obtain ⟨k, s', hPasses, hLeave⟩ := ih
    exact ⟨k + 1, s', .again hBody hPasses, hLeave⟩

/-- So is a bounded run, with that much less fuel. -/
theorem runFor_passes {fuel : Nat} (hPasses : Passes body k s s') :
    runFor body (fuel + k) s = runFor body fuel s' := by
  induction hPasses with
  | refl s => rfl
  | again hBody _ ih => rw [← Nat.add_assoc, runFor_again hBody, ih]

end Passes

/-! ### What holds throughout a loop -/

/-- `P` holds whenever the test of the loop is made, and `Q` relates the last such
state to the result. -/
structure Keeps (body : σ → Pass σ ρ) (P : σ → Prop) (Q : σ → ρ → Prop) (s : σ) :
    Prop where
  test : ∀ k s', Passes body k s s' → P s'
  result : ∀ k s' r, Passes body k s s' → body s' = .leave r → Q s' r

section Keeps

variable {body : σ → Pass σ ρ} {P : σ → Prop} {Q : σ → ρ → Prop} {s s' : σ} {r : ρ}

theorem keeps_again_iff (hBody : body s = .again s') :
    Keeps body P Q s ↔ P s ∧ Keeps body P Q s' := by
  constructor
  · rintro ⟨hTest, hResult⟩
    exact ⟨hTest 0 s (.refl s),
      fun k s'' hPasses => hTest (k + 1) s'' (.again hBody hPasses),
      fun k s'' r hPasses => hResult (k + 1) s'' r (.again hBody hPasses)⟩
  · rintro ⟨hFirst, hTest, hResult⟩
    constructor
    · intro k s'' hPasses
      cases hPasses with
      | refl => exact hFirst
      | again hBody' hPasses =>
          obtain rfl := Pass.again.inj (hBody.symm.trans hBody')
          exact hTest _ s'' hPasses
    · intro k s'' r hPasses hLeave
      cases hPasses with
      | refl =>
          rw [hBody] at hLeave
          cases hLeave
      | again hBody' hPasses =>
          obtain rfl := Pass.again.inj (hBody.symm.trans hBody')
          exact hResult _ s'' r hPasses hLeave

theorem keeps_leave_iff (hBody : body s = .leave r) :
    Keeps body P Q s ↔ P s ∧ Q s r := by
  constructor
  · rintro ⟨hTest, hResult⟩
    exact ⟨hTest 0 s (.refl s), hResult 0 s r (.refl s) hBody⟩
  · rintro ⟨hFirst, hLast⟩
    constructor
    · intro k s' hPasses
      cases hPasses with
      | refl => exact hFirst
      | again hBody' _ =>
          rw [hBody] at hBody'
          cases hBody'
    · intro k s' r' hPasses hLeave
      cases hPasses with
      | refl =>
          obtain rfl := Pass.leave.inj (hBody.symm.trans hLeave)
          exact hLast
      | again hBody' _ =>
          rw [hBody] at hBody'
          cases hBody'

theorem keeps_blocked_iff (hBody : body s = .blocked) : Keeps body P Q s ↔ P s := by
  constructor
  · rintro ⟨hTest, -⟩
    exact hTest 0 s (.refl s)
  · intro hFirst
    constructor
    · intro k s' hPasses
      cases hPasses with
      | refl => exact hFirst
      | again hBody' _ =>
          rw [hBody] at hBody'
          cases hBody'
    · intro k s' r hPasses hLeave
      cases hPasses with
      | refl =>
          rw [hBody] at hLeave
          cases hLeave
      | again hBody' _ =>
          rw [hBody] at hBody'
          cases hBody'

end Keeps

/-! ### Two loops that run alike -/

section Map

variable {σ' ρ' : Type} {body : σ → Pass σ ρ} {body' : σ' → Pass σ' ρ'} {f : σ → σ'}
  {g : ρ → ρ'}

/-- As long as the one does not wait, a pass of the other is the same pass. -/
def Follows (body : σ → Pass σ ρ) (body' : σ' → Pass σ' ρ') (f : σ → σ')
    (g : ρ → ρ') : Prop :=
  ∀ s, body s ≠ .blocked → body' (f s) = (body s).map f g

variable (hFollows : Follows body body' f g)

include hFollows

theorem Follows.again {s s' : σ} (hBody : body s = .again s') :
    body' (f s) = .again (f s') := by
  rw [hFollows s (by rw [hBody]; exact nofun), hBody, Pass.map]

theorem Follows.leave {s : σ} {r : ρ} (hBody : body s = .leave r) :
    body' (f s) = .leave (g r) := by
  rw [hFollows s (by rw [hBody]; exact nofun), hBody, Pass.map]

theorem Follows.passes {k : Nat} {s s' : σ} (hPasses : Passes body k s s') :
    Passes body' k (f s) (f s') := by
  induction hPasses with
  | refl s => exact .refl (f s)
  | again hBody _ ih => exact .again (hFollows.again hBody) ih

theorem Follows.run {measure : σ → Nat} {hDec : Decreases body measure}
    {measure' : σ' → Nat} {hDec' : Decreases body' measure'} {s : σ} {r : ρ}
    (hRun : Loop.run body measure hDec s = some r) :
    Loop.run body' measure' hDec' (f s) = some (g r) := by
  refine run_relates (motive := fun s r =>
    Loop.run body' measure' hDec' (f s) = some (g r)) ?_ ?_ hRun
  · intro s r hBody
    exact run_leave (hFollows.leave hBody)
  · intro s s' r hBody ih
    rw [run_again (hFollows.again hBody), ih]

end Map

/-- Two loops that do the same, waiting included, end in the same state. -/
theorem settle_map {σ' : Type} {body : σ → Pass σ σ} {body' : σ' → Pass σ' σ'}
    {f : σ → σ'} (hMap : ∀ s, body' (f s) = (body s).map f f) {measure : σ → Nat}
    {hDec : Decreases body measure} {measure' : σ' → Nat}
    {hDec' : Decreases body' measure'} (s : σ) :
    settle body' measure' hDec' (f s) = f (settle body measure hDec s) := by
  refine settle_induction (motive := fun s last =>
    settle body' measure' hDec' (f s) = f last) ?_ ?_ ?_ s
  · intro s s' hBody
    exact settle_leave (by rw [hMap, hBody, Pass.map])
  · intro s hBody
    exact settle_blocked (by rw [hMap, hBody, Pass.map])
  · intro s s' hBody ih
    rw [settle_again (by rw [hMap, hBody, Pass.map]), ih]

end Loop
end Lib
end CubeSatComm
