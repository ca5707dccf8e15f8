import CubeSatComm.Lib.Transition
import Mathlib.Algebra.BigOperators.Group.Finset.Basic
import Mathlib.Algebra.Field.ZMod
import Mathlib.Algebra.Order.BigOperators.Group.Finset
import Mathlib.Algebra.Ring.Int.Parity
import Mathlib.Data.ZMod.Basic
import Mathlib.Tactic.FinCases

/-!
# The named-pipe handshake

`fifo_init` of `fifo.c`, run by the processes of a ring.  Process `i` reads from pipe
`i` and writes to pipe `i + 1`; two processes are the point-to-point link of
`fifo-emulation.c`.  An `open` of one end of a pipe returns once an `open` of its
other end has been called.

A process with an even address opens its receiving pipe first, one with an odd
address its sending pipe.  Processes that wait at their first `open` wait for a
neighbour with an address of the same parity, so a chain of waiting processes goes
round the whole ring.
-/

namespace CubeSatComm
namespace Loris

open Lib

/-! ## Around a ring -/

section Ring

variable {n : ℕ} [NeZero n] {p : ZMod n → Prop}

/-- What a process hands on to its successor holds all around the ring. -/
theorem forall_of_succ (hStep : ∀ i, p i → p (i + 1)) {i : ZMod n} (h : p i)
    (j : ZMod n) : p j := by
  have hSteps : ∀ k : ℕ, p (i + (k : ZMod n)) := by
    intro k
    induction k with
    | zero => simpa using h
    | succ k ih =>
        rw [Nat.cast_succ, ← add_assoc]
        exact hStep _ ih
  have hDistance := hSteps (j - i).val
  rwa [ZMod.natCast_zmod_val, add_sub_cancel] at hDistance

/-- What a process takes over from its successor holds all around the ring. -/
theorem forall_of_pred (hStep : ∀ i, p (i + 1) → p i) {i : ZMod n} (h : p i)
    (j : ZMod n) : p j := by
  by_contra hNot
  exact forall_of_succ (p := fun i => ¬ p i)
    (fun i hi hNext => hi (hStep i hNext)) hNot i h

end Ring

/-! ## `fifo_init` -/

/-- Where a process stands in `fifo_init`: about to call `open` at the label `rx` or
`tx`, inside that call, or behind the label `end`. -/
inductive FifoControl where
  | rx
  | rxOpening
  | tx
  | txOpening
  | returned
  deriving DecidableEq, Repr

/-- `address % 2 != 0` -/
def oddAddress (address : ℤ) : Bool := address.tmod 2 ≠ 0

namespace FifoControl

/-- The first test of `fifo_init`. -/
def start (address : ℤ) : FifoControl := if oddAddress address then tx else rx

/-- The test behind the `open` of the receiving pipe. -/
def afterRx (address : ℤ) : FifoControl :=
  if oddAddress address then returned else tx

/-- The test behind the `open` of the sending pipe. -/
def afterTx (address : ℤ) : FifoControl :=
  if oddAddress address then rx else returned

/-- Whether the process has called `open` on its receiving pipe. -/
def calledRx (address : ℤ) : FifoControl → Bool
  | rx => false
  | rxOpening => true
  | tx => !oddAddress address
  | txOpening => !oddAddress address
  | returned => true

/-- Whether the process has called `open` on its sending pipe. -/
def calledTx (address : ℤ) : FifoControl → Bool
  | rx => oddAddress address
  | rxOpening => oddAddress address
  | tx => false
  | txOpening => true
  | returned => true

/-- Number of steps that are left. -/
def remaining (address : ℤ) : FifoControl → Nat
  | rx => if oddAddress address then 2 else 4
  | rxOpening => if oddAddress address then 1 else 3
  | tx => if oddAddress address then 4 else 2
  | txOpening => if oddAddress address then 3 else 1
  | returned => 0

end FifoControl

/-- State of a ring of processes: where each one stands, and for each pipe whether an
`open` of its reading end and of its writing end has been called. -/
structure HandshakeState (n : ℕ) where
  control : ZMod n → FifoControl
  readCalled : ZMod n → Bool
  writeCalled : ZMod n → Bool

/-- One step of one process. -/
inductive HandshakeStep {n : ℕ} (address : ZMod n → ℤ) :
    HandshakeState n → HandshakeState n → Prop where
  /-- `open(path_rx, O_RDONLY)` is called. -/
  | callRx (s : HandshakeState n) (i : ZMod n) :
      s.control i = .rx →
      HandshakeStep address s
        { s with
          control := Function.update s.control i .rxOpening
          readCalled := Function.update s.readCalled i true }
  /-- It returns, since the other end has been called. -/
  | returnRx (s : HandshakeState n) (i : ZMod n) :
      s.control i = .rxOpening → s.writeCalled i = true →
      HandshakeStep address s
        { s with
          control := Function.update s.control i (.afterRx (address i)) }
  /-- `open(path_tx, O_WRONLY)` is called. -/
  | callTx (s : HandshakeState n) (i : ZMod n) :
      s.control i = .tx →
      HandshakeStep address s
        { s with
          control := Function.update s.control i .txOpening
          writeCalled := Function.update s.writeCalled (i + 1) true }
  /-- It returns, since the other end has been called. -/
  | returnTx (s : HandshakeState n) (i : ZMod n) :
      s.control i = .txOpening → s.readCalled (i + 1) = true →
      HandshakeStep address s
        { s with
          control := Function.update s.control i (.afterTx (address i)) }

/-- The processes of a ring, every one of them at the start of `fifo_init`. -/
def handshake {n : ℕ} (address : ZMod n → ℤ) :
    TransitionSystem (HandshakeState n) where
  Init s := s = ⟨fun i => .start (address i), fun _ => false, fun _ => false⟩
  Step := HandshakeStep address

/-- Every `fifo_init` has returned. -/
def AllReturned {n : ℕ} (s : HandshakeState n) : Prop :=
  ∀ i, s.control i = .returned

theorem oddAddress_iff (address : ℤ) : oddAddress address = true ↔ Odd address := by
  rw [Int.odd_iff, oddAddress, decide_eq_true_eq, Int.tmod_eq_emod]
  split <;> omega

theorem oddAddress_eq_false_iff (address : ℤ) :
    oddAddress address = false ↔ Even address := by
  rw [← Bool.not_eq_true, oddAddress_iff, Int.not_odd_iff_even]

namespace FifoControl

variable (address : ℤ)

/-- A call that returns calls nothing. -/
theorem calledRx_afterRx :
    (afterRx address).calledRx address = rxOpening.calledRx address := by
  cases hOdd : oddAddress address <;> simp [afterRx, calledRx, hOdd]

theorem calledTx_afterRx :
    (afterRx address).calledTx address = rxOpening.calledTx address := by
  cases hOdd : oddAddress address <;> simp [afterRx, calledTx, hOdd]

theorem calledRx_afterTx :
    (afterTx address).calledRx address = txOpening.calledRx address := by
  cases hOdd : oddAddress address <;> simp [afterTx, calledRx, hOdd]

theorem calledTx_afterTx :
    (afterTx address).calledTx address = txOpening.calledTx address := by
  cases hOdd : oddAddress address <;> simp [afterTx, calledTx, hOdd]

theorem remaining_rxOpening_lt :
    rxOpening.remaining address < rx.remaining address := by
  cases hOdd : oddAddress address <;> simp [remaining, hOdd]

theorem remaining_afterRx_lt :
    (afterRx address).remaining address < rxOpening.remaining address := by
  cases hOdd : oddAddress address <;> simp [afterRx, remaining, hOdd]

theorem remaining_txOpening_lt :
    txOpening.remaining address < tx.remaining address := by
  cases hOdd : oddAddress address <;> simp [remaining, hOdd]

theorem remaining_afterTx_lt :
    (afterTx address).remaining address < txOpening.remaining address := by
  cases hOdd : oddAddress address <;> simp [afterTx, remaining, hOdd]

end FifoControl

section Invariant

variable {n : ℕ} {address : ZMod n → ℤ} {s : HandshakeState n}

/-- What has been called is what the processes have called. -/
structure HandshakeInv (address : ZMod n → ℤ) (s : HandshakeState n) : Prop where
  readCalled_eq : ∀ i, s.readCalled i = (s.control i).calledRx (address i)
  writeCalled_eq : ∀ i,
    s.writeCalled (i + 1) = (s.control i).calledTx (address i)

theorem handshakeInv_init :
    HandshakeInv address
      ⟨fun i => .start (address i), fun _ => false, fun _ => false⟩ where
  readCalled_eq i := by
    simp only [FifoControl.start]
    split <;> simp_all [FifoControl.calledRx]
  writeCalled_eq i := by
    simp only [FifoControl.start]
    split <;> simp_all [FifoControl.calledTx]

theorem handshakeInv_step {s' : HandshakeState n} (hInv : HandshakeInv address s)
    (hStep : HandshakeStep address s s') : HandshakeInv address s' := by
  obtain ⟨hRead, hWrite⟩ := hInv
  cases hStep with
  | callRx i hControl =>
      constructor
      · intro j
        rcases eq_or_ne j i with rfl | hNe
        · simp [FifoControl.calledRx]
        · simp [hNe, hRead j]
      · intro j
        rcases eq_or_ne j i with rfl | hNe
        · simp [FifoControl.calledTx, hWrite j, hControl]
        · simp [hNe, hWrite j]
  | returnRx i hControl _ =>
      constructor
      · intro j
        rcases eq_or_ne j i with rfl | hNe
        · dsimp only
          rw [Function.update_self, FifoControl.calledRx_afterRx, hRead j, hControl]
        · simp [hNe, hRead j]
      · intro j
        rcases eq_or_ne j i with rfl | hNe
        · dsimp only
          rw [Function.update_self, FifoControl.calledTx_afterRx, hWrite j, hControl]
        · simp [hNe, hWrite j]
  | callTx i hControl =>
      constructor
      · intro j
        rcases eq_or_ne j i with rfl | hNe
        · simp [FifoControl.calledRx, hRead j, hControl]
        · simp [hNe, hRead j]
      · intro j
        rcases eq_or_ne j i with rfl | hNe
        · simp [FifoControl.calledTx]
        · -- the pipes of different processes are different
          have hPipe : j + 1 ≠ i + 1 := fun h => hNe (add_right_cancel h)
          simp [hNe, hPipe, hWrite j]
  | returnTx i hControl _ =>
      constructor
      · intro j
        rcases eq_or_ne j i with rfl | hNe
        · dsimp only
          rw [Function.update_self, FifoControl.calledRx_afterTx, hRead j, hControl]
        · simp [hNe, hRead j]
      · intro j
        rcases eq_or_ne j i with rfl | hNe
        · dsimp only
          rw [Function.update_self, FifoControl.calledTx_afterTx, hWrite j, hControl]
        · simp [hNe, hWrite j]

theorem handshakeInv_reachable (hReach : (handshake address).Reachable s) :
    HandshakeInv address s := by
  refine hReach.invariant ?_ ?_
  · rintro s rfl
    exact handshakeInv_init
  · intro s s' hInv hStep
    exact handshakeInv_step hInv hStep

end Invariant

/-! ## Runs are bounded -/

section Measure

variable {n : ℕ} [NeZero n] {address : ZMod n → ℤ}

/-- Number of steps that are left to all processes together. -/
def handshakeRemaining (address : ZMod n → ℤ) (s : HandshakeState n) : ℕ :=
  ∑ i, (s.control i).remaining (address i)

/-- A process that gets on makes the number of steps that are left smaller. -/
theorem sum_remaining_lt {control : ZMod n → FifoControl} {i : ZMod n}
    {next : FifoControl}
    (hNext : next.remaining (address i) < (control i).remaining (address i)) :
    ∑ j, (Function.update control i next j).remaining (address j) <
      ∑ j, (control j).remaining (address j) := by
  apply Finset.sum_lt_sum
  · intro j _
    rcases eq_or_ne j i with rfl | hNe
    · rw [Function.update_self]
      exact Nat.le_of_lt hNext
    · rw [Function.update_of_ne hNe]
  · refine ⟨i, Finset.mem_univ i, ?_⟩
    rwa [Function.update_self]

theorem handshakeRemaining_decreases (s s' : HandshakeState n)
    (hStep : (handshake address).Step s s') :
    handshakeRemaining address s' < handshakeRemaining address s := by
  unfold handshakeRemaining
  cases hStep with
  | callRx i hControl =>
      apply sum_remaining_lt
      rw [hControl]
      exact FifoControl.remaining_rxOpening_lt _
  | returnRx i hControl _ =>
      apply sum_remaining_lt
      rw [hControl]
      exact FifoControl.remaining_afterRx_lt _
  | callTx i hControl =>
      apply sum_remaining_lt
      rw [hControl]
      exact FifoControl.remaining_txOpening_lt _
  | returnTx i hControl _ =>
      apply sum_remaining_lt
      rw [hControl]
      exact FifoControl.remaining_afterTx_lt _

end Measure

/-! ## Chains of waiting processes -/

section Stuck

variable {n : ℕ} {address : ZMod n → ℤ} {s : HandshakeState n}

/-- In a stuck state every process waits for an `open` that has not been called, or
has returned. -/
theorem stuck_cases (hStuck : (handshake address).Stuck s) (i : ZMod n) :
    (s.control i = .rxOpening ∧ s.writeCalled i = false) ∨
      (s.control i = .txOpening ∧ s.readCalled (i + 1) = false) ∨
      s.control i = .returned := by
  cases hControl : s.control i with
  | rx => exact absurd (HandshakeStep.callRx s i hControl) (hStuck _)
  | rxOpening =>
      cases hWrite : s.writeCalled i with
      | false => exact .inl ⟨rfl, rfl⟩
      | true => exact absurd (HandshakeStep.returnRx s i hControl hWrite) (hStuck _)
  | tx => exact absurd (HandshakeStep.callTx s i hControl) (hStuck _)
  | txOpening =>
      cases hRead : s.readCalled (i + 1) with
      | false => exact .inr (.inl ⟨rfl, rfl⟩)
      | true => exact absurd (HandshakeStep.returnTx s i hControl hRead) (hStuck _)
  | returned => exact .inr (.inr rfl)

variable (hInv : HandshakeInv address s) (hStuck : (handshake address).Stuck s)

include hInv hStuck

/-- Behind a process that waits to receive stands one with an even address that waits
to receive. -/
theorem waits_rx_pred {i : ZMod n} (hWaits : s.control (i + 1) = .rxOpening) :
    s.control i = .rxOpening ∧ oddAddress (address i) = false := by
  have hNotCalled : s.writeCalled (i + 1) = false := by
    rcases stuck_cases hStuck (i + 1) with ⟨-, h⟩ | ⟨h, -⟩ | h
    · exact h
    · rw [hWaits] at h
      cases h
    · rw [hWaits] at h
      cases h
  rw [hInv.writeCalled_eq i] at hNotCalled
  rcases stuck_cases hStuck i with ⟨h, -⟩ | ⟨h, -⟩ | h
  · rw [h] at hNotCalled
    exact ⟨h, hNotCalled⟩
  · rw [h] at hNotCalled
    cases hNotCalled
  · rw [h] at hNotCalled
    cases hNotCalled

/-- Before a process that waits to send stands one with an odd address that waits to
send. -/
theorem waits_tx_succ {i : ZMod n} (hWaits : s.control i = .txOpening) :
    s.control (i + 1) = .txOpening ∧ oddAddress (address (i + 1)) = true := by
  have hNotCalled : s.readCalled (i + 1) = false := by
    rcases stuck_cases hStuck i with ⟨h, -⟩ | ⟨-, h⟩ | h
    · rw [hWaits] at h
      cases h
    · exact h
    · rw [hWaits] at h
      cases h
  rw [hInv.readCalled_eq (i + 1)] at hNotCalled
  rcases stuck_cases hStuck (i + 1) with ⟨h, -⟩ | ⟨h, -⟩ | h
  · rw [h] at hNotCalled
    cases hNotCalled
  · rw [h] at hNotCalled
    exact ⟨h, by simpa [FifoControl.calledRx] using hNotCalled⟩
  · rw [h] at hNotCalled
    cases hNotCalled

/-- A stuck ring has finished, or all its addresses have one parity. -/
theorem stuck_parity [NeZero n] :
    AllReturned s ∨ (∀ i, oddAddress (address i) = false) ∨
      ∀ i, oddAddress (address i) = true := by
  by_cases hAll : AllReturned s
  · exact .inl hAll
  · right
    obtain ⟨i, hNot⟩ := not_forall.mp hAll
    rcases stuck_cases hStuck i with ⟨hRx, -⟩ | ⟨hTx, -⟩ | hReturned
    · left
      have hEverywhere : ∀ j, s.control j = .rxOpening :=
        forall_of_pred (fun j hj => (waits_rx_pred hInv hStuck hj).1) hRx
      intro j
      exact (waits_rx_pred hInv hStuck (hEverywhere (j + 1))).2
    · right
      have hEverywhere : ∀ j, s.control j = .txOpening :=
        forall_of_succ (fun j hj => (waits_tx_succ hInv hStuck hj).1) hTx
      intro j
      have hNext := (waits_tx_succ hInv hStuck (hEverywhere (j - 1))).2
      rwa [sub_add_cancel] at hNext
    · exact absurd hReturned hNot

end Stuck

/-! ## Addresses of one parity -/

section Parity

variable {n : ℕ} {address : ZMod n → ℤ} {s : HandshakeState n}

/-- Where all addresses are even no process gets behind its first `open`. -/
theorem waits_rx_of_even (hEven : ∀ i, oddAddress (address i) = false)
    (hReach : (handshake address).Reachable s) (i : ZMod n) :
    s.control i = .rx ∨ s.control i = .rxOpening := by
  have hWaits : (∀ i, s.control i = .rx ∨ s.control i = .rxOpening) ∧
      ∀ i, s.writeCalled i = false := by
    refine hReach.invariant (motive := fun s =>
      (∀ i, s.control i = .rx ∨ s.control i = .rxOpening) ∧
        ∀ i, s.writeCalled i = false) ?_ ?_
    · rintro s rfl
      exact ⟨fun i => .inl (by simp [FifoControl.start, hEven i]), fun _ => rfl⟩
    · rintro s s' ⟨hControl, hWrite⟩ hStep
      cases hStep with
      | callRx i _ =>
          refine ⟨fun j => ?_, hWrite⟩
          rcases eq_or_ne j i with rfl | hNe
          · simp
          · simpa [hNe] using hControl j
      | returnRx i _ hCalled =>
          rw [hWrite i] at hCalled
          cases hCalled
      | callTx i hTx =>
          rcases hControl i with h | h <;> rw [hTx] at h <;> cases h
      | returnTx i hTx _ =>
          rcases hControl i with h | h <;> rw [hTx] at h <;> cases h
  exact hWaits.1 i

/-- Where all addresses are odd no process gets behind its first `open`. -/
theorem waits_tx_of_odd (hOdd : ∀ i, oddAddress (address i) = true)
    (hReach : (handshake address).Reachable s) (i : ZMod n) :
    s.control i = .tx ∨ s.control i = .txOpening := by
  have hWaits : (∀ i, s.control i = .tx ∨ s.control i = .txOpening) ∧
      ∀ i, s.readCalled i = false := by
    refine hReach.invariant (motive := fun s =>
      (∀ i, s.control i = .tx ∨ s.control i = .txOpening) ∧
        ∀ i, s.readCalled i = false) ?_ ?_
    · rintro s rfl
      exact ⟨fun i => .inl (by simp [FifoControl.start, hOdd i]), fun _ => rfl⟩
    · rintro s s' ⟨hControl, hRead⟩ hStep
      cases hStep with
      | callRx i hRx =>
          rcases hControl i with h | h <;> rw [hRx] at h <;> cases h
      | returnRx i hRx _ =>
          rcases hControl i with h | h <;> rw [hRx] at h <;> cases h
      | callTx i _ =>
          refine ⟨fun j => ?_, hRead⟩
          rcases eq_or_ne j i with rfl | hNe
          · simp
          · simpa [hNe] using hControl j
      | returnTx i _ hCalled =>
          rw [hRead (i + 1)] at hCalled
          cases hCalled
  exact hWaits.1 i

/-- Processes with addresses of one parity never return. -/
theorem never_returned (hParity : (∀ i, oddAddress (address i) = false) ∨
      ∀ i, oddAddress (address i) = true)
    (hReach : (handshake address).Reachable s) (i : ZMod n) :
    s.control i ≠ .returned := by
  intro hReturned
  rcases hParity with hEven | hOdd
  · rcases waits_rx_of_even hEven hReach i with h | h <;> rw [hReturned] at h <;>
      cases h
  · rcases waits_tx_of_odd hOdd hReach i with h | h <;> rw [hReturned] at h <;>
      cases h

theorem neverFinishes_of_same
    (hSame : (∀ i, oddAddress (address i) = false) ∨
      ∀ i, oddAddress (address i) = true) :
    (handshake address).NeverFinishes AllReturned := by
  intro s hReach hAll
  exact never_returned hSame hReach 0 (hAll 0)

end Parity

/-! ## Deadlock freedom -/

section DeadlockFree

variable {n : ℕ} [NeZero n] {address : ZMod n → ℤ}

theorem deadlockFree_of_both
    (hBoth : (∃ i, Odd (address i)) ∧ ∃ j, Even (address j)) :
    (handshake address).DeadlockFree AllReturned := by
  obtain ⟨⟨i, hOdd⟩, j, hEven⟩ := hBoth
  intro s hReach
  by_cases hStuck : (handshake address).Stuck s
  · left
    rcases stuck_parity (handshakeInv_reachable hReach) hStuck with
      hAll | hAllEven | hAllOdd
    · exact hAll
    · rw [← oddAddress_iff, hAllEven i] at hOdd
      cases hOdd
    · rw [← oddAddress_eq_false_iff, hAllOdd j] at hEven
      cases hEven
  · right
    exact not_forall_not.mp hStuck

/-- With both parities every run can be continued to the end and is bounded. -/
theorem alwaysFinishes_of_both
    (hBoth : (∃ i, Odd (address i)) ∧ ∃ j, Even (address j)) :
    (handshake address).AlwaysFinishes AllReturned := by
  refine ⟨deadlockFree_of_both hBoth, handshakeRemaining address
    ⟨fun i => .start (address i), fun _ => false, fun _ => false⟩, ?_⟩
  rintro s₀ k s rfl hRun
  have hLength := hRun.length_add_le handshakeRemaining_decreases
  omega

/-- The handshake is free of deadlock exactly in rings with addresses of both
parities.  Two peers of opposite parity always finish, two of equal parity never
do. -/
theorem handshake_deadlockFree_iff (address : ZMod n → ℤ) :
    ((handshake address).DeadlockFree AllReturned ↔
      (∃ i, Odd (address i)) ∧ ∃ j, Even (address j)) ∧
    (∀ peer : ZMod 2 → ℤ,
      ((Odd (peer 0) ↔ Even (peer 1)) →
        (handshake peer).AlwaysFinishes AllReturned) ∧
      ((Odd (peer 0) ↔ Odd (peer 1)) →
        (handshake peer).NeverFinishes AllReturned)) := by
  constructor
  · constructor
    · intro hFree
      by_contra hNotBoth
      have hSame : (∀ i, oddAddress (address i) = false) ∨
          ∀ i, oddAddress (address i) = true := by
        rw [not_and_or, not_exists, not_exists] at hNotBoth
        rcases hNotBoth with hNoOdd | hNoEven
        · left
          intro i
          rw [oddAddress_eq_false_iff, ← Int.not_odd_iff_even]
          exact hNoOdd i
        · right
          intro i
          rw [oddAddress_iff, ← Int.not_even_iff_odd]
          exact hNoEven i
      -- some reachable state is stuck, and none is final
      obtain ⟨s, hReach, hStuck⟩ := (TransitionSystem.reachable_init
        (T := handshake address) rfl).exists_stuck handshakeRemaining_decreases
      rcases hFree s hReach with hAll | ⟨s', hStep⟩
      · exact neverFinishes_of_same hSame s hReach hAll
      · exact hStuck s' hStep
    · exact deadlockFree_of_both
  · intro peer
    constructor
    · intro hOpposite
      apply alwaysFinishes_of_both
      by_cases hOdd : Odd (peer 0)
      · exact ⟨⟨0, hOdd⟩, 1, hOpposite.mp hOdd⟩
      · have hNotEven : ¬ Even (peer 1) := fun h => hOdd (hOpposite.mpr h)
        exact ⟨⟨1, Int.not_even_iff_odd.mp hNotEven⟩, 0,
          Int.not_odd_iff_even.mp hOdd⟩
    · intro hEqual
      apply neverFinishes_of_same
      by_cases hOdd : Odd (peer 0)
      · right
        intro i
        rw [oddAddress_iff]
        fin_cases i
        · exact hOdd
        · exact hEqual.mp hOdd
      · left
        intro i
        rw [← Bool.not_eq_true, oddAddress_iff]
        fin_cases i
        · exact hOdd
        · exact fun h => hOdd (hEqual.mpr h)

end DeadlockFree

/-- Three processes, two of them with even addresses. -/
theorem handshake_three_processes :
    (handshake (fun i : ZMod 3 => (i.val : ℤ))).DeadlockFree AllReturned :=
  (handshake_deadlockFree_iff _).1.mpr ⟨⟨1, by decide⟩, 0, by decide⟩

end Loris
end CubeSatComm
