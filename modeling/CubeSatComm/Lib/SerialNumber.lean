import Mathlib.Data.BitVec

/-!
# Serial numbers

Numbers that are counted modulo `2 ^ w` from a first one on, and the two comparisons that
are made of them: whether a number lies in an interval, by the distances from its lower
end, and whether it is before another one, by the sign of the difference.  Either tells
the truth about the numbers that are counted as long as they are close enough to one
another.
-/

namespace CubeSatComm
namespace Lib

variable {w : Nat}

/-- The `k`-th serial number behind `first`. -/
def serial (first : BitVec w) (k : Nat) : BitVec w := first + BitVec.ofNat w k

/-- `number` lies between `lower` and `upper`. -/
def serialBetween (number lower upper : BitVec w) : Bool :=
  number - lower ≤ upper - lower

/-- `number` is before `other`. -/
def serialBefore (number other : BitVec w) : Bool := (number - other).msb

variable {first : BitVec w}

@[simp] theorem serial_zero : serial first 0 = first := by simp [serial]

theorem serial_add (k j : Nat) : serial first k + BitVec.ofNat w j = serial first (k + j) := by
  rw [serial, serial, BitVec.add_assoc, BitVec.ofNat_add]

theorem serial_succ (k : Nat) : serial first k + 1 = serial first (k + 1) :=
  serial_add k 1

theorem serial_sub_one (k : Nat) : serial first (k + 1) - 1 = serial first k := by
  rw [← serial_succ, BitVec.add_sub_cancel]

/-- The counting starts again after the modulus. -/
theorem serial_add_two_pow (k : Nat) : serial first (k + 2 ^ w) = serial first k := by
  have hZero : BitVec.ofNat w (2 ^ w) = 0#w := by
    rw [← BitVec.toNat_inj, BitVec.toNat_ofNat, Nat.mod_self, BitVec.toNat_zero]
  rw [← serial_add, hZero, BitVec.add_zero]

/-- The distance of two serial numbers, of which the first may have been counted past the
modulus. -/
theorem serial_add_sub (j d : Nat) :
    serial first (j + d) - serial first j = BitVec.ofNat w d := by
  rw [← serial_add, BitVec.add_comm, BitVec.add_sub_cancel]

theorem serial_sub_of_le {k j : Nat} (hLe : j ≤ k) (hNear : k < j + 2 ^ w) :
    (serial first k - serial first j).toNat = k - j := by
  have hSum : k = j + (k - j) := by omega
  rw [hSum, serial_add_sub, BitVec.toNat_ofNat, Nat.mod_eq_of_lt (by omega)]
  omega

theorem serial_sub_of_lt {k j : Nat} (hLt : k < j) (hNear : j ≤ k + 2 ^ w) :
    (serial first k - serial first j).toNat = k + 2 ^ w - j := by
  rw [← serial_add_two_pow]
  exact serial_sub_of_le hNear (by omega)

/-- Numbers that are less than the modulus apart are told apart. -/
theorem serial_inj_of_lt {k j : Nat} (hLow : j < k + 2 ^ w) (hHigh : k < j + 2 ^ w) :
    serial first k = serial first j ↔ k = j := by
  constructor
  · intro hEq
    have hZero : (serial first k - serial first j).toNat = 0 := by
      rw [hEq, BitVec.sub_self, BitVec.toNat_zero]
    rcases Nat.lt_or_ge k j with hLt | hLe
    · rw [serial_sub_of_lt hLt (by omega)] at hZero
      omega
    · rw [serial_sub_of_le hLe hHigh] at hZero
      omega
  · rintro rfl
    rfl

/-- A number is found in an interval that is shorter than the modulus, if no other number
could be mistaken for it. -/
theorem serialBetween_iff {k a b : Nat} (hLe : a ≤ b) (hHigh : k < a + 2 ^ w)
    (hLow : b < k + 2 ^ w) (hShort : b < a + 2 ^ w) :
    serialBetween (serial first k) (serial first a) (serial first b) ↔ a ≤ k ∧ k ≤ b := by
  rw [serialBetween, decide_eq_true_iff, BitVec.le_def, serial_sub_of_le hLe hShort]
  rcases Nat.lt_or_ge k a with hLt | hGe
  · rw [serial_sub_of_lt hLt (by omega)]
    omega
  · rw [serial_sub_of_le hGe hHigh]
    omega

/-- A number is before another one, if they are less than half of the modulus apart. -/
theorem serialBefore_iff {k j : Nat} (hLow : j < k + 2 ^ (w - 1)) (hHigh : k < j + 2 ^ (w - 1)) :
    serialBefore (serial first k) (serial first j) ↔ k < j := by
  rcases Nat.eq_zero_or_pos w with rfl | hWidth
  · have hEq : k = j := by
      simp at hLow hHigh
      omega
    simp [hEq, serialBefore]
  · have hHalf : 2 ^ w = 2 * 2 ^ (w - 1) := by
      rw [← Nat.pow_succ', Nat.succ_eq_add_one, Nat.sub_add_cancel hWidth]
    rw [serialBefore, BitVec.msb_eq_decide, decide_eq_true_iff]
    rcases Nat.lt_or_ge k j with hLt | hGe
    · rw [serial_sub_of_lt hLt (by omega)]
      omega
    · rw [serial_sub_of_le hGe (by omega)]
      omega

end Lib
end CubeSatComm
