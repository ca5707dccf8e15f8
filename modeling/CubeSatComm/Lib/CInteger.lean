import Mathlib.Algebra.Ring.Int.Defs
import Mathlib.Algebra.Ring.Nat

/-!
# C integer conversions

The conversions that the usual arithmetic conversions of C insert between a
64-bit `size_t` and a 32-bit `int`.  A `size_t` value is a natural number below
`2 ^ 64`, an `int` value an integer between `-2 ^ 31` and `2 ^ 31 - 1`; both
conversions reduce modulo the width of their target.
-/

namespace CubeSatComm
namespace Lib
namespace CInteger

/-- `INT_MAX` of a 32-bit `int`. -/
def intMax : Nat := 2 ^ 31 - 1

/-- Number of values of a 64-bit `size_t`. -/
def sizeRange : Nat := 2 ^ 64

/-- Conversion of an integer value to `size_t`. -/
def sizeT (x : Int) : Nat := (x % 2 ^ 64).toNat

/-- Conversion of an integer value to `int`: the representative modulo `2 ^ 32`
that lies in the range of the type. -/
def int32 (x : Int) : Int := (x + 2 ^ 31) % 2 ^ 32 - 2 ^ 31

theorem sizeT_of_nonneg {x : Int} (hNonneg : 0 ≤ x) (hLt : x < 2 ^ 64) :
    sizeT x = x.toNat := by
  unfold sizeT
  omega

@[simp] theorem sizeT_natCast {n : Nat} (hLt : n < sizeRange) :
    sizeT (n : Int) = n := by
  unfold sizeRange at hLt
  rw [sizeT_of_nonneg (by omega) (by omega)]
  rfl

theorem sizeT_neg_one : sizeT (-1) = sizeRange - 1 := by
  decide

theorem int32_of_range {x : Int} (hLow : -2 ^ 31 ≤ x) (hHigh : x < 2 ^ 31) :
    int32 x = x := by
  unfold int32
  omega

theorem int32_natCast {n : Nat} (hLe : n ≤ intMax) : int32 (n : Int) = n := by
  unfold intMax at hLe
  exact int32_of_range (by omega) (by omega)

/-- `return` of a `size_t` that holds a converted `-1` gives `-1` back. -/
@[simp] theorem int32_sizeT_neg_one : int32 (sizeT (-1)) = -1 := by
  decide

theorem intMax_lt_sizeRange : intMax < sizeRange := by
  decide

end CInteger
end Lib
end CubeSatComm
