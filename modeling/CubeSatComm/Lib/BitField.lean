import Mathlib.Data.BitVec

/-!
# Bit fields

A word that is made of fields, each of a size of its own and placed from a bit of its own
on.  A field that is read from such a word is what has been placed there, whatever the other
fields are, as long as no two of them overlap.
-/

namespace CubeSatComm
namespace Lib

variable {w : Nat}

/-- The lowest `size` bits. -/
def bitMask (w size : Nat) : BitVec w := BitVec.ofNat w (2 ^ size - 1)

/-- The field of `size` bits from the bit `low` on. -/
def bitField (word : BitVec w) (low size : Nat) : BitVec w := (word >>> low) &&& bitMask w size

/-- The word with a value in the field of `size` bits from the bit `low` on. -/
def bitPlace (value : BitVec w) (size low : Nat) : BitVec w := (value &&& bitMask w size) <<< low

@[simp] theorem getLsbD_bitMask (size i : Nat) :
    (bitMask w size).getLsbD i = (decide (i < w) && decide (i < size)) := by
  rw [bitMask, BitVec.getLsbD_ofNat, Nat.testBit_two_pow_sub_one]

@[simp] theorem getLsbD_bitField (word : BitVec w) (low size i : Nat) :
    (bitField word low size).getLsbD i = (word.getLsbD (low + i) && decide (i < size)) := by
  rw [bitField, BitVec.getLsbD_and, BitVec.getLsbD_ushiftRight, getLsbD_bitMask]
  by_cases hLt : i < w
  · simp only [hLt, decide_true, Bool.true_and]
  · have hOut : word.getLsbD (low + i) = false := BitVec.getLsbD_of_ge _ _ (by omega)
    simp only [hOut, Bool.false_and]

@[simp] theorem getLsbD_bitPlace (value : BitVec w) (size low i : Nat) :
    (bitPlace value size low).getLsbD i =
      (decide (i < w) && decide (low ≤ i) && decide (i < low + size) &&
        value.getLsbD (i - low)) := by
  rw [bitPlace, BitVec.getLsbD_shiftLeft, BitVec.getLsbD_and, getLsbD_bitMask]
  by_cases hLow : low ≤ i
  · have hSize : i - low < size ↔ i < low + size := by omega
    by_cases hLt : i < w
    · have hIn : i - low < w := by omega
      simp [hLt, hLow, hIn, hSize, Bool.and_comm]
    · simp [hLt]
  · have hBelow : i < low := by omega
    simp [hLow, hBelow]

theorem bitField_or (a b : BitVec w) (low size : Nat) :
    bitField (a ||| b) low size = bitField a low size ||| bitField b low size := by
  ext i hi
  simp [← BitVec.getLsbD_eq_getElem, Bool.and_or_distrib_right]

/-- What has been placed is read again. -/
theorem bitField_bitPlace (value : BitVec w) {size low : Nat} (hFits : low + size ≤ w) :
    bitField (bitPlace value size low) low size = value &&& bitMask w size := by
  ext i hi
  simp only [← BitVec.getLsbD_eq_getElem, getLsbD_bitField, getLsbD_bitPlace,
    BitVec.getLsbD_and, getLsbD_bitMask]
  by_cases hSize : i < size
  · have hIn : low + i < w := by omega
    simp [hIn, hSize, hi]
  · simp [hSize]

/-- What has been placed elsewhere is not. -/
theorem bitField_bitPlace_of_disjoint (value : BitVec w) {size low size' low' : Nat}
    (hDisjoint : low + size ≤ low' ∨ low' + size' ≤ low) :
    bitField (bitPlace value size' low') low size = 0 := by
  ext i hi
  simp only [← BitVec.getLsbD_eq_getElem, getLsbD_bitField, getLsbD_bitPlace]
  by_cases hSize : i < size
  · rcases hDisjoint with hBelow | hAbove
    · have hLow : ¬ low' ≤ low + i := by omega
      simp [hLow]
    · have hHigh : ¬ low + i < low' + size' := by omega
      simp [hHigh]
  · simp [hSize]

/-- A mask of whole fields keeps the fields that it has. -/
theorem bitPlace_and_self (value ones : BitVec w) {size low : Nat}
    (hOnes : ones &&& bitMask w size = bitMask w size) :
    bitPlace value size low &&& bitPlace ones size low = bitPlace value size low := by
  have hAll : bitPlace ones size low = bitMask w size <<< low := by rw [bitPlace, hOnes]
  rw [hAll, bitPlace]
  ext i hi
  simp only [← BitVec.getLsbD_eq_getElem, BitVec.getLsbD_and, BitVec.getLsbD_shiftLeft]
  grind

/-- And it takes the others out. -/
theorem bitPlace_and_of_disjoint (value value' : BitVec w) {size low size' low' : Nat}
    (hDisjoint : low + size ≤ low' ∨ low' + size' ≤ low) :
    bitPlace value size low &&& bitPlace value' size' low' = 0 := by
  ext i hi
  simp only [← BitVec.getLsbD_eq_getElem, BitVec.getLsbD_and, getLsbD_bitPlace]
  by_cases hIn : low ≤ i ∧ i < low + size
  · rcases hDisjoint with hBelow | hAbove
    · have hLow : ¬ low' ≤ i := by omega
      simp [hLow]
    · have hHigh : ¬ i < low' + size' := by omega
      simp [hHigh]
  · rcases not_and_or.mp hIn with hLow | hHigh
    · simp [hLow]
    · simp [hHigh]

end Lib
end CubeSatComm
