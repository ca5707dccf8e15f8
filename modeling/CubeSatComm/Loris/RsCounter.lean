import CubeSatComm.Loris.RsDecodeCalls
import CubeSatComm.Loris.RsReader

/-!
# The counter of the decoding loop

After how many decoded bytes the loop of `antenna_read_rs_fd` ends, for every
`read_len` that a `size_t` holds.  The counter is an `int`; beyond `INT_MAX` it is
negative, and the test takes it for a huge `size_t`.  So a call for more than `INT_MAX`
bytes ends, as a rule, with the first byte beyond, and it returns a negative value.
-/

namespace CubeSatComm
namespace Loris

open Lib CInteger Posix

/-- What the conversion of a negative `int` to a `size_t` adds to the number that was
reduced to this `int`. -/
def wrapOffset : Nat := 2 ^ 64 - 2 ^ 32

/-- The number of decoded bytes with which the loop ends. -/
def rsStopsAt (readLen : Nat) : Nat :=
  if readLen ≤ intMax then readLen else max (intMax + 1) (readLen - wrapOffset)

theorem rsStopsAt_of_le {readLen : Nat} (hMax : readLen ≤ intMax) :
    rsStopsAt readLen = readLen := if_pos hMax

theorem rsStopsAt_of_lt {readLen : Nat} (hMax : intMax < readLen) :
    rsStopsAt readLen = max (intMax + 1) (readLen - wrapOffset) :=
  if_neg (Nat.not_le_of_lt hMax)

/-! ## Conversions beyond `INT_MAX` -/

theorem int32_int32_add (x y : Int) : int32 (int32 x + y) = int32 (x + y) := by
  unfold int32
  omega

theorem int32_wrapped {n : Nat} (hLow : intMax < n) (hHigh : n < 2 ^ 32) :
    int32 (n : Int) = (n : Int) - 2 ^ 32 := by
  unfold intMax at hLow
  unfold int32
  omega

theorem sizeT_wrapped {n : Nat} (hHigh : n < 2 ^ 32) :
    sizeT ((n : Int) - 2 ^ 32) = n + wrapOffset := by
  unfold sizeT wrapOffset
  omega

/-- What the test of the loop takes the counter for. -/
theorem sizeT_int32_cases {n : Nat} (hHigh : n < 2 ^ 32) :
    (n ≤ intMax ∧ sizeT (int32 (n : Int)) = n) ∨
      (intMax < n ∧ sizeT (int32 (n : Int)) = n + wrapOffset ∧
        int32 (n : Int) < 0) := by
  rcases Nat.lt_or_ge intMax n with hBeyond | hMax
  · right
    rw [int32_wrapped hBeyond hHigh, sizeT_wrapped hHigh]
    exact ⟨hBeyond, rfl, by omega⟩
  · left
    rw [int32_natCast hMax, sizeT_natCast (Nat.lt_of_le_of_lt hMax (by decide))]
    exact ⟨hMax, rfl⟩

/-! ## One pass -/

section Pass

variable {readLen t m : Nat}

/-- The counter behind a pass that decodes `m` bytes with room for `room`. -/
theorem rsCounter_eq {room : Nat} (hM : m ≤ rsBlockLen)
    (hRoom : sizeT ((readLen : Int) - int32 t) = room) :
    int32 (int32 t + bytesToCopy readLen (int32 t) m) =
      int32 (t + min m room : Nat) := by
  have hNew : sizeT (m : Int) = m :=
    sizeT_natCast (Nat.lt_of_le_of_lt hM (by decide))
  have hFits : m ≤ intMax := Nat.le_trans hM rsBlockLen_le_intMax
  have hCount : bytesToCopy readLen (int32 t) m = (min m room : Nat) := by
    unfold bytesToCopy
    simp only [hRoom, hNew]
    split
    · next hLt => rw [int32_natCast hFits, Nat.min_eq_left (Nat.le_of_lt hLt)]
    · next hLt =>
      have hLe : room ≤ m := Nat.le_of_not_lt hLt
      rw [int32_natCast (Nat.le_trans hLe hFits), Nat.min_eq_right hLe]
  rw [hCount, int32_int32_add, ← Int.natCast_add]

/-- The room that is left, up to `INT_MAX`, -/
theorem rsRoom_of_le (hLen : readLen < sizeRange) (hT : t ≤ intMax)
    (hLe : t ≤ readLen) : sizeT ((readLen : Int) - int32 t) = readLen - t := by
  rw [int32_natCast hT, ← Int.natCast_sub hLe,
    sizeT_natCast (Nat.lt_of_le_of_lt (Nat.sub_le _ _) hLen)]

/-- and beyond. -/
theorem rsRoom_of_lt (hLen : readLen < sizeRange) (hT : intMax < t)
    (hLt : t < readLen - wrapOffset) :
    sizeT ((readLen : Int) - int32 t) = readLen - wrapOffset - t := by
  unfold sizeRange at hLen
  unfold wrapOffset at hLt ⊢
  rw [int32_wrapped hT (by omega)]
  unfold sizeT
  omega

/-- The number that the counter stands for behind a pass, up to `INT_MAX`, -/
theorem rsReached_of_le {top wrap stop : Nat} (hLe : t ≤ readLen)
    (hSmall : readLen ≤ top → stop = readLen)
    (hLarge : top < readLen → stop = max (top + 1) (readLen - wrap)) :
    (t + m < stop → t + min m (readLen - t) = t + m ∧
      (t + m ≤ top → t + m < readLen) ∧ (top < t + m → t + m + wrap < readLen)) ∧
    (stop ≤ t + m →
      (t + min m (readLen - t) ≤ top → readLen ≤ t + min m (readLen - t)) ∧
      (top < t + min m (readLen - t) → readLen ≤ t + min m (readLen - t) + wrap) ∧
      (top < readLen → top < t + min m (readLen - t))) := by
  rcases Nat.lt_or_ge top readLen with hBeyond | hMax
  · have hStop := hLarge hBeyond
    omega
  · have hStop := hSmall hMax
    omega

/-- and beyond. -/
theorem rsReached_of_lt {top wrap : Nat} (hT : top < t) (hLt : t < readLen - wrap) :
    (t + m < readLen - wrap →
      t + min m (readLen - wrap - t) = t + m ∧ t + m + wrap < readLen) ∧
    (readLen - wrap ≤ t + m →
      top < t + min m (readLen - wrap - t) ∧
        readLen ≤ t + min m (readLen - wrap - t) + wrap) := by
  omega

end Pass

/-- What a pass makes of the counter.  Below `rsStopsAt` it counts, and the loop goes
on; with that number the loop ends, and beyond `INT_MAX` with a negative counter. -/
theorem rsCounter_step {readLen t m : Nat} (hLen : readLen < sizeRange)
    (hBelow : t < rsStopsAt readLen ∨ t = 0) (hM : m ≤ rsBlockLen) :
    (t + m < rsStopsAt readLen →
      int32 (int32 t + bytesToCopy readLen (int32 t) m) = int32 (t + m : Nat) ∧
        sizeT (int32 (t + m : Nat)) < readLen) ∧
    (rsStopsAt readLen ≤ t + m →
      readLen ≤ sizeT (int32 (int32 t + bytesToCopy readLen (int32 t) m)) ∧
        (intMax < readLen →
          int32 (int32 t + bytesToCopy readLen (int32 t) m) < 0)) := by
  rcases Nat.lt_or_ge intMax t with hT | hT
  · have hMax : intMax < readLen := by
      by_contra hLe
      rw [rsStopsAt_of_le (Nat.le_of_not_lt hLe)] at hBelow
      omega
    rw [rsStopsAt_of_lt hMax] at hBelow
    have hLt : t < readLen - wrapOffset := by omega
    have hStop : rsStopsAt readLen = readLen - wrapOffset := by
      rw [rsStopsAt_of_lt hMax]
      omega
    obtain ⟨hOn, hEnd⟩ := @rsReached_of_lt readLen t m intMax wrapOffset hT hLt
    rw [rsCounter_eq hM (rsRoom_of_lt hLen hT hLt), hStop]
    have hHigh : t + min m (readLen - wrapOffset - t) < 2 ^ 32 := by
      unfold sizeRange at hLen
      unfold wrapOffset at hLt ⊢
      omega
    have hSeen := sizeT_int32_cases hHigh
    constructor
    · intro hRoom
      obtain ⟨hSum, hLess⟩ := hOn hRoom
      rw [hSum] at hSeen ⊢
      refine ⟨rfl, ?_⟩
      rcases hSeen with ⟨hLow, -⟩ | ⟨-, hValue, -⟩
      · omega
      · rw [hValue]
        exact hLess
    · intro hFull
      obtain ⟨hHighEnd, hReach⟩ := hEnd hFull
      rcases hSeen with ⟨hLow, -⟩ | ⟨-, hValue, hNegative⟩
      · omega
      · rw [hValue]
        exact ⟨hReach, fun _ => hNegative⟩
  · have hLe : t ≤ readLen := by
      rcases Nat.lt_or_ge intMax readLen with hMax | hMax
      · omega
      · rw [rsStopsAt_of_le hMax] at hBelow
        omega
    obtain ⟨hOn, hEnd⟩ := @rsReached_of_le readLen t m intMax wrapOffset _ hLe
      rsStopsAt_of_le rsStopsAt_of_lt
    rw [rsCounter_eq hM (rsRoom_of_le hLen hT hLe)]
    have hHigh : t + min m (readLen - t) < 2 ^ 32 := by
      unfold intMax at hT
      unfold rsBlockLen at hM
      omega
    have hSeen := sizeT_int32_cases hHigh
    constructor
    · intro hRoom
      obtain ⟨hSum, hLow, hBeyond⟩ := hOn hRoom
      rw [hSum] at hSeen ⊢
      refine ⟨rfl, ?_⟩
      rcases hSeen with ⟨hMax, hValue⟩ | ⟨hMax, hValue, -⟩
      · rw [hValue]
        exact hLow hMax
      · rw [hValue]
        exact hBeyond hMax
    · intro hFull
      obtain ⟨hLow, hBeyond, hNegative⟩ := hEnd hFull
      rcases hSeen with ⟨hMax, hValue⟩ | ⟨hMax, hValue, hSign⟩
      · rw [hValue]
        exact ⟨hLow hMax, fun hLarge => absurd (hNegative hLarge) (by omega)⟩
      · rw [hValue]
        exact ⟨hBeyond hMax, fun _ => hSign⟩

end Loris
end CubeSatComm
