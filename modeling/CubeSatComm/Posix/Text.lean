import CubeSatComm.Lib.Lines
import CubeSatComm.Lib.Memory
import CubeSatComm.Posix.Stdio

/-!
# Strings in buffers: `strcmp`, `strlen` and `fgets`

A string is the front of a memory region up to its first NUL (`cString`).  A region
that has no NUL stands for the whole array: what lies in memory behind an array is not
known, and a function that goes on there is taken to find a NUL.
-/

namespace CubeSatComm
namespace Posix

open Lib

/-- `'\n'` -/
def newlineChar : UInt8 := 10

/-- `strcmp` -/
def strcmp : List UInt8 → List UInt8 → Int
  | [], [] => 0
  | [], b :: _ => -(b.toNat : Int)
  | a :: _, [] => a.toNat
  | a :: as, b :: bs =>
      if a = b then
        if a = 0 then 0 else strcmp as bs
      else
        (a.toNat : Int) - b.toNat

/-- `strlen` -/
def strlen (region : List UInt8) : Nat := (cString region).length

/-- `fgets(buffer, size, stdin)`: the memory behind `buffer`, and what is left to be
read.  At the end of the file the buffer stays as it is. -/
def fgets (buffer : List UInt8) (size : Nat) (stdin : List UInt8) :
    List UInt8 × List UInt8 :=
  if stdin = [] then
    (buffer, stdin)
  else
    let text := (line newlineChar stdin).take (size - 1)
    (store buffer 0 (text ++ [0]), stdin.drop text.length)

theorem no_nul_of_not_mem {text : List UInt8} (hNul : 0 ∉ text) : ∀ c ∈ text, c ≠ 0 := by
  rintro c hMem rfl
  exact hNul hMem

theorem toNat_eq_zero_iff (c : UInt8) : (c.toNat : Int) = 0 ↔ c = 0 := by
  rw [Int.natCast_eq_zero, ← UInt8.toNat_inj]
  rfl

/-- `strcmp` returns `0` exactly if the strings are equal. -/
theorem strcmp_eq_zero_iff (a b : List UInt8) :
    strcmp a b = 0 ↔ cString a = cString b := by
  induction a generalizing b with
  | nil =>
      cases b with
      | nil => simp [strcmp]
      | cons y ys =>
          rw [strcmp, Int.neg_eq_zero, toNat_eq_zero_iff]
          by_cases hNul : y = 0
          · simp [cString, hNul]
          · simp [cString, hNul]
  | cons x xs ih =>
      cases b with
      | nil =>
          rw [strcmp, toNat_eq_zero_iff]
          by_cases hNul : x = 0
          · simp [cString, hNul]
          · simp [cString, hNul]
      | cons y ys =>
          rw [strcmp]
          by_cases hEq : x = y
          · rw [if_pos hEq, ← hEq]
            by_cases hNul : x = 0
            · simp [cString, hNul]
            · rw [if_neg hNul, ih]
              simp [cString, hNul]
          · have hDiffers : (x.toNat : Int) - y.toNat ≠ 0 := by
              intro hZero
              apply hEq
              rw [← UInt8.toNat_inj]
              omega
            rw [if_neg hEq]
            refine iff_of_false hDiffers ?_
            by_cases hX : x = 0
            · by_cases hY : y = 0
              · exact absurd (hX.trans hY.symm) hEq
              · simp [cString, hX, hY]
            · by_cases hY : y = 0
              · simp [cString, hX, hY]
              · simp [cString, hX, hY, hEq]

/-- The string of a region that is longer than a text is that text exactly if the region
begins with it and its NUL. -/
theorem cString_eq_iff {text region : List UInt8} (hText : ∀ c ∈ text, c ≠ 0)
    (hLength : text.length < region.length) :
    cString region = text ↔ text ++ [0] <+: region := by
  induction text generalizing region with
  | nil =>
      cases region with
      | nil => exact absurd hLength (Nat.lt_irrefl 0)
      | cons c region =>
          by_cases hNul : c = 0
          · simp [cString, hNul]
          · simp [cString, hNul, Ne.symm hNul]
  | cons x text ih =>
      cases region with
      | nil => exact absurd hLength (Nat.not_lt_zero _)
      | cons c region =>
          rw [List.forall_mem_cons] at hText
          have hRest := ih hText.2 (Nat.lt_of_succ_lt_succ hLength)
          rw [List.cons_append, List.cons_prefix_cons, ← hRest]
          by_cases hNul : c = 0
          · simp [cString, hNul, hText.1]
          · have hCons : cString (c :: region) = c :: cString region := by
              simp [cString, hNul]
            rw [hCons, List.cons.injEq, eq_comm]

/-- A text that is stored with its NUL is the string at the front. -/
theorem cString_store {text : List UInt8} (hText : ∀ c ∈ text, c ≠ 0)
    (buffer : List UInt8) : cString (store buffer 0 (text ++ [0])) = text := by
  rw [store_zero, List.append_assoc, List.singleton_append, cString_append_eq_iff hText]

end Posix
end CubeSatComm
