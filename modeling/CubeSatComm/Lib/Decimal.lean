import Mathlib.Data.Nat.Digits.Lemmas

/-!
# Decimal numerals in ASCII

Numerals as byte strings, most significant digit first, without leading zeros.
`numeral` prints a number, `value` reads a string of digits; the arithmetic is
that of `Nat.digits` and `Nat.ofDigits`.
-/

namespace CubeSatComm
namespace Lib
namespace Decimal

/-- The ASCII character of a digit. -/
def digitChar (d : Nat) : UInt8 := UInt8.ofNat (48 + d)

/-- The value of an ASCII digit. -/
def digitValue (c : UInt8) : Nat := c.toNat - 48

/-- `'0' <= c && c <= '9'` -/
def isDigit (c : UInt8) : Bool := 48 ≤ c && c ≤ 57

/-- The decimal numeral of `n`. -/
def numeral (n : Nat) : List UInt8 :=
  if n = 0 then [digitChar 0] else ((Nat.digits 10 n).map digitChar).reverse

/-- The number that a string of digits stands for. -/
def value (digits : List UInt8) : Nat :=
  Nat.ofDigits 10 (digits.reverse.map digitValue)

theorem toNat_digitChar {d : Nat} (hDigit : d < 10) :
    (digitChar d).toNat = 48 + d := by
  rw [digitChar, UInt8.toNat_ofNat']
  exact Nat.mod_eq_of_lt (by omega)

theorem digitValue_digitChar {d : Nat} (hDigit : d < 10) :
    digitValue (digitChar d) = d := by
  rw [digitValue, toNat_digitChar hDigit]
  omega

theorem isDigit_digitChar {d : Nat} (hDigit : d < 10) :
    isDigit (digitChar d) = true := by
  have hNat := toNat_digitChar hDigit
  have hLow : (48 : UInt8).toNat = 48 := rfl
  have hHigh : (57 : UInt8).toNat = 57 := rfl
  simp only [isDigit, Bool.and_eq_true, decide_eq_true_eq, UInt8.le_iff_toNat_le,
    hNat, hLow, hHigh]
  omega

theorem isDigit_of_mem_numeral {n : Nat} {c : UInt8} (hMem : c ∈ numeral n) :
    isDigit c = true := by
  unfold numeral at hMem
  split at hMem
  · rw [List.mem_singleton] at hMem
    subst hMem
    decide
  · rw [List.mem_reverse, List.mem_map] at hMem
    obtain ⟨d, hDigit, rfl⟩ := hMem
    exact isDigit_digitChar (Nat.digits_lt_base (by decide) hDigit)

theorem numeral_ne_nil (n : Nat) : numeral n ≠ [] := by
  unfold numeral
  split
  · simp
  · next hNe => simpa [Nat.digits_eq_nil_iff_eq_zero] using hNe

/-- Printing and reading back. -/
theorem value_numeral (n : Nat) : value (numeral n) = n := by
  unfold numeral value
  split
  · next hZero =>
    subst hZero
    rfl
  · have hDigits : (Nat.digits 10 n).map (digitValue ∘ digitChar) =
        Nat.digits 10 n := by
      conv_rhs => rw [← List.map_id (Nat.digits 10 n)]
      refine List.map_congr_left fun d hMem => ?_
      exact digitValue_digitChar (Nat.digits_lt_base (by decide) hMem)
    rw [List.reverse_reverse, List.map_map, hDigits, Nat.ofDigits_digits]

theorem length_numeral_le {n k : Nat} (hPos : 0 < k) (hLt : n < 10 ^ k) :
    (numeral n).length ≤ k := by
  unfold numeral
  split
  · exact hPos
  · rw [List.length_reverse, List.length_map]
    exact (Nat.digits_length_le_iff (by decide) n).mpr hLt

/-- A numeral is the run of digits at the front of any text that goes on with
something else. -/
theorem takeWhile_isDigit_numeral (n : Nat) {rest : List UInt8}
    (hRest : rest.takeWhile isDigit = []) :
    (numeral n ++ rest).takeWhile isDigit = numeral n := by
  rw [List.takeWhile_append_of_pos fun c hMem => isDigit_of_mem_numeral hMem,
    hRest, List.append_nil]

end Decimal
end Lib
end CubeSatComm
