import Mathlib.Data.UInt
import Mathlib.Data.Nat.ModEq

/-!
# Unsigned integers in little-endian byte order

The bytes of a field of an unsigned type, least significant first, and the value
that such bytes stand for.  Storing a value into a field of `width` bytes keeps it
modulo `256 ^ width`.
-/

namespace CubeSatComm
namespace Lib

/-- The value of a little-endian field. -/
def ofLittleEndian : List UInt8 → Nat
  | [] => 0
  | byte :: rest => byte.toNat + 256 * ofLittleEndian rest

/-- The bytes of a little-endian field of `width` bytes. -/
def toLittleEndian : Nat → Nat → List UInt8
  | 0, _ => []
  | width + 1, value => UInt8.ofNat value :: toLittleEndian width (value / 256)

@[simp] theorem length_toLittleEndian (width value : Nat) :
    (toLittleEndian width value).length = width := by
  induction width generalizing value with
  | zero => rfl
  | succ width ih => rw [toLittleEndian, List.length_cons, ih]

theorem ofLittleEndian_toLittleEndian (width value : Nat) :
    ofLittleEndian (toLittleEndian width value) = value % 256 ^ width := by
  induction width generalizing value with
  | zero => simp [toLittleEndian, ofLittleEndian, Nat.mod_one]
  | succ width ih =>
      have hByte : (UInt8.ofNat value).toNat = value % 256 := UInt8.toNat_ofNat'
      rw [toLittleEndian, ofLittleEndian, ih, hByte, Nat.pow_succ',
        Nat.mod_mul]

/-- Only the lowest bytes of a value are stored. -/
theorem toLittleEndian_mod (width value : Nat) :
    toLittleEndian width (value % 256 ^ width) = toLittleEndian width value := by
  induction width generalizing value with
  | zero => rfl
  | succ width ih =>
      have hByte : UInt8.ofNat (value % 256 ^ (width + 1)) = UInt8.ofNat value := by
        rw [← UInt8.toNat_inj, UInt8.toNat_ofNat', UInt8.toNat_ofNat', Nat.pow_succ',
          Nat.mod_mul_right_mod]
      rw [toLittleEndian, toLittleEndian, hByte, Nat.pow_succ', Nat.mod_mul_right_div_self, ih]

/-- Storing what has been read. -/
theorem toLittleEndian_ofLittleEndian (bytes : List UInt8) :
    toLittleEndian bytes.length (ofLittleEndian bytes) = bytes := by
  induction bytes with
  | nil => rfl
  | cons byte bytes ih =>
      have hLt := byte.toNat_lt
      have hByte : UInt8.ofNat (byte.toNat + 256 * ofLittleEndian bytes) = byte := by
        rw [← UInt8.toNat_inj, UInt8.toNat_ofNat']
        omega
      have hRest : (byte.toNat + 256 * ofLittleEndian bytes) / 256 = ofLittleEndian bytes := by
        omega
      rw [List.length_cons, ofLittleEndian, toLittleEndian, hByte, hRest, ih]

theorem ofLittleEndian_lt (bytes : List UInt8) :
    ofLittleEndian bytes < 256 ^ bytes.length := by
  induction bytes with
  | nil => simp [ofLittleEndian]
  | cons byte bytes ih =>
      have hLt := byte.toNat_lt
      rw [ofLittleEndian, List.length_cons, Nat.pow_succ']
      omega

end Lib
end CubeSatComm
