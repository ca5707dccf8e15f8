import CubeSatComm.Lib.LittleEndian

/-!
# Unsigned integers in big-endian byte order

The bytes of a field in network byte order, most significant first: those of the
little-endian field, reversed.
-/

namespace CubeSatComm
namespace Lib

/-- The value of a big-endian field. -/
def ofBigEndian (bytes : List UInt8) : Nat := ofLittleEndian bytes.reverse

/-- The bytes of a big-endian field of `width` bytes. -/
def toBigEndian (width value : Nat) : List UInt8 := (toLittleEndian width value).reverse

@[simp] theorem length_toBigEndian (width value : Nat) :
    (toBigEndian width value).length = width := by
  simp [toBigEndian]

theorem ofBigEndian_toBigEndian (width value : Nat) :
    ofBigEndian (toBigEndian width value) = value % 256 ^ width := by
  rw [ofBigEndian, toBigEndian, List.reverse_reverse, ofLittleEndian_toLittleEndian]

/-- Reading back what fits into the field. -/
theorem ofBigEndian_toBigEndian_of_lt {width value : Nat} (hLt : value < 256 ^ width) :
    ofBigEndian (toBigEndian width value) = value := by
  rw [ofBigEndian_toBigEndian, Nat.mod_eq_of_lt hLt]

/-- Only the lowest bytes of a value are stored. -/
theorem toBigEndian_mod (width value : Nat) :
    toBigEndian width (value % 256 ^ width) = toBigEndian width value := by
  rw [toBigEndian, toBigEndian, toLittleEndian_mod]

/-- Storing what has been read. -/
theorem toBigEndian_ofBigEndian (bytes : List UInt8) :
    toBigEndian bytes.length (ofBigEndian bytes) = bytes := by
  have hBytes := toLittleEndian_ofLittleEndian bytes.reverse
  rw [List.length_reverse] at hBytes
  rw [toBigEndian, ofBigEndian, hBytes, List.reverse_reverse]

theorem ofBigEndian_lt (bytes : List UInt8) : ofBigEndian bytes < 256 ^ bytes.length := by
  have hLt := ofLittleEndian_lt bytes.reverse
  rwa [List.length_reverse] at hLt

/-- Values that fit are told apart by their bytes. -/
theorem toBigEndian_inj {width value value' : Nat} (hLt : value < 256 ^ width)
    (hLt' : value' < 256 ^ width) :
    toBigEndian width value = toBigEndian width value' ↔ value = value' := by
  constructor
  · intro hEq
    rw [← ofBigEndian_toBigEndian_of_lt hLt, hEq, ofBigEndian_toBigEndian_of_lt hLt']
  · rintro rfl
    rfl

end Lib
end CubeSatComm
