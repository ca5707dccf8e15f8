import Mathlib.Data.UInt

/-!
# Stream ciphers

A stream cipher combines each byte of the data with the byte of a keystream at the same
position.  Doing so twice gives the data back; and where the keystream has the same byte
at two positions, the two bytes of the data differ as those of the cipher text do.
-/

namespace CubeSatComm
namespace Lib

/-- The data, combined byte by byte with the keystream. -/
def xorStream (stream : Nat → UInt8) (data : List UInt8) : List UInt8 :=
  data.mapIdx fun i byte => byte ^^^ stream i

section XorStream

variable (stream : Nat → UInt8) (data : List UInt8)

@[simp] theorem length_xorStream : (xorStream stream data).length = data.length := by
  simp [xorStream]

@[simp] theorem xorStream_nil : xorStream stream [] = [] := rfl

theorem getElem?_xorStream (i : Nat) :
    (xorStream stream data)[i]? = data[i]?.map (· ^^^ stream i) := by
  simp [xorStream, List.getElem?_mapIdx]

/-- Deciphering is ciphering. -/
@[simp] theorem xorStream_xorStream : xorStream stream (xorStream stream data) = data := by
  apply List.ext_getElem?
  intro i
  rw [getElem?_xorStream, getElem?_xorStream, Option.map_map]
  cases data[i]? with
  | none => rfl
  | some byte =>
      show some ((byte ^^^ stream i) ^^^ stream i) = some byte
      rw [UInt8.xor_assoc, UInt8.xor_self, UInt8.xor_zero]

theorem xorStream_append (data' : List UInt8) :
    xorStream stream (data ++ data') =
      xorStream stream data ++ xorStream (fun i => stream (i + data.length)) data' := by
  simp [xorStream, List.mapIdx_append]

variable {stream data}

theorem getD_xorStream {i : Nat} (hi : i < data.length) :
    (xorStream stream data).getD i 0 = data.getD i 0 ^^^ stream i := by
  rw [List.getD_eq_getElem?_getD, getElem?_xorStream, List.getD_eq_getElem?_getD,
    List.getElem?_eq_getElem hi]
  rfl

/-- A byte of the keystream that is used twice shows how the data differ. -/
theorem xorStream_reuse {i j : Nat} (hStream : stream i = stream j) (hi : i < data.length)
    (hj : j < data.length) :
    (xorStream stream data).getD i 0 ^^^ (xorStream stream data).getD j 0 =
      data.getD i 0 ^^^ data.getD j 0 := by
  rw [getD_xorStream hi, getD_xorStream hj, hStream, UInt8.xor_assoc,
    UInt8.xor_comm (stream j), UInt8.xor_assoc, UInt8.xor_self, UInt8.xor_zero]

end XorStream

end Lib
end CubeSatComm
