import Mathlib.Data.UInt
import Mathlib.Data.Nat.Bitwise

/-!
# Cyclic redundancy checks

A shift register of `w` bits with the feedback polynomial `poly`, bit `0` being the
coefficient of the highest power: the register of the reflected CRCs.  It is fed bit by
bit, the least significant bit of a byte first.

The register is linear in its state and its input together.  It ends at zero, fed with at
most `w` bits, only if it started with these bits; so two inputs that differ, and differ
only within `w` consecutive bits, leave it in different states.  This needs a polynomial
with a constant term, which is the top bit of `poly`.
-/

namespace CubeSatComm
namespace Lib
namespace Crc

variable {w : Nat}

/-- Feed one bit. -/
def feedBit (poly state : BitVec w) (bit : Bool) : BitVec w :=
  if state.getLsbD 0 != bit then (state >>> 1) ^^^ poly else state >>> 1

/-- Feed a sequence of bits. -/
def feed (poly state : BitVec w) (bits : List Bool) : BitVec w :=
  bits.foldl (feedBit poly) state

/-- The number whose bits are given, the least significant one first. -/
def bitsValue : List Bool → Nat
  | [] => 0
  | bit :: bits => bit.toNat + 2 * bitsValue bits

/-- The lowest `k` bits of a number, the least significant one first. -/
def bitsOf : Nat → Nat → List Bool
  | 0, _ => []
  | k + 1, n => n.testBit 0 :: bitsOf k (n / 2)

/-- The bits of a sequence of bytes. -/
def bytesBits (bytes : List UInt8) : List Bool :=
  bytes.flatMap fun byte => bitsOf 8 byte.toNat

/-- Feed a byte with the help of a table of 256 words. -/
def tableStep (table : Nat → BitVec w) (state : BitVec w) (byte : UInt8) : BitVec w :=
  table ((state ^^^ BitVec.ofNat w byte.toNat) &&& 0xFF).toNat ^^^ (state >>> 8)

@[simp] theorem length_bitsOf (k n : Nat) : (bitsOf k n).length = k := by
  induction k generalizing n with
  | zero => rfl
  | succ k ih => simp [bitsOf, ih]

theorem bitsValue_bitsOf (k n : Nat) : bitsValue (bitsOf k n) = n % 2 ^ k := by
  induction k generalizing n with
  | zero => simp [bitsOf, bitsValue, Nat.mod_one]
  | succ k ih =>
      have hBit : (n.testBit 0).toNat = n % 2 := by
        rw [Nat.testBit_zero]
        rcases Nat.mod_two_eq_zero_or_one n with h | h <;> simp [h]
      rw [bitsOf, bitsValue, ih, hBit, Nat.pow_succ', Nat.mod_mul]

theorem bitsValue_byte (byte : UInt8) : bitsValue (bitsOf 8 byte.toNat) = byte.toNat := by
  rw [bitsValue_bitsOf]
  exact Nat.mod_eq_of_lt byte.toNat_lt

section Register

variable {poly : BitVec w}

@[simp] theorem feed_nil (state : BitVec w) : feed poly state [] = state := rfl

@[simp] theorem feed_cons (state : BitVec w) (bit : Bool) (bits : List Bool) :
    feed poly state (bit :: bits) = feed poly (feedBit poly state bit) bits := rfl

theorem feed_append (state : BitVec w) (bits bits' : List Bool) :
    feed poly state (bits ++ bits') = feed poly (feed poly state bits) bits' := by
  simp [feed]

/-- The register is linear. -/
theorem feedBit_xor (s t : BitVec w) (a b : Bool) :
    feedBit poly (s ^^^ t) (a ^^ b) = feedBit poly s a ^^^ feedBit poly t b := by
  simp only [feedBit, BitVec.getLsbD_xor, BitVec.ushiftRight_xor_distrib]
  cases s.getLsbD 0 <;> cases t.getLsbD 0 <;> cases a <;> cases b <;>
    ext i <;> simp <;> grind

theorem feed_xor {bits bits' : List Bool} (hLength : bits.length = bits'.length)
    (s t : BitVec w) :
    feed poly (s ^^^ t) (List.zipWith xor bits bits') =
      feed poly s bits ^^^ feed poly t bits' := by
  induction bits generalizing bits' s t with
  | nil =>
      obtain rfl := List.length_eq_zero_iff.mp hLength.symm
      rfl
  | cons a bits ih =>
      cases bits' with
      | nil => simp at hLength
      | cons b bits' =>
          have hRest : bits.length = bits'.length := by simpa using hLength
          rw [List.zipWith_cons_cons, feed_cons, feed_cons, feed_cons, feedBit_xor,
            ih hRest]

end Register

section Burst

theorem bitsValue_lt (bits : List Bool) : bitsValue bits < 2 ^ bits.length := by
  induction bits with
  | nil => simp [bitsValue]
  | cons bit bits ih =>
      have hBit := Bool.toNat_lt bit
      rw [bitsValue, List.length_cons, Nat.pow_succ]
      omega

theorem eq_of_bitsValue_xor {bits bits' : List Bool} (hLength : bits.length = bits'.length)
    (hZero : bitsValue (List.zipWith xor bits bits') = 0) : bits = bits' := by
  induction bits generalizing bits' with
  | nil => exact (List.length_eq_zero_iff.mp hLength.symm).symm
  | cons a bits ih =>
      cases bits' with
      | nil => simp at hLength
      | cons b bits' =>
          rw [List.zipWith_cons_cons, bitsValue, Nat.add_eq_zero_iff] at hZero
          have hHead : a = b := by
            have hXor : (a ^^ b) = false := by simpa using hZero.1
            simpa using hXor
          have hRest : bits.length = bits'.length := by simpa using hLength
          rw [hHead, ih hRest (by omega)]

variable {poly : BitVec w} (hTop : poly.msb = true)

include hTop

theorem width_pos : 0 < w := by
  rcases Nat.eq_zero_or_pos w with rfl | hPos
  · simp [BitVec.msb] at hTop
  · exact hPos

/-- The state in front of one that is smaller than half of the range. -/
theorem toNat_feedBit_iff {v : Nat} (hSmall : v < 2 ^ (w - 1)) (s : BitVec w) (a : Bool) :
    (feedBit poly s a).toNat = v ↔ s.toNat = a.toNat + 2 * v := by
  have hLow : s.getLsbD 0 = decide (s.toNat % 2 = 1) := by
    rw [BitVec.getLsbD, Nat.testBit_zero]
  by_cases hSame : s.getLsbD 0 = a
  · have hFeed : feedBit poly s a = s >>> 1 := by simp [feedBit, hSame]
    rw [hFeed, BitVec.toNat_ushiftRight, Nat.shiftRight_one]
    cases a
    · have hEven : ¬ s.toNat % 2 = 1 := by simpa [hLow] using hSame
      simp only [Bool.toNat_false]
      omega
    · have hOdd : s.toNat % 2 = 1 := by simpa [hLow] using hSame
      simp only [Bool.toNat_true]
      omega
  · have hFeed : feedBit poly s a = (s >>> 1) ^^^ poly := by
      rw [feedBit, if_pos (by simpa using hSame)]
    have hMsb : (feedBit poly s a).msb = true := by
      rw [hFeed, BitVec.msb_xor, hTop, BitVec.msb_ushiftRight]
      simp
    refine iff_of_false ?_ ?_
    · intro hEq
      have hLarge := BitVec.toNat_ge_of_msb_true hMsb
      omega
    · intro hEq
      apply hSame
      rw [hLow, hEq]
      cases a <;> simp [Nat.add_mod]

/-- The register ends at zero, fed with at most `w` bits, exactly if it has started with
these bits. -/
theorem feed_eq_zero_iff {bits : List Bool} (hLe : bits.length ≤ w) (s : BitVec w) :
    feed poly s bits = 0#w ↔ s.toNat = bitsValue bits := by
  induction bits generalizing s with
  | nil => rw [feed_nil, bitsValue, ← BitVec.toNat_inj, BitVec.toNat_zero]
  | cons a bits ih =>
      have hPos := width_pos hTop
      rw [List.length_cons] at hLe
      have hSmall : bitsValue bits < 2 ^ (w - 1) :=
        Nat.lt_of_lt_of_le (bitsValue_lt bits)
          (Nat.pow_le_pow_right (by decide) (by omega))
      rw [feed_cons, ih (by omega), bitsValue, toNat_feedBit_iff hTop hSmall]

/-- States that the same bits lead to one state are equal. -/
theorem feed_injective (bits : List Bool) :
    Function.Injective fun s => feed poly s bits := by
  have hPos := width_pos hTop
  induction bits with
  | nil => exact fun _ _ hEq => hEq
  | cons a bits ih =>
      intro s t hEq
      have hNext : feedBit poly s a = feedBit poly t a := ih hEq
      have hXor : feed poly (s ^^^ t) [false] = 0#w := by
        have hLinear : feedBit poly (s ^^^ t) (a ^^ a) = _ := feedBit_xor s t a a
        rwa [hNext, BitVec.xor_self, Bool.xor_self] at hLinear
      have hOne : [false].length ≤ w := hPos
      rw [feed_eq_zero_iff hTop hOne] at hXor
      have hZero : s ^^^ t = 0#w := by
        rw [← BitVec.toNat_inj, hXor]
        simp [bitsValue]
      exact BitVec.xor_eq_zero_iff.mp hZero

/-- Inputs that differ, and only within a burst of at most `w` bits, leave the register in
different states. -/
theorem feed_burst {burst burst' : List Bool} (hLength : burst.length = burst'.length)
    (hLe : burst.length ≤ w) (hNe : burst ≠ burst') (s : BitVec w)
    (before after : List Bool) :
    feed poly s (before ++ burst ++ after) ≠ feed poly s (before ++ burst' ++ after) := by
  intro hEq
  simp only [feed_append] at hEq
  have hBurst := feed_injective hTop after hEq
  have hXor : feed poly (feed poly s before ^^^ feed poly s before) _ = _ :=
    feed_xor hLength (feed poly s before) (feed poly s before)
  rw [hBurst, BitVec.xor_self, BitVec.xor_self,
    feed_eq_zero_iff hTop (by simpa [hLength] using hLe)] at hXor
  exact hNe (eq_of_bitsValue_xor hLength (by simpa using hXor.symm))

/-- Bits may as well be added to the state before the register is shifted. -/
theorem feed_eq_feed_zeros {bits : List Bool} (hLe : bits.length ≤ w) (s : BitVec w) :
    feed poly s bits = feed poly (s ^^^ BitVec.ofNat w (bitsValue bits))
      (List.replicate bits.length false) := by
  have hValue : bitsValue bits < 2 ^ w :=
    Nat.lt_of_lt_of_le (bitsValue_lt bits) (Nat.pow_le_pow_right (by decide) hLe)
  have hZero : feed poly (BitVec.ofNat w (bitsValue bits)) bits = 0#w := by
    rw [feed_eq_zero_iff hTop hLe, BitVec.toNat_ofNat, Nat.mod_eq_of_lt hValue]
  have hBits : List.zipWith xor bits bits = List.replicate bits.length false := by
    rw [List.zipWith_self]
    simp
  have hLinear : feed poly (s ^^^ _) (List.zipWith xor bits bits) = _ :=
    feed_xor rfl s (BitVec.ofNat w (bitsValue bits))
  rw [hBits, hZero, BitVec.xor_zero] at hLinear
  exact hLinear.symm

end Burst

section Table

variable {poly : BitVec w}

/-- A register that is shifted past zeros only is only shifted. -/
theorem feed_zeros {k : Nat} {s : BitVec w} (hLow : s.toNat % 2 ^ k = 0) :
    feed poly s (List.replicate k false) = s >>> k := by
  induction k generalizing s with
  | zero => simp
  | succ k ih =>
      have hEven : s.toNat % 2 = 0 := by
        rw [Nat.pow_succ'] at hLow
        have hMod := Nat.mod_mul_right_mod s.toNat 2 (2 ^ k)
        rw [hLow] at hMod
        exact hMod.symm
      have hBit : feedBit poly s false = s >>> 1 := by
        simp [feedBit, BitVec.getLsbD, Nat.testBit_zero, hEven]
      rw [List.replicate_succ, feed_cons, hBit, ih, Nat.add_comm, BitVec.shiftRight_add]
      rw [BitVec.toNat_ushiftRight, Nat.shiftRight_one]
      rw [Nat.pow_succ', Nat.mod_mul] at hLow
      omega

/-- A step by the table feeds the eight bits of the byte. -/
theorem tableStep_eq (hTop : poly.msb = true) (hWidth : 8 ≤ w) {table : Nat → BitVec w}
    (hTable : ∀ i < 256,
      table i = feed poly (BitVec.ofNat w i) (List.replicate 8 false))
    (s : BitVec w) (byte : UInt8) :
    tableStep table s byte = feed poly s (bitsOf 8 byte.toNat) := by
  let x := s ^^^ BitVec.ofNat w byte.toNat
  have hMask : (x &&& 0xFF).toNat = x.toNat % 2 ^ 8 := by
    have hFF : (0xFF : BitVec w).toNat = 2 ^ 8 - 1 := by
      show (255 % 2 ^ w) = 255
      exact Nat.mod_eq_of_lt (Nat.lt_of_lt_of_le (by decide : 255 < 2 ^ 8)
        (Nat.pow_le_pow_right (by decide) hWidth))
    rw [BitVec.toNat_and, hFF, Nat.and_two_pow_sub_one_eq_mod]
  let low := x &&& 0xFF
  let high := x ^^^ low
  have hLow : low.toNat < 2 ^ 8 := by
    rw [hMask]
    exact Nat.mod_lt _ (by decide)
  have hHigh : high.toNat % 2 ^ 8 = 0 := by
    have hLowMod : low.toNat % 2 ^ 8 = x.toNat % 2 ^ 8 := by rw [hMask, Nat.mod_mod]
    rw [BitVec.toNat_xor, Nat.xor_mod_two_pow, hLowMod, Nat.xor_self]
  have hShift : high >>> 8 = s >>> 8 := by
    have hSmall : (BitVec.ofNat w byte.toNat ^^^ low) >>> 8 = 0#w := by
      have hByte : (BitVec.ofNat w byte.toNat).toNat < 2 ^ 8 :=
        Nat.lt_of_le_of_lt (Nat.mod_le _ _) byte.toNat_lt
      rw [← BitVec.toNat_inj, BitVec.toNat_ushiftRight, BitVec.toNat_xor,
        Nat.shiftRight_eq_div_pow, Nat.div_eq_of_lt (Nat.xor_lt_two_pow hByte hLow)]
      simp
    have hSplit : high = s ^^^ (BitVec.ofNat w byte.toNat ^^^ low) :=
      BitVec.xor_assoc _ _ _
    rw [hSplit, BitVec.ushiftRight_xor_distrib, hSmall, BitVec.xor_zero]
  have hZeros : List.zipWith xor (List.replicate 8 false) (List.replicate 8 false) =
      List.replicate 8 false := rfl
  have hParts : x = low ^^^ high := by
    rw [BitVec.xor_comm, BitVec.xor_assoc, BitVec.xor_self, BitVec.xor_zero]
  have hBits : (bitsOf 8 byte.toNat).length ≤ w := by rwa [length_bitsOf]
  calc tableStep table s byte
      = table low.toNat ^^^ (s >>> 8) := rfl
    _ = feed poly low (List.replicate 8 false) ^^^
          feed poly high (List.replicate 8 false) := by
        rw [hTable _ hLow, feed_zeros hHigh, hShift, BitVec.ofNat_toNat,
          BitVec.setWidth_eq]
    _ = feed poly x (List.replicate 8 false) := by
        rw [← feed_xor rfl, hZeros, ← hParts]
    _ = feed poly s (bitsOf 8 byte.toNat) := by
        rw [feed_eq_feed_zeros hTop hBits, length_bitsOf, bitsValue_byte]

/-- Steps by the table feed the bits of the bytes. -/
theorem foldl_tableStep (hTop : poly.msb = true) (hWidth : 8 ≤ w)
    {table : Nat → BitVec w}
    (hTable : ∀ i < 256,
      table i = feed poly (BitVec.ofNat w i) (List.replicate 8 false))
    (s : BitVec w) (bytes : List UInt8) :
    bytes.foldl (tableStep table) s = feed poly s (bytesBits bytes) := by
  induction bytes generalizing s with
  | nil => rfl
  | cons byte bytes ih =>
      rw [List.foldl_cons, ih, tableStep_eq hTop hWidth hTable, ← feed_append]
      rfl

end Table

end Crc
end Lib
end CubeSatComm
