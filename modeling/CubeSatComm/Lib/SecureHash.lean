import CubeSatComm.Lib.BigEndian
import CubeSatComm.Lib.BlockHash

/-!
# SHA-1 and keyed hashing

The hash function SHA-1 as its standard describes it, one step of the compression after
the other, and the keyed hash `hmac` over any hash function that works block by block.
-/

namespace CubeSatComm
namespace Lib

namespace Sha1

/-- The bytes of a block. -/
def blockSize : Nat := 64

/-- The chaining value: the five registers of the compression. -/
structure Chaining where
  a : BitVec 32
  b : BitVec 32
  c : BitVec 32
  d : BitVec 32
  e : BitVec 32
  deriving DecidableEq, Repr

/-- Choose: bit by bit, `x` says whether `y` or `z` is taken. -/
def ch (x y z : BitVec 32) : BitVec 32 := (x &&& y) ^^^ (~~~x &&& z)

def parity (x y z : BitVec 32) : BitVec 32 := x ^^^ y ^^^ z

/-- Majority. -/
def maj (x y z : BitVec 32) : BitVec 32 := (x &&& y) ^^^ (x &&& z) ^^^ (y &&& z)

/-- The function of step `t`. -/
def function (t : Nat) : BitVec 32 → BitVec 32 → BitVec 32 → BitVec 32 :=
  if t < 20 then ch else if t < 40 then parity else if t < 60 then maj else parity

/-- The constant of step `t`. -/
def constant (t : Nat) : BitVec 32 :=
  if t < 20 then 0x5a827999#32
  else if t < 40 then 0x6ed9eba1#32
  else if t < 60 then 0x8f1bbcdc#32
  else 0xca62c1d6#32

/-- A big-endian word of a block. -/
def word (block : List UInt8) (t : Nat) : BitVec 32 :=
  BitVec.ofNat 32 (ofBigEndian ((block.drop (4 * t)).take 4))

/-- The message schedule. -/
def schedule (block : List UInt8) (t : Nat) : BitVec 32 :=
  if t < 16 then word block t
  else (schedule block (t - 3) ^^^ schedule block (t - 8) ^^^ schedule block (t - 14) ^^^
    schedule block (t - 16)).rotateLeft 1
termination_by t

/-- One step with a function, a constant and a word of the schedule. -/
def stepWith (f : BitVec 32 → BitVec 32 → BitVec 32 → BitVec 32) (k w : BitVec 32)
    (s : Chaining) : Chaining where
  a := s.a.rotateLeft 5 + f s.b s.c s.d + s.e + k + w
  b := s.a
  c := s.b.rotateLeft 30
  d := s.c
  e := s.d

/-- Step `t`. -/
def step (w : Nat → BitVec 32) (s : Chaining) (t : Nat) : Chaining :=
  stepWith (function t) (constant t) (w t) s

/-- Add register by register. -/
def Chaining.add (s s' : Chaining) : Chaining where
  a := s.a + s'.a
  b := s.b + s'.b
  c := s.c + s'.c
  d := s.d + s'.d
  e := s.e + s'.e

/-- Compress a block into the chaining value. -/
def compress (s : Chaining) (block : List UInt8) : Chaining :=
  s.add ((List.range 80).foldl (step (schedule block)) s)

/-- The initial chaining value. -/
def initial : Chaining where
  a := 0x67452301#32
  b := 0xefcdab89#32
  c := 0x98badcfe#32
  d := 0x10325476#32
  e := 0xc3d2e1f0#32

/-- The zeros between the end mark and the length of a message. -/
def padding (count : Nat) : List UInt8 :=
  List.replicate ((119 - count % 64) % 64) 0

/-- The padding of a message of `count` bytes: the end mark, zeros, and its length in
bits. -/
def trailer (count : Nat) : List UInt8 :=
  0x80 :: padding count ++ toBigEndian 8 (8 * count)

/-- The bytes of a chaining value. -/
def digest (s : Chaining) : List UInt8 :=
  [s.a, s.b, s.c, s.d, s.e].flatMap fun register => toBigEndian 4 register.toNat

/-- SHA-1. -/
def hash (message : List UInt8) : List UInt8 :=
  digest (chain blockSize compress initial (message ++ trailer message.length))

@[simp] theorem length_digest (s : Chaining) : (digest s).length = 20 := by
  simp [digest]

@[simp] theorem length_hash (message : List UInt8) : (hash message).length = 20 :=
  length_digest _

theorem schedule_of_lt {block : List UInt8} {t : Nat} (hLt : t < 16) :
    schedule block t = word block t := by
  rw [schedule, if_pos hLt]

theorem schedule_add (block : List UInt8) (t : Nat) :
    schedule block (16 + t) =
      (schedule block (13 + t) ^^^ schedule block (8 + t) ^^^ schedule block (2 + t) ^^^
        schedule block t).rotateLeft 1 := by
  rw [schedule, if_neg (by omega)]
  congr 4 <;> congr 1 <;> omega

section Padding

variable (message : List UInt8)

/-- The padding fits into the last block. -/
theorem hash_of_lt (hLt : message.length % 64 < 56) :
    hash message = digest (compress (chain 64 compress initial message)
      (leftover 64 message ++ [0x80] ++ List.replicate (55 - message.length % 64) 0 ++
        toBigEndian 8 (8 * message.length))) := by
  have hZeros : (119 - message.length % 64) % 64 = 55 - message.length % 64 := by omega
  have hTrailer : leftover 64 message ++ trailer message.length =
      leftover 64 message ++ [0x80] ++ List.replicate (55 - message.length % 64) 0 ++
        toBigEndian 8 (8 * message.length) := by
    simp [trailer, padding, hZeros]
  have hFull : (leftover 64 message ++ trailer message.length).length = 64 := by
    rw [hTrailer]
    simp [length_leftover]
    omega
  rw [hash, blockSize, (chain_append_of_eq compress initial (by decide) hFull).1, hTrailer]

/-- The end mark completes a block, and one more has the length. -/
theorem hash_of_le (hLe : 56 ≤ message.length % 64) :
    hash message = digest (compress (compress (chain 64 compress initial message)
      (leftover 64 message ++ [0x80] ++ List.replicate (63 - message.length % 64) 0))
        (List.replicate 56 0 ++ toBigEndian 8 (8 * message.length))) := by
  have hZeros : (119 - message.length % 64) % 64 = 63 - message.length % 64 + 56 := by omega
  let mark : List UInt8 := [0x80] ++ List.replicate (63 - message.length % 64) 0
  let last : List UInt8 := List.replicate 56 0 ++ toBigEndian 8 (8 * message.length)
  have hTrailer : message ++ trailer message.length = message ++ mark ++ last := by
    simp [trailer, padding, hZeros, mark, last, List.replicate_add]
  have hMark : (leftover 64 message ++ mark).length = 64 := by
    simp [length_leftover, mark]
    omega
  obtain ⟨hChain, hNil⟩ := chain_append_of_eq compress initial (by decide) hMark
  have hLast : (leftover 64 (message ++ mark) ++ last).length = 64 := by
    rw [hNil]
    simp [last]
  rw [hash, blockSize, hTrailer, (chain_append_of_eq compress initial (by decide) hLast).1,
    hChain, hNil, ← List.append_assoc]
  rfl

end Padding

end Sha1

/-! ## Keyed hashing -/

/-- A key of one block: a longer one is hashed, a shorter one is filled with zeros. -/
def blockKey (hash : List UInt8 → List UInt8) (blockSize : Nat) (key : List UInt8) :
    List UInt8 :=
  let key := if key.length > blockSize then hash key else key
  key ++ List.replicate (blockSize - key.length) 0

/-- The keyed hash of a message. -/
def hmac (hash : List UInt8 → List UInt8) (blockSize : Nat) (key message : List UInt8) :
    List UInt8 :=
  let key := blockKey hash blockSize key
  hash (key.map (· ^^^ 0x5C) ++ hash (key.map (· ^^^ 0x36) ++ message))

end Lib
end CubeSatComm
