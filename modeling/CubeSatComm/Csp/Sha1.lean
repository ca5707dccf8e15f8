import CubeSatComm.Lib.Memory
import CubeSatComm.Lib.SecureHash

/-!
# `csp_sha1.c`

The hash behind the keys and the authentication codes of CSP.  A message may be given to
`csp_sha1_process` in pieces of any length; what does not fill a block waits in `buf`.

The compression renames the registers from one step to the next instead of moving them, in
rounds of five steps, and has its own formulas for the functions of the steps.  Both agree
with the standard, `Sha1.compress`.
-/

namespace CubeSatComm
namespace Csp

open Lib
open Lib.Sha1 (Chaining)

/-- `CSP_SHA1_BLOCKSIZE` -/
def cspSha1Blocksize : Nat := 64

/-- `CSP_SHA1_DIGESTSIZE` -/
def cspSha1Digestsize : Nat := 20

/-! ## The compression -/

/-- `ROL` -/
def rol (x : BitVec 32) (y : Nat) : BitVec 32 := (x <<< y) ||| (x >>> (32 - y))

/-- `LOAD32H` -/
def load32H (buf : List UInt8) (offset : Nat) : BitVec 32 :=
  BitVec.ofNat 32 (ofBigEndian ((buf.drop offset).take 4))

/-- `F0` -/
def f0 (x y z : BitVec 32) : BitVec 32 := z ^^^ (x &&& (y ^^^ z))

/-- `F1` -/
def f1 (x y z : BitVec 32) : BitVec 32 := x ^^^ y ^^^ z

/-- `F2` -/
def f2 (x y z : BitVec 32) : BitVec 32 := (x &&& y) ||| (z &&& (x ||| y))

/-- `F3` -/
def f3 (x y z : BitVec 32) : BitVec 32 := x ^^^ y ^^^ z

/-- `FF_0` to `FF_3`: the new values of the registers `e` and `b`. -/
def ff (f : BitVec 32 → BitVec 32 → BitVec 32 → BitVec 32) (k : BitVec 32)
    (a b c d e w : BitVec 32) : BitVec 32 × BitVec 32 :=
  (rol a 5 + f b c d + e + w + k, rol b 30)

/-- The body of the loop of a round: five steps, each with the registers renamed. -/
def roundBody (f : BitVec 32 → BitVec 32 → BitVec 32 → BitVec 32) (k : BitVec 32)
    (w : Nat → BitVec 32) (i : Nat) (s : Chaining) : Chaining :=
  let (e, b) := ff f k s.a s.b s.c s.d s.e (w i)
  let (d, a) := ff f k e s.a b s.c s.d (w (i + 1))
  let (c, e) := ff f k d e a b s.c (w (i + 2))
  let (b, d) := ff f k c d e a b (w (i + 3))
  let (a, c) := ff f k b c d e a (w (i + 4))
  ⟨a, b, c, d, e⟩

/-- The loop of a round, from step `i` on. -/
def roundLoop (f : BitVec 32 → BitVec 32 → BitVec 32 → BitVec 32) (k : BitVec 32)
    (w : Nat → BitVec 32) : (passes : Nat) → (i : Nat) → Chaining → Chaining
  | 0, _, s => s
  | passes + 1, i, s => roundLoop f k w passes (i + 5) (roundBody f k w i s)

/-- `W`, with the first `16 + count` words set. -/
def expand (buf : List UInt8) : (count : Nat) → List (BitVec 32)
  | 0 => (List.range 16).map fun i => load32H buf (4 * i)
  | count + 1 =>
      let w := expand buf count
      let i := 16 + count
      w ++ [rol (w.getD (i - 3) 0 ^^^ w.getD (i - 8) 0 ^^^ w.getD (i - 14) 0 ^^^
        w.getD (i - 16) 0) 1]

/-- `csp_sha1_compress` -/
def cspSha1Compress (state : Chaining) (buf : List UInt8) : Chaining :=
  let w := fun i => (expand buf 64).getD i 0
  let s := roundLoop f0 0x5a827999#32 w 4 0 state
  let s := roundLoop f1 0x6ed9eba1#32 w 4 20 s
  let s := roundLoop f2 0x8f1bbcdc#32 w 4 40 s
  let s := roundLoop f3 0xca62c1d6#32 w 4 60 s
  state.add s

/-! ## The hash of a message in pieces -/

/-- `csp_sha1_state_t`, as it is between two calls. -/
structure CspSha1State where
  length : Nat
  state : Chaining
  curlen : Nat
  buf : List UInt8
  curlen_lt : curlen < cspSha1Blocksize
  length_buf : buf.length = cspSha1Blocksize

/-- `csp_sha1_init`; `buf` keeps what it has. -/
def cspSha1Init (buf : { buf : List UInt8 // buf.length = cspSha1Blocksize }) :
    CspSha1State where
  length := 0
  state := ⟨0x67452301#32, 0xefcdab89#32, 0x98badcfe#32, 0x10325476#32, 0xc3d2e1f0#32⟩
  curlen := 0
  buf := buf.1
  curlen_lt := by decide
  length_buf := buf.2

/-- Count and compress a block. -/
def CspSha1State.block (md : CspSha1State) (input : List UInt8) : CspSha1State :=
  { md with
    length := (md.length + cspSha1Blocksize * 8) % 2 ^ 64
    state := cspSha1Compress md.state input }

@[simp] theorem CspSha1State.state_block (md : CspSha1State) (input : List UInt8) :
    (md.block input).state = cspSha1Compress md.state input := rfl

@[simp] theorem CspSha1State.length_block (md : CspSha1State) (input : List UInt8) :
    (md.block input).length = (md.length + cspSha1Blocksize * 8) % 2 ^ 64 := rfl

@[simp] theorem CspSha1State.buf_block (md : CspSha1State) (input : List UInt8) :
    (md.block input).buf = md.buf := by
  simp only [block]

@[simp] theorem CspSha1State.curlen_block (md : CspSha1State) (input : List UInt8) :
    (md.block input).curlen = md.curlen := by
  simp only [block]

/-- Copy a piece into `buf`, and compress `buf` once it is full. -/
def CspSha1State.fill (md : CspSha1State) (piece : List UInt8)
    (hFits : md.curlen + piece.length ≤ cspSha1Blocksize) : CspSha1State :=
  let buf := store md.buf md.curlen piece
  have hBuf : buf.length = cspSha1Blocksize := by
    rw [length_store (by rwa [md.length_buf]), md.length_buf]
  if hFull : md.curlen + piece.length = cspSha1Blocksize then
    { md.block buf with
      curlen := 0
      buf := buf
      curlen_lt := by decide
      length_buf := hBuf }
  else
    { md with
      curlen := md.curlen + piece.length
      buf := buf
      curlen_lt := by omega
      length_buf := hBuf }

/-- A pass of the loop of `csp_sha1_process`, and the input that it leaves. -/
def CspSha1State.pass (md : CspSha1State) (input : List UInt8) :
    CspSha1State × List UInt8 :=
  if md.curlen = 0 ∧ input.length ≥ cspSha1Blocksize then
    (md.block (input.take cspSha1Blocksize), input.drop cspSha1Blocksize)
  else
    let n := min input.length (cspSha1Blocksize - md.curlen)
    (md.fill (input.take n) (by
      have hLt := md.curlen_lt
      rw [List.length_take]
      omega), input.drop n)

/-- The loop of `csp_sha1_process`.  Every pass takes at least one byte. -/
def cspSha1Loop : (passes : Nat) → CspSha1State → List UInt8 → CspSha1State
  | 0, md, _ => md
  | passes + 1, md, input =>
      if input.length > 0 then
        cspSha1Loop passes (md.pass input).1 (md.pass input).2
      else
        md

/-- `csp_sha1_process` -/
def cspSha1Process (md : CspSha1State) (input : List UInt8) : CspSha1State :=
  cspSha1Loop input.length md input

/-- Pad `buf` with zeros up to a position. -/
def padTo (buf : List UInt8) (curlen limit : Nat) : List UInt8 :=
  store buf curlen (List.replicate (limit - curlen) 0)

/-- The end of `csp_sha1_done`: store the length, compress, and copy the output. -/
def cspSha1Finish (state : Chaining) (buf : List UInt8) (length : Nat) : List UInt8 :=
  Sha1.digest (cspSha1Compress state (store buf 56 (toBigEndian 8 length)))

/-- `csp_sha1_done` -/
def cspSha1Done (md : CspSha1State) : List UInt8 :=
  let length := (md.length + md.curlen * 8) % 2 ^ 64
  let buf := store md.buf md.curlen [0x80]
  let curlen := md.curlen + 1
  if curlen > 56 then
    let buf := padTo buf curlen 64
    cspSha1Finish (cspSha1Compress md.state buf) (padTo buf 0 56) length
  else
    cspSha1Finish md.state (padTo buf curlen 56) length

/-- `csp_sha1_init` of a state on the stack; what its `buf` has does not matter. -/
def cspSha1Fresh : CspSha1State :=
  cspSha1Init ⟨List.replicate cspSha1Blocksize 0, rfl⟩

/-- `csp_sha1_memory` -/
def cspSha1Memory (msg : List UInt8) : List UInt8 :=
  cspSha1Done (cspSha1Process cspSha1Fresh msg)

/-! ## The compression agrees with the standard -/

theorem rol_eq {y : Nat} (hLt : y < 32) (x : BitVec 32) : rol x y = x.rotateLeft y := by
  rw [rol, BitVec.rotateLeft_eq_rotateLeftAux_of_lt hLt]
  rfl

theorem f0_eq : f0 = Sha1.ch := by
  funext x y z
  ext i
  simp only [f0, Sha1.ch, BitVec.getElem_xor, BitVec.getElem_and, BitVec.getElem_not]
  cases x[i] <;> cases y[i] <;> cases z[i] <;> rfl

theorem f1_eq : f1 = Sha1.parity := rfl

theorem f2_eq : f2 = Sha1.maj := by
  funext x y z
  ext i
  simp only [f2, Sha1.maj, BitVec.getElem_xor, BitVec.getElem_and, BitVec.getElem_or]
  cases x[i] <;> cases y[i] <;> cases z[i] <;> rfl

theorem f3_eq : f3 = Sha1.parity := rfl

section Compress

variable (f : BitVec 32 → BitVec 32 → BitVec 32 → BitVec 32) (k : BitVec 32)
  (w : Nat → BitVec 32)

theorem ff_eq (a b c d e w : BitVec 32) :
    ff f k a b c d e w =
      (a.rotateLeft 5 + f b c d + e + k + w, b.rotateLeft 30) := by
  rw [ff, rol_eq (by decide), rol_eq (by decide), add_right_comm]

/-- Renaming the registers in five steps comes to moving them in each. -/
theorem roundBody_eq (i : Nat) (s : Chaining) :
    roundBody f k w i s =
      (List.range' i 5).foldl (fun s t => Sha1.stepWith f k (w t) s) s := by
  simp only [roundBody, ff_eq]
  rfl

theorem roundLoop_eq (passes i : Nat) (s : Chaining) :
    roundLoop f k w passes i s =
      (List.range' i (5 * passes)).foldl (fun s t => Sha1.stepWith f k (w t) s) s := by
  induction passes generalizing i s with
  | zero => rfl
  | succ passes ih =>
      have hSplit : List.range' i (5 * (passes + 1)) =
          List.range' i 5 ++ List.range' (i + 5) (5 * passes) := by
        rw [List.range'_append_1, Nat.mul_succ, Nat.add_comm]
      rw [roundLoop, ih, roundBody_eq, hSplit, List.foldl_append]

/-- A round is twenty steps of the standard. -/
theorem roundLoop_step (i : Nat) (s : Chaining)
    (hRound : ∀ t, i ≤ t → t < i + 20 → Sha1.function t = f ∧ Sha1.constant t = k) :
    roundLoop f k w 4 i s = (List.range' i 20).foldl (Sha1.step w) s := by
  rw [roundLoop_eq]
  refine List.foldl_ext _ _ _ fun s t hMem => ?_
  obtain ⟨hLe, hLt⟩ := List.mem_range'_1.mp hMem
  obtain ⟨hFunction, hConstant⟩ := hRound t hLe hLt
  rw [Sha1.step, hFunction, hConstant]

end Compress

@[simp] theorem length_expand (buf : List UInt8) (count : Nat) :
    (expand buf count).length = 16 + count := by
  induction count with
  | zero => simp [expand]
  | succ count ih => simp [expand, ih, Nat.add_assoc]

theorem expand_getD (buf : List UInt8) {count t : Nat} (hLt : t < 16 + count) :
    (expand buf count).getD t 0 = Sha1.schedule buf t := by
  induction count generalizing t with
  | zero =>
      rw [Sha1.schedule_of_lt hLt]
      simp [expand, List.getD_eq_getElem?_getD, hLt, load32H, Sha1.word]
  | succ count ih =>
      rw [expand]
      by_cases hOld : t < 16 + count
      · rw [List.getD_eq_getElem?_getD, List.getElem?_append_left (by simpa using hOld),
          ← List.getD_eq_getElem?_getD, ih hOld]
      · obtain rfl : t = 16 + count := by omega
        rw [List.getD_eq_getElem?_getD, List.getElem?_append_right (by simp), length_expand,
          Nat.sub_self, List.getElem?_cons_zero, Option.getD_some, Sha1.schedule_add,
          ih (by omega), ih (by omega), ih (by omega), ih (by omega), rol_eq (by decide)]
        congr 4 <;> congr 1 <;> omega

/-- The compression is that of the standard. -/
theorem cspSha1Compress_eq (state : Chaining) (buf : List UInt8) :
    cspSha1Compress state buf = Sha1.compress state buf := by
  have hRange : List.range 80 =
      List.range' 0 20 ++ List.range' 20 20 ++ List.range' 40 20 ++ List.range' 60 20 := by
    decide
  have hWords : ∀ t ∈ List.range 80, (expand buf 64).getD t 0 = Sha1.schedule buf t := by
    intro t hMem
    exact expand_getD buf (List.mem_range.mp hMem)
  have hSteps : (List.range 80).foldl (Sha1.step fun i => (expand buf 64).getD i 0) state =
      (List.range 80).foldl (Sha1.step (Sha1.schedule buf)) state := by
    refine List.foldl_ext _ _ _ fun s t hMem => ?_
    rw [Sha1.step, Sha1.step, hWords t hMem]
  have hRound0 := roundLoop_step f0 0x5a827999#32 fun i => (expand buf 64).getD i 0
  have hRound1 := roundLoop_step f1 0x6ed9eba1#32 fun i => (expand buf 64).getD i 0
  have hRound2 := roundLoop_step f2 0x8f1bbcdc#32 fun i => (expand buf 64).getD i 0
  have hRound3 := roundLoop_step f3 0xca62c1d6#32 fun i => (expand buf 64).getD i 0
  rw [Sha1.compress, ← hSteps, hRange, cspSha1Compress]
  simp only [List.foldl_append]
  rw [hRound0, hRound1, hRound2, hRound3]
  · intro t hLe hLt
    simp [Sha1.function, Sha1.constant, f3_eq, show ¬ t < 20 by omega,
      show ¬ t < 40 by omega, show ¬ t < 60 by omega]
  · intro t hLe hLt
    simp [Sha1.function, Sha1.constant, f2_eq, show ¬ t < 20 by omega,
      show ¬ t < 40 by omega, show t < 60 by omega]
  · intro t hLe hLt
    simp [Sha1.function, Sha1.constant, f1_eq, show ¬ t < 20 by omega,
      show t < 40 by omega]
  · intro t hLe hLt
    simp [Sha1.function, Sha1.constant, f0_eq, show t < 20 by omega]

/-! ## A message in pieces -/

/-- The state has taken in a message. -/
structure Absorbed (md : CspSha1State) (message : List UInt8) : Prop where
  state : md.state = chain cspSha1Blocksize Sha1.compress Sha1.initial message
  rest : md.buf.take md.curlen = leftover cspSha1Blocksize message
  length : md.length = 512 * (message.length / cspSha1Blocksize) % 2 ^ 64

namespace Absorbed

variable {md : CspSha1State} {message piece : List UInt8}

theorem init (buf : { buf : List UInt8 // buf.length = cspSha1Blocksize }) :
    Absorbed (cspSha1Init buf) [] where
  state := by rw [chain_nil]; rfl
  rest := by simp [cspSha1Init]
  length := by simp [cspSha1Init]

theorem curlen_eq (h : Absorbed md message) :
    md.curlen = message.length % cspSha1Blocksize := by
  have hLength := congrArg List.length h.rest
  have hLt := md.curlen_lt
  rw [List.length_take, md.length_buf, length_leftover] at hLength
  omega

/-- A block that is complete is compressed and counted. -/
theorem full (h : Absorbed md message)
    (hFull : (leftover cspSha1Blocksize message ++ piece).length = cspSha1Blocksize) :
    (md.block (leftover cspSha1Blocksize message ++ piece)).state =
        chain cspSha1Blocksize Sha1.compress Sha1.initial (message ++ piece) ∧
      leftover cspSha1Blocksize (message ++ piece) = [] ∧
      (md.block (leftover cspSha1Blocksize message ++ piece)).length =
        512 * ((message ++ piece).length / cspSha1Blocksize) % 2 ^ 64 := by
  obtain ⟨hChain, hRest⟩ :=
    chain_append_of_eq Sha1.compress Sha1.initial (by decide) hFull
  refine ⟨?_, hRest, ?_⟩
  · rw [hChain, ← h.state, ← cspSha1Compress_eq, CspSha1State.state_block]
  · rw [List.length_append, length_leftover] at hFull
    rw [CspSha1State.length_block, h.length, List.length_append]
    simp only [cspSha1Blocksize] at hFull ⊢
    omega

/-- A whole block from the input. -/
theorem block (h : Absorbed md message) (hEmpty : md.curlen = 0)
    (hPiece : piece.length = cspSha1Blocksize) :
    Absorbed (md.block piece) (message ++ piece) := by
  have hNil : leftover cspSha1Blocksize message = [] := by
    rw [← h.rest, hEmpty, List.take_zero]
  obtain ⟨hState, hRest, hLength⟩ := h.full (by rw [hNil]; exact hPiece)
  rw [hNil, List.nil_append] at hState hLength
  refine ⟨hState, ?_, hLength⟩
  rw [hRest, CspSha1State.curlen_block, hEmpty, List.take_zero]

/-- A piece that goes through `buf`. -/
theorem fill (h : Absorbed md message)
    (hFits : md.curlen + piece.length ≤ cspSha1Blocksize) :
    Absorbed (md.fill piece hFits) (message ++ piece) := by
  have hBuf : (store md.buf md.curlen piece).take (md.curlen + piece.length) =
      leftover cspSha1Blocksize message ++ piece := by
    rw [take_add_store (by rw [md.length_buf]; omega), h.rest]
  have hLength : (leftover cspSha1Blocksize message ++ piece).length =
      md.curlen + piece.length := by
    rw [List.length_append, length_leftover, h.curlen_eq]
  unfold CspSha1State.fill
  dsimp only
  split
  · next hFull =>
    obtain ⟨hState, hRest, hCount⟩ := h.full (hLength.trans hFull)
    have hWhole : store md.buf md.curlen piece =
        leftover cspSha1Blocksize message ++ piece := by
      rw [← hBuf, hFull, List.take_of_length_le]
      rw [length_store (by rwa [md.length_buf]), md.length_buf]
    rw [← hWhole] at hState hCount
    exact ⟨hState, by rw [hRest, List.take_zero], hCount⟩
  · next hPart =>
    have hLt : (leftover cspSha1Blocksize message ++ piece).length < cspSha1Blocksize := by
      omega
    obtain ⟨hChain, hRest⟩ := chain_append_of_lt Sha1.compress Sha1.initial hLt
    refine ⟨by rw [hChain]; exact h.state, by rw [hRest]; exact hBuf, ?_⟩
    have hCurlen := h.curlen_eq
    show md.length = _
    rw [h.length, List.length_append]
    simp only [cspSha1Blocksize] at *
    omega

/-- A pass of the loop takes in the front of the input, which is not empty. -/
theorem pass (h : Absorbed md message) {input : List UInt8} (hInput : input.length > 0) :
    ∃ piece, 0 < piece.length ∧ input = piece ++ (md.pass input).2 ∧
      Absorbed (md.pass input).1 (message ++ piece) := by
  have hCurlen := md.curlen_lt
  unfold CspSha1State.pass
  split
  · next hBlock =>
    have hPiece : (input.take cspSha1Blocksize).length = cspSha1Blocksize := by
      rw [List.length_take, Nat.min_eq_left hBlock.2]
    refine ⟨input.take cspSha1Blocksize, ?_, (List.take_append_drop _ _).symm,
      h.block hBlock.1 hPiece⟩
    rw [hPiece]
    decide
  · have hLength : (input.take (min input.length (cspSha1Blocksize - md.curlen))).length =
        min input.length (cspSha1Blocksize - md.curlen) := by
      rw [List.length_take]
      omega
    refine ⟨input.take (min input.length (cspSha1Blocksize - md.curlen)), ?_,
      (List.take_append_drop _ _).symm, h.fill (by omega)⟩
    omega

/-- The loop takes in the input. -/
theorem loop (h : Absorbed md message) {passes : Nat} {input : List UInt8}
    (hPasses : input.length ≤ passes) :
    Absorbed (cspSha1Loop passes md input) (message ++ input) := by
  induction passes generalizing md message input with
  | zero =>
      obtain rfl := List.length_eq_zero_iff.mp (Nat.le_zero.mp hPasses)
      rwa [List.append_nil]
  | succ passes ih =>
      rw [cspSha1Loop]
      split
      · next hInput =>
        obtain ⟨piece, hPiece, hSplit, hPass⟩ := h.pass hInput
        have hLength := congrArg List.length hSplit
        rw [List.length_append] at hLength
        have hShort : (md.pass input).2.length ≤ passes := by omega
        have hRest := ih hPass hShort
        rwa [List.append_assoc, ← hSplit] at hRest
      · next hEmpty =>
        obtain rfl := List.length_eq_zero_iff.mp (Nat.le_zero.mp (Nat.le_of_not_lt hEmpty))
        rwa [List.append_nil]

theorem process (h : Absorbed md message) (input : List UInt8) :
    Absorbed (cspSha1Process md input) (message ++ input) :=
  h.loop (Nat.le_refl _)

theorem processAll (h : Absorbed md message) (pieces : List (List UInt8)) :
    Absorbed (pieces.foldl cspSha1Process md) (message ++ pieces.flatten) := by
  induction pieces generalizing md message with
  | nil => simpa using h
  | cons piece pieces ih =>
      rw [List.foldl_cons, List.flatten_cons, ← List.append_assoc]
      exact ih (h.process piece)

end Absorbed

/-! ## The end of a message -/

section Done

variable {buf : List UInt8}

theorem length_padTo (hBuf : buf.length = 64) {curlen limit : Nat} (hLimit : limit ≤ 64)
    (hCurlen : curlen ≤ limit) : (padTo buf curlen limit).length = 64 := by
  rw [padTo, length_store (by rw [List.length_replicate]; omega), hBuf]

theorem take_padTo (hBuf : buf.length = 64) {curlen limit : Nat} (hLimit : limit ≤ 64)
    (hCurlen : curlen ≤ limit) :
    (padTo buf curlen limit).take limit =
      buf.take curlen ++ List.replicate (limit - curlen) 0 := by
  have hTake := @take_add_store _ buf (List.replicate (limit - curlen) 0) curlen (by omega)
  rwa [List.length_replicate, Nat.add_sub_cancel' hCurlen] at hTake

/-- The last block: what is in front of the length, and the length. -/
theorem cspSha1Finish_eq (state : Chaining) (hBuf : buf.length = 64) (length : Nat) :
    cspSha1Finish state buf length =
      Sha1.digest (Sha1.compress state (buf.take 56 ++ toBigEndian 8 length)) := by
  have hStore : store buf 56 (toBigEndian 8 length) =
      buf.take 56 ++ toBigEndian 8 length := by
    rw [← take_add_store (by omega), length_toBigEndian, List.take_of_length_le]
    rw [length_store (by rw [length_toBigEndian]; omega), hBuf]
  rw [cspSha1Finish, hStore, cspSha1Compress_eq]

/-- `csp_sha1_done` gives the hash of what has been taken in. -/
theorem Absorbed.done {md : CspSha1State} {message : List UInt8} (h : Absorbed md message) :
    cspSha1Done md = Sha1.hash message := by
  have hCurlen := h.curlen_eq
  have hLt : md.curlen < 64 := md.curlen_lt
  have hBuf : md.buf.length = 64 := md.length_buf
  have hMark : (store md.buf md.curlen [0x80]).take (md.curlen + 1) =
      leftover 64 message ++ [0x80] := by
    have hTake := @take_add_store _ md.buf [0x80] md.curlen (by omega)
    rwa [h.rest] at hTake
  have hMarked : (store md.buf md.curlen [0x80]).length = 64 := by
    rw [length_store (by simp; omega), hBuf]
  have hLength : toBigEndian 8 ((md.length + md.curlen * 8) % 2 ^ 64) =
      toBigEndian 8 (8 * message.length) := by
    rw [← toBigEndian_mod 8 (8 * message.length), h.length, hCurlen]
    simp only [cspSha1Blocksize]
    congr 1
    omega
  have hCurlen : md.curlen = message.length % 64 := hCurlen
  have hPad (limit : Nat) (hLimit : limit ≤ 64) (hLe : md.curlen + 1 ≤ limit) :=
    take_padTo hMarked hLimit hLe
  unfold cspSha1Done
  dsimp only
  split
  · -- the end mark leaves no room for the length: another block is needed
    next hLong =>
    let first := padTo (store md.buf md.curlen [0x80]) (md.curlen + 1) 64
    have hLengthFirst : first.length = 64 := length_padTo hMarked (by decide) (by omega)
    have hFirst : first = leftover 64 message ++ [0x80] ++
        List.replicate (63 - message.length % 64) 0 := by
      have hTake := hPad 64 (by decide) (by omega)
      rw [hMark, List.take_of_length_le (Nat.le_of_eq hLengthFirst), hCurlen] at hTake
      rw [hTake]
      congr 2
      omega
    have hSecond : (padTo first 0 56).take 56 = List.replicate 56 0 :=
      take_padTo hLengthFirst (by decide) (by decide)
    show cspSha1Finish (cspSha1Compress md.state first) (padTo first 0 56) _ = _
    rw [cspSha1Finish_eq _ (length_padTo hLengthFirst (by decide) (by decide)), hSecond,
      hLength, hFirst, cspSha1Compress_eq, h.state, Sha1.hash_of_le _ (by omega)]
    rfl
  · next hShort =>
    have hTake := hPad 56 (by decide) (by omega)
    rw [cspSha1Finish_eq _ (length_padTo hMarked (by decide) (by omega)), hTake, hMark,
      hLength, h.state, Sha1.hash_of_lt _ (by omega), hCurlen]
    congr 5
    omega

end Done

/-- However a message is cut into pieces, and whatever `buf` has at first, the hash of the
message comes out. -/
theorem cspSha1_pieces (buf : { buf : List UInt8 // buf.length = cspSha1Blocksize })
    (pieces : List (List UInt8)) :
    cspSha1Done (pieces.foldl cspSha1Process (cspSha1Init buf)) =
      Sha1.hash pieces.flatten :=
  ((Absorbed.init buf).processAll pieces).done

theorem cspSha1Memory_eq (msg : List UInt8) : cspSha1Memory msg = Sha1.hash msg :=
  ((Absorbed.init _).process msg).done

example : cspSha1Memory [0x61, 0x62, 0x63] =
    toBigEndian 20 0xa9993e364706816aba3e25717850c26c9cd0d89d := by
  decide +kernel

end Csp
end CubeSatComm
