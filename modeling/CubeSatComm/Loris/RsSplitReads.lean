import CubeSatComm.Loris.RsReader
import CubeSatComm.Loris.RsTransfer

/-!
# Reading in two calls

Whether two blocking calls deliver what one call for all the bytes delivers.  Two
calls of `antenna_read_fd` always do.  The first of two calls of `antenna_read_rs_fd`
throws away the end of its last block, so they do only if it stops at the end of a
block, or if the bytes behind the next block happen to be those that were lost.
-/

namespace CubeSatComm
namespace Loris

open Lib CInteger Posix

/-- Two calls of `read`, for `a` and for `b` bytes, deliver what one call for all of
them does. -/
def DeliversSplit (read : List UInt8 → Nat → Port → Option ReadReturn) (a b : Nat)
    (port : Port) : Prop :=
  ∀ buffer buffer₁ buffer₂ : List UInt8, ∃ r r₁ r₂,
    read buffer (a + b) port = some r ∧ r.ret = (a + b : Nat) ∧
    read buffer₁ a port = some r₁ ∧ r₁.ret = a ∧
    read buffer₂ b r₁.port = some r₂ ∧ r₂.ret = b ∧
    r₁.returned ++ r₂.returned = r.returned

/-- The blocking reader of raw bytes. -/
def readUntil (fd : Int) (buffer : List UInt8) (readLen : Nat) (port : Port) :
    Option ReadReturn :=
  antennaReadFd fd buffer readLen readModeUntil port

/-- The blocking reader of encoded bytes. -/
def readRsUntil (codec : ReedSolomon) (fd : Int) (buffer : List UInt8)
    (readLen : Nat) (port : Port) : Option ReadReturn :=
  antennaReadRsFd codec fd buffer readLen readModeUntil port

/-- What arrives at the port is a stream of whole blocks that decode to `msgs`, cut
in any way. -/
def RsArrives (codec : ReedSolomon) (port : Port) (msgs : List (List UInt8)) : Prop :=
  ∃ cut stream, port.rx = Feed.ofPieces cut ∧ IsCut cut stream ∧
    stream.length = rsBlockLen * msgs.length ∧ RsDecodes codec stream msgs

/-! ## Raw bytes -/

section Raw

variable {fd : Int} (hFd : 0 ≤ fd) {port : Port} {cut : List (List UInt8)}
  {stream : List UInt8} (hRx : port.rx = Feed.ofPieces cut)
  (hCut : IsCut cut stream)

include hFd hRx hCut

theorem readUntil_returned (readLen : Nat) (hMax : readLen ≤ intMax)
    (hEnough : readLen ≤ stream.length) (buffer : List UInt8) :
    ∃ r, readUntil fd buffer readLen port = some r ∧ r.ret = readLen ∧
      r.returned = stream.take readLen ∧ r.Unread (stream.drop readLen) := by
  obtain ⟨cut', calls, hCall, hCut', -⟩ :=
    antennaReadFd_until_cut buffer hFd hMax hRx hCut hEnough
  have hTake : (stream.take readLen).length = readLen := by
    rw [List.length_take, Nat.min_eq_left hEnough]
  refine ⟨_, hCall, rfl, ?_, cut', rfl, hCut'⟩
  show (store buffer 0 (stream.take readLen)).take readLen = stream.take readLen
  rw [store_zero, List.take_left' hTake]

/-- Raw bytes are not lost between two calls. -/
theorem readUntil_deliversSplit {a b : Nat} (hMax : a + b ≤ intMax)
    (hEnough : a + b ≤ stream.length) : DeliversSplit (readUntil fd) a b port := by
  intro buffer buffer₁ buffer₂
  obtain ⟨r, hCall, hRet, hReturned, -⟩ :=
    readUntil_returned hFd hRx hCut _ hMax hEnough buffer
  obtain ⟨r₁, hCall₁, hRet₁, hReturned₁, cut₁, hRx₁, hCut₁⟩ :=
    readUntil_returned hFd hRx hCut a (by omega) (by omega) buffer₁
  obtain ⟨r₂, hCall₂, hRet₂, hReturned₂, -⟩ :=
    readUntil_returned hFd hRx₁ hCut₁ b (by omega)
      (by rw [List.length_drop]; omega) buffer₂
  refine ⟨r, r₁, r₂, hCall, hRet, hCall₁, hRet₁, hCall₂, hRet₂, ?_⟩
  rw [hReturned₁, hReturned₂, hReturned, ← List.take_add]

end Raw

/-! ## Encoded bytes -/

section Messages

variable {codec : ReedSolomon} {stream : List UInt8} {msgs : List (List UInt8)}

theorem RsDecodes.take (hDecodes : RsDecodes codec stream msgs) (k : Nat) :
    RsDecodes codec stream (msgs.take k) := by
  rw [← List.take_append_drop k msgs] at hDecodes
  exact (rsDecodes_append.mp hDecodes).1

theorem RsDecodes.drop (hDecodes : RsDecodes codec stream msgs) {k : Nat}
    (hLe : k ≤ msgs.length) :
    RsDecodes codec (stream.drop (rsBlockLen * k)) (msgs.drop k) := by
  rw [← List.take_append_drop k msgs] at hDecodes
  have hRest := (rsDecodes_append.mp hDecodes).2
  rwa [List.length_take, Nat.min_eq_left hLe] at hRest

/-- The first `k` messages are the front of all of them, and the others the rest. -/
theorem RsDecodes.flatten_split (hFull : codec.FullMessages)
    (hDecodes : RsDecodes codec stream msgs) {k : Nat} (hLe : k ≤ msgs.length) :
    (msgs.take k).flatten = msgs.flatten.take (rsMsgLen * k) ∧
      (msgs.drop k).flatten = msgs.flatten.drop (rsMsgLen * k) := by
  have hLength := (hDecodes.take k).length_flatten hFull
  rw [List.length_take, Nat.min_eq_left hLe] at hLength
  have hSplit : msgs.flatten = (msgs.take k).flatten ++ (msgs.drop k).flatten := by
    rw [← List.flatten_append, List.take_append_drop]
  rw [hSplit, List.take_left' hLength, List.drop_left' hLength]
  exact ⟨rfl, rfl⟩

end Messages

section Rs

variable {codec : ReedSolomon} (hCreated : codec.created = true)
  (hFull : codec.FullMessages) {fd : Int} (hFd : 0 ≤ fd)

include hCreated hFull hFd

/-- What a call returns when enough blocks arrive. -/
theorem readRsUntil_returned (readLen : Nat) (hMax : readLen ≤ intMax) {port : Port}
    {msgs : List (List UInt8)} (hArrives : RsArrives codec port msgs)
    (hEnough : rsBlocksFor readLen ≤ msgs.length) (buffer : List UInt8) :
    ∃ r, readRsUntil codec fd buffer readLen port = some r ∧ r.ret = readLen ∧
      r.returned = msgs.flatten.take readLen ∧
      RsArrives codec r.port (msgs.drop (rsBlocksFor readLen)) := by
  obtain ⟨cut, stream, hRx, hCut, hLength, hDecodes⟩ := hArrives
  have hCount : (msgs.take (rsBlocksFor readLen)).length = rsBlocksFor readLen := by
    rw [List.length_take, Nat.min_eq_left hEnough]
  obtain ⟨r, hCall, hRet, hBuffer, cut', hRx', hCut'⟩ :=
    antennaReadRsFd_until_filled hCreated hFull hFd hMax hCount buffer hRx hCut
      (hDecodes.take _)
  -- the messages of these blocks fill the buffer
  have hFront : (msgs.take (rsBlocksFor readLen)).flatten.take readLen =
      msgs.flatten.take readLen := by
    rw [(hDecodes.flatten_split hFull hEnough).1, List.take_take,
      Nat.min_eq_left le_rsBlocksFor]
  have hFills : (msgs.flatten.take readLen).length = readLen := by
    have hLe : rsMsgLen * rsBlocksFor readLen ≤ rsMsgLen * msgs.length :=
      Nat.mul_le_mul_left _ hEnough
    rw [List.length_take, hDecodes.length_flatten hFull]
    exact Nat.min_eq_left (Nat.le_trans le_rsBlocksFor hLe)
  refine ⟨r, hCall, hRet, ?_, cut', _, hRx', hCut', ?_, hDecodes.drop hEnough⟩
  · rw [ReadReturn.returned, hRet, hBuffer, hFront, store_zero]
    exact List.take_left' hFills
  · rw [List.length_drop, List.length_drop, hLength, Nat.mul_sub]

/-- A call waits when fewer blocks arrive than it needs. -/
theorem readRsUntil_waits {readLen : Nat} (hMax : readLen ≤ intMax) {port : Port}
    {msgs : List (List UInt8)} (hArrives : RsArrives codec port msgs)
    (hFew : msgs.length < rsBlocksFor readLen) (buffer : List UInt8) :
    readRsUntil codec fd buffer readLen port = none := by
  obtain ⟨cut, stream, hRx, hCut, hLength, hDecodes⟩ := hArrives
  have hRoom : msgs ≠ [] → msgs.flatten.length < readLen := by
    intro hNe
    rw [hDecodes.length_flatten hFull]
    exact lt_of_lt_rsBlocksFor (List.length_pos_iff.mpr hNe) hFew
  have hShort : stream.length < rsBlockLen * (msgs.length + 1) := by
    rw [hLength]
    exact Nat.mul_lt_mul_of_pos_left (Nat.lt_succ_self _) (by decide)
  rw [readRsUntil, antennaReadRsFd, if_pos hCreated]
  exact rsReadLoop_short hFd hMax hRoom buffer hRx hCut hDecodes hShort

/-- Two calls deliver what one does exactly when enough blocks arrive for both, and
the bytes behind the blocks of the first are those that one call delivers behind its
first `a`. -/
theorem readRsUntil_deliversSplit_iff {a b : Nat} (hMax : a + b ≤ intMax)
    {port : Port} {msgs : List (List UInt8)} (hArrives : RsArrives codec port msgs)
    (hEnough : rsBlocksFor (a + b) ≤ msgs.length) :
    DeliversSplit (readRsUntil codec fd) a b port ↔
      rsBlocksFor a + rsBlocksFor b ≤ msgs.length ∧
      (msgs.flatten.drop (rsMsgLen * rsBlocksFor a)).take b =
        (msgs.flatten.drop a).take b := by
  have hEnough₁ : rsBlocksFor a ≤ msgs.length := by
    refine Nat.le_trans ?_ hEnough
    simp only [rsBlocksFor, rsMsgLen, rsBlockLen, rsNumRoots]
    omega
  obtain ⟨cut, stream, hRx, hCut, hLength, hDecodes⟩ := id hArrives
  have hRest := (hDecodes.flatten_split hFull hEnough₁).2
  have hFirst := fun buffer => readRsUntil_returned hCreated hFull hFd a (by omega)
    hArrives hEnough₁ buffer
  have hWhole := fun buffer => readRsUntil_returned hCreated hFull hFd _ hMax hArrives
    hEnough buffer
  constructor
  · intro hSplit
    obtain ⟨r, r₁, r₂, hCall, -, hCall₁, -, hCall₂, -, hSame⟩ := hSplit [] [] []
    obtain ⟨r', hCall', -, hReturned, -⟩ := hWhole []
    obtain rfl : r' = r := Option.some.inj (hCall'.symm.trans hCall)
    obtain ⟨r₁', hCall₁', -, hReturned₁, hArrives₁⟩ := hFirst []
    obtain rfl : r₁' = r₁ := Option.some.inj (hCall₁'.symm.trans hCall₁)
    by_cases hBoth : rsBlocksFor b ≤ (msgs.drop (rsBlocksFor a)).length
    case neg =>
      rw [readRsUntil_waits hCreated hFull hFd (by omega) hArrives₁ (by omega) []]
        at hCall₂
      cases hCall₂
    case pos =>
      obtain ⟨r₂', hCall₂', -, hReturned₂, -⟩ := readRsUntil_returned hCreated hFull
        hFd b (by omega) hArrives₁ hBoth []
      obtain rfl : r₂' = r₂ := Option.some.inj (hCall₂'.symm.trans hCall₂)
      rw [hReturned₁, hReturned₂, hReturned, hRest, List.take_add] at hSame
      rw [List.length_drop] at hBoth
      exact ⟨by omega, List.append_cancel_left hSame⟩
  · rintro ⟨hBoth, hBytes⟩ buffer buffer₁ buffer₂
    obtain ⟨r, hCall, hRet, hReturned, -⟩ := hWhole buffer
    obtain ⟨r₁, hCall₁, hRet₁, hReturned₁, hArrives₁⟩ := hFirst buffer₁
    obtain ⟨r₂, hCall₂, hRet₂, hReturned₂, -⟩ := readRsUntil_returned hCreated hFull
      hFd b (by omega) hArrives₁ (by rw [List.length_drop]; omega) buffer₂
    refine ⟨r, r₁, r₂, hCall, hRet, hCall₁, hRet₁, hCall₂, hRet₂, ?_⟩
    rw [hReturned₁, hReturned₂, hReturned, hRest, hBytes, ← List.take_add]

end Rs

/-! ## Which calls may be split -/

/-- `zeros` blocks of zeros and `ones` blocks of ones. -/
def steppedPort (zeros ones : Nat) : Port :=
  Port.fresh (Feed.ofPieces (blocks 1 (uniformBlocks zeros 0 ++ uniformBlocks ones 1)))
    []

/-- Their messages. -/
def steppedMsgs (zeros ones : Nat) : List (List UInt8) :=
  List.replicate zeros (List.replicate rsMsgLen 0) ++
    List.replicate ones (List.replicate rsMsgLen 1)

theorem length_steppedMsgs (zeros ones : Nat) :
    (steppedMsgs zeros ones).length = zeros + ones := by
  simp [steppedMsgs]

theorem steppedPort_arrives (zeros ones : Nat) :
    RsArrives (parityCodec 0) (steppedPort zeros ones) (steppedMsgs zeros ones) := by
  refine ⟨_, _, rfl, isCut_blocks Nat.one_pos _, ?_, ?_⟩
  · rw [length_steppedMsgs, List.length_append, uniformBlocks, uniformBlocks,
      List.length_replicate, List.length_replicate, Nat.mul_add]
  · have hLength : (uniformBlocks zeros 0).length = rsBlockLen * zeros :=
      List.length_replicate
    have hOnes := rsDecodes_uniformBlocks 0 1 ones []
    rw [List.append_nil] at hOnes
    refine rsDecodes_append.mpr ⟨rsDecodes_uniformBlocks 0 0 zeros _, ?_⟩
    rw [List.length_replicate, List.drop_left' hLength]
    exact hOnes

/-- The byte at which the messages change from zeros to ones. -/
theorem getElem?_steppedMsgs {zeros ones i : Nat}
    (hLt : i < rsMsgLen * (zeros + ones)) :
    (steppedMsgs zeros ones).flatten[i]? =
      some (if i < rsMsgLen * zeros then 0 else 1) := by
  rw [steppedMsgs, List.flatten_append, List.flatten_replicate_replicate,
    List.flatten_replicate_replicate, Nat.mul_comm zeros, Nat.mul_comm ones,
    List.getElem?_append, List.length_replicate]
  rw [Nat.mul_add] at hLt
  split
  · next hZero => rw [List.getElem?_replicate, if_pos hZero]
  · next hOne => rw [List.getElem?_replicate, if_pos (by omega)]

/-- The bytes from the change on are not those from a zero on. -/
theorem steppedMsgs_bytes_ne {zeros ones a b : Nat} (hZero : a < rsMsgLen * zeros)
    (hOnes : 0 < ones) (hB : 0 < b) :
    ((steppedMsgs zeros ones).flatten.drop (rsMsgLen * zeros)).take b ≠
      ((steppedMsgs zeros ones).flatten.drop a).take b := by
  intro hBytes
  have hFirst := congrArg (fun bytes => bytes[0]?) hBytes
  have hInside : rsMsgLen * zeros < rsMsgLen * (zeros + ones) :=
    Nat.mul_lt_mul_of_pos_left (Nat.lt_add_of_pos_right hOnes) rsMsgLen_pos
  rw [List.getElem?_take_of_lt hB, List.getElem?_take_of_lt hB, List.getElem?_drop,
    List.getElem?_drop, Nat.add_zero, Nat.add_zero, getElem?_steppedMsgs hInside,
    getElem?_steppedMsgs (Nat.lt_trans hZero hInside), if_neg (Nat.lt_irrefl _),
    if_pos hZero] at hFirst
  exact absurd hFirst (by decide)

/-- A call for a multiple of the message size may be split off any call, a call for
another number of bytes may not. -/
theorem readRsUntil_split_iff_dvd {a b : Nat} (hA : 1 ≤ a) (hB : 1 ≤ b)
    (hMax : a + b ≤ intMax) :
    (∀ (codec : ReedSolomon) (fd : Int) (port : Port) (msgs : List (List UInt8)),
      codec.created = true → codec.FullMessages → 0 ≤ fd →
      RsArrives codec port msgs → rsBlocksFor (a + b) ≤ msgs.length →
      DeliversSplit (readRsUntil codec fd) a b port) ↔ rsMsgLen ∣ a := by
  constructor
  · intro hAll
    by_contra hNot
    -- the first call stops among the zeros, and the second starts with the ones
    let zeros := rsBlocksFor a
    let ones := rsBlocksFor b
    have hEnough : rsBlocksFor (a + b) ≤ (steppedMsgs zeros ones).length := by
      rw [length_steppedMsgs]
      simp only [zeros, ones, rsBlocksFor, rsMsgLen, rsBlockLen, rsNumRoots]
      omega
    have hArrives := steppedPort_arrives zeros ones
    have hSplit := hAll _ 0 _ _ rfl (parityCodec_fullMessages 0) (Int.le_refl 0)
      hArrives hEnough
    obtain ⟨-, hBytes⟩ := (readRsUntil_deliversSplit_iff rfl
      (parityCodec_fullMessages 0) (Int.le_refl 0) hMax hArrives hEnough).mp hSplit
    have hInside : a < rsMsgLen * zeros :=
      Nat.lt_of_le_of_ne le_rsBlocksFor fun hEq => hNot ⟨zeros, hEq⟩
    exact steppedMsgs_bytes_ne hInside rsBlocksFor_pos hB hBytes
  · rintro ⟨q, rfl⟩ codec fd port msgs hCreated hFull hFd hArrives hEnough
    have hBlocks : rsBlocksFor (rsMsgLen * q) = q ∧
        rsBlocksFor (rsMsgLen * q + b) = q + rsBlocksFor b := by
      simp only [rsBlocksFor, rsMsgLen, rsBlockLen, rsNumRoots] at hA ⊢
      omega
    refine (readRsUntil_deliversSplit_iff hCreated hFull hFd hMax hArrives
      hEnough).mpr ⟨?_, ?_⟩
    · rw [hBlocks.1, ← hBlocks.2]
      exact hEnough
    · rw [hBlocks.1]

/-- When two blocking calls deliver what one does.  Over all streams, exactly if the
first asks for a multiple of the message size; over one stream, exactly if there are
enough blocks for both and the bytes behind the blocks of the first call are those it
has lost.  Two calls that read raw bytes always do. -/
theorem rsReads_split_iff {a b : Nat} (hA : 1 ≤ a) (hB : 1 ≤ b)
    (hMax : a + b ≤ intMax) :
    ((∀ (codec : ReedSolomon) (fd : Int) (port : Port) (msgs : List (List UInt8)),
      codec.created = true → codec.FullMessages → 0 ≤ fd →
      RsArrives codec port msgs → rsBlocksFor (a + b) ≤ msgs.length →
      DeliversSplit (readRsUntil codec fd) a b port) ↔ rsMsgLen ∣ a) ∧
    (∀ (codec : ReedSolomon) (fd : Int) (port : Port) (msgs : List (List UInt8)),
      codec.created = true → codec.FullMessages → 0 ≤ fd →
      RsArrives codec port msgs → rsBlocksFor (a + b) ≤ msgs.length →
      (DeliversSplit (readRsUntil codec fd) a b port ↔
        rsBlocksFor a + rsBlocksFor b ≤ msgs.length ∧
        (msgs.flatten.drop (rsMsgLen * rsBlocksFor a)).take b =
          (msgs.flatten.drop a).take b)) ∧
    (∀ (fd : Int) (port : Port) (cut : List (List UInt8)) (stream : List UInt8),
      0 ≤ fd → port.rx = Feed.ofPieces cut → IsCut cut stream →
      a + b ≤ stream.length → DeliversSplit (readUntil fd) a b port) := by
  refine ⟨readRsUntil_split_iff_dvd hA hB hMax, ?_, ?_⟩
  · intro codec fd port msgs hCreated hFull hFd hArrives hEnough
    exact readRsUntil_deliversSplit_iff hCreated hFull hFd hMax hArrives hEnough
  · intro fd port cut stream hFd hRx hCut hEnough
    exact readUntil_deliversSplit hFd hRx hCut hMax hEnough

/-- A first call for one whole message. -/
theorem rsReads_split_one_block :
    DeliversSplit (readRsUntil (parityCodec 0) 3) 253 47 (steppedPort 1 1) :=
  (@rsReads_split_iff 253 47 (by decide) (by decide) (by decide)).1.mpr ⟨1, rfl⟩ _ 3 _
    _ rfl (parityCodec_fullMessages 0) (by decide) (steppedPort_arrives 1 1)
    (by decide)

/-- A first call for one byte loses the other 252 of its block. -/
theorem not_rsReads_split_one_byte :
    RsArrives (parityCodec 0) (steppedPort 1 1) (steppedMsgs 1 1) ∧
      rsBlocksFor (1 + 1) ≤ (steppedMsgs 1 1).length ∧
      ¬ DeliversSplit (readRsUntil (parityCodec 0) 3) 1 1 (steppedPort 1 1) := by
  have hArrives := steppedPort_arrives 1 1
  refine ⟨hArrives, by decide, ?_⟩
  intro hSplit
  obtain ⟨-, hBytes⟩ := (readRsUntil_deliversSplit_iff rfl
    (parityCodec_fullMessages 0) (by decide) (by decide) hArrives (by decide)).mp hSplit
  exact steppedMsgs_bytes_ne (by decide) (by decide) (by decide) hBytes

end Loris
end CubeSatComm
