import CubeSatComm.Loris.ReedSolomon

/-!
# The calls of the decoder

Which lengths `antenna_read_rs_fd` hands to `correct_reed_solomon_decode`.  A length
is in bounds when the codec accepts it and the message fits into the local array
`decoded[RS_DATA_LEN]`, which has the size of a message with 32 parity bytes while
the codec is created for `RS_NUM_ROOTS`.

In `READ_MODE_UNTIL` every decoded block is whole, and the message of a whole block
does not fit.  In `READ_MODE_UPTO` the length is that of one `read`.
-/

namespace CubeSatComm
namespace Loris

open Lib CInteger Posix

/-- A call of `antenna_read_rs_fd` hands `encodedLength` bytes to the decoder, in the
pass behind some number of others. -/
def RsDecodeCall (codec : ReedSolomon) (fd : Int) (buffer : List UInt8)
    (readLen : Nat) (readMode : Int) (port : Port) (encodedLength : Nat) : Prop :=
  codec.created = true ∧
    ∃ k s r, Loop.Passes (rsReadPass codec fd readLen readMode) k ⟨buffer, 0, port⟩ s ∧
      rsReadBlock fd readMode s.port = some r ∧ ¬ r.ret < 0 ∧
      encodedLength = sizeT r.ret

/-- The codec accepts a block of this length, and `decoded` has room for its
message. -/
def RsLengthInBounds (encodedLength : Nat) : Prop :=
  rsNumRoots < encodedLength ∧ encodedLength ≤ rsBlockLen ∧
    encodedLength - rsNumRoots ≤ rsDataLen

instance (encodedLength : Nat) : Decidable (RsLengthInBounds encodedLength) :=
  inferInstanceAs (Decidable (_ ∧ _ ∧ _))

/-- The message of a whole block does not fit. -/
theorem not_rsLengthInBounds_block : ¬ RsLengthInBounds rsBlockLen := by decide

theorem not_rsLengthInBounds_zero : ¬ RsLengthInBounds 0 := by decide

/-- The length that a `read` of one piece hands on is in bounds exactly when the
length of the piece is. -/
theorem rsLengthInBounds_min_iff {n : Nat} :
    RsLengthInBounds (min n rsBlockLen) ↔
      rsNumRoots < n ∧ n ≤ rsDataLen + rsNumRoots := by
  simp only [RsLengthInBounds, rsNumRoots, rsBlockLen, rsDataLen]
  omega

/-! ## The blocks that are read -/

section Block

variable {fd : Int} {readMode : Int} {port : Port}

/-- On a bad descriptor, or with another mode, no block is read. -/
theorem rsReadBlock_idle (hIdle : fd < 0 ∨ ¬ ValidMode readMode) {r : ReadReturn}
    (hBlock : rsReadBlock fd readMode port = some r) : r.ret = -1 := by
  rw [rsReadBlock, antennaReadFd_idle hIdle (by decide)] at hBlock
  obtain rfl := Option.some.inj hBlock
  rfl

/-- In `READ_MODE_UNTIL` a whole block is read when its bytes arrive before a
failure, -/
theorem rsReadBlock_arriving (hFd : 0 ≤ fd)
    (hEnough : rsBlockLen ≤ port.rx.arriving.length) :
    ∃ r, rsReadBlock fd readModeUntil port = some r ∧ r.ret = rsBlockLen ∧
      r.buffer = port.rx.arriving.take rsBlockLen ∧
      r.port.rx.arriving = port.rx.arriving.drop rsBlockLen ∧
      (port.rx.Fails ↔ r.port.rx.Fails) := by
  obtain ⟨r, hRun, hRet, hBuffer, hRest, hFails⟩ :=
    @untilLoop_enough fd rsBlockLen hFd (by decide)
      ⟨List.replicate rsBlockLen 0, 0, port⟩ (Nat.zero_le _) (Nat.zero_le _)
      (.inl rsBlockLen_le_intMax) (by simpa using hEnough)
  refine ⟨r, ?_, ?_, ?_, hRest, hFails⟩
  · rw [rsReadBlock, antennaReadFd_until, hRun]
  · rw [hRet]
    exact int32_natCast rsBlockLen_le_intMax
  · rw [hBuffer]
    simp [Nat.min_eq_left hEnough]

/-- and otherwise none is. -/
theorem rsReadBlock_few (hFew : port.rx.arriving.length < rsBlockLen) {r : ReadReturn}
    (hBlock : rsReadBlock fd readModeUntil port = some r) :
    r.ret = -1 ∧ (0 ≤ fd → port.rx.Fails) := by
  rw [rsReadBlock, antennaReadFd_until] at hBlock
  exact untilLoop_few (by decide) (.inl rsBlockLen_le_intMax) (by simpa using hFew)
    hBlock

theorem rsReadBlock_until_iff (hFd : 0 ≤ fd) :
    (∃ r, rsReadBlock fd readModeUntil port = some r ∧ ¬ r.ret < 0) ↔
      rsBlockLen ≤ port.rx.arriving.length := by
  constructor
  · rintro ⟨r, hBlock, hRet⟩
    by_contra hFew
    rw [(rsReadBlock_few (by omega) hBlock).1] at hRet
    exact hRet (by decide)
  · intro hEnough
    obtain ⟨r, hBlock, hRet, -⟩ := rsReadBlock_arriving hFd hEnough
    exact ⟨r, hBlock, by omega⟩

theorem rsReadBlock_until_ret (hFd : 0 ≤ fd) {r : ReadReturn}
    (hBlock : rsReadBlock fd readModeUntil port = some r) (hRet : ¬ r.ret < 0) :
    sizeT r.ret = rsBlockLen := by
  obtain ⟨r', hBlock', hWhole, -⟩ := rsReadBlock_arriving hFd
    ((rsReadBlock_until_iff hFd).mp ⟨r, hBlock, hRet⟩)
  obtain rfl := Option.some.inj (hBlock'.symm.trans hBlock)
  rw [hWhole]
  exact sizeT_natCast (by decide)

/-- In `READ_MODE_UPTO` a block is read exactly when the first arrival is data, and
it is that piece, or the front of it. -/
theorem rsReadBlock_upto_iff (hFd : 0 ≤ fd) {n : Nat} :
    (∃ r, rsReadBlock fd readModeUpto port = some r ∧ ¬ r.ret < 0 ∧
        n = sizeT r.ret) ↔
      ∃ xs, port.rx.head? = some (.piece xs) ∧ n = min xs.length rsBlockLen := by
  have hMax := rsBlockLen_le_intMax
  have hMaxLt := intMax_lt_sizeRange
  rw [rsReadBlock]
  cases hRx : port.rx with
  | nil =>
      have hWait : port.rx.read rsBlockLen = none := by
        rw [hRx, Feed.read]
      rw [antennaReadFd_upto_wait _ (Port.read_waits hFd hWait)]
      simp
  | cons arrival rest =>
      cases arrival with
      | failure e =>
          have hFeed : port.rx.read rsBlockLen = some (.error e, rest) := by
            rw [hRx, Feed.read]
          have hRead := Port.read_open hFd hFeed
          rw [antennaReadFd_upto, hRead]
          simp
      | piece xs =>
          obtain ⟨rx, hFeed⟩ : ∃ rx, port.rx.read rsBlockLen =
              some (.ok (xs.take rsBlockLen), rx) := by
            rw [hRx, Feed.read]
            split
            · next hLe => exact ⟨rest, by rw [List.take_of_length_le hLe]⟩
            · exact ⟨_, rfl⟩
          have hLength : (xs.take rsBlockLen).length = min xs.length rsBlockLen := by
            rw [List.length_take, Nat.min_comm]
          rw [antennaReadFd_upto_read _ (Port.read_open hFd hFeed)
            (by rw [hLength]; omega)]
          have hRet : sizeT ((xs.take rsBlockLen).length : Int) =
              min xs.length rsBlockLen := by
            rw [sizeT_natCast (by rw [hLength]; omega), hLength]
          constructor
          · rintro ⟨r, hCall, -, rfl⟩
            obtain rfl := Option.some.inj hCall
            exact ⟨xs, rfl, hRet⟩
          · rintro ⟨ys, hHead, rfl⟩
            obtain rfl := Arrival.piece.inj (Option.some.inj hHead)
            exact ⟨_, rfl, by dsimp only; omega, hRet.symm⟩

end Block

/-! ## The calls of a run -/

section Calls

variable {codec : ReedSolomon} {fd : Int} {buffer : List UInt8} {readLen : Nat}
  {readMode : Int} {port : Port}

/-- A pass that goes on has read a block, in `READ_MODE_UNTIL`. -/
theorem rsReadPass_again_block {s s' : RsReadState}
    (hPass : rsReadPass codec fd readLen readMode s = .again s') :
    readMode = readModeUntil ∧
      ∃ r, rsReadBlock fd readMode s.port = some r ∧ ¬ r.ret < 0 := by
  unfold rsReadPass at hPass
  split at hPass
  · cases hPass
  · next r hBlock =>
    split at hPass
    · cases hPass
    · next hRet =>
      split at hPass
      · cases hPass
      · dsimp only at hPass
        split at hPass
        · next hTest => exact ⟨hTest.2, r, hBlock, hRet⟩
        · cases hPass

/-- With any call, the first pass makes one. -/
theorem rsDecodeCall_first {n : Nat}
    (hCall : RsDecodeCall codec fd buffer readLen readMode port n) :
    ∃ r, rsReadBlock fd readMode port = some r ∧ ¬ r.ret < 0 := by
  obtain ⟨-, k, s, r, hPasses, hBlock, hRet, -⟩ := hCall
  cases hPasses with
  | refl => exact ⟨r, hBlock, hRet⟩
  | again hPass _ => exact (rsReadPass_again_block hPass).2

theorem rsDecodeCall_of_block (hCreated : codec.created = true) {r : ReadReturn}
    (hBlock : rsReadBlock fd readMode port = some r) (hRet : ¬ r.ret < 0) :
    RsDecodeCall codec fd buffer readLen readMode port (sizeT r.ret) :=
  ⟨hCreated, 0, _, r, .refl _, hBlock, hRet, rfl⟩

/-- In `READ_MODE_UPTO` there is one pass. -/
theorem rsDecodeCall_upto_iff (hCreated : codec.created = true) (hFd : 0 ≤ fd)
    {n : Nat} :
    RsDecodeCall codec fd buffer readLen readModeUpto port n ↔
      ∃ xs, port.rx.head? = some (.piece xs) ∧ n = min xs.length rsBlockLen := by
  rw [← rsReadBlock_upto_iff hFd]
  constructor
  · rintro ⟨-, k, s, r, hPasses, hBlock, hRet, rfl⟩
    cases hPasses with
    | refl => exact ⟨r, hBlock, hRet, rfl⟩
    | again hPass _ =>
        exact absurd (rsReadPass_again_block hPass).1 (by decide)
  · rintro ⟨r, hBlock, hRet, rfl⟩
    exact rsDecodeCall_of_block hCreated hBlock hRet

/-- In `READ_MODE_UNTIL` every call gets a whole block. -/
theorem rsDecodeCall_until_length (hFd : 0 ≤ fd) {n : Nat}
    (hCall : RsDecodeCall codec fd buffer readLen readModeUntil port n) :
    n = rsBlockLen := by
  obtain ⟨-, k, s, r, -, hBlock, hRet, rfl⟩ := hCall
  exact rsReadBlock_until_ret hFd hBlock hRet

/-- There is one exactly when enough bytes arrive for the first. -/
theorem rsDecodeCall_until_iff (hCreated : codec.created = true) (hFd : 0 ≤ fd) :
    RsDecodeCall codec fd buffer readLen readModeUntil port rsBlockLen ↔
      rsBlockLen ≤ port.rx.arriving.length := by
  rw [← rsReadBlock_until_iff hFd]
  constructor
  · exact rsDecodeCall_first
  · rintro ⟨r, hBlock, hRet⟩
    rw [← rsReadBlock_until_ret hFd hBlock hRet]
    exact rsDecodeCall_of_block hCreated hBlock hRet

/-- When every call of the decoder is in bounds.  In `READ_MODE_UPTO`, exactly if
the first arrival, where it is data, has more than `RS_NUM_ROOTS` bytes and at most
`RS_DATA_LEN + RS_NUM_ROOTS`; in `READ_MODE_UNTIL`, exactly if no block arrives, so
that no call is made. -/
theorem rsDecodeCalls_inBounds_iff (codec : ReedSolomon) (fd : Int)
    (buffer : List UInt8) (readLen : Nat) (readMode : Int) (port : Port) :
    (∀ n, RsDecodeCall codec fd buffer readLen readMode port n →
        RsLengthInBounds n) ↔
      (codec.created = true → 0 ≤ fd →
        (readMode = readModeUpto → ∀ xs, port.rx.head? = some (.piece xs) →
          rsNumRoots < xs.length ∧ xs.length ≤ rsDataLen + rsNumRoots) ∧
        (readMode = readModeUntil → port.rx.arriving.length < rsBlockLen)) := by
  constructor
  · intro hAll hCreated hFd
    constructor
    · rintro rfl xs hHead
      exact rsLengthInBounds_min_iff.mp
        (hAll _ ((rsDecodeCall_upto_iff hCreated hFd).mpr ⟨xs, hHead, rfl⟩))
    · rintro rfl
      by_contra hEnough
      exact not_rsLengthInBounds_block
        (hAll _ ((rsDecodeCall_until_iff hCreated hFd).mpr (by omega)))
  · intro hCond n hCall
    have hCreated := hCall.1
    obtain ⟨r, hBlock, hRet⟩ := rsDecodeCall_first hCall
    by_cases hIdle : fd < 0 ∨ ¬ ValidMode readMode
    case pos =>
      rw [rsReadBlock_idle hIdle hBlock] at hRet
      exact absurd (by decide) hRet
    case neg =>
      have hFd : 0 ≤ fd := by
        by_contra hBad
        exact hIdle (.inl (by omega))
      have hMode : ValidMode readMode := by
        by_contra hOther
        exact hIdle (.inr hOther)
      obtain ⟨hUpto, hUntil⟩ := hCond hCreated hFd
      rcases hMode with rfl | rfl
      · obtain ⟨xs, hHead, rfl⟩ := (rsDecodeCall_upto_iff hCreated hFd).mp hCall
        exact rsLengthInBounds_min_iff.mpr (hUpto rfl xs hHead)
      · obtain rfl := rsDecodeCall_until_length hFd hCall
        have hEnough := (rsDecodeCall_until_iff hCreated hFd).mp hCall
        exact absurd (hUntil rfl) (by omega)

/-- Out of bounds: a whole block, and a `read` at the end of file. -/
theorem not_rsDecodeCalls_inBounds :
    ¬ (∀ n, RsDecodeCall (parityCodec 0) 3 [] 1 readModeUntil
        (Port.fresh (Feed.ofPieces [List.replicate rsBlockLen 0]) []) n →
          RsLengthInBounds n) ∧
    ¬ (∀ n, RsDecodeCall (parityCodec 0) 3 [] 1 readModeUpto
        (Port.fresh (Feed.ofPieces [[]]) []) n → RsLengthInBounds n) := by
  constructor
  · intro hAll
    refine not_rsLengthInBounds_block
      (hAll _ ((rsDecodeCall_until_iff rfl (by decide)).mpr ?_))
    rw [Port.fresh, Feed.ofPieces_cons, Feed.arriving, List.length_append,
      List.length_replicate]
    exact Nat.le_add_right _ _
  · intro hAll
    exact not_rsLengthInBounds_zero
      (hAll _ ((rsDecodeCall_upto_iff rfl (by decide)).mpr ⟨[], rfl, rfl⟩))

end Calls

end Loris
end CubeSatComm
