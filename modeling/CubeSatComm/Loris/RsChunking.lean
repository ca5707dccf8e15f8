import CubeSatComm.Loris.ReedSolomon

/-!
# The blocks of the encoding loop

How the loop of `antenna_write_rs_fd` cuts its data into blocks, for every length
that a `size_t` holds.  The counters of the loop are `int`: what it takes for the
number of bytes that remain is that number modulo `2 ^ 32`.  So the loop cuts the
first `data_len % 2 ^ 32` bytes as it should, and then asks for an empty block, over
and over; when this number is itself no `int`, the first block has a negative length.
-/

namespace CubeSatComm
namespace Loris

open Lib CInteger Posix

/-- The encoder accepts every message that leaves room for the parity bytes. -/
def ReedSolomon.EncodesAll (codec : ReedSolomon) : Prop :=
  ∀ msg : List UInt8, msg.length ≤ rsBlockLen - rsNumRoots →
    ∃ block, codec.encode msg = some block

theorem parityCodec_encodesAll (parity : UInt8) : (parityCodec parity).EncodesAll := by
  intro msg hLength
  obtain ⟨block, hEncode, -⟩ := (parityCodec_contract parity).encode_spec msg hLength
  exact ⟨block, hEncode⟩

/-- `data_len` divided by `RS_DATA_LEN`, rounded up. -/
def rsChunkCount (dataLen : Nat) : Nat := (dataLen + (rsDataLen - 1)) / rsDataLen

/-- The pass at `bytes_encoded` asks for a block that is not empty, not longer than
`RS_DATA_LEN`, and inside the data. -/
def RsRequestInside (dataLen : Nat) (bytesEncoded : Int) : Prop :=
  1 ≤ bytesToEncode dataLen bytesEncoded ∧
    bytesToEncode dataLen bytesEncoded ≤ rsDataLen ∧
    0 ≤ bytesEncoded ∧
    bytesEncoded + bytesToEncode dataLen bytesEncoded ≤ dataLen

instance (dataLen : Nat) (bytesEncoded : Int) :
    Decidable (RsRequestInside dataLen bytesEncoded) :=
  inferInstanceAs (Decidable (_ ∧ _ ∧ _ ∧ _))

/-- The loop is left without error behind exactly `rsChunkCount` passes, and every
one of them asks for a block inside the data. -/
def RsChunks (codec : ReedSolomon) (fd : Int) (data : List UInt8) (port : Port) :
    Prop :=
  (∃ s, Loop.Passes (rsWritePass codec fd data) (rsChunkCount data.length) ⟨0, port⟩ s ∧
    rsWritePass codec fd data s = .leave (0, s.port)) ∧
  ∀ i < rsChunkCount data.length, ∀ s,
    Loop.Passes (rsWritePass codec fd data) i ⟨0, port⟩ s →
      RsRequestInside data.length s.bytesEncoded

/-- A loop that cuts its data as it should ends the call without error. -/
theorem RsChunks.returns {codec : ReedSolomon} (hCreated : codec.created = true)
    {fd : Int} {data : List UInt8} {port : Port}
    (hChunks : RsChunks codec fd data port) {fuel : Nat}
    (hFuel : rsChunkCount data.length < fuel) :
    ∃ port', antennaWriteRsFd fuel codec fd data port = some (0, port') := by
  obtain ⟨⟨s, hPasses, hLeave⟩, -⟩ := hChunks
  obtain ⟨fuel, rfl⟩ : ∃ extra, fuel = (extra + 1) + rsChunkCount data.length :=
    ⟨fuel - (rsChunkCount data.length + 1), by omega⟩
  refine ⟨s.port, ?_⟩
  rw [antennaWriteRsFd, if_pos hCreated, Loop.runFor_passes hPasses,
    Loop.runFor_leave hLeave]

theorem rsChunkCount_pos {dataLen : Nat} (hPos : 0 < dataLen) :
    0 < rsChunkCount dataLen := by
  simp only [rsChunkCount, rsDataLen]
  omega

/-- That many blocks hold the data, -/
theorem le_rsChunkCount (dataLen : Nat) :
    dataLen ≤ rsDataLen * rsChunkCount dataLen := by
  simp only [rsChunkCount, rsDataLen]
  omega

/-- and fewer do not. -/
theorem lt_of_lt_rsChunkCount {dataLen i : Nat} (hLt : i < rsChunkCount dataLen) :
    rsDataLen * i < dataLen := by
  simp only [rsChunkCount, rsDataLen] at hLt ⊢
  omega

theorem rsChunkCount_lt {low dataLen : Nat} (hLt : low + rsDataLen ≤ dataLen) :
    rsChunkCount low < rsChunkCount dataLen := by
  simp only [rsChunkCount, rsDataLen] at hLt ⊢
  omega

/-! ## The length that the loop sees -/

/-- The number of bytes that the loop takes for the length of its data, if it is an
`int`. -/
def lowLength (dataLen : Nat) : Nat := dataLen % 2 ^ 32

theorem lowLength_le (dataLen : Nat) : lowLength dataLen ≤ dataLen :=
  Nat.mod_le dataLen _

theorem lowLength_of_le {dataLen : Nat} (hMax : dataLen ≤ intMax) :
    lowLength dataLen = dataLen := by
  unfold intMax at hMax
  exact Nat.mod_eq_of_lt (by omega)

section Low

variable {dataLen : Nat} (hSize : dataLen < sizeRange)

include hSize

/-- Below `lowLength` a pass takes the next `RS_DATA_LEN` bytes, or what is left of
these `lowLength` bytes. -/
theorem bytesToEncode_low {offset : Nat} (hMax : lowLength dataLen ≤ intMax)
    (hLe : offset ≤ lowLength dataLen) :
    bytesToEncode dataLen offset =
      (min rsDataLen (lowLength dataLen - offset) : Nat) := by
  have hRemaining : int32 (sizeT ((dataLen : Int) - (offset : Int))) =
      (lowLength dataLen - offset : Nat) := by
    have hLow := lowLength_le dataLen
    rw [← Int.natCast_sub (by omega), sizeT_natCast (by omega)]
    simp only [lowLength, intMax, int32] at hMax hLe ⊢
    omega
  unfold bytesToEncode
  simp only [hRemaining]
  split <;> omega

/-- When it is no `int`, the first block has a negative length. -/
theorem bytesToEncode_negative (hMax : intMax < lowLength dataLen) :
    bytesToEncode dataLen 0 < 0 := by
  have hRemaining : int32 (sizeT ((dataLen : Int) - 0)) < 0 := by
    rw [Int.sub_zero, sizeT_natCast hSize]
    simp only [lowLength, intMax, int32] at hMax ⊢
    omega
  unfold bytesToEncode
  dsimp only
  rw [if_neg (by omega)]
  exact hRemaining

end Low

/-! ## The passes of the loop -/

section Passes

variable {codec : ReedSolomon} {fd : Int} {data : List UInt8}

/-- With complete writes no pass is left because of its `write`, not even on a bad
descriptor. -/
theorem antennaWriteFd_of_completeWrites {request : List UInt8}
    (hLength : request.length < sizeRange) {port : Port}
    (hPort : port.CompleteWrites) :
    ∃ port', antennaWriteFd fd request port = (0, port') ∧ port'.CompleteWrites := by
  by_cases hFd : fd < 0
  · exact ⟨port, antennaWriteFd_bad hFd hLength port, hPort⟩
  · refine ⟨{ port with
        tx := port.tx.tail
        written := port.written ++ [port.nextOutcome.record request] }, ?_,
      Port.completeWrites_tail hPort rfl⟩
    rw [antennaWriteFd_open (by omega) hLength, hPort.nextOutcome_eq,
      if_neg (WriteOutcome.not_short_complete _)]

variable (hEncodes : codec.EncodesAll) (hSize : data.length < sizeRange)
  (hMax : lowLength data.length ≤ intMax)

include hEncodes hSize hMax

/-- A pass below `lowLength` goes on to the next block. -/
theorem rsWritePass_low {offset : Nat} (hLt : offset < lowLength data.length)
    {port : Port} (hPort : port.CompleteWrites) :
    ∃ port', rsWritePass codec fd data ⟨offset, port⟩ =
        .again ⟨(min (offset + rsDataLen) (lowLength data.length) : Nat), port'⟩ ∧
      port'.CompleteWrites := by
  have hLow := lowLength_le data.length
  have hMaxLt := intMax_lt_sizeRange
  have hCount := bytesToEncode_low hSize hMax (Nat.le_of_lt hLt)
  have hOffset : sizeT (offset : Int) = offset := sizeT_natCast (by omega)
  have hMessage : (rsMessage data offset).length ≤ rsBlockLen - rsNumRoots := by
    rw [rsMessage, hCount, sizeT_natCast (by omega), List.length_take]
    have hRoom := rsDataLen_le
    omega
  obtain ⟨block, hEncode⟩ := hEncodes _ hMessage
  obtain ⟨port', hWrite, hPort'⟩ := @antennaWriteFd_of_completeWrites fd block
    (Nat.lt_of_le_of_lt (codec.encode_length_le hEncode) (by decide)) _ hPort
  have hSum : offset + min rsDataLen (lowLength data.length - offset) =
      min (offset + rsDataLen) (lowLength data.length) := by
    omega
  have hNext : int32 ((offset : Int) +
      (min rsDataLen (lowLength data.length - offset) : Nat)) =
        (min (offset + rsDataLen) (lowLength data.length) : Nat) := by
    rw [← Int.natCast_add, hSum, int32_natCast (by omega)]
  refine ⟨port', ?_, hPort'⟩
  rw [rsWritePass, hOffset, if_pos (by omega), hEncode]
  dsimp only
  rw [hWrite, hCount, hNext]
  rfl

/-- The passes up to `lowLength`: one for each of its blocks. -/
theorem rsWriteLoop_low {port : Port} (hPort : port.CompleteWrites) (i : Nat)
    (hI : i ≤ rsChunkCount (lowLength data.length)) :
    ∃ port', Loop.Passes (rsWritePass codec fd data) i ⟨0, port⟩
        ⟨(min (rsDataLen * i) (lowLength data.length) : Nat), port'⟩ ∧
      port'.CompleteWrites := by
  induction i with
  | zero =>
      rw [Nat.mul_zero, Nat.zero_min]
      exact ⟨port, .refl _, hPort⟩
  | succ i ih =>
      obtain ⟨port₁, hPasses, hPort₁⟩ := ih (by omega)
      have hBelow := @lt_of_lt_rsChunkCount (lowLength data.length) i (by omega)
      rw [Nat.min_eq_left (Nat.le_of_lt hBelow)] at hPasses
      obtain ⟨port₂, hPass, hPort₂⟩ :=
        @rsWritePass_low codec fd data hEncodes hSize hMax _ hBelow _ hPort₁
      rw [← Nat.mul_succ] at hPass
      exact ⟨port₂, hPasses.trans (.single hPass), hPort₂⟩

end Passes

section Chunks

variable {codec : ReedSolomon} (hEncodes : codec.EncodesAll) {fd : Int}
  {data : List UInt8} {port : Port} (hPort : port.CompleteWrites)

include hEncodes hPort

/-- Up to `INT_MAX` bytes the loop cuts its data as it should. -/
theorem rsChunks_of_le (hMax : data.length ≤ intMax) :
    RsChunks codec fd data port := by
  have hMaxLt := intMax_lt_sizeRange
  have hSize : data.length < sizeRange := by omega
  have hLow := lowLength_of_le hMax
  have hLowMax : lowLength data.length ≤ intMax := by omega
  have hLoop := @rsWriteLoop_low codec fd data hEncodes hSize hLowMax port hPort
  rw [hLow] at hLoop
  constructor
  · obtain ⟨port', hPasses, -⟩ := hLoop _ (Nat.le_refl _)
    rw [Nat.min_eq_right (le_rsChunkCount _)] at hPasses
    refine ⟨_, hPasses, ?_⟩
    rw [rsWritePass, sizeT_natCast hSize, if_neg (Nat.lt_irrefl _)]
  · intro i hI s hPasses
    obtain ⟨port', hPasses', -⟩ := hLoop i (Nat.le_of_lt hI)
    have hBelow := lt_of_lt_rsChunkCount hI
    rw [Nat.min_eq_left (Nat.le_of_lt hBelow)] at hPasses'
    obtain rfl := hPasses.unique hPasses'
    have hCount := @bytesToEncode_low data.length hSize (rsDataLen * i) hLowMax
      (by omega)
    have hPos := rsDataLen_pos
    rw [hLow] at hCount
    dsimp only
    rw [RsRequestInside, hCount]
    omega

/-- Beyond, some pass asks for a block with a negative number of bytes, or with
none. -/
theorem not_rsChunks_of_lt (hSize : data.length < sizeRange)
    (hMax : intMax < data.length) : ¬ RsChunks codec fd data port := by
  rintro ⟨-, hInside⟩
  by_cases hLow : lowLength data.length ≤ intMax
  · -- all of `lowLength` has been encoded, and the loop still goes on
    have hWraps : lowLength data.length + rsDataLen ≤ data.length := by
      simp only [lowLength, intMax, rsDataLen] at *
      omega
    obtain ⟨port', hPasses, -⟩ :=
      @rsWriteLoop_low codec fd data hEncodes hSize hLow port hPort _ (Nat.le_refl _)
    rw [Nat.min_eq_right (le_rsChunkCount _)] at hPasses
    have hRequest := (hInside _ (rsChunkCount_lt hWraps) _ hPasses).1
    rw [bytesToEncode_low hSize hLow (Nat.le_refl _), Nat.sub_self, Nat.min_zero]
      at hRequest
    exact absurd hRequest (by decide)
  · have hRequest := (hInside 0 (rsChunkCount_pos (by omega)) _ (.refl _)).1
    have hNegative := bytesToEncode_negative hSize (by omega)
    dsimp only at hRequest
    omega

/-- The loop cuts its data into `data_len / RS_DATA_LEN` blocks, rounded up, each of
them inside the data, exactly if `data_len` is an `int`. -/
theorem rsChunks_iff (hSize : data.length < sizeRange) :
    RsChunks codec fd data port ↔ data.length ≤ intMax := by
  constructor
  · intro hChunks
    by_contra hMax
    exact not_rsChunks_of_lt hEncodes hPort hSize (by omega) hChunks
  · exact rsChunks_of_le hEncodes hPort

end Chunks

/-- Three hundred bytes are cut into two blocks. -/
theorem rsChunks_three_hundred :
    RsChunks (parityCodec 0) 3 (List.replicate 300 7) (Port.fresh [] []) := by
  refine (rsChunks_iff (parityCodec_encodesAll 0) (Port.completeWrites_fresh [])
    ?_).mpr ?_
  · rw [List.length_replicate]
    decide
  · rw [List.length_replicate]
    decide

/-- The first block of `INT_MAX + 1` bytes has a negative length. -/
theorem not_rsChunks_two_gib :
    ¬ RsChunks (parityCodec 0) 3 (List.replicate (intMax + 1) 7)
      (Port.fresh [] []) := by
  refine not_rsChunks_of_lt (parityCodec_encodesAll 0) (Port.completeWrites_fresh [])
    ?_ ?_
  · rw [List.length_replicate]
    decide
  · rw [List.length_replicate]
    exact Nat.lt_succ_self _

end Loris
end CubeSatComm
