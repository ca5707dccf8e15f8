import CubeSatComm.Loris.FileSender
import CubeSatComm.Loris.ReedSolomon

/-!
# Losses on the sending side

What a return value of `0` says about the bytes that `write` accepted.  A `write`
that accepts part of its request is always reported.  A `write` that returns `-1` is
not: the comparison in `antenna_write_fd` converts the `-1` to `size_t`.  Sending a
file has three more gaps: the result of sending the notice is dropped, a last block
that is not full is not sent, and a file that cannot be opened counts as sent.
-/

namespace CubeSatComm
namespace Loris

open Lib CInteger Posix

/-- The call returns `-1`, or it returns `0` and bytes as `expected` have gone out. -/
def NoSilentLoss (port : Port) (result : Option (Int × Port))
    (expected : List UInt8 → Prop) : Prop :=
  ∃ ret port', result = some (ret, port') ∧
    (ret = -1 ∨
      (ret = 0 ∧ ∃ bytes, expected bytes ∧ port'.sent = port.sent ++ bytes))

/-- Every encoded block, in order, up to the end of the encoding loop. -/
def RsExpected (codec : ReedSolomon) (data bytes : List UInt8) : Prop :=
  ∃ encoded offset', RsEncodes codec data 0 encoded offset' ∧
    ¬ sizeT offset' < data.length ∧ bytes = encoded.flatten

section Single

variable {fd : Int} (hFd : 0 ≤ fd) {port : Port}

include hFd

/-- A sequence of writes loses nothing silently exactly when one of them is short or
none fails. -/
theorem noSilentLoss_sendAll_iff {requests : List (List UInt8)}
    (hLengths : ∀ request ∈ requests, request.length < sizeRange) :
    NoSilentLoss port (some (sendAll fd requests port)) (· = requests.flatten) ↔
      SomeShort port.tx requests ∨ NoneFails port.tx requests := by
  by_cases hShort : SomeShort port.tx requests
  · have hRet := sendAll_short hFd hLengths hShort
    constructor
    · intro _
      exact .inl hShort
    · intro _
      exact ⟨_, (sendAll fd requests port).2, by rw [← hRet], .inl rfl⟩
  · have hRet := (sendAll_ret_iff hFd hLengths).mpr hShort
    rw [or_iff_right hShort, ← sendAll_sent_iff hFd hLengths hShort]
    constructor
    · rintro ⟨ret, port', hResult, hCase⟩
      rw [Option.some.inj hResult] at hRet ⊢
      rcases hCase with rfl | ⟨-, bytes, rfl, hSent⟩
      · exact absurd (show (-1 : Int) = 0 from hRet) (by decide)
      · exact hSent
    · intro hSent
      exact ⟨0, (sendAll fd requests port).2, by rw [← hRet], .inr
        ⟨rfl, _, rfl, hSent⟩⟩

/-- `antenna_write_fd` loses bytes silently exactly when its `write` fails. -/
theorem noSilentLoss_write_iff {data : List UInt8}
    (hLength : data.length < sizeRange) :
    NoSilentLoss port (some (antennaWriteFd fd data port)) (· = data) ↔
      (port.nextOutcome = .fail → data = []) := by
  have hLengths : ∀ request ∈ [data], request.length < sizeRange := by
    simpa using hLength
  have hAll := @noSilentLoss_sendAll_iff fd hFd port [data] hLengths
  rw [sendAll_singleton hFd hLength, List.flatten_singleton, someShort_cons_iff,
    noneFails_cons_iff] at hAll
  refine hAll.trans ?_
  constructor
  · rintro ((hShort | hShort) | ⟨hFails, -⟩) hFail
    · -- a call that fails is not short
      have hOutcome : port.tx.headD .complete = .fail := hFail
      rw [hOutcome] at hShort
      exact absurd hShort (WriteOutcome.not_short_fail _)
    · exact absurd hShort (not_someShort_nil _)
    · exact hFails hFail
  · intro hFails
    exact .inr ⟨hFails, noneFails_nil _⟩

end Single

section Rs

variable {codec : ReedSolomon} {data : List UInt8}

/-- Where the loop ends is determined, and so are the blocks up to there. -/
theorem RsEncodes.unique {offset offset₁ offset₂ : Int}
    {encoded₁ encoded₂ : List (List UInt8)}
    (h₁ : RsEncodes codec data offset encoded₁ offset₁)
    (h₂ : RsEncodes codec data offset encoded₂ offset₂)
    (hEnd₁ : ¬ sizeT offset₁ < data.length)
    (hEnd₂ : ¬ sizeT offset₂ < data.length) : encoded₁ = encoded₂ := by
  induction encoded₁ generalizing offset encoded₂ with
  | nil =>
      obtain rfl : offset₁ = offset := h₁
      cases encoded₂ with
      | nil => rfl
      | cons block encoded₂ => exact absurd h₂.1 hEnd₁
  | cons block encoded₁ ih =>
      cases encoded₂ with
      | nil =>
          obtain rfl : offset₂ = offset := h₂
          exact absurd h₁.1 hEnd₂
      | cons block₂ encoded₂ =>
          obtain ⟨-, hEncode₁, hRest₁⟩ := h₁
          obtain ⟨-, hEncode₂, hRest₂⟩ := h₂
          rw [Option.some.inj (hEncode₁.symm.trans hEncode₂), ih hRest₁ hRest₂]

/-- `antenna_write_rs_fd` loses nothing silently exactly when no encoder is created,
or one of its writes is short, or the codec refuses a block, or it reaches the end of
the data and none of its writes fails. -/
theorem noSilentLoss_writeRs_iff {fd : Int} (hFd : 0 ≤ fd) {port : Port} :
    (∃ fuel, NoSilentLoss port (antennaWriteRsFd fuel codec fd data port)
        (RsExpected codec data)) ↔
      codec.created = false ∨
        ∃ encoded offset', RsEncodes codec data 0 encoded offset' ∧
          (SomeShort port.tx encoded ∨
            (sizeT offset' < data.length ∧
              codec.encode (rsMessage data offset') = none) ∨
            (¬ sizeT offset' < data.length ∧ NoneFails port.tx encoded)) := by
  by_cases hCreated : codec.created = true
  case neg =>
    have hNot : codec.created = false := by simpa using hCreated
    constructor
    · intro _
      exact .inl hNot
    · intro _
      refine ⟨0, -1, port, ?_, .inl rfl⟩
      rw [antennaWriteRsFd, if_neg hCreated]
  case pos =>
    rw [or_iff_right (by rw [hCreated]; decide)]
    constructor
    · rintro ⟨fuel, ret, port', hRun, hCase⟩
      rw [antennaWriteRsFd, if_pos hCreated] at hRun
      -- the writes the run has made, and why it ended behind them
      obtain ⟨encoded, offset', hEncodes, hEnds⟩ := rsWriteLoop_cases hRun
      have hLengths := hEncodes.length_lt
      refine ⟨encoded, offset', hEncodes, ?_⟩
      rcases hEnds with ⟨hSend, -⟩ | ⟨-, -, hLt, hRefused⟩ | ⟨hSend, rfl, hEnd⟩
      · left
        by_contra hNone
        have hRet := (sendAll_ret_iff hFd hLengths).mpr hNone
        rw [hSend] at hRet
        exact absurd (show (-1 : Int) = 0 from hRet) (by decide)
      · exact .inr (.inl ⟨hLt, hRefused⟩)
      · right
        right
        refine ⟨hEnd, ?_⟩
        rcases hCase with hRet |
            ⟨-, bytes, ⟨encoded₂, offset₂, hEncodes₂, hEnd₂, rfl⟩, hSent⟩
        · exact absurd hRet (by decide)
        · have hNone : ¬ SomeShort port.tx encoded := by
            rw [← sendAll_ret_iff hFd hLengths, hSend]
          rw [← sendAll_sent_iff hFd hLengths hNone, hSend]
          rw [hEncodes.unique hEncodes₂ hEnd hEnd₂]
          exact hSent
    · rintro ⟨encoded, offset', hEncodes, hEnds⟩
      have hLengths := hEncodes.length_lt
      by_cases hShort : SomeShort port.tx encoded
      · have hRet := sendAll_short hFd hLengths hShort
        refine ⟨0 + encoded.length, -1, (sendAll fd encoded port).2, ?_, .inl rfl⟩
        rw [antennaWriteRsFd, if_pos hCreated, rsWriteLoop_sendAll hEncodes, hRet,
          if_pos (by decide), ← hRet]
      · have hRet := (sendAll_ret_iff hFd hLengths).mpr hShort
        -- the writes are carried through, and one more pass ends the loop
        have hRun := @rsWriteLoop_sendAll codec fd data _ _ _ hEncodes port 1
        rw [hRet, if_neg (by decide)] at hRun
        rcases hEnds.resolve_left hShort with ⟨hLt, hRefused⟩ | ⟨hEnd, hFails⟩
        · have hPass : rsWritePass codec fd data
              ⟨offset', (sendAll fd encoded port).2⟩ =
                .leave (-1, (sendAll fd encoded port).2) := by
            simp [rsWritePass, hLt, hRefused]
          rw [Loop.runFor_leave hPass] at hRun
          refine ⟨1 + encoded.length, -1, (sendAll fd encoded port).2, ?_, .inl rfl⟩
          rw [antennaWriteRsFd, if_pos hCreated, hRun]
        · have hPass : rsWritePass codec fd data
              ⟨offset', (sendAll fd encoded port).2⟩ =
                .leave (0, (sendAll fd encoded port).2) := by
            simp [rsWritePass, hEnd]
          rw [Loop.runFor_leave hPass] at hRun
          refine ⟨1 + encoded.length, 0, (sendAll fd encoded port).2, ?_,
            .inr ⟨rfl, encoded.flatten,
              ⟨encoded, offset', hEncodes, hEnd, rfl⟩, ?_⟩⟩
          · rw [antennaWriteRsFd, if_pos hCreated, hRun]
          · exact (sendAll_sent_iff hFd hLengths hShort).mpr hFails

end Rs

section File

variable {file : SourceFile} {stale : List UInt8}
  (hStale : stale.length = fileNoticeLen)

include hStale

/-- The notice and the full blocks go out as the notice and the whole file exactly
when every call is complete and the file has no block that is not full. -/
theorem attempts_file_iff (tx : List WriteOutcome) :
    (attempts tx (fileNotice stale file.statSize ::
        fullBlocks fileBufferSize file.content)).flatMap WriteRecord.bytes =
      fileNotice stale file.statSize ++ file.content ↔
      (tx.headD .complete ≠ .fail ∧
        ¬ (tx.headD .complete).Short fileNoticeLen) ∧
      ¬ SomeShort tx.tail (fullBlocks fileBufferSize file.content) ∧
      NoneFails tx.tail (fullBlocks fileBufferSize file.content) ∧
      fileBufferSize ∣ file.content.length := by
  have hNotice := length_fileNotice file.statSize hStale
  have hNe : fileNotice stale file.statSize ≠ [] := by
    apply List.ne_nil_of_length_pos
    rw [hNotice]
    decide
  have hComplete := attempts_complete_iff tx
    (fileNotice stale file.statSize :: fullBlocks fileBufferSize file.content)
  rw [someShort_cons_iff, noneFails_cons_iff, not_or, hNotice] at hComplete
  have hBytes := WriteRecord.flatMap_bytes_eq_iff (attempts tx
    (fileNotice stale file.statSize :: fullBlocks fileBufferSize file.content))
  rw [map_request_attempts, List.flatten_cons,
    flatten_fullBlocks fileBufferSize_pos] at hBytes
  by_cases hFull : fileBufferSize ∣ file.content.length
  · rw [Nat.mul_div_cancel' hFull, List.take_length] at hBytes
    rw [hBytes, hComplete]
    simp only [hNe, imp_false, hFull, and_true]
    tauto
  · constructor
    · -- more is expected than was requested
      intro hAll
      exfalso
      have hLe := WriteRecord.length_flatMap_bytes_le (attempts tx
        (fileNotice stale file.statSize :: fullBlocks fileBufferSize file.content))
      rw [map_request_attempts, List.flatten_cons,
        flatten_fullBlocks fileBufferSize_pos, hAll, List.length_append,
        List.length_append, List.length_take] at hLe
      have hSplit := Nat.div_add_mod file.content.length fileBufferSize
      have hRest : file.content.length % fileBufferSize ≠ 0 := fun hZero =>
        hFull (Nat.dvd_of_mod_eq_zero hZero)
      omega
    · rintro ⟨-, -, -, hDvd⟩
      exact absurd hDvd hFull

/-- `antenna_fwrite_fd` loses nothing silently exactly when it can open the file and
either a `write` behind the notice is short, or the notice is accepted, no `write`
behind it fails, and the size is a multiple of `FILE_BUFFER_SIZE`. -/
theorem noSilentLoss_fwrite_iff {fd : Int} (hFd : 0 ≤ fd) {port : Port} :
    NoSilentLoss port (antennaFwriteFd fd file stale port)
        (· = fileNotice stale file.statSize ++ file.content) ↔
      file.readable = true ∧
        (SomeShort port.tx.tail (fullBlocks fileBufferSize file.content) ∨
          ((port.nextOutcome ≠ .fail ∧ ¬ port.nextOutcome.Short fileNoticeLen) ∧
            NoneFails port.tx.tail (fullBlocks fileBufferSize file.content) ∧
            fileBufferSize ∣ file.content.length)) := by
  have hNotice := length_fileNotice file.statSize hStale
  have hNoticeLt := length_fileNotice_lt hStale file.statSize
  have hBlocks : ∀ block ∈ fullBlocks fileBufferSize file.content,
      block.length < sizeRange := fun _ => length_lt_of_mem_fullBlocks
  by_cases hReadable : file.readable = true
  case neg =>
    constructor
    · rintro ⟨ret, port', hRun, hCase⟩
      rw [antennaFwriteFd, if_neg hReadable] at hRun
      obtain ⟨rfl, rfl⟩ := Prod.mk.inj (Option.some.inj hRun)
      rcases hCase with hRet | ⟨-, bytes, rfl, hSent⟩
      · exact absurd hRet (by decide)
      · have hLength := congrArg List.length hSent
        -- nothing has gone out, and a notice was expected
        rw [List.length_append, List.length_append, hNotice] at hLength
        simp only [fileNoticeLen] at hLength
        omega
    · rintro ⟨hOpened, -⟩
      exact absurd hOpened hReadable
  case pos =>
    have hRun := antennaFwriteFd_readable hReadable fd stale port
    rw [antennaWriteFd_open hFd hNoticeLt] at hRun
    rw [hRun, and_iff_right hReadable]
    -- a short `write` behind the notice is reported; without one every call is made
    by_cases hShort : SomeShort port.tx.tail (fullBlocks fileBufferSize file.content)
    · let sent : Port :=
        { port with
          tx := port.tx.tail
          written := port.written ++
            [port.nextOutcome.record (fileNotice stale file.statSize)] }
      have hRet := @sendAll_short fd hFd _ hBlocks sent hShort
      constructor
      · intro _
        exact .inl hShort
      · intro _
        exact ⟨_, _, rfl, .inl hRet⟩
    · have hAll := @attempts_file_iff file stale hStale port.tx
      rw [sendAll_carried hFd hBlocks hShort, or_iff_right hShort]
      rw [and_iff_right hShort] at hAll
      refine Iff.trans ?_ hAll
      constructor
      · rintro ⟨ret, port', hResult, hCase⟩
        obtain ⟨rfl, rfl⟩ := Prod.mk.inj (Option.some.inj hResult)
        rcases hCase with hRet | ⟨-, bytes, rfl, hSent⟩
        · exact absurd hRet (by decide)
        · simpa [Port.sent, attempts, Port.nextOutcome] using hSent
      · intro hSent
        refine ⟨0, _, rfl, .inr ⟨rfl, _, rfl, ?_⟩⟩
        rw [← hSent]
        simp [Port.sent, attempts, Port.nextOutcome]

end File

/-- When nothing is lost silently, for each of the three senders. -/
theorem noSilentLoss_iff {fd : Int} (hFd : 0 ≤ fd) (port : Port) :
    (∀ data : List UInt8, data.length < sizeRange →
      (NoSilentLoss port (some (antennaWriteFd fd data port)) (· = data) ↔
        (port.nextOutcome = .fail → data = []))) ∧
    (∀ (codec : ReedSolomon) (data : List UInt8), data.length < sizeRange →
      ((∃ fuel, NoSilentLoss port (antennaWriteRsFd fuel codec fd data port)
          (RsExpected codec data)) ↔
        codec.created = false ∨
          ∃ encoded offset', RsEncodes codec data 0 encoded offset' ∧
            (SomeShort port.tx encoded ∨
              (sizeT offset' < data.length ∧
                codec.encode (rsMessage data offset') = none) ∨
              (¬ sizeT offset' < data.length ∧ NoneFails port.tx encoded)))) ∧
    (∀ (file : SourceFile) (stale : List UInt8), stale.length = fileNoticeLen →
      (NoSilentLoss port (antennaFwriteFd fd file stale port)
          (· = fileNotice stale file.statSize ++ file.content) ↔
        file.readable = true ∧
          (SomeShort port.tx.tail (fullBlocks fileBufferSize file.content) ∨
            ((port.nextOutcome ≠ .fail ∧
                ¬ port.nextOutcome.Short fileNoticeLen) ∧
              NoneFails port.tx.tail (fullBlocks fileBufferSize file.content) ∧
              fileBufferSize ∣ file.content.length)))) := by
  refine ⟨?_, ?_, ?_⟩
  · intro data hLength
    exact noSilentLoss_write_iff hFd hLength
  · intro codec data _
    exact noSilentLoss_writeRs_iff hFd
  · intro file stale hStale
    exact noSilentLoss_fwrite_iff hStale hFd

/-- A message of one byte, as it is and encoded, and a file of one block, all accepted
whole. -/
theorem noSilentLoss_accepted :
    let port : Port := Port.fresh [] []
    let file : SourceFile := ⟨List.replicate 255 65, 255, true⟩
    let stale : List UInt8 := List.replicate 16 0
    NoSilentLoss port (some (antennaWriteFd 3 [65] port)) (· = [65]) ∧
      (∃ fuel, NoSilentLoss port (antennaWriteRsFd fuel (parityCodec 0) 3 [65] port)
        (RsExpected (parityCodec 0) [65])) ∧
      NoSilentLoss port (antennaFwriteFd 3 file stale port)
        (· = fileNotice stale file.statSize ++ file.content) := by
  intro port file stale
  have hNone : ∀ requests, NoneFails [] requests := by
    intro requests i request _ hFail
    simp [outcomeAt] at hFail
  have hOffset : (1 : Int) = int32 (0 + bytesToEncode [(65 : UInt8)].length 0) := by decide
  have hEncodes : RsEncodes (parityCodec 0) [65] 0
      [[65] ++ List.replicate rsNumRoots 0] 1 := ⟨by decide, rfl, hOffset⟩
  have hSize : fileBufferSize ∣ file.content.length := by
    show 255 ∣ (List.replicate 255 (65 : UInt8)).length
    rw [List.length_replicate]
  obtain ⟨hWrite, hWriteRs, hFwrite⟩ := @noSilentLoss_iff 3 (by decide) port
  refine ⟨?_, ?_, ?_⟩
  · apply (hWrite [65] (by decide)).mpr
    intro hFail
    cases hFail
  · apply (hWriteRs (parityCodec 0) [65] (by decide)).mpr
    -- behind the one block the loop has reached the end of the data
    exact .inr ⟨_, 1, hEncodes, .inr (.inr ⟨by decide, hNone _⟩)⟩
  · apply (hFwrite file stale rfl).mpr
    exact ⟨rfl, .inr ⟨⟨by decide, by decide⟩, hNone _, hSize⟩⟩

/-- A `write` that returns `-1`, and a file that cannot be opened. -/
theorem lost_silently :
    ¬ NoSilentLoss (Port.fresh [] [.fail])
        (some (antennaWriteFd 3 [65] (Port.fresh [] [.fail]))) (· = [65]) ∧
      ¬ NoSilentLoss (Port.fresh [] [])
        (antennaFwriteFd 3 ⟨[65], 1, false⟩ (List.replicate 16 0)
          (Port.fresh [] []))
        (· = fileNotice (List.replicate 16 0) 1 ++ [65]) := by
  constructor
  · rw [noSilentLoss_write_iff (by decide) (by decide)]
    intro hNone
    exact absurd (hNone rfl) (by decide)
  · intro hNone
    have hOpened := ((@noSilentLoss_fwrite_iff ⟨[65], 1, false⟩
      (List.replicate 16 0) rfl 3 (by decide) _).mp hNone).1
    exact absurd hOpened (by decide)

end Loris
end CubeSatComm
