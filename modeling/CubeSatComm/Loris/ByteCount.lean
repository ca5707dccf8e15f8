import CubeSatComm.Loris.FileReads

/-!
# The byte counter of the receiver

`total_bytes_read` against what the destination holds, at every test of the data loop
of `antenna_fread_fd`.  The loop skips its counter when `fwrite` stores less than the
whole chunk, but what was stored stays in the file.  So the counter never exceeds the
length of the file, and it is that length exactly as long as every `fwrite` has stored
its chunk whole or not at all.
-/

namespace CubeSatComm
namespace Loris

open Lib CInteger Posix

/-- Every `fwrite` stores its chunk whole or not at all. -/
def WholeOrNone : List FwriteOutcome → List (List UInt8) → Prop
  | _, [] => True
  | outcomes, chunk :: chunks =>
      ((outcomes.headD .complete).stored chunk.length = 0 ∨
        (outcomes.headD .complete).stored chunk.length = chunk.length) ∧
      WholeOrNone outcomes.tail chunks

/-- The data loop of a call comes to its test in state `s`, with `fileSize` announced
and `chunks` read so far. -/
def DataTest (fd : Int) (notice buffer : List UInt8) (port : Port) (file : TargetFile)
    (fileSize : Nat) (chunks : List (List UInt8)) (s : FreadState) : Prop :=
  ∃ w fp k,
    Loop.run (noticePass fd) _ (noticePass_decreases fd) ⟨notice, port⟩ = some w ∧
    w.fileSize = some fileSize ∧ file.fopen = some fp ∧
    Loop.Passes (freadPass fd fileSize) k ⟨buffer, 0, w.port, fp⟩ s ∧
    chunks = (w.port.rx.chunks fileBufferSize).take k

/-! ## Counted and stored -/

theorem stored_le (outcome : FwriteOutcome) (len : Nat) : outcome.stored len ≤ len := by
  cases outcome with
  | complete => exact Nat.le_refl len
  | short count => exact Nat.min_le_right count len

/-- A chunk is counted by what is stored of it, unless that is only part of it. -/
theorem countedOf_le (outcome : FwriteOutcome) (chunk : List UInt8) :
    countedOf outcome chunk ≤ outcome.stored chunk.length := by
  unfold countedOf
  split
  · exact Nat.zero_le _
  · omega

theorem countedOf_eq_iff (outcome : FwriteOutcome) (chunk : List UInt8) :
    countedOf outcome chunk = outcome.stored chunk.length ↔
      outcome.stored chunk.length = 0 ∨
        outcome.stored chunk.length = chunk.length := by
  have hLe := stored_le outcome chunk.length
  unfold countedOf
  split
  · omega
  · omega

/-- No more is counted than is stored, and as much exactly if every chunk is stored
whole or not at all. -/
theorem countedBytes_le (outcomes : List FwriteOutcome) (chunks : List (List UInt8)) :
    countedBytes outcomes chunks ≤ (storedBytes outcomes chunks).length ∧
      (countedBytes outcomes chunks = (storedBytes outcomes chunks).length ↔
        WholeOrNone outcomes chunks) := by
  induction chunks generalizing outcomes with
  | nil => exact ⟨Nat.le_refl 0, fun _ => trivial, fun _ => rfl⟩
  | cons chunk chunks ih =>
      have hFirst := countedOf_le (outcomes.headD .complete) chunk
      have hFirstIff := countedOf_eq_iff (outcomes.headD .complete) chunk
      obtain ⟨hRest, hRestIff⟩ := ih outcomes.tail
      have hStored : (chunk.take
          ((outcomes.headD .complete).stored chunk.length)).length =
            (outcomes.headD .complete).stored chunk.length := by
        rw [List.length_take, Nat.min_eq_left (stored_le _ _)]
      rw [countedBytes, storedBytes, List.length_append, hStored, WholeOrNone,
        ← hFirstIff, ← hRestIff]
      omega

/-! ## The tests of a call -/

section Tests

variable {fd : Int} (hFd : 0 ≤ fd) {notice buffer : List UInt8} {port : Port}
  {file : TargetFile}

include hFd

/-- What the counter and the file hold at a test. -/
theorem DataTest.totals {fileSize : Nat} {chunks : List (List UInt8)} {s : FreadState}
    (hTest : DataTest fd notice buffer port file fileSize chunks s) :
    s.totalBytesRead = countedBytes file.fwrites chunks ∧
      s.file.content = storedBytes file.fwrites chunks := by
  obtain ⟨w, fp, k, hWait, hFileSize, hOpened, hPasses, rfl⟩ := hTest
  have hSize := noticeLoop_fileSize_le hFd hWait hFileSize
  obtain ⟨front, hLength, hChunks, hTotal, hContent⟩ :=
    freadLoop_passes hFd hSize hPasses
  dsimp only at hChunks hTotal hContent
  have hFront : (w.port.rx.chunks fileBufferSize).take k = front := by
    rw [hChunks, List.take_left' hLength]
  have hFile : fp = { file with opened := true, content := [] } := by
    unfold TargetFile.fopen at hOpened
    split at hOpened
    · exact (Option.some.inj hOpened).symm
    · cases hOpened
  rw [hFront, hTotal, hContent, hFile, Nat.zero_add, List.nil_append]
  exact ⟨rfl, rfl⟩

/-- At a test the counter is the length of the file exactly if every `fwrite` so far
has stored its chunk whole or not at all. -/
theorem DataTest.counted_iff {fileSize : Nat} {chunks : List (List UInt8)}
    {s : FreadState} (hTest : DataTest fd notice buffer port file fileSize chunks s) :
    s.totalBytesRead = s.file.content.length ↔ WholeOrNone file.fwrites chunks := by
  obtain ⟨hTotal, hContent⟩ := hTest.totals hFd
  rw [hTotal, hContent]
  exact (countedBytes_le file.fwrites chunks).2

/-- A call that returns `0` does so at a test that finds the announced size, with the
file as it is there. -/
theorem antennaFreadFd_returns_test {r : FreadReturn}
    (hCall : antennaFreadFd fd notice buffer port file = some r) (hRet : r.ret = 0) :
    ∃ fileSize chunks s, DataTest fd notice buffer port file fileSize chunks s ∧
      fileSize ≤ s.totalBytesRead ∧ r.file = s.file := by
  unfold antennaFreadFd at hCall
  split at hCall
  · cases hCall
  · next w hWait =>
    split at hCall
    · obtain rfl := Option.some.inj hCall
      simp at hRet
    · next fileSize hFileSize =>
      split at hCall
      · obtain rfl := Option.some.inj hCall
        simp at hRet
      · next fp hOpened =>
        have hSize := noticeLoop_fileSize_le hFd hWait hFileSize
        obtain ⟨k, s, hPasses, hLeave⟩ := Loop.run_eq_some hCall
        refine ⟨fileSize, _, s, ⟨w, fp, k, hWait, hFileSize, hOpened, hPasses, rfl⟩, ?_⟩
        rcases freadPass_leave hFd hSize hLeave with ⟨-, e, rx, -, rfl⟩ | ⟨hDone, rfl⟩
        · simp at hRet
        · exact ⟨hDone, rfl⟩

/-- When the counter matches the file.  At every test of the loop: exactly if every
`fwrite` so far has stored its chunk whole or not at all.  When the call returns `0`,
there was such a test, and the destination is the file of that test. -/
theorem byteCount_iff (notice buffer : List UInt8) (port : Port) (file : TargetFile) :
    (∀ fileSize chunks s, DataTest fd notice buffer port file fileSize chunks s →
      (s.totalBytesRead = s.file.content.length ↔ WholeOrNone file.fwrites chunks)) ∧
    (∀ r, antennaFreadFd fd notice buffer port file = some r → r.ret = 0 →
      ∃ fileSize chunks s, DataTest fd notice buffer port file fileSize chunks s ∧
        fileSize ≤ s.totalBytesRead ∧
        (r.file.content.length = s.totalBytesRead ↔
          WholeOrNone file.fwrites chunks)) := by
  constructor
  · intro fileSize chunks s hTest
    exact hTest.counted_iff hFd
  · intro r hCall hRet
    obtain ⟨fileSize, chunks, s, hTest, hDone, hFile⟩ :=
      antennaFreadFd_returns_test hFd hCall hRet
    refine ⟨fileSize, chunks, s, hTest, hDone, ?_⟩
    rw [hFile, eq_comm]
    exact hTest.counted_iff hFd

end Tests

/-! ### A disk that is full for one chunk -/

/-- The notice of a file of two bytes, and the chunks behind it. -/
def twoByteFeed (chunks : List (List UInt8)) : Feed UInt8 Errno :=
  .piece (fileNotice (List.replicate 16 0) 2) :: Feed.ofPieces chunks

/-- A test behind the first chunk. -/
theorem dataTest_two_bytes (outcomes : List FwriteOutcome) (chunk : List UInt8)
    (hLength : chunk.length ≤ fileBufferSize) :
    ∃ s, DataTest 3 [] [] (Port.fresh (twoByteFeed [chunk]) [])
      ⟨true, false, [], outcomes⟩ 2 [chunk] s := by
  have hNotice : NoticeRead [] (twoByteFeed [chunk])
      (fileNotice (List.replicate 16 0) 2) (fileNotice (List.replicate 16 0) 2)
      [.piece chunk] := .here rfl (by decide)
  have hScan : scanFileNotice (fileNotice (List.replicate 16 0) 2) 0 = 2 := by decide
  obtain ⟨port, hWait, hRx⟩ := @noticeLoop_read 3 (by decide) _ _ _ _ _ hNotice
    (Port.fresh (twoByteFeed [chunk]) []) rfl
  rw [hScan] at hWait
  have hRead : port.rx.read fileBufferSize = some (.ok chunk, []) := by
    rw [hRx, Feed.read, if_pos hLength]
  have hPass := @freadPass_eq 3 (by decide) 2 (by decide)
    ⟨[], 0, port, ⟨true, true, [], outcomes⟩⟩ Nat.two_pos
  rw [hRead] at hPass
  refine ⟨_, _, _, 1, hWait, rfl, rfl, .single hPass, ?_⟩
  dsimp only
  rw [Feed.chunks_of_read fileBufferSize_pos hRead]
  rfl

/-- With complete calls of `fwrite` the counter is right. -/
theorem byteCount_two_bytes :
    ∃ s, DataTest 3 [] [] (Port.fresh (twoByteFeed [[65, 66]]) [])
        ⟨true, false, [], []⟩ 2 [[65, 66]] s ∧
      s.totalBytesRead = s.file.content.length := by
  obtain ⟨s, hTest⟩ := dataTest_two_bytes [] [65, 66] (by decide)
  refine ⟨s, hTest, ?_⟩
  exact ((@byteCount_iff 3 (by decide) [] [] _ _).1 _ _ _ hTest).mpr
    ⟨.inr rfl, trivial⟩

/-- An `fwrite` that stores one byte of two leaves it stored and not counted, and a
call that returns `0` leaves more in the file than it has counted. -/
theorem not_byteCount_short :
    (∃ s, DataTest 3 [] [] (Port.fresh (twoByteFeed [[65, 66]]) [])
        ⟨true, false, [], [.short 1]⟩ 2 [[65, 66]] s ∧
      s.totalBytesRead ≠ s.file.content.length) ∧
    (antennaFreadFd 3 [] [] (Port.fresh (twoByteFeed [[65, 66], [67, 68]]) [])
        ⟨true, false, [], [.short 1]⟩).map (fun r => (r.ret, r.file.content)) =
      some (0, [65, 67, 68]) := by
  constructor
  · obtain ⟨s, hTest⟩ := dataTest_two_bytes [.short 1] [65, 66] (by decide)
    refine ⟨s, hTest, ?_⟩
    rw [ne_eq, hTest.counted_iff (by decide)]
    rintro ⟨hStored, -⟩
    exact absurd hStored (by decide)
  · decide +kernel

end Loris
end CubeSatComm
