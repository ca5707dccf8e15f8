import CubeSatComm.Lib.Loop
import CubeSatComm.Loris.FileNotice

/-!
# The antenna module: receiving a file

`antenna_fread_fd` of `antenna.c`: a wait loop that reads until its notice array
begins with an `F`, and a data loop that appends to the destination what every
`read` returns, until it has counted the announced number of bytes.

Neither loop knows where a message ends.  The wait loop is left at the first byte
`F`, whether or not the rest of the notice has arrived, and the data loop always
asks for `FILE_BUFFER_SIZE` bytes, whether or not as many are still missing.
-/

namespace CubeSatComm
namespace Loris

open Lib CInteger Posix

/-! ## The wait loop -/

/-- State of the wait loop: the array `notice` with what lies above it in memory,
and the port. -/
structure NoticeState where
  notice : List UInt8
  port : Port

/-- How the wait loop is left: with `file_size`, or because a `read` failed. -/
structure NoticeReturn where
  fileSize : Option Nat
  notice : List UInt8
  port : Port

/-- One pass through the wait loop. -/
def noticePass (fd : Int) (s : NoticeState) : Pass NoticeState NoticeReturn :=
  match antennaReadFd fd s.notice fileNoticeLen readModeUpto s.port with
  | none => .blocked
  | some r =>
      if r.ret = -1 then
        .leave ⟨none, r.buffer, r.port⟩
      else if r.buffer.head? = some fileNoticeTag then
        .leave ⟨some (scanFileNotice r.buffer 0), r.buffer, r.port⟩
      else
        .again ⟨r.buffer, r.port⟩

theorem noticePass_decreases (fd : Int) :
    Loop.Decreases (noticePass fd) fun s => s.port.rx.size := by
  intro s s' hPass
  unfold noticePass at hPass
  split at hPass
  · cases hPass
  · next r hRead =>
    split at hPass
    · cases hPass
    · next hRet =>
      split at hPass
      · cases hPass
      · obtain rfl := Pass.again.inj hPass
        exact antennaReadFd_upto_size fileNoticeLen_pos hRead hRet

/-- A pass that finds `bytes`: the first byte of the array decides. -/
theorem noticePass_read {fd : Int} {s : NoticeState} {bytes : List UInt8}
    {port : Port} (hRead : s.port.read fd fileNoticeLen = some (.ok bytes, port))
    (hLength : bytes.length ≤ fileNoticeLen) :
    noticePass fd s =
      if (store s.notice 0 bytes).head? = some fileNoticeTag then
        .leave ⟨some (scanFileNotice (store s.notice 0 bytes) 0),
          store s.notice 0 bytes, port⟩
      else
        .again ⟨store s.notice 0 bytes, port⟩ := by
  have hMax : bytes.length ≤ intMax := Nat.le_trans hLength (by decide)
  unfold noticePass
  rw [antennaReadFd_upto_read s.notice hRead hMax]
  dsimp only
  rw [if_neg (by omega)]

/-! ## The data loop -/

/-- State of the data loop. -/
structure FreadState where
  buffer : List UInt8
  totalBytesRead : Nat
  port : Port
  file : TargetFile

/-- What `antenna_fread_fd` returns, with the port and the destination. -/
structure FreadReturn where
  ret : Int
  port : Port
  file : TargetFile

/-- One pass through the data loop. -/
def freadPass (fd : Int) (fileSize : Nat) (s : FreadState) :
    Pass FreadState FreadReturn :=
  if s.totalBytesRead < fileSize then
    match antennaReadFd fd s.buffer fileBufferSize readModeUpto s.port with
    | none => .blocked
    | some r =>
        if r.ret = -1 then
          .leave ⟨-1, r.port, s.file⟩
        else
          let (stored, file) := s.file.fwrite (r.buffer.take (sizeT r.ret))
          -- what a short `fwrite` has stored is not counted
          if stored < sizeT r.ret then
            .again ⟨r.buffer, s.totalBytesRead, r.port, file⟩
          else
            .again ⟨r.buffer, sizeT (s.totalBytesRead + r.ret), r.port, file⟩
  else
    .leave ⟨0, s.port, s.file⟩

theorem freadPass_decreases (fd : Int) (fileSize : Nat) :
    Loop.Decreases (freadPass fd fileSize) fun s => s.port.rx.size := by
  intro s s' hPass
  unfold freadPass at hPass
  split at hPass
  · split at hPass
    · cases hPass
    · next r hRead =>
      split at hPass
      · cases hPass
      · next hRet =>
        have hSmaller := antennaReadFd_upto_size fileBufferSize_pos hRead hRet
        dsimp only at hPass
        split at hPass
        · obtain rfl := Pass.again.inj hPass
          exact hSmaller
        · obtain rfl := Pass.again.inj hPass
          exact hSmaller
  · cases hPass

/-- `antenna_fread_fd`; `notice` and `buffer` are what the arrays hold at first. -/
def antennaFreadFd (fd : Int) (notice buffer : List UInt8) (port : Port)
    (file : TargetFile) : Option FreadReturn :=
  match Loop.run (noticePass fd) _ (noticePass_decreases fd) ⟨notice, port⟩ with
  | none => none
  | some waited =>
      match waited.fileSize with
      | none => some ⟨-1, waited.port, file⟩
      | some fileSize =>
          match file.fopen with
          | none => some ⟨-1, waited.port, file⟩
          | some fp =>
              Loop.run (freadPass fd fileSize) _ (freadPass_decreases fd fileSize)
                ⟨buffer, 0, waited.port, fp⟩

section Spec

variable {fd : Int} {fileSize : Nat}

/-- A call whose first `read` does not bring the letter goes on like a call that
starts behind that `read`, with the same destination. -/
theorem antennaFreadFd_again {notice notice' : List UInt8} {port port' : Port}
    (hPass : noticePass fd ⟨notice, port⟩ = .again ⟨notice', port'⟩)
    (buffer : List UInt8) (file : TargetFile) :
    antennaFreadFd fd notice buffer port file =
      antennaFreadFd fd notice' buffer port' file := by
  unfold antennaFreadFd
  rw [Loop.run_again hPass]

/-- A call whose first `read` brings the letter goes on to the data loop. -/
theorem antennaFreadFd_first {notice bytes : List UInt8} {port port' : Port}
    (hRead : port.read fd fileNoticeLen = some (.ok bytes, port'))
    (hLength : bytes.length ≤ fileNoticeLen)
    (hHead : bytes.head? = some fileNoticeTag) (buffer : List UInt8)
    (file : TargetFile) :
    antennaFreadFd fd notice buffer port file =
      if file.openable then
        Loop.run (freadPass fd (scanFileNotice (store notice 0 bytes) 0)) _
          (freadPass_decreases fd _)
          ⟨buffer, 0, port', { file with opened := true, content := [] }⟩
      else
        some ⟨-1, port', file⟩ := by
  have hFirst : (store notice 0 bytes).head? = some fileNoticeTag := by
    rw [store_zero, List.head?_append, hHead]
    rfl
  have hPass := noticePass_read (s := ⟨notice, port⟩) hRead hLength
  rw [if_pos hFirst] at hPass
  unfold antennaFreadFd
  rw [Loop.run_leave hPass]
  dsimp only
  unfold TargetFile.fopen
  by_cases hOpen : file.openable = true
  · rw [if_pos hOpen, if_pos hOpen]
  · rw [if_neg hOpen, if_neg hOpen]

/-- A pass of the data loop that finds `bytes` and stores them. -/
theorem freadPass_read {s : FreadState} {bytes : List UInt8} {port : Port}
    (hLt : s.totalBytesRead < fileSize) (hSize : fileSize ≤ 2 ^ 32)
    (hRead : s.port.read fd fileBufferSize = some (.ok bytes, port))
    (hLength : bytes.length ≤ fileBufferSize) (hFile : s.file.CompleteFwrites) :
    freadPass fd fileSize s =
      .again ⟨store s.buffer 0 bytes, s.totalBytesRead + bytes.length, port,
        { s.file with
          content := s.file.content ++ bytes
          fwrites := s.file.fwrites.tail }⟩ := by
  have hBuffer := fileBufferSize_le_intMax
  have hMaxLt := intMax_lt_sizeRange
  have hCount : sizeT (bytes.length : Int) = bytes.length :=
    sizeT_natCast (by omega)
  have hTotal : sizeT ((s.totalBytesRead : Int) + (bytes.length : Int)) =
      s.totalBytesRead + bytes.length := by
    rw [← Int.natCast_add]
    apply sizeT_natCast
    unfold intMax at hBuffer
    unfold sizeRange
    omega
  have hTake : (store s.buffer 0 bytes).take bytes.length = bytes := by
    rw [store_zero, List.take_left']
    rfl
  unfold freadPass
  rw [if_pos hLt, antennaReadFd_upto_read s.buffer hRead (by omega)]
  dsimp only
  rw [if_neg (by omega), hCount, hTake, hFile.fwrite_eq]
  dsimp only
  rw [if_neg (Nat.lt_irrefl _), hTotal]

/-- One pass of the data loop over a stream: it appends the next read, counts it,
and leaves the rest of the stream. -/
theorem freadPass_cut (hFd : 0 ≤ fd) (hSize : fileSize ≤ 2 ^ 32)
    {s : FreadState} {cut : List (List UInt8)} {stream : List UInt8}
    (hRx : s.port.rx = Feed.ofPieces cut) (hCut : IsCut cut stream)
    (hFile : s.file.CompleteFwrites) (hLt : s.totalBytesRead < fileSize)
    (hNe : stream ≠ []) :
    ∃ bytes s', freadPass fd fileSize s = .again s' ∧
      s'.totalBytesRead = s.totalBytesRead + bytes.length ∧
      s'.file.content = s.file.content ++ bytes ∧
      s'.file.CompleteFwrites ∧
      s'.port.rx = Feed.ofPieces (afterRead fileBufferSize cut) ∧
      IsCut (afterRead fileBufferSize cut) (stream.drop bytes.length) ∧
      reads fileBufferSize cut =
        bytes :: reads fileBufferSize (afterRead fileBufferSize cut) ∧
      bytes ≠ [] ∧ bytes ++ stream.drop bytes.length = stream := by
  obtain ⟨bytes, hRead, hBytes, hLength, hReads, hCut', hStream⟩ :=
    Port.read_cut hFd fileBufferSize_pos hRx hCut hNe
  exact ⟨bytes, _, freadPass_read hLt hSize hRead hLength hFile, rfl, rfl,
    TargetFile.completeFwrites_tail hFile rfl, rfl, hCut', hReads, hBytes, hStream⟩

/-- The data loop waits when the stream ends before the announced size. -/
theorem freadLoop_cut_short (hFd : 0 ≤ fd) (hSize : fileSize ≤ 2 ^ 32)
    {s : FreadState} {cut : List (List UInt8)} {stream : List UInt8}
    (hRx : s.port.rx = Feed.ofPieces cut) (hCut : IsCut cut stream)
    (hFile : s.file.CompleteFwrites)
    (hShort : s.totalBytesRead + stream.length < fileSize) :
    Loop.run (freadPass fd fileSize) _ (freadPass_decreases fd fileSize) s =
      none := by
  induction hLength : stream.length using Nat.strongRecOn
    generalizing s cut stream with
  | _ size ih =>
      by_cases hNil : stream = []
      · subst hNil
        apply Loop.run_blocked
        unfold freadPass
        rw [if_pos (by omega), antennaReadFd_upto_wait s.buffer
          (Port.read_cut_end hFd hRx hCut)]
      · obtain ⟨bytes, s', hPass, hCount, -, hFile', hRx', hCut', -, hBytes,
            hStream⟩ :=
          freadPass_cut hFd hSize hRx hCut hFile (by omega) hNil
        have hPos := List.length_pos_iff.mpr hBytes
        have hTotal := congrArg List.length hStream
        rw [List.length_append] at hTotal
        rw [Loop.run_again hPass]
        exact ih _ (by omega) hRx' hCut' hFile' (by omega) rfl

/-- The data loop stops at the first read boundary of the stream that reaches the
announced size, wherever that is. -/
theorem freadLoop_cut (hFd : 0 ≤ fd) (hSize : fileSize ≤ 2 ^ 32)
    {s : FreadState} {cut : List (List UInt8)} {stream : List UInt8}
    (hRx : s.port.rx = Feed.ofPieces cut) (hCut : IsCut cut stream)
    (hFile : s.file.CompleteFwrites)
    (hEnough : fileSize ≤ s.totalBytesRead + stream.length) :
    ∃ k cut' r,
      Loop.run (freadPass fd fileSize) _ (freadPass_decreases fd fileSize) s =
        some r ∧
      r.ret = 0 ∧
      r.file.content =
        s.file.content ++ stream.take (readBoundary fileBufferSize cut k) ∧
      r.port.rx = Feed.ofPieces cut' ∧
      IsCut cut' (stream.drop (readBoundary fileBufferSize cut k)) ∧
      readBoundary fileBufferSize cut k ≤ stream.length ∧
      fileSize ≤ s.totalBytesRead + readBoundary fileBufferSize cut k ∧
      ∀ j < k, s.totalBytesRead + readBoundary fileBufferSize cut j < fileSize := by
  induction hLength : stream.length using Nat.strongRecOn
    generalizing s cut stream with
  | _ size ih =>
      by_cases hLt : s.totalBytesRead < fileSize
      · have hNil : stream ≠ [] := by
          rintro rfl
          simp only [List.length_nil] at hEnough
          omega
        obtain ⟨bytes, s', hPass, hCount, hStored, hFile', hRx', hCut', hReads,
            hBytes, hStream⟩ :=
          freadPass_cut hFd hSize hRx hCut hFile hLt hNil
        have hPos := List.length_pos_iff.mpr hBytes
        have hTotal := congrArg List.length hStream
        rw [List.length_append] at hTotal
        have hStep := readBoundary_succ hReads
        rw [Loop.run_again hPass]
        -- the boundaries of the rest, shifted by this read
        obtain ⟨k, cut'', r, hRun, hRet, hContent, hRx'', hCut'', hInside, hReach,
            hFirst⟩ := ih _ (by omega) hRx' hCut' hFile' (by omega) rfl
        refine ⟨k + 1, cut'', r, hRun, hRet, ?_, hRx'', ?_, ?_, ?_, ?_⟩
        · -- the first read is the front of the stream
          have hFront : stream.take bytes.length = bytes := by
            conv_lhs => rw [← hStream]
            rw [List.take_left']
            rfl
          rw [hContent, hStored, hStep, List.take_add, hFront, List.append_assoc]
        · rw [hStep, ← List.drop_drop]
          exact hCut''
        · rw [hStep]
          omega
        · rw [hStep]
          omega
        · intro j hj
          cases j with
          | zero => simpa using hLt
          | succ j =>
              have hEarlier := hFirst j (by omega)
              rw [hStep]
              omega
      · have hPass : freadPass fd fileSize s = .leave ⟨0, s.port, s.file⟩ := by
          unfold freadPass
          rw [if_neg hLt]
        refine ⟨0, cut, _, Loop.run_leave hPass, rfl, ?_, hRx, ?_, ?_, ?_, ?_⟩
        · simp
        · simpa using hCut
        · simp
        · rw [readBoundary_zero]
          omega
        · intro j hj
          cases hj

end Spec

end Loris
end CubeSatComm
