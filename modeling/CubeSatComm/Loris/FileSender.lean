import CubeSatComm.Lib.Loop
import CubeSatComm.Loris.FileNotice
import CubeSatComm.Loris.Sending

/-!
# The antenna module: sending a file

`antenna_fwrite_fd` of `antenna.c`: it sends the notice, without looking at the
result, and then the file in blocks of `FILE_BUFFER_SIZE` bytes for as long as
`fread` fills its buffer.  A last block that is shorter is read and not sent, and a
file that cannot be opened is reported as sent.
-/

namespace CubeSatComm
namespace Loris

open Lib CInteger Posix

/-- State of the sending loop: what `fread` has not returned yet, the counter, and
the port. -/
structure FwriteState where
  unread : List UInt8
  totalBytesRead : Nat
  port : Port

/-- One pass through the sending loop. -/
def fwritePass (fd : Int) (s : FwriteState) : Pass FwriteState (Int × Port) :=
  let buffer := s.unread.take fileBufferSize
  let bytesRead := int32 buffer.length
  if bytesRead ≥ fileBufferSize then
    let (sent, port) := antennaWriteFd fd buffer s.port
    if sent = -1 then
      .leave (-1, port)
    else
      .again ⟨s.unread.drop fileBufferSize, sizeT (s.totalBytesRead + bytesRead),
        port⟩
  else
    .leave (0, s.port)

/-- A pass that finds less than a buffer of data ends the loop. -/
theorem fwritePass_short {fd : Int} {s : FwriteState}
    (hLt : s.unread.length < fileBufferSize) :
    fwritePass fd s = .leave (0, s.port) := by
  have hMax := fileBufferSize_le_intMax
  have hCount : (s.unread.take fileBufferSize).length = s.unread.length := by
    rw [List.take_of_length_le (by omega)]
  unfold fwritePass
  dsimp only
  rw [hCount, int32_natCast (by omega), if_neg (by omega)]

/-- A pass that fills the buffer sends it. -/
theorem fwritePass_full {fd : Int} {s : FwriteState}
    (hLe : fileBufferSize ≤ s.unread.length) :
    fwritePass fd s =
      if (antennaWriteFd fd (s.unread.take fileBufferSize) s.port).1 = -1 then
        .leave (-1,
          (antennaWriteFd fd (s.unread.take fileBufferSize) s.port).2)
      else
        .again ⟨s.unread.drop fileBufferSize,
          sizeT (s.totalBytesRead + fileBufferSize),
          (antennaWriteFd fd (s.unread.take fileBufferSize) s.port).2⟩ := by
  have hMax := fileBufferSize_le_intMax
  have hCount : (s.unread.take fileBufferSize).length = fileBufferSize := by
    rw [List.length_take, Nat.min_eq_left hLe]
  unfold fwritePass
  dsimp only
  rw [hCount, int32_natCast hMax, if_pos (Int.le_refl _)]

theorem fwritePass_decreases (fd : Int) :
    Loop.Decreases (fwritePass fd) fun s => s.unread.length := by
  intro s s' hPass
  rcases Nat.lt_or_ge s.unread.length fileBufferSize with hLt | hLe
  · rw [fwritePass_short hLt] at hPass
    cases hPass
  · rw [fwritePass_full hLe] at hPass
    split at hPass
    · cases hPass
    · obtain rfl := Pass.again.inj hPass
      have hPos := fileBufferSize_pos
      show (s.unread.drop fileBufferSize).length < s.unread.length
      rw [List.length_drop]
      omega

/-- `antenna_fwrite_fd`; `stale` is what the array `file_notice` holds at first. -/
def antennaFwriteFd (fd : Int) (file : SourceFile) (stale : List UInt8)
    (port : Port) : Option (Int × Port) :=
  if file.readable then
    -- the result of sending the notice is dropped
    let (_, port) :=
      antennaWriteFd fd (fileNotice stale file.statSize) port
    Loop.run (fwritePass fd) _ (fwritePass_decreases fd) ⟨file.content, 0, port⟩
  else
    some (0, port)

/-- The result of `antenna_write_fd` is `0` or `-1`. -/
theorem antennaWriteFd_ret (fd : Int) (data : List UInt8) (port : Port) :
    (antennaWriteFd fd data port).1 = 0 ∨ (antennaWriteFd fd data port).1 = -1 := by
  rw [antennaWriteFd_eq]
  dsimp only
  split
  · right
    rfl
  · left
    rfl

/-- The sending loop sends the full blocks of the file. -/
theorem fwriteLoop_sendAll (fd : Int) (s : FwriteState) :
    Loop.run (fwritePass fd) _ (fwritePass_decreases fd) s =
      some (sendAll fd (fullBlocks fileBufferSize s.unread) s.port) := by
  obtain ⟨unread, total, port⟩ := s
  have hPos := fileBufferSize_pos
  induction unread using fullBlocks_induction hPos generalizing total port with
  | short unread hLt =>
      rw [Loop.run_leave (fwritePass_short hLt), fullBlocks_of_lt hLt]
      rfl
  | full unread hLe ih =>
      have hPass := @fwritePass_full fd ⟨unread, total, port⟩ hLe
      dsimp only at hPass ⊢
      rw [fullBlocks_of_le hPos hLe, sendAll]
      rcases antennaWriteFd_ret fd (unread.take fileBufferSize) port with
        hRet | hRet
      · rw [if_neg (by rw [hRet]; decide)] at hPass
        rw [Loop.run_again hPass, ih]
        simp [hRet]
      · rw [if_pos hRet] at hPass
        rw [Loop.run_leave hPass]
        simp [hRet]

/-- `antenna_fwrite_fd` on a file that it can open. -/
theorem antennaFwriteFd_readable {file : SourceFile}
    (hReadable : file.readable = true) (fd : Int) (stale : List UInt8) (port : Port) :
    antennaFwriteFd fd file stale port =
      some (sendAll fd (fullBlocks fileBufferSize file.content)
        (antennaWriteFd fd (fileNotice stale file.statSize) port).2) := by
  rw [antennaFwriteFd, if_pos hReadable]
  exact fwriteLoop_sendAll fd _

/-- Neither the notice nor a full block is too long for a `write`. -/
theorem length_fileNotice_lt {stale : List UInt8}
    (hStale : stale.length = fileNoticeLen) (fileSize : Nat) :
    (fileNotice stale fileSize).length < sizeRange := by
  rw [length_fileNotice fileSize hStale]
  decide

theorem length_lt_of_mem_fullBlocks {content block : List UInt8}
    (hMem : block ∈ fullBlocks fileBufferSize content) :
    block.length < sizeRange := by
  rw [length_of_mem_fullBlocks fileBufferSize_pos hMem]
  decide

/-- With complete writes the notice and the full blocks of the file go out. -/
theorem antennaFwriteFd_complete {fd : Int} (hFd : 0 ≤ fd) {file : SourceFile}
    (hReadable : file.readable = true) {stale : List UInt8}
    (hStale : stale.length = fileNoticeLen) {port : Port}
    (hPort : port.CompleteWrites) :
    ∃ port', antennaFwriteFd fd file stale port = some (0, port') ∧
      port'.sent = port.sent ++ (fileNotice stale file.statSize ++
        file.content.take
          (fileBufferSize * (file.content.length / fileBufferSize))) := by
  have hNotice := length_fileNotice_lt hStale file.statSize
  have hRest : (antennaWriteFd fd (fileNotice stale file.statSize)
      port).2.CompleteWrites := by
    rw [antennaWriteFd_open hFd hNotice]
    exact Port.completeWrites_tail hPort rfl
  have hSend := @sendAll_complete fd hFd (fullBlocks fileBufferSize file.content)
    (fun _ => length_lt_of_mem_fullBlocks) _ hRest
  have hRun := (antennaFwriteFd_readable hReadable fd stale port).trans
    (congrArg some hSend)
  refine ⟨_, hRun, ?_⟩
  rw [antennaWriteFd_open hFd hNotice, hPort.nextOutcome_eq]
  simp only [Port.sent, WriteOutcome.record_complete, List.flatMap_append,
    List.flatMap_map, WriteRecord.bytes_whole, List.flatMap_cons,
    List.flatMap_nil, List.append_nil, List.append_assoc]
  rw [List.flatMap_id', flatten_fullBlocks fileBufferSize_pos]

end Loris
end CubeSatComm
