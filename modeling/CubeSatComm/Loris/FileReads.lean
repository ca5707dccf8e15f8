import CubeSatComm.Loris.FileReceiver

/-!
# The reads of a receiving call

What a call of `antenna_fread_fd` makes of an arbitrary sequence of `read` results,
failures and empty reads among them, and of an arbitrary sequence of `fwrite` results:
which read ends the wait for a notice, what the data loop stores and what it counts,
and with which arrivals the call returns.

A call that returns does so whatever arrives later; a call that does not has used up
all that has arrived.
-/

namespace CubeSatComm
namespace Loris

open Lib CInteger Posix

/-! ## What arrives -/

/-- The read that ends the wait: it returns `bytes`, the first byte of the array is
then an `F`, and `rest` arrives behind it.  `notice` is what the array holds at first,
`array` what it holds in the end. -/
inductive NoticeRead : List UInt8 → Feed UInt8 Errno → List UInt8 → List UInt8 →
    Feed UInt8 Errno → Prop where
  | here {notice bytes : List UInt8} {feed rest : Feed UInt8 Errno} :
      feed.read fileNoticeLen = some (.ok bytes, rest) →
      (store notice 0 bytes).head? = some fileNoticeTag →
      NoticeRead notice feed bytes (store notice 0 bytes) rest
  | later {notice other bytes array : List UInt8} {feed feed' rest : Feed UInt8 Errno} :
      feed.read fileNoticeLen = some (.ok other, feed') →
      (store notice 0 other).head? ≠ some fileNoticeTag →
      NoticeRead (store notice 0 other) feed' bytes array rest →
      NoticeRead notice feed bytes array rest

/-- What the data loop counts of a chunk: nothing if `fwrite` does not store it
whole. -/
def countedOf (outcome : FwriteOutcome) (chunk : List UInt8) : Nat :=
  if outcome.stored chunk.length < chunk.length then 0 else chunk.length

/-- What it counts of the chunks that it reads. -/
def countedBytes : List FwriteOutcome → List (List UInt8) → Nat
  | _, [] => 0
  | outcomes, chunk :: chunks =>
      countedOf (outcomes.headD .complete) chunk + countedBytes outcomes.tail chunks

/-- What `fwrite` stores of the chunks. -/
def storedBytes : List FwriteOutcome → List (List UInt8) → List UInt8
  | _, [] => []
  | outcomes, chunk :: chunks =>
      chunk.take ((outcomes.headD .complete).stored chunk.length) ++
        storedBytes outcomes.tail chunks

/-- The arrivals with which a call returns: a failure is among them; or a read ends the
wait, and if the destination can be opened, the chunks behind that read are counted up
to the announced size. -/
def CallEnds (notice : List UInt8) (file : TargetFile) (feed : Feed UInt8 Errno) :
    Prop :=
  feed.Fails ∨
    ∃ bytes array rest, NoticeRead notice feed bytes array rest ∧
      (file.openable = true →
        scanFileNotice array 0 ≤
          countedBytes file.fwrites (rest.chunks fileBufferSize))

theorem NoticeRead.fails_iff {notice bytes array : List UInt8}
    {feed rest : Feed UInt8 Errno} (hNotice : NoticeRead notice feed bytes array rest) :
    feed.Fails ↔ rest.Fails := by
  induction hNotice with
  | here hRead _ => exact Feed.fails_iff_of_read hRead
  | later hRead _ _ ih => rw [Feed.fails_iff_of_read hRead, ih]

/-- The arrivals determine which read it is. -/
theorem NoticeRead.unique {notice bytes bytes' array array' : List UInt8}
    {feed rest rest' : Feed UInt8 Errno}
    (hNotice : NoticeRead notice feed bytes array rest)
    (hOther : NoticeRead notice feed bytes' array' rest') :
    bytes' = bytes ∧ array' = array ∧ rest' = rest := by
  induction hNotice with
  | here hRead hTag =>
      cases hOther with
      | here hRead' _ =>
          rw [hRead] at hRead'
          cases hRead'
          exact ⟨rfl, rfl, rfl⟩
      | later hRead' hTag' _ =>
          rw [hRead] at hRead'
          cases hRead'
          exact absurd hTag hTag'
  | later hRead hTag _ ih =>
      cases hOther with
      | here hRead' hTag' =>
          rw [hRead] at hRead'
          cases hRead'
          exact absurd hTag' hTag
      | later hRead' _ hRest =>
          rw [hRead] at hRead'
          cases hRead'
          exact ih hRest

/-! ## The wait loop -/

/-- The port behind a `read` that leaves `rx`. -/
def afterOneRead (port : Port) (rx : Feed UInt8 Errno) : Port :=
  { port with rx := rx, reads := port.reads + 1 }

section Wait

variable {fd : Int} (hFd : 0 ≤ fd)

include hFd

/-- What a pass does, by what its `read` finds. -/
theorem noticePass_eq (s : NoticeState) :
    noticePass fd s =
      match s.port.rx.read fileNoticeLen with
      | none => .blocked
      | some (.error _, rx) => .leave ⟨none, s.notice, afterOneRead s.port rx⟩
      | some (.ok bytes, rx) =>
          if (store s.notice 0 bytes).head? = some fileNoticeTag then
            .leave ⟨some (scanFileNotice (store s.notice 0 bytes) 0),
              store s.notice 0 bytes, afterOneRead s.port rx⟩
          else
            .again ⟨store s.notice 0 bytes, afterOneRead s.port rx⟩ := by
  cases hRead : s.port.rx.read fileNoticeLen with
  | none =>
      unfold noticePass
      rw [antennaReadFd_upto_wait _ (Port.read_waits hFd hRead)]
  | some result =>
      obtain ⟨out, rx⟩ := result
      cases out with
      | error e =>
          unfold noticePass
          rw [antennaReadFd_upto, Port.read_open hFd hRead]
          simp only [readRet_error, int32_sizeT_neg_one, if_true, readBytes_error,
            store_nil, afterOneRead]
      | ok bytes =>
          exact noticePass_read (Port.read_open hFd hRead)
            (Feed.length_le_of_read hRead)

/-- A pass that goes on has read something else. -/
theorem noticePass_again {s s' : NoticeState} (hPass : noticePass fd s = .again s') :
    ∃ bytes rx, s.port.rx.read fileNoticeLen = some (.ok bytes, rx) ∧
      (store s.notice 0 bytes).head? ≠ some fileNoticeTag ∧
      s' = ⟨store s.notice 0 bytes, afterOneRead s.port rx⟩ := by
  rw [noticePass_eq hFd] at hPass
  split at hPass
  · cases hPass
  · cases hPass
  · next bytes rx hRead =>
    split at hPass
    · cases hPass
    · next hTag => exact ⟨bytes, rx, hRead, hTag, (Pass.again.inj hPass).symm⟩

/-- A pass that leaves the loop has met a failure, or ends the wait. -/
theorem noticePass_leave {s : NoticeState} {w : NoticeReturn}
    (hPass : noticePass fd s = .leave w) :
    (∃ e rx, s.port.rx.read fileNoticeLen = some (.error e, rx) ∧
      w = ⟨none, s.notice, afterOneRead s.port rx⟩) ∨
    (∃ bytes rx, s.port.rx.read fileNoticeLen = some (.ok bytes, rx) ∧
      (store s.notice 0 bytes).head? = some fileNoticeTag ∧
      w = ⟨some (scanFileNotice (store s.notice 0 bytes) 0),
        store s.notice 0 bytes, afterOneRead s.port rx⟩) := by
  rw [noticePass_eq hFd] at hPass
  split at hPass
  · cases hPass
  · next e rx hRead => exact .inl ⟨e, rx, hRead, (Pass.leave.inj hPass).symm⟩
  · next bytes rx hRead =>
    split at hPass
    · next hTag =>
      exact .inr ⟨bytes, rx, hRead, hTag, (Pass.leave.inj hPass).symm⟩
    · cases hPass

/-- A pass waits only when all that has arrived is used up. -/
theorem noticePass_blocked {s : NoticeState} (hPass : noticePass fd s = .blocked) :
    s.port.rx = [] := by
  rw [noticePass_eq hFd] at hPass
  split at hPass
  · next hRead => exact Feed.eq_nil_of_read_none hRead
  · cases hPass
  · split at hPass <;> cases hPass

/-- The loop is left by the read that ends the wait. -/
theorem noticeLoop_read {notice bytes array : List UInt8} {feed rest : Feed UInt8 Errno}
    (hNotice : NoticeRead notice feed bytes array rest) {port : Port}
    (hRx : port.rx = feed) :
    ∃ port', Loop.run (noticePass fd) _ (noticePass_decreases fd) ⟨notice, port⟩ =
      some ⟨some (scanFileNotice array 0), array, port'⟩ ∧ port'.rx = rest := by
  induction hNotice generalizing port with
  | @here notice bytes feed rest hRead hTag =>
      have hPass := noticePass_eq hFd ⟨notice, port⟩
      rw [hRx, hRead] at hPass
      dsimp only at hPass
      rw [if_pos hTag] at hPass
      exact ⟨_, Loop.run_leave hPass, rfl⟩
  | @later notice other bytes array feed feed' rest hRead hTag _ ih =>
      have hPass := noticePass_eq hFd ⟨notice, port⟩
      rw [hRx, hRead] at hPass
      dsimp only at hPass
      rw [if_neg hTag] at hPass
      rw [Loop.run_again hPass]
      exact ih rfl

/-- How the loop is left: with a failure, or by a read that ends the wait. -/
theorem noticeLoop_cases {notice : List UInt8} {port : Port} {w : NoticeReturn}
    (hRun : Loop.run (noticePass fd) _ (noticePass_decreases fd) ⟨notice, port⟩ =
      some w) :
    w.port.rx.size < port.rx.size ∧
      ((w.fileSize = none ∧ port.rx.Fails) ∨
        ∃ bytes, NoticeRead notice port.rx bytes w.notice w.port.rx ∧
          w.fileSize = some (scanFileNotice w.notice 0)) := by
  refine Loop.run_relates (motive := fun (s : NoticeState) (w : NoticeReturn) =>
    w.port.rx.size < s.port.rx.size ∧
      ((w.fileSize = none ∧ s.port.rx.Fails) ∨
        ∃ bytes, NoticeRead s.notice s.port.rx bytes w.notice w.port.rx ∧
          w.fileSize = some (scanFileNotice w.notice 0))) ?_ ?_ hRun
  · intro s w hPass
    rcases noticePass_leave hFd hPass with ⟨e, rx, hRead, rfl⟩ |
        ⟨bytes, rx, hRead, hTag, rfl⟩
    · refine ⟨Feed.size_lt_of_read fileNoticeLen_pos hRead, .inl ⟨rfl, ?_⟩⟩
      rw [Feed.eq_of_read_error hRead]
      exact Feed.fails_failure e rx
    · exact ⟨Feed.size_lt_of_read fileNoticeLen_pos hRead,
        .inr ⟨bytes, .here hRead hTag, rfl⟩⟩
  · intro s s' w hPass ih
    obtain ⟨bytes, rx, hRead, hTag, rfl⟩ := noticePass_again hFd hPass
    obtain ⟨hLess, hEnds⟩ := ih
    refine ⟨Nat.lt_trans hLess (Feed.size_lt_of_read fileNoticeLen_pos hRead), ?_⟩
    rcases hEnds with ⟨hNone, hFails⟩ | ⟨bytes', hNotice, hScan⟩
    · exact .inl ⟨hNone, (Feed.fails_iff_of_read hRead).mpr hFails⟩
    · exact .inr ⟨bytes', .later hRead hTag hNotice, hScan⟩

/-- An announced size has at most 32 bits. -/
theorem noticeLoop_fileSize_le {notice : List UInt8} {port : Port} {w : NoticeReturn}
    (hWait : Loop.run (noticePass fd) _ (noticePass_decreases fd) ⟨notice, port⟩ =
      some w) {fileSize : Nat} (hFileSize : w.fileSize = some fileSize) :
    fileSize ≤ 2 ^ 32 := by
  rcases (noticeLoop_cases hFd hWait).2 with ⟨hNone, -⟩ | ⟨_, -, hScan⟩
  · rw [hNone] at hFileSize
    cases hFileSize
  · rw [hScan] at hFileSize
    obtain rfl := Option.some.inj hFileSize
    exact Nat.le_of_lt (scanFileNotice_lt _)

/-- With a failure among the arrivals the loop does not wait for ever. -/
theorem noticeLoop_none {notice : List UInt8} {port : Port}
    (hRun : Loop.run (noticePass fd) _ (noticePass_decreases fd) ⟨notice, port⟩ =
      none) : ¬ port.rx.Fails := by
  obtain ⟨k, s', hPasses, hBlocked⟩ := Loop.run_eq_none hRun
  -- no pass that goes on has met a failure
  have hKeeps : port.rx.Fails ↔ s'.port.rx.Fails := by
    refine Loop.Passes.invariant (motive := fun _ (s : NoticeState) =>
      port.rx.Fails ↔ s.port.rx.Fails) Iff.rfl ?_ hPasses
    intro _ s s₁ ih hPass
    obtain ⟨bytes, rx, hRead, -, rfl⟩ := noticePass_again hFd hPass
    rw [ih]
    exact Feed.fails_iff_of_read hRead
  rw [hKeeps, noticePass_blocked hFd hBlocked]
  exact Feed.not_fails_nil

end Wait

/-! ## The data loop -/

section Data

variable {fd : Int} (hFd : 0 ≤ fd) {fileSize : Nat} (hSize : fileSize ≤ 2 ^ 32)

/-- The state behind a pass that reads `chunk`. -/
def afterChunk (s : FreadState) (chunk : List UInt8) (rx : Feed UInt8 Errno) :
    FreadState where
  buffer := store s.buffer 0 chunk
  totalBytesRead := s.totalBytesRead + countedOf s.file.nextOutcome chunk
  port := afterOneRead s.port rx
  file := (s.file.fwrite chunk).2

include hFd hSize

/-- What a pass does, by what its `read` finds. -/
theorem freadPass_eq (s : FreadState) (hLt : s.totalBytesRead < fileSize) :
    freadPass fd fileSize s =
      match s.port.rx.read fileBufferSize with
      | none => .blocked
      | some (.error _, rx) => .leave ⟨-1, afterOneRead s.port rx, s.file⟩
      | some (.ok chunk, rx) => .again (afterChunk s chunk rx) := by
  cases hRead : s.port.rx.read fileBufferSize with
  | none =>
      unfold freadPass
      rw [if_pos hLt, antennaReadFd_upto_wait _ (Port.read_waits hFd hRead)]
  | some result =>
      obtain ⟨out, rx⟩ := result
      cases out with
      | error e =>
          unfold freadPass
          rw [if_pos hLt, antennaReadFd_upto, Port.read_open hFd hRead]
          simp only [readRet_error, int32_sizeT_neg_one, if_true, afterOneRead]
      | ok chunk =>
          have hLength := Feed.length_le_of_read hRead
          have hMax := fileBufferSize_le_intMax
          have hMaxLt := intMax_lt_sizeRange
          have hCount : sizeT (chunk.length : Int) = chunk.length :=
            sizeT_natCast (by omega)
          have hTotal : sizeT ((s.totalBytesRead : Int) + (chunk.length : Int)) =
              s.totalBytesRead + chunk.length := by
            rw [← Int.natCast_add]
            apply sizeT_natCast
            unfold intMax at hMax
            unfold sizeRange
            omega
          have hTake : (store s.buffer 0 chunk).take chunk.length = chunk := by
            rw [store_zero, List.take_left' rfl]
          unfold freadPass
          rw [if_pos hLt,
            antennaReadFd_upto_read s.buffer (Port.read_open hFd hRead) (by omega)]
          dsimp only
          rw [if_neg (by omega), hCount, hTake]
          -- a chunk that is not stored whole is not counted
          by_cases hShort : (s.file.fwrite chunk).1 < chunk.length
          · have hStored : s.file.nextOutcome.stored chunk.length < chunk.length :=
              hShort
            rw [if_pos hShort, afterChunk, countedOf, if_pos hStored, Nat.add_zero]
            rfl
          · have hStored : ¬ s.file.nextOutcome.stored chunk.length < chunk.length :=
              hShort
            rw [if_neg hShort, afterChunk, countedOf, if_neg hStored, hTotal]
            rfl

omit hFd hSize in
theorem freadPass_done {s : FreadState} (hDone : ¬ s.totalBytesRead < fileSize) :
    freadPass fd fileSize s = .leave ⟨0, s.port, s.file⟩ := by
  unfold freadPass
  rw [if_neg hDone]

/-- A pass that goes on has read a chunk. -/
theorem freadPass_again {s s' : FreadState}
    (hPass : freadPass fd fileSize s = .again s') :
    s.totalBytesRead < fileSize ∧ ∃ chunk rx,
      s.port.rx.read fileBufferSize = some (.ok chunk, rx) ∧
      s' = afterChunk s chunk rx := by
  by_cases hLt : s.totalBytesRead < fileSize
  case neg =>
    rw [freadPass_done hLt] at hPass
    cases hPass
  case pos =>
    rw [freadPass_eq hFd hSize s hLt] at hPass
    split at hPass
    · cases hPass
    · cases hPass
    · next chunk rx hRead => exact ⟨hLt, chunk, rx, hRead, (Pass.again.inj hPass).symm⟩

/-- A pass that leaves the loop has met a failure, or has nothing left to read. -/
theorem freadPass_leave {s : FreadState} {r : FreadReturn}
    (hPass : freadPass fd fileSize s = .leave r) :
    (s.totalBytesRead < fileSize ∧ ∃ e rx,
      s.port.rx.read fileBufferSize = some (.error e, rx) ∧
      r = ⟨-1, afterOneRead s.port rx, s.file⟩) ∨
    (fileSize ≤ s.totalBytesRead ∧ r = ⟨0, s.port, s.file⟩) := by
  by_cases hLt : s.totalBytesRead < fileSize
  case neg =>
    rw [freadPass_done hLt] at hPass
    exact .inr ⟨by omega, (Pass.leave.inj hPass).symm⟩
  case pos =>
    rw [freadPass_eq hFd hSize s hLt] at hPass
    split at hPass
    · cases hPass
    · next e rx hRead => exact .inl ⟨hLt, e, rx, hRead, (Pass.leave.inj hPass).symm⟩
    · cases hPass

theorem freadPass_blocked {s : FreadState}
    (hPass : freadPass fd fileSize s = .blocked) :
    s.totalBytesRead < fileSize ∧ s.port.rx = [] := by
  by_cases hLt : s.totalBytesRead < fileSize
  case neg =>
    rw [freadPass_done hLt] at hPass
    cases hPass
  case pos =>
    rw [freadPass_eq hFd hSize s hLt] at hPass
    split at hPass
    · next hRead => exact ⟨hLt, Feed.eq_nil_of_read_none hRead⟩
    · cases hPass
    · cases hPass

/-- What `k` passes have read, counted and stored. -/
theorem freadLoop_passes {k : Nat} {s s' : FreadState}
    (hPasses : Loop.Passes (freadPass fd fileSize) k s s') :
    ∃ front, front.length = k ∧
      s.port.rx.chunks fileBufferSize = front ++ s'.port.rx.chunks fileBufferSize ∧
      s'.totalBytesRead = s.totalBytesRead + countedBytes s.file.fwrites front ∧
      s'.file.content = s.file.content ++ storedBytes s.file.fwrites front := by
  induction hPasses with
  | refl s => exact ⟨[], rfl, rfl, rfl, (List.append_nil _).symm⟩
  | @again k s s₁ s₂ hPass _ ih =>
      obtain ⟨-, chunk, rx, hRead, rfl⟩ := freadPass_again hFd hSize hPass
      obtain ⟨front, hLength, hChunks, hTotal, hContent⟩ := ih
      refine ⟨chunk :: front, by rw [List.length_cons, hLength], ?_, ?_, ?_⟩
      · have hRest : rx.chunks fileBufferSize =
            front ++ s₂.port.rx.chunks fileBufferSize := hChunks
        rw [Feed.chunks_of_read fileBufferSize_pos hRead, hRest, List.cons_append]
      · rw [hTotal, countedBytes, ← Nat.add_assoc]
        rfl
      · rw [hContent, storedBytes, ← List.append_assoc]
        rfl

/-- The loop is left, unless it waits for ever, with an error only if a failure has
arrived. -/
theorem freadLoop_ret {s : FreadState} {r : FreadReturn}
    (hRun : Loop.run (freadPass fd fileSize) _ (freadPass_decreases fd fileSize) s =
      some r) :
    (r.ret = 0 ∨ (r.ret = -1 ∧ s.port.rx.Fails)) ∧
      (s.totalBytesRead < fileSize → r.port.rx.size < s.port.rx.size) ∧
      r.port.rx.size ≤ s.port.rx.size := by
  refine Loop.run_relates (motive := fun (s : FreadState) (r : FreadReturn) =>
    (r.ret = 0 ∨ (r.ret = -1 ∧ s.port.rx.Fails)) ∧
      (s.totalBytesRead < fileSize → r.port.rx.size < s.port.rx.size) ∧
      r.port.rx.size ≤ s.port.rx.size) ?_ ?_ hRun
  · intro s r hPass
    rcases freadPass_leave hFd hSize hPass with ⟨-, e, rx, hRead, rfl⟩ | ⟨hDone, rfl⟩
    · have hSmaller := Feed.size_lt_of_read fileBufferSize_pos hRead
      refine ⟨.inr ⟨rfl, ?_⟩, fun _ => hSmaller, Nat.le_of_lt hSmaller⟩
      rw [Feed.eq_of_read_error hRead]
      exact Feed.fails_failure e rx
    · exact ⟨.inl rfl, fun hLt => absurd hLt (by omega), Nat.le_refl _⟩
  · intro s s' r hPass ih
    obtain ⟨hLt, chunk, rx, hRead, rfl⟩ := freadPass_again hFd hSize hPass
    obtain ⟨hRet, -, hLe⟩ := ih
    have hSmaller : r.port.rx.size < s.port.rx.size :=
      Nat.lt_of_le_of_lt hLe (Feed.size_lt_of_read fileBufferSize_pos hRead)
    refine ⟨?_, fun _ => hSmaller, Nat.le_of_lt hSmaller⟩
    exact hRet.imp_right fun ⟨hError, hFails⟩ =>
      ⟨hError, (Feed.fails_iff_of_read hRead).mpr hFails⟩

/-- The loop is left exactly when a failure arrives, or the chunks that arrive are
counted up to the size. -/
theorem freadLoop_returns_iff (s : FreadState) :
    (∃ r, Loop.run (freadPass fd fileSize) _ (freadPass_decreases fd fileSize) s =
        some r) ↔
      s.port.rx.Fails ∨ fileSize ≤ s.totalBytesRead +
        countedBytes s.file.fwrites (s.port.rx.chunks fileBufferSize) := by
  induction hRxSize : s.port.rx.size using Nat.strongRecOn generalizing s with
  | _ size ih =>
      by_cases hLt : s.totalBytesRead < fileSize
      case neg =>
        rw [Loop.run_leave (freadPass_done hLt)]
        exact ⟨fun _ => .inr (by omega), fun _ => ⟨_, rfl⟩⟩
      case pos =>
        have hPass := freadPass_eq hFd hSize s hLt
        cases hRead : s.port.rx.read fileBufferSize with
        | none =>
            rw [hRead] at hPass
            rw [Loop.run_blocked hPass, Feed.eq_nil_of_read_none hRead]
            constructor
            · rintro ⟨r, hNone⟩
              cases hNone
            · rintro (hFails | hCount)
              · exact absurd hFails Feed.not_fails_nil
              · rw [Feed.chunks, countedBytes] at hCount
                omega
        | some result =>
            obtain ⟨out, rx⟩ := result
            rw [hRead] at hPass
            cases out with
            | error e =>
                rw [Loop.run_leave hPass, Feed.eq_of_read_error hRead]
                exact ⟨fun _ => .inl (Feed.fails_failure e rx), fun _ => ⟨_, rfl⟩⟩
            | ok chunk =>
                have hSmaller := Feed.size_lt_of_read fileBufferSize_pos hRead
                have hNext := ih rx.size (hRxSize ▸ hSmaller) (afterChunk s chunk rx) rfl
                rw [Loop.run_again hPass, hNext, Feed.fails_iff_of_read hRead,
                  Feed.chunks_of_read fileBufferSize_pos hRead, countedBytes,
                  ← Nat.add_assoc]
                rfl

end Data

/-! ## A call -/

section Call

variable {fd : Int} (hFd : 0 ≤ fd)

include hFd

/-- A call behind the read that ends the wait. -/
theorem antennaFreadFd_notice {notice bytes array : List UInt8} {port : Port}
    {rest : Feed UInt8 Errno} (hNotice : NoticeRead notice port.rx bytes array rest)
    (buffer : List UInt8) (file : TargetFile) :
    ∃ port', port'.rx = rest ∧
      antennaFreadFd fd notice buffer port file =
        if file.openable = true then
          Loop.run (freadPass fd (scanFileNotice array 0)) _ (freadPass_decreases fd _)
            ⟨buffer, 0, port', { file with opened := true, content := [] }⟩
        else
          some ⟨-1, port', file⟩ := by
  obtain ⟨port', hRun, hRx⟩ := noticeLoop_read hFd hNotice rfl
  refine ⟨port', hRx, ?_⟩
  unfold antennaFreadFd
  rw [hRun]
  dsimp only
  unfold TargetFile.fopen
  by_cases hOpen : file.openable = true
  · rw [if_pos hOpen, if_pos hOpen]
  · rw [if_neg hOpen, if_neg hOpen]

/-- A call returns exactly with the arrivals that end it. -/
theorem antennaFreadFd_returns_iff (notice buffer : List UInt8) (port : Port)
    (file : TargetFile) :
    (∃ r, antennaFreadFd fd notice buffer port file = some r) ↔
      CallEnds notice file port.rx := by
  cases hWait : Loop.run (noticePass fd) _ (noticePass_decreases fd)
      ⟨notice, port⟩ with
  | none =>
      constructor
      · rintro ⟨r, hCall⟩
        rw [antennaFreadFd, hWait] at hCall
        cases hCall
      · rintro (hFails | ⟨bytes, array, rest, hNotice, -⟩)
        · exact absurd hFails (noticeLoop_none hFd hWait)
        · obtain ⟨port', hRun, -⟩ := noticeLoop_read hFd hNotice rfl
          rw [hWait] at hRun
          cases hRun
  | some w =>
      rcases (noticeLoop_cases hFd hWait).2 with ⟨hNone, hFails⟩ |
          ⟨bytes, hNotice, -⟩
      · refine ⟨fun _ => .inl hFails, fun _ => ⟨⟨-1, w.port, file⟩, ?_⟩⟩
        rw [antennaFreadFd, hWait]
        dsimp only
        rw [hNone]
      · obtain ⟨port', hRx, hCall⟩ := antennaFreadFd_notice hFd hNotice buffer file
        rw [hCall, CallEnds, hNotice.fails_iff]
        by_cases hOpen : file.openable = true
        · rw [if_pos hOpen, freadLoop_returns_iff hFd
            (Nat.le_of_lt (scanFileNotice_lt w.notice)), hRx, Nat.zero_add]
          apply or_congr Iff.rfl
          constructor
          · intro hCount
            exact ⟨bytes, _, _, hNotice, fun _ => hCount⟩
          · rintro ⟨bytes', array, rest, hOther, hCount⟩
            obtain ⟨rfl, rfl, rfl⟩ := hNotice.unique hOther
            exact hCount hOpen
        · rw [if_neg hOpen]
          exact ⟨fun _ => .inr ⟨bytes, _, _, hNotice, fun h => absurd h hOpen⟩,
            fun _ => ⟨_, rfl⟩⟩

/-- A call that returns has read something. -/
theorem antennaFreadFd_size {notice buffer : List UInt8} {port : Port}
    {file : TargetFile} {r : FreadReturn}
    (hCall : antennaFreadFd fd notice buffer port file = some r) :
    r.port.rx.size < port.rx.size := by
  unfold antennaFreadFd at hCall
  split at hCall
  · cases hCall
  · next w hWait =>
    obtain ⟨hLess, -⟩ := noticeLoop_cases hFd hWait
    split at hCall
    · obtain rfl := Option.some.inj hCall
      exact hLess
    · next fileSize hFileSize =>
      split at hCall
      · obtain rfl := Option.some.inj hCall
        exact hLess
      · have hSize : fileSize ≤ 2 ^ 32 := by
          rcases (noticeLoop_cases hFd hWait).2 with ⟨hNone, -⟩ | ⟨_, -, hScan⟩
          · rw [hNone] at hFileSize
            cases hFileSize
          · rw [hScan] at hFileSize
            obtain rfl := Option.some.inj hFileSize
            exact Nat.le_of_lt (scanFileNotice_lt _)
        exact Nat.lt_of_le_of_lt (freadLoop_ret hFd hSize hCall).2.2 hLess

end Call

/-! ## Later arrivals -/

/-- The port on which `later` arrives behind all the rest. -/
def withLater (port : Port) (later : Feed UInt8 Errno) : Port :=
  { port with rx := port.rx ++ later }

theorem withLater_of_nil {port : Port} (hRx : port.rx = []) (later : Feed UInt8 Errno) :
    (withLater port later).rx = later := by
  rw [withLater, hRx, List.nil_append]

theorem withLater_fresh (feed later : Feed UInt8 Errno) :
    withLater (Port.fresh feed []) later = Port.fresh (feed ++ later) [] := rfl

section Later

variable {fd : Int} (hFd : 0 ≤ fd) (later : Feed UInt8 Errno)

include hFd

/-- The wait loop does not look at what arrives later. -/
theorem noticePass_follows :
    Loop.Follows (noticePass fd) (noticePass fd)
      (fun s => ⟨s.notice, withLater s.port later⟩)
      (fun w => ⟨w.fileSize, w.notice, withLater w.port later⟩) := by
  intro s hPass
  rw [noticePass_eq hFd] at hPass
  rw [noticePass_eq hFd, noticePass_eq hFd]
  dsimp only [withLater]
  split at hPass
  · exact absurd rfl hPass
  · next e rx hRead =>
    rw [Feed.read_append hRead later]
    rfl
  · next bytes rx hRead =>
    rw [Feed.read_append hRead later]
    dsimp only
    split
    · rfl
    · rfl

/-- Nor does the data loop. -/
theorem freadPass_follows {fileSize : Nat} (hSize : fileSize ≤ 2 ^ 32) :
    Loop.Follows (freadPass fd fileSize) (freadPass fd fileSize)
      (fun s => ⟨s.buffer, s.totalBytesRead, withLater s.port later, s.file⟩)
      (fun r => ⟨r.ret, withLater r.port later, r.file⟩) := by
  intro s hPass
  let s' : FreadState :=
    ⟨s.buffer, s.totalBytesRead, withLater s.port later, s.file⟩
  by_cases hLt : s.totalBytesRead < fileSize
  case neg =>
    have hDone' := @freadPass_done fd fileSize s' hLt
    rw [freadPass_done hLt]
    exact hDone'
  case pos =>
    have hPass' := freadPass_eq hFd hSize s' hLt
    rw [freadPass_eq hFd hSize s hLt] at hPass ⊢
    refine hPass'.trans ?_
    dsimp only [s', withLater]
    split at hPass
    · exact absurd rfl hPass
    · next e rx hRead =>
      rw [Feed.read_append hRead later]
      rfl
    · next chunk rx hRead =>
      rw [Feed.read_append hRead later]
      rfl

theorem noticeLoop_later {notice : List UInt8} {port : Port} {w : NoticeReturn}
    (hWait : Loop.run (noticePass fd) _ (noticePass_decreases fd) ⟨notice, port⟩ =
      some w) :
    Loop.run (noticePass fd) _ (noticePass_decreases fd)
        ⟨notice, withLater port later⟩ =
      some ⟨w.fileSize, w.notice, withLater w.port later⟩ :=
  (noticePass_follows hFd later).run hWait

/-- A call that returns does the same whatever arrives later. -/
theorem antennaFreadFd_later {notice buffer : List UInt8} {port : Port}
    {file : TargetFile} {r : FreadReturn}
    (hCall : antennaFreadFd fd notice buffer port file = some r) :
    antennaFreadFd fd notice buffer (withLater port later) file =
      some ⟨r.ret, withLater r.port later, r.file⟩ := by
  unfold antennaFreadFd at hCall ⊢
  cases hWait : Loop.run (noticePass fd) _ (noticePass_decreases fd)
      ⟨notice, port⟩ with
  | none =>
      rw [hWait] at hCall
      cases hCall
  | some w =>
      have hWaitLater := noticeLoop_later hFd later hWait
      rw [hWait] at hCall
      rw [hWaitLater]
      dsimp only at hCall ⊢
      split at hCall
      · obtain rfl := Option.some.inj hCall
        rfl
      · next fileSize hFileSize =>
        split at hCall
        · obtain rfl := Option.some.inj hCall
          rfl
        · next fp hOpened =>
          have hSize := noticeLoop_fileSize_le hFd hWait hFileSize
          exact (freadPass_follows hFd later hSize).run hCall

omit later in
/-- A call that waits for its notice goes on from there with whatever arrives. -/
theorem antennaFreadFd_at_notice {notice : List UInt8} {port : Port}
    (hWait : Loop.run (noticePass fd) _ (noticePass_decreases fd) ⟨notice, port⟩ = none)
    (buffer : List UInt8) (file : TargetFile) :
    ∃ s : NoticeState, s.port.rx = [] ∧ ∀ later,
      antennaFreadFd fd notice buffer (withLater port later) file =
        antennaFreadFd fd s.notice buffer (withLater s.port later) file := by
  obtain ⟨k, s, hPasses, hBlocked⟩ := Loop.run_eq_none hWait
  refine ⟨s, noticePass_blocked hFd hBlocked, ?_⟩
  intro later
  have hPassesLater := (noticePass_follows hFd later).passes hPasses
  unfold antennaFreadFd
  rw [Loop.run_passes hPassesLater]

omit later in
/-- So does a call that waits for the data of its file. -/
theorem antennaFreadFd_at_data {notice buffer : List UInt8} {port : Port}
    {file fp : TargetFile} {w : NoticeReturn} {fileSize : Nat}
    (hWait : Loop.run (noticePass fd) _ (noticePass_decreases fd) ⟨notice, port⟩ =
      some w)
    (hFileSize : w.fileSize = some fileSize) (hOpened : file.fopen = some fp)
    (hData : Loop.run (freadPass fd fileSize) _ (freadPass_decreases fd fileSize)
      ⟨buffer, 0, w.port, fp⟩ = none) :
    ∃ s : FreadState, s.port.rx = [] ∧ fileSize ≤ 2 ^ 32 ∧ s.totalBytesRead < fileSize ∧
      ∀ later, antennaFreadFd fd notice buffer (withLater port later) file =
        Loop.run (freadPass fd fileSize) _ (freadPass_decreases fd fileSize)
          ⟨s.buffer, s.totalBytesRead, withLater s.port later, s.file⟩ := by
  have hSize := noticeLoop_fileSize_le hFd hWait hFileSize
  obtain ⟨k, s, hPasses, hBlocked⟩ := Loop.run_eq_none hData
  obtain ⟨hLt, hEmpty⟩ := freadPass_blocked hFd hSize hBlocked
  refine ⟨s, hEmpty, hSize, hLt, ?_⟩
  intro later
  have hWaitLater := noticeLoop_later hFd later hWait
  have hPassesLater := (freadPass_follows hFd later hSize).passes hPasses
  unfold antennaFreadFd
  rw [hWaitLater]
  dsimp only
  rw [hFileSize]
  dsimp only
  rw [hOpened]
  exact Loop.run_passes hPassesLater

omit later in
/-- A call that does not return has used up all that has arrived: a failure that
arrives next ends it, and with anything else it goes on to read. -/
theorem antennaFreadFd_waits {notice buffer : List UInt8} {port : Port}
    {file : TargetFile} (hCall : antennaFreadFd fd notice buffer port file = none) :
    (∀ e later, ∃ r, antennaFreadFd fd notice buffer
        (withLater port (.failure e :: later)) file = some r ∧
      r.ret = -1 ∧ r.port.rx = later) ∧
    (∀ later r, antennaFreadFd fd notice buffer (withLater port later) file = some r →
      r.port.rx.size < later.size) := by
  cases hWait : Loop.run (noticePass fd) _ (noticePass_decreases fd)
      ⟨notice, port⟩ with
  | none =>
      obtain ⟨s, hEmpty, hSame⟩ := antennaFreadFd_at_notice hFd hWait buffer file
      constructor
      · intro e later
        have hRx := withLater_of_nil hEmpty (.failure e :: later)
        have hPass := noticePass_eq hFd
          ⟨s.notice, withLater s.port (.failure e :: later)⟩
        rw [hRx, Feed.read] at hPass
        rw [hSame, antennaFreadFd, Loop.run_leave hPass]
        exact ⟨_, rfl, rfl, rfl⟩
      · intro later r hReturns
        rw [hSame] at hReturns
        have hLess := antennaFreadFd_size hFd hReturns
        rwa [withLater_of_nil hEmpty] at hLess
  | some w =>
      rw [antennaFreadFd, hWait] at hCall
      dsimp only at hCall
      split at hCall
      · cases hCall
      · next fileSize hFileSize =>
        split at hCall
        · cases hCall
        · next fp hOpened =>
          obtain ⟨s, hEmpty, hSize, hLt, hSame⟩ :=
            antennaFreadFd_at_data hFd hWait hFileSize hOpened hCall
          constructor
          · intro e later
            have hRx := withLater_of_nil hEmpty (.failure e :: later)
            have hPass := freadPass_eq hFd hSize
              ⟨s.buffer, s.totalBytesRead, withLater s.port (.failure e :: later),
                s.file⟩ hLt
            rw [hRx, Feed.read] at hPass
            rw [hSame, Loop.run_leave hPass]
            exact ⟨_, rfl, rfl, rfl⟩
          · intro later r hReturns
            rw [hSame] at hReturns
            have hLess := (freadLoop_ret hFd hSize hReturns).2.1 hLt
            rwa [withLater_of_nil hEmpty] at hLess

end Later

end Loris
end CubeSatComm
