import CubeSatComm.Lib.CInteger
import CubeSatComm.Lib.Loop
import CubeSatComm.Lib.Memory
import CubeSatComm.Posix.Port

/-!
# The antenna module: raw transfers

`antenna_write_fd` and `antenna_read_fd` of `antenna.c`, the two functions every
other transfer of the module is built from, with the packet initialisation that
`antenna_write_fd` performs first.

The conversions between `ssize_t`, `size_t` and `int` are those of the source.
Two of its comparisons never hold because of them: the result of `read` is
stored in a `size_t` before it is tested for `< 0` in `READ_MODE_UPTO`, and the
result of `write` is compared with a `size_t` length, so that a failed `write`
counts as a huge one.
-/

namespace CubeSatComm
namespace Loris

open Lib CInteger Posix

/-! ## Settings of `antenna.h` and `antenna_packet.h` -/

/-- `RS_BLOCK_LEN` -/
def rsBlockLen : Nat := 255

/-- `RS_DATA_LEN` -/
def rsDataLen : Nat := 223

/-- `RS_NUM_ROOTS` -/
def rsNumRoots : Nat := 2

/-- `FILE_BUFFER_SIZE` -/
def fileBufferSize : Nat := 255

/-- `FILE_NOTICE_LEN` -/
def fileNoticeLen : Nat := 16

theorem rsDataLen_pos : 0 < rsDataLen := by decide

theorem fileBufferSize_pos : 0 < fileBufferSize := by decide

theorem fileNoticeLen_pos : 0 < fileNoticeLen := by decide

/-- A message of `RS_DATA_LEN` bytes leaves room for its parity bytes. -/
theorem rsDataLen_le : rsDataLen ≤ rsBlockLen - rsNumRoots := by decide

theorem rsBlockLen_le_intMax : rsBlockLen ≤ intMax := by decide

theorem fileBufferSize_le_intMax : fileBufferSize ≤ intMax := by decide

/-- `READ_MODE_UPTO` -/
def readModeUpto : Int := 0

/-- `READ_MODE_UNTIL` -/
def readModeUntil : Int := 1

/-- `PACKET_DELIMITER`, three number signs. -/
def packetDelimiter : List UInt8 := [35, 35, 35]

/-- `PACKET_DATA_LEN` -/
def packetDataLen : Nat := 255

/-- `struct antenna_packet` -/
structure AntennaPacket where
  startDelimiter : List UInt8
  data : List UInt8
  endDelimiter : List UInt8
  deriving Inhabited

/-- `antenna_packet_new`: the pointer may be `NULL`. -/
def antennaPacketNew (p : Option AntennaPacket) : Int × Option AntennaPacket :=
  match p with
  | none => (-1, none)
  | some _ =>
      (0, some
        { startDelimiter := packetDelimiter
          data := List.replicate packetDataLen 0
          endDelimiter := packetDelimiter })

/-! ## `antenna_write_fd` -/

/-- `antenna_write_fd` -/
def antennaWriteFd (fd : Int) (data : List UInt8) (port : Port) : Int × Port :=
  if (antennaPacketNew (some default)).1 < 0 then
    (-1, port)
  else
    let (written, port) := port.write fd data
    -- `ssize_t < size_t`: the left operand is converted to `size_t`
    if sizeT written < data.length then
      (-1, port)
    else
      (0, port)

/-- The packet plays no part in what `antenna_write_fd` does. -/
theorem antennaWriteFd_eq (fd : Int) (data : List UInt8) (port : Port) :
    antennaWriteFd fd data port =
      (if sizeT (port.write fd data).1 < data.length then -1 else 0,
        (port.write fd data).2) := by
  unfold antennaWriteFd
  rw [if_neg (by simp [antennaPacketNew])]
  rcases port.write fd data with ⟨written, port'⟩
  dsimp only
  split <;> rfl

/-- On a bad descriptor `antenna_write_fd` reports success. -/
theorem antennaWriteFd_bad {fd : Int} (hFd : fd < 0) {data : List UInt8}
    (hLength : data.length < sizeRange) (port : Port) :
    antennaWriteFd fd data port = (0, port) := by
  rw [antennaWriteFd_eq, Port.write_bad hFd, if_neg]
  rw [sizeT_neg_one]
  unfold sizeRange at *
  omega

/-- On an open descriptor `antenna_write_fd` fails exactly when the `write` call
is short; a `write` call that returns `-1` goes unnoticed. -/
theorem antennaWriteFd_open {fd : Int} (hFd : 0 ≤ fd) {data : List UInt8}
    (hLength : data.length < sizeRange) (port : Port) :
    antennaWriteFd fd data port =
      (if port.nextOutcome.Short data.length then -1 else 0,
        { port with
          tx := port.tx.tail
          written := port.written ++ [port.nextOutcome.record data] }) := by
  rw [antennaWriteFd_eq, Port.write_open hFd]
  congr 1
  cases port.nextOutcome with
  | complete =>
      rw [if_neg (WriteOutcome.not_short_complete _), WriteOutcome.ret_complete,
        sizeT_natCast hLength, if_neg (Nat.lt_irrefl _)]
  | accept count =>
      have hAccepted : sizeT (min count data.length : Nat) =
          min count data.length :=
        sizeT_natCast (Nat.lt_of_le_of_lt (Nat.min_le_right _ _) hLength)
      have hShort : min count data.length < data.length ↔
          count < data.length := by
        omega
      simp only [WriteOutcome.ret_accept, hAccepted, hShort,
        WriteOutcome.short_accept_iff]
  | fail =>
      rw [if_neg (WriteOutcome.not_short_fail _), WriteOutcome.ret_fail,
        sizeT_neg_one, if_neg]
      unfold sizeRange at *
      omega

/-! ## `antenna_read_fd` -/

/-- What `antenna_read_fd` and the functions over it return: the return value,
the memory behind the buffer argument, and the port afterwards. -/
structure ReadReturn where
  ret : Int
  buffer : List UInt8
  port : Port

/-- State of the `READ_MODE_UNTIL` loop. -/
structure UntilState where
  buffer : List UInt8
  bytesRead : Nat
  port : Port

/-- One pass through the `READ_MODE_UNTIL` loop. -/
def untilPass (fd : Int) (readLen : Nat) (s : UntilState) :
    Pass UntilState ReadReturn :=
  if s.bytesRead < readLen then
    match s.port.read fd (readLen - s.bytesRead) with
    | none => .blocked
    | some (out, port) =>
        let newBytesRead := int32 (readRet out)
        let buffer := store s.buffer s.bytesRead (readBytes out)
        if newBytesRead < 0 then
          .leave ⟨-1, buffer, port⟩
        else
          .again ⟨buffer, sizeT (s.bytesRead + newBytesRead), port⟩
  else
    .leave ⟨int32 s.bytesRead, s.buffer, s.port⟩

theorem untilPass_decreases (fd : Int) (readLen : Nat) :
    Loop.Decreases (untilPass fd readLen) fun s => s.port.rx.size := by
  intro s s' hPass
  unfold untilPass at hPass
  split at hPass
  case isFalse => cases hPass
  case isTrue hLt =>
    split at hPass
    · cases hPass
    · next out port hRead =>
      dsimp only at hPass
      split at hPass
      · cases hPass
      · next hNonneg =>
        cases hPass
        cases out with
        | error e =>
            rw [readRet_error] at hNonneg
            exact absurd (by decide) hNonneg
        | ok bytes => exact Port.size_lt_of_read (by omega) hRead

/-- `antenna_read_fd` -/
def antennaReadFd (fd : Int) (buffer : List UInt8) (readLen : Nat)
    (readMode : Int) (port : Port) : Option ReadReturn :=
  if readMode = readModeUpto then
    match port.read fd readLen with
    | none => none
    | some (out, port) =>
        let bytesRead := sizeT (readRet out)
        let buffer := store buffer 0 (readBytes out)
        -- never taken: `bytes_read` is a `size_t`
        if bytesRead < 0 then
          if out = .error .eagain ∨ out = .error .ewouldblock then
            some ⟨0, buffer, port⟩
          else
            some ⟨-1, buffer, port⟩
        else
          some ⟨int32 bytesRead, buffer, port⟩
  else if readMode = readModeUntil then
    Loop.run (untilPass fd readLen) _ (untilPass_decreases fd readLen)
      ⟨buffer, 0, port⟩
  else
    some ⟨-1, buffer, port⟩

/-! ### What the reads of `antenna_read_fd` do -/

section Spec

variable {fd : Int} {buffer : List UInt8} {readLen : Nat} {readMode : Int}
  {port : Port}

/-- A `READ_MODE_UNTIL` loop that was left without error has used up part of its
feed unless it had nothing to read. -/
theorem untilLoop_size {s : UntilState} {r : ReadReturn}
    (hRun : Loop.run (untilPass fd readLen) _
      (untilPass_decreases fd readLen) s = some r) :
    0 ≤ r.ret → r.port.rx.size ≤ s.port.rx.size ∧
      (s.bytesRead < readLen → r.port.rx.size < s.port.rx.size) := by
  refine Loop.run_relates (motive := fun (s : UntilState) (r : ReadReturn) =>
    0 ≤ r.ret → r.port.rx.size ≤ s.port.rx.size ∧
      (s.bytesRead < readLen → r.port.rx.size < s.port.rx.size)) ?_ ?_ hRun
  · intro s r hPass hRet
    unfold untilPass at hPass
    split at hPass
    · -- the loop is left inside its body only to report a failed read
      split at hPass
      · cases hPass
      · dsimp only at hPass
        split at hPass
        · cases hPass
          simp at hRet
        · cases hPass
    · next hDone =>
      obtain rfl := Pass.leave.inj hPass
      exact ⟨Nat.le_refl _, fun hLt => absurd hLt hDone⟩
  · intro s s' r hPass ih hRet
    have hSmaller := untilPass_decreases fd readLen s s' hPass
    have hRest := (ih hRet).1
    dsimp only at hSmaller
    exact ⟨by omega, fun _ => by omega⟩

theorem antennaReadFd_until_size {r : ReadReturn} (hLen : 0 < readLen)
    (hRead : antennaReadFd fd buffer readLen readModeUntil port = some r)
    (hRet : 0 ≤ r.ret) : r.port.rx.size < port.rx.size := by
  unfold antennaReadFd at hRead
  rw [if_neg (by decide), if_pos rfl] at hRead
  exact (untilLoop_size hRead hRet).2 hLen

theorem antennaReadFd_upto :
    antennaReadFd fd buffer readLen readModeUpto port =
      match port.read fd readLen with
      | none => none
      | some (out, port) =>
          some ⟨int32 (sizeT (readRet out)), store buffer 0 (readBytes out),
            port⟩ := by
  unfold antennaReadFd
  rw [if_pos rfl]
  split
  · rfl
  · dsimp only
    rw [if_neg (Nat.not_lt_zero _)]

/-- `READ_MODE_UPTO` returns what one `read` finds. -/
theorem antennaReadFd_upto_read (buffer : List UInt8) {bytes : List UInt8}
    {port' : Port} (hRead : port.read fd readLen = some (.ok bytes, port'))
    (hMax : bytes.length ≤ intMax) :
    antennaReadFd fd buffer readLen readModeUpto port =
      some ⟨bytes.length, store buffer 0 bytes, port'⟩ := by
  have hMaxLt := intMax_lt_sizeRange
  rw [antennaReadFd_upto, hRead]
  simp only [readRet_ok, readBytes_ok]
  rw [sizeT_natCast (by omega), int32_natCast hMax]

theorem antennaReadFd_upto_wait (buffer : List UInt8)
    (hRead : port.read fd readLen = none) :
    antennaReadFd fd buffer readLen readModeUpto port = none := by
  rw [antennaReadFd_upto, hRead]

/-- A `READ_MODE_UPTO` call that does not fail has used up part of its feed. -/
theorem antennaReadFd_upto_size {r : ReadReturn} (hLen : 0 < readLen)
    (hRead : antennaReadFd fd buffer readLen readModeUpto port = some r)
    (hRet : r.ret ≠ -1) : r.port.rx.size < port.rx.size := by
  rw [antennaReadFd_upto] at hRead
  split at hRead
  · cases hRead
  · next out port' hPort =>
    obtain rfl := Option.some.inj hRead
    cases out with
    | error e =>
        refine absurd ?_ hRet
        show int32 (sizeT (-1)) = -1
        exact int32_sizeT_neg_one
    | ok bytes => exact Port.size_lt_of_read hLen hPort

theorem antennaReadFd_until :
    antennaReadFd fd buffer readLen readModeUntil port =
      Loop.run (untilPass fd readLen) _ (untilPass_decreases fd readLen)
        ⟨buffer, 0, port⟩ := by
  unfold antennaReadFd
  rw [if_neg (by decide), if_pos rfl]

theorem antennaReadFd_invalid (hUpto : readMode ≠ readModeUpto)
    (hUntil : readMode ≠ readModeUntil) :
    antennaReadFd fd buffer readLen readMode port = some ⟨-1, buffer, port⟩ := by
  unfold antennaReadFd
  rw [if_neg hUpto, if_neg hUntil]

/-- A pass that finds `bytes`. -/
theorem untilPass_read {s : UntilState} {bytes : List UInt8} {port' : Port}
    (hLt : s.bytesRead < readLen) (hLen : readLen < sizeRange)
    (hRead : s.port.read fd (readLen - s.bytesRead) = some (.ok bytes, port'))
    (hMax : bytes.length ≤ intMax) :
    untilPass fd readLen s =
      .again ⟨store s.buffer s.bytesRead bytes, s.bytesRead + bytes.length,
        port'⟩ := by
  have hLength := Port.length_le_of_read hRead
  have hRet : int32 (bytes.length : Int) = bytes.length := int32_natCast hMax
  have hSum : sizeT ((s.bytesRead : Int) + (bytes.length : Int)) =
      s.bytesRead + bytes.length := by
    rw [← Int.natCast_add]
    exact sizeT_natCast (by omega)
  unfold untilPass
  rw [if_pos hLt, hRead]
  simp only [readRet_ok, readBytes_ok, hRet, hSum]
  rw [if_neg (by omega)]

/-- A pass whose `read` fails. -/
theorem untilPass_error {s : UntilState} {e : Errno} {port' : Port}
    (hLt : s.bytesRead < readLen)
    (hRead : s.port.read fd (readLen - s.bytesRead) = some (.error e, port')) :
    untilPass fd readLen s = .leave ⟨-1, s.buffer, port'⟩ := by
  unfold untilPass
  rw [if_pos hLt, hRead]
  simp only [readRet_error, readBytes_error, store_nil]
  rw [if_pos (by decide)]

/-- A pass whose `read` waits. -/
theorem untilPass_blocked {s : UntilState} (hLt : s.bytesRead < readLen)
    (hRead : s.port.read fd (readLen - s.bytesRead) = none) :
    untilPass fd readLen s = .blocked := by
  unfold untilPass
  rw [if_pos hLt, hRead]

/-- The pass that finds the bytes complete. -/
theorem untilPass_done {s : UntilState} (hDone : ¬ s.bytesRead < readLen) :
    untilPass fd readLen s = .leave ⟨int32 s.bytesRead, s.buffer, s.port⟩ := by
  unfold untilPass
  rw [if_neg hDone]

/-- The loop reads exactly what is missing, however the stream is cut. -/
theorem untilLoop_cut (hFd : 0 ≤ fd) (hMax : readLen ≤ intMax) (missing : Nat)
    {s : UntilState} {cut : List (List UInt8)} {stream : List UInt8}
    (hMissing : s.bytesRead + missing = readLen)
    (hBuffer : s.bytesRead ≤ s.buffer.length)
    (hRx : s.port.rx = Feed.ofPieces cut) (hCut : IsCut cut stream)
    (hEnough : missing ≤ stream.length) :
    ∃ cut' calls,
      Loop.run (untilPass fd readLen) _ (untilPass_decreases fd readLen) s =
        some ⟨readLen, store s.buffer s.bytesRead (stream.take missing),
          { s.port with
            rx := Feed.ofPieces cut'
            reads := s.port.reads + calls }⟩ ∧
      IsCut cut' (stream.drop missing) ∧ calls ≤ missing := by
  -- every read returns one byte or more, so fewer are missing after it
  induction missing using Nat.strongRecOn generalizing s cut stream with
  | _ missing ih =>
      by_cases hZero : missing = 0
      · subst hZero
        have hDone : s.bytesRead = readLen := by omega
        have hPass : untilPass fd readLen s =
            .leave ⟨readLen, s.buffer, s.port⟩ := by
          rw [untilPass_done (by omega), hDone, int32_natCast hMax]
        refine ⟨cut, 0, ?_, by simpa using hCut, Nat.le_refl 0⟩
        rw [Loop.run_leave hPass, List.take_zero, store_nil, ← hRx,
          Nat.add_zero]
      · have hNe : stream ≠ [] := by
          rintro rfl
          simp only [List.length_nil] at hEnough
          omega
        have hCountPos : 0 < readLen - s.bytesRead := by omega
        obtain ⟨bytes, hRead, hBytes, hLength, -, hCut', hStream⟩ :=
          Port.read_cut hFd hCountPos hRx hCut hNe
        have hPos := List.length_pos_iff.mpr hBytes
        have hMaxLt := intMax_lt_sizeRange
        have hPass := untilPass_read (by omega) (by omega) hRead (by omega)
        have hTotal : bytes.length + (stream.drop bytes.length).length =
            stream.length := by
          rw [← List.length_append, hStream]
        obtain ⟨cut'', calls, hRun, hCut'', hCalls⟩ :=
          ih (missing - bytes.length) (by omega)
            (s := ⟨store s.buffer s.bytesRead bytes,
              s.bytesRead + bytes.length,
              { s.port with
                rx := Feed.ofPieces (afterRead (readLen - s.bytesRead) cut)
                reads := s.port.reads + 1 }⟩)
            (by dsimp only; omega) (le_length_store hBuffer) rfl hCut' (by omega)
        -- the two stores side by side hold the front of the stream
        have hTake : bytes ++
            (stream.drop bytes.length).take (missing - bytes.length) =
              stream.take missing := by
          have hAll : bytes.take missing = bytes :=
            List.take_of_length_le (by omega)
          conv_rhs => rw [← hStream]
          rw [List.take_append, hAll]
        refine ⟨cut'', calls + 1, ?_, ?_, by omega⟩
        · rw [Loop.run_again hPass, hRun]
          dsimp only
          rw [store_store_adjacent hBuffer, hTake, Nat.add_assoc,
            Nat.add_comm 1 calls]
        · rw [List.drop_drop] at hCut''
          rwa [show bytes.length + (missing - bytes.length) = missing by omega]
            at hCut''

/-- On any feed whose reads fit into an `int`, the loop is left with what it needs when
enough bytes arrive before the first failure. -/
theorem untilLoop_enough (hFd : 0 ≤ fd) (hLen : readLen < sizeRange) {s : UntilState}
    (hLe : s.bytesRead ≤ readLen) (hBuffer : s.bytesRead ≤ s.buffer.length)
    (hFit : readLen ≤ intMax ∨ s.port.rx.PiecesLe intMax)
    (hEnough : readLen ≤ s.bytesRead + s.port.rx.arriving.length) :
    ∃ r, Loop.run (untilPass fd readLen) _ (untilPass_decreases fd readLen) s =
        some r ∧
      r.ret = int32 readLen ∧
      r.buffer = store s.buffer s.bytesRead
        (s.port.rx.arriving.take (readLen - s.bytesRead)) ∧
      r.port.rx.arriving = s.port.rx.arriving.drop (readLen - s.bytesRead) ∧
      (s.port.rx.Fails ↔ r.port.rx.Fails) := by
  induction hSize : s.port.rx.size using Nat.strongRecOn generalizing s with
  | _ size ih =>
      by_cases hLt : s.bytesRead < readLen
      case neg =>
        have hDone : s.bytesRead = readLen := by omega
        have hNone : readLen - s.bytesRead = 0 := by omega
        refine ⟨_, Loop.run_leave (untilPass_done hLt), ?_, ?_, ?_, Iff.rfl⟩
        · rw [hDone]
        · rw [hNone, List.take_zero, store_nil]
        · rw [hNone, List.drop_zero]
      case pos =>
        have hCount : 0 < readLen - s.bytesRead := by omega
        cases hRead : s.port.rx.read (readLen - s.bytesRead) with
        | none =>
            rw [Feed.eq_nil_of_read_none hRead] at hEnough
            simp only [Feed.arriving, List.length_nil] at hEnough
            omega
        | some result =>
            obtain ⟨out, rx⟩ := result
            cases out with
            | error e =>
                rw [Feed.eq_of_read_error hRead] at hEnough
                simp only [Feed.arriving, List.length_nil] at hEnough
                omega
            | ok bytes =>
                have hLength := Feed.length_le_of_read hRead
                have hMax : bytes.length ≤ intMax := by
                  rcases hFit with hShort | hPieces
                  · omega
                  · exact (hPieces.of_read hRead).2 bytes rfl
                have hFront := Feed.arriving_of_read hRead
                have hArrive := congrArg List.length hFront
                rw [List.length_append] at hArrive
                obtain ⟨r, hRun, hRet, hData, hRest, hFails⟩ := ih _
                  (by rw [← hSize]; exact Feed.size_lt_of_read hCount hRead)
                  (s := ⟨store s.buffer s.bytesRead bytes, s.bytesRead + bytes.length,
                    { s.port with rx := rx, reads := s.port.reads + 1 }⟩)
                  (by dsimp only; omega) (le_length_store hBuffer)
                  (hFit.imp_right fun hPieces => (hPieces.of_read hRead).1)
                  (by dsimp only; omega) rfl
                dsimp only at hData hRest hFails
                rw [Nat.sub_add_eq] at hData hRest
                refine ⟨r, ?_, hRet, ?_, ?_, ?_⟩
                · rw [Loop.run_again
                    (untilPass_read hLt hLen (Port.read_open hFd hRead) hMax), hRun]
                · rw [hData, store_store_adjacent hBuffer, hFront, List.take_append,
                    List.take_of_length_le hLength]
                · rw [hRest, hFront, List.drop_append, List.drop_of_length_le hLength,
                    List.nil_append]
                · rw [Feed.fails_iff_of_read hRead, hFails]

/-- When too few arrive, the loop waits, or a failure ends it. -/
theorem untilLoop_few (hLen : readLen < sizeRange) {s : UntilState}
    (hFit : readLen ≤ intMax ∨ s.port.rx.PiecesLe intMax)
    (hFew : s.bytesRead + s.port.rx.arriving.length < readLen) {r : ReadReturn}
    (hRun : Loop.run (untilPass fd readLen) _ (untilPass_decreases fd readLen) s =
      some r) :
    r.ret = -1 ∧ (0 ≤ fd → s.port.rx.Fails) := by
  induction hSize : s.port.rx.size using Nat.strongRecOn generalizing s with
  | _ size ih =>
      have hLt : s.bytesRead < readLen := by omega
      have hCount : 0 < readLen - s.bytesRead := by omega
      by_cases hFd : 0 ≤ fd
      case neg =>
        rw [Loop.run_leave (untilPass_error hLt (Port.read_bad (by omega) _ _))] at hRun
        obtain rfl := Option.some.inj hRun
        exact ⟨rfl, fun h => absurd h hFd⟩
      case pos =>
        cases hRead : s.port.rx.read (readLen - s.bytesRead) with
        | none =>
            rw [Loop.run_blocked (untilPass_blocked hLt
              (Port.read_waits hFd hRead))] at hRun
            cases hRun
        | some result =>
            obtain ⟨out, rx⟩ := result
            cases out with
            | error e =>
                rw [Loop.run_leave (untilPass_error hLt (Port.read_open hFd hRead))] at hRun
                obtain rfl := Option.some.inj hRun
                refine ⟨rfl, fun _ => ?_⟩
                rw [Feed.eq_of_read_error hRead]
                exact Feed.fails_failure e rx
            | ok bytes =>
                have hLength := Feed.length_le_of_read hRead
                have hMax : bytes.length ≤ intMax := by
                  rcases hFit with hShort | hPieces
                  · omega
                  · exact (hPieces.of_read hRead).2 bytes rfl
                have hArrive := congrArg List.length (Feed.arriving_of_read hRead)
                rw [List.length_append] at hArrive
                rw [Loop.run_again
                  (untilPass_read hLt hLen (Port.read_open hFd hRead) hMax)] at hRun
                obtain ⟨hRet, hFailed⟩ := ih _
                  (by rw [← hSize]; exact Feed.size_lt_of_read hCount hRead)
                  (hFit.imp_right fun hPieces => (hPieces.of_read hRead).1)
                  (by dsimp only; omega) hRun rfl
                exact ⟨hRet, fun h => (Feed.fails_iff_of_read hRead).mpr (hFailed h)⟩

/-- The loop waits when the stream ends before it has what it needs. -/
theorem untilLoop_cut_short (hFd : 0 ≤ fd) (hMax : readLen ≤ intMax)
    (missing : Nat) {s : UntilState} {cut : List (List UInt8)}
    {stream : List UInt8} (hMissing : s.bytesRead + missing = readLen)
    (hRx : s.port.rx = Feed.ofPieces cut) (hCut : IsCut cut stream)
    (hShort : stream.length < missing) :
    Loop.run (untilPass fd readLen) _ (untilPass_decreases fd readLen) s =
      none := by
  have hMaxLt := intMax_lt_sizeRange
  have hFew : s.bytesRead + s.port.rx.arriving.length < readLen := by
    rw [hRx, Feed.arriving_ofPieces, hCut.flatten_eq]
    omega
  cases hRun : Loop.run (untilPass fd readLen) _ (untilPass_decreases fd readLen) s with
  | none => rfl
  | some r =>
      -- only a failure could have ended it
      have hFails := (untilLoop_few (by omega) (.inl hMax) hFew hRun).2 hFd
      rw [hRx] at hFails
      exact absurd hFails (Feed.not_fails_ofPieces cut)

/-- `READ_MODE_UNTIL` on a stream that is long enough: the call returns
`read_len` and stores and consumes exactly that many bytes, however the stream
is cut. -/
theorem antennaReadFd_until_cut (buffer : List UInt8) (hFd : 0 ≤ fd)
    (hMax : readLen ≤ intMax)
    {cut : List (List UInt8)} {stream : List UInt8}
    (hRx : port.rx = Feed.ofPieces cut) (hCut : IsCut cut stream)
    (hEnough : readLen ≤ stream.length) :
    ∃ cut' calls,
      antennaReadFd fd buffer readLen readModeUntil port =
        some ⟨readLen, store buffer 0 (stream.take readLen),
          { port with
            rx := Feed.ofPieces cut', reads := port.reads + calls }⟩ ∧
      IsCut cut' (stream.drop readLen) ∧ calls ≤ readLen := by
  rw [antennaReadFd_until]
  exact untilLoop_cut hFd hMax readLen (s := ⟨buffer, 0, port⟩) (by simp)
    (Nat.zero_le _) hRx hCut hEnough

/-- `READ_MODE_UNTIL` on a stream that is too short: the call waits. -/
theorem antennaReadFd_until_short (hFd : 0 ≤ fd) (hMax : readLen ≤ intMax)
    {cut : List (List UInt8)} {stream : List UInt8}
    (hRx : port.rx = Feed.ofPieces cut) (hCut : IsCut cut stream)
    (hShort : stream.length < readLen) :
    antennaReadFd fd buffer readLen readModeUntil port = none := by
  rw [antennaReadFd_until]
  exact untilLoop_cut_short hFd hMax readLen (s := ⟨buffer, 0, port⟩) (by simp)
    hRx hCut hShort

/-! ### Use of the descriptor -/

/-- The two read modes that `antenna_read_fd` accepts. -/
def ValidMode (readMode : Int) : Prop :=
  readMode = readModeUpto ∨ readMode = readModeUntil

instance (readMode : Int) : Decidable (ValidMode readMode) :=
  inferInstanceAs (Decidable (_ ∨ _))

/-- On a bad descriptor, or with another mode, `antenna_read_fd` returns `-1` and
touches nothing. -/
theorem antennaReadFd_idle (hIdle : fd < 0 ∨ ¬ ValidMode readMode)
    (hLen : 0 < readLen) (buffer : List UInt8) (port : Port) :
    antennaReadFd fd buffer readLen readMode port = some ⟨-1, buffer, port⟩ := by
  by_cases hMode : ValidMode readMode
  · have hFd : fd < 0 := hIdle.resolve_right (fun h => h hMode)
    rcases hMode with rfl | rfl
    · rw [antennaReadFd_upto, Port.read_bad hFd]
      simp
    · rw [antennaReadFd_until,
        Loop.run_leave (untilPass_error hLen (Port.read_bad hFd port readLen))]
  · rw [ValidMode, not_or] at hMode
    exact antennaReadFd_invalid hMode.1 hMode.2

/-- The passes of the `READ_MODE_UNTIL` loop only add to the reads. -/
theorem untilLoop_reads (hFd : 0 ≤ fd) {s : UntilState} {r : ReadReturn}
    (hRun : Loop.run (untilPass fd readLen) _
      (untilPass_decreases fd readLen) s = some r) :
    s.port.reads ≤ r.port.reads ∧
      (s.bytesRead < readLen → s.port.reads < r.port.reads) := by
  refine Loop.run_relates (motive := fun (s : UntilState) (r : ReadReturn) =>
    s.port.reads ≤ r.port.reads ∧
      (s.bytesRead < readLen → s.port.reads < r.port.reads)) ?_ ?_ hRun
  · intro s r hPass
    unfold untilPass at hPass
    split at hPass
    · split at hPass
      · cases hPass
      · next hRead =>
        have hReads := Port.reads_of_read hFd hRead
        dsimp only at hPass
        split at hPass
        · obtain rfl := Pass.leave.inj hPass
          dsimp only
          omega
        · cases hPass
    · next hDone =>
      obtain rfl := Pass.leave.inj hPass
      exact ⟨Nat.le_refl _, fun hLt => absurd hLt hDone⟩
  · intro s s' r hPass ih
    unfold untilPass at hPass
    split at hPass
    · split at hPass
      · cases hPass
      · next hRead =>
        have hReads := Port.reads_of_read hFd hRead
        dsimp only at hPass
        split at hPass
        · cases hPass
        · obtain rfl := Pass.again.inj hPass
          have hLater := ih.1
          dsimp only at hLater
          omega
    · cases hPass

/-- On an open descriptor a call that returns has read from it. -/
theorem antennaReadFd_reads (hFd : 0 ≤ fd) (hMode : ValidMode readMode)
    (hLen : 0 < readLen) {r : ReadReturn}
    (hCall : antennaReadFd fd buffer readLen readMode port = some r) :
    port.reads < r.port.reads := by
  rcases hMode with rfl | rfl
  · rw [antennaReadFd_upto] at hCall
    split at hCall
    · cases hCall
    · next hRead =>
      obtain rfl := Option.some.inj hCall
      have hReads := Port.reads_of_read hFd hRead
      dsimp only
      omega
  · rw [antennaReadFd_until] at hCall
    exact (untilLoop_reads hFd hCall).2 hLen

end Spec

end Loris
end CubeSatComm
