import CubeSatComm.Loris.FileReceiver

/-!
# Framing of a received file

What the receiver makes of a stream that holds a notice, the file, and then
something else.

* A notice is recognised with its size up to `2 ^ 32`; of the messages that are
  no notice, those that begin with the letter `F` are taken for one.
* A file is received exactly, and what follows it left unread, when the reads
  happen to stop at the end of the notice and at the end of the file.
-/

namespace CubeSatComm
namespace Loris

open Lib CInteger Posix

/-! ## Recognising the notice -/

/-- The wait loop is left by its next pass, with `file_size = fileSize`. -/
def LeavesWait (fd : Int) (notice : List UInt8) (port : Port)
    (fileSize : Nat) : Prop :=
  ∃ r, noticePass fd ⟨notice, port⟩ = .leave r ∧ r.fileSize = some fileSize

/-- The next pass stays in the wait loop: the call goes on like one that starts
behind it, the destination as it is. -/
def StaysWaiting (fd : Int) (notice buffer : List UInt8) (port : Port)
    (file : TargetFile) : Prop :=
  ∃ s', noticePass fd ⟨notice, port⟩ = .again s' ∧
    antennaFreadFd fd notice buffer port file =
      antennaFreadFd fd s'.notice buffer s'.port file

section Notice

variable {fd : Int} (hFd : 0 ≤ fd) {port : Port} {msg : List UInt8}
  {rest : Feed UInt8 Errno} (hRx : port.rx = .piece msg :: rest)
  (hLength : msg.length ≤ fileNoticeLen) (hPos : 1 ≤ msg.length)

include hFd hRx hLength hPos

/-- The pass that reads a message of at most `FILE_NOTICE_LEN` bytes: its first byte
decides. -/
theorem noticePass_message (notice : List UInt8) :
    noticePass fd ⟨notice, port⟩ =
      if msg.head? = some fileNoticeTag then
        .leave ⟨some (scanFileNotice (msg ++ notice.drop msg.length) 0),
          msg ++ notice.drop msg.length,
          { port with rx := rest, reads := port.reads + 1 }⟩
      else
        .again ⟨msg ++ notice.drop msg.length,
          { port with rx := rest, reads := port.reads + 1 }⟩ := by
  have hFeed : port.rx.read fileNoticeLen = some (.ok msg, rest) := by
    rw [hRx, Feed.read, if_pos hLength]
  have hHead : (msg ++ notice.drop msg.length).head? = msg.head? := by
    cases msg with
    | nil => cases hPos
    | cons c msg => rfl
  rw [noticePass_read (s := ⟨notice, port⟩) (Port.read_open hFd hFeed) hLength]
  rw [store_zero, hHead]

/-- A message that begins with the letter ends the wait loop, any other does not. -/
theorem staysWaiting_iff (notice buffer : List UInt8) (file : TargetFile) :
    StaysWaiting fd notice buffer port file ↔ msg.head? ≠ some fileNoticeTag := by
  have hPass := noticePass_message hFd hRx hLength hPos notice
  constructor
  · rintro ⟨s', hAgain, -⟩ hTag
    rw [if_pos hTag, hAgain] at hPass
    cases hPass
  · intro hTag
    rw [if_neg hTag] at hPass
    exact ⟨_, hPass, antennaFreadFd_again hPass buffer file⟩

end Notice

/-- A notice ends the wait loop with the low 32 bits of its size. -/
theorem leavesWait_notice_iff {fd : Int} (hFd : 0 ≤ fd) {port : Port}
    {msg : List UInt8} {rest : Feed UInt8 Errno}
    (hRx : port.rx = .piece msg :: rest) {fileSize : Nat}
    (hNotice : IsFileNotice fileSize msg) (notice : List UInt8) (size : Nat) :
    LeavesWait fd notice port size ↔ size = fileSize % 2 ^ 32 := by
  have hLength : msg.length ≤ fileNoticeLen := Nat.le_of_eq hNotice.length_eq
  have hPos : 1 ≤ msg.length := by
    rw [hNotice.length_eq]
    decide
  have hPass := noticePass_message hFd hRx hLength hPos notice
  rw [if_pos hNotice.head_eq, hNotice.scan_eq] at hPass
  constructor
  · rintro ⟨r, hLeave, hSize⟩
    rw [hPass] at hLeave
    obtain rfl := Pass.leave.inj hLeave
    exact (Option.some.inj hSize).symm
  · rintro rfl
    exact ⟨_, hPass, rfl⟩

/-- When the notice is recognised exactly: a notice ends the wait loop with its size
if and only if that is below `2 ^ 32`, and a message that is no notice leaves the
receiver waiting if and only if it does not begin with the letter `F`. -/
theorem fileNotice_recognised_iff {fd : Int} (hFd : 0 ≤ fd)
    (notice buffer : List UInt8) (file : TargetFile) (port : Port)
    (rest : Feed UInt8 Errno) :
    (∀ fileSize < sizeRange, ∀ msg, IsFileNotice fileSize msg →
      port.rx = .piece msg :: rest →
      (LeavesWait fd notice port fileSize ↔ fileSize < 2 ^ 32)) ∧
    (∀ msg : List UInt8, 1 ≤ msg.length → msg.length ≤ fileNoticeLen →
      (∀ fileSize < sizeRange, ¬ IsFileNotice fileSize msg) →
      port.rx = .piece msg :: rest →
      (StaysWaiting fd notice buffer port file ↔
        msg.head? ≠ some fileNoticeTag)) := by
  constructor
  · intro fileSize _ msg hNotice hRx
    rw [leavesWait_notice_iff hFd hRx hNotice]
    omega
  · intro msg hPos hLength _ hRx
    exact staysWaiting_iff hFd hRx hLength hPos notice buffer file

/-- A notice for five bytes and a message without the letter. -/
theorem fileNotice_recognised_five :
    LeavesWait 3 [] (Port.fresh [.piece (fileNotice (List.replicate 16 0) 5)] []) 5 ∧
      StaysWaiting 3 [] [] (Port.fresh [.piece [72, 105]] [])
        ⟨true, false, [], []⟩ := by
  constructor
  · exact ((fileNotice_recognised_iff (by decide) [] [] ⟨true, false, [], []⟩ _ []).1
      5 (by decide) _ ⟨_, rfl, rfl⟩ rfl).mpr (by decide)
  · refine ((fileNotice_recognised_iff (by decide) [] [] ⟨true, false, [], []⟩ _
      []).2 [72, 105] (by decide) (by decide) ?_ rfl).mpr (by decide)
    intro fileSize _ hNotice
    exact absurd hNotice.length_eq (by decide)

/-- The notice of a file of `2 ^ 32` bytes announces an empty one, and the word
`Fine` is taken for a notice. -/
theorem fileNotice_misread :
    ¬ LeavesWait 3 []
        (Port.fresh [.piece (fileNotice (List.replicate 16 0) (2 ^ 32))] [])
        (2 ^ 32) ∧
      (∀ fileSize, ¬ IsFileNotice fileSize [70, 105, 110, 101]) ∧
      ¬ StaysWaiting 3 [] [] (Port.fresh [.piece [70, 105, 110, 101]] [])
        ⟨true, false, [], []⟩ := by
  refine ⟨?_, ?_, ?_⟩
  · rw [leavesWait_notice_iff (by decide) rfl ⟨_, rfl, rfl⟩]
    decide
  · intro fileSize hNotice
    exact absurd hNotice.length_eq (by decide)
  · rw [staysWaiting_iff (by decide) rfl (by decide) (by decide)]
    decide

/-! ## Receiving exactly the file -/

/-- The receiver returns `0`, the destination holds `payload`, and `rest` is left
unread. -/
def ReceivesExactly (fd : Int) (notice buffer : List UInt8)
    (cut : List (List UInt8)) (file : TargetFile) (payload rest : List UInt8) :
    Prop :=
  ∃ r, antennaFreadFd fd notice buffer (Port.fresh (Feed.ofPieces cut) []) file =
      some r ∧
    r.ret = 0 ∧ r.file.content = payload ∧
    ∃ cut', r.port.rx = Feed.ofPieces cut' ∧ IsCut cut' rest

/-- On a stream that begins with the letter the first read ends the wait loop. -/
theorem antennaFreadFd_cut_first {fd : Int} (hFd : 0 ≤ fd)
    (notice buffer : List UInt8) {cut : List (List UInt8)} {stream : List UInt8}
    (hCut : IsCut cut stream) (hHead : stream.head? = some fileNoticeTag)
    (file : TargetFile) :
    ∃ bytes port, bytes ++ stream.drop bytes.length = stream ∧
      bytes.length = readBoundary fileNoticeLen cut 1 ∧
      bytes.length ≤ fileNoticeLen ∧
      port.rx = Feed.ofPieces (afterRead fileNoticeLen cut) ∧
      IsCut (afterRead fileNoticeLen cut) (stream.drop bytes.length) ∧
      antennaFreadFd fd notice buffer (Port.fresh (Feed.ofPieces cut) []) file =
        if file.openable then
          Loop.run (freadPass fd (scanFileNotice (store notice 0 bytes) 0)) _
            (freadPass_decreases fd _)
            ⟨buffer, 0, port, { file with opened := true, content := [] }⟩
        else
          some ⟨-1, port, file⟩ := by
  have hNe : stream ≠ [] := by
    rintro rfl
    cases hHead
  have hRx : (Port.fresh (Feed.ofPieces cut) []).rx = Feed.ofPieces cut := rfl
  obtain ⟨bytes, hRead, hBytes, hLength, hReads, hCut', hStream⟩ :=
    Port.read_cut hFd fileNoticeLen_pos hRx hCut hNe
  have hBytesHead : bytes.head? = some fileNoticeTag := by
    cases bytes with
    | nil => exact absurd rfl hBytes
    | cons c bytes =>
        rw [← hStream] at hHead
        exact hHead
  have hBoundary : bytes.length = readBoundary fileNoticeLen cut 1 := by
    rw [readBoundary_succ hReads, readBoundary_zero, Nat.add_zero]
  exact ⟨bytes, _, hStream, hBoundary, hLength, rfl, hCut',
    antennaFreadFd_first hRead hLength hBytesHead buffer file⟩

/-- What a call with an open destination does on a stream that begins with the
letter: after a first read of `bytes` it either waits, or stores the stream from
there to a later read boundary. -/
theorem antennaFreadFd_cut {fd : Int} (hFd : 0 ≤ fd) (notice buffer : List UInt8)
    {cut : List (List UInt8)} {stream : List UInt8} (hCut : IsCut cut stream)
    (hHead : stream.head? = some fileNoticeTag) {file : TargetFile}
    (hFile : file.CompleteFwrites) (hOpen : file.openable = true) :
    ∃ bytes, bytes ++ stream.drop bytes.length = stream ∧
      bytes.length = readBoundary fileNoticeLen cut 1 ∧
      bytes.length ≤ fileNoticeLen ∧
      let fileSize := scanFileNotice (store notice 0 bytes) 0
      let later := afterRead fileNoticeLen cut
      let left := stream.drop bytes.length
      (left.length < fileSize ∧
        antennaFreadFd fd notice buffer (Port.fresh (Feed.ofPieces cut) []) file =
          none) ∨
      (∃ k cut' r,
        antennaFreadFd fd notice buffer (Port.fresh (Feed.ofPieces cut) []) file =
          some r ∧
        r.ret = 0 ∧
        r.file.content = left.take (readBoundary fileBufferSize later k) ∧
        r.port.rx = Feed.ofPieces cut' ∧
        IsCut cut' (left.drop (readBoundary fileBufferSize later k)) ∧
        readBoundary fileBufferSize later k ≤ left.length ∧
        fileSize ≤ readBoundary fileBufferSize later k ∧
        ∀ j < k, readBoundary fileBufferSize later j < fileSize) := by
  obtain ⟨bytes, port, hStream, hBoundary, hLength, hRx, hCut', hRun⟩ :=
    antennaFreadFd_cut_first hFd notice buffer hCut hHead file
  rw [if_pos hOpen] at hRun
  have hSize : scanFileNotice (store notice 0 bytes) 0 ≤ 2 ^ 32 :=
    Nat.le_of_lt (scanFileNotice_lt _)
  refine ⟨bytes, hStream, hBoundary, hLength, ?_⟩
  dsimp only
  by_cases hShort : (stream.drop bytes.length).length <
      scanFileNotice (store notice 0 bytes) 0
  · left
    refine ⟨hShort, hRun.trans ?_⟩
    apply freadLoop_cut_short hFd hSize hRx hCut' hFile
    simpa using hShort
  · right
    obtain ⟨k, cut', r, hLoop, hRet, hContent, hRx', hCut'', hInside, hReach,
        hFirst⟩ :=
      freadLoop_cut hFd hSize
        (s := ⟨buffer, 0, port, { file with opened := true, content := [] }⟩)
        hRx hCut' hFile (by dsimp only; omega)
    dsimp only at hContent hReach hFirst
    simp only [Nat.zero_add] at hReach hFirst
    rw [List.nil_append] at hContent
    exact ⟨k, cut', r, hRun.trans hLoop, hRet, hContent, hRx', hCut'', hInside,
      hReach, hFirst⟩

/-- A destination that cannot be opened is reported. -/
theorem not_receivesExactly_closed {fd : Int} (hFd : 0 ≤ fd)
    (notice buffer : List UInt8) {cut : List (List UInt8)} {stream : List UInt8}
    (hCut : IsCut cut stream) (hHead : stream.head? = some fileNoticeTag)
    {file : TargetFile} (hClosed : file.openable ≠ true)
    (payload rest : List UInt8) :
    ¬ ReceivesExactly fd notice buffer cut file payload rest := by
  rintro ⟨r, hCall, hRet, -⟩
  obtain ⟨bytes, port, -, -, -, -, -, hRun⟩ :=
    antennaFreadFd_cut_first hFd notice buffer hCut hHead file
  rw [if_neg hClosed, hCall] at hRun
  obtain rfl := Option.some.inj hRun
  simp at hRet

/-- When a file is received exactly: the destination can be opened, the first read
returns the whole notice, and one of the reads behind it ends where the file does. -/
theorem receivesExactly_iff {fd : Int} (hFd : 0 ≤ fd) {fileSize : Nat}
    (hSize : fileSize < 2 ^ 32) {msg : List UInt8}
    (hNotice : IsFileNotice fileSize msg) {payload : List UInt8}
    (hPayload : payload.length = fileSize) (rest : List UInt8)
    {cut : List (List UInt8)} (hCut : IsCut cut (msg ++ (payload ++ rest)))
    (notice buffer : List UInt8) {file : TargetFile}
    (hFile : file.CompleteFwrites) :
    ReceivesExactly fd notice buffer cut file payload rest ↔
      file.openable = true ∧ readBoundary fileNoticeLen cut 1 = fileNoticeLen ∧
      ∃ k, readBoundary fileBufferSize (afterRead fileNoticeLen cut) k =
        fileSize := by
  have hMsg := hNotice.length_eq
  have hHead : (msg ++ (payload ++ rest)).head? = some fileNoticeTag := by
    rw [List.head?_append, hNotice.head_eq]
    rfl
  by_cases hOpen : file.openable = true
  case neg =>
    constructor
    · intro hReceives
      exact absurd hReceives (not_receivesExactly_closed hFd notice buffer hCut hHead
        hOpen payload rest)
    · rintro ⟨hOpened, -⟩
      exact absurd hOpened hOpen
  case pos =>
    obtain ⟨bytes, hStream, hFirst, hLength, hRun⟩ :=
      antennaFreadFd_cut hFd notice buffer hCut hHead hFile hOpen
    dsimp only at hRun
    have hTotal := congrArg List.length hStream
    simp only [List.length_append] at hTotal
    constructor
    · rintro ⟨r, hCall, -, hContent, cut', hRx, hRest⟩
      rcases hRun with ⟨-, hWaits⟩ |
          ⟨k, cut'', r', hReturns, -, hStored, hRx', hLeft, hInside, -⟩
      · rw [hWaits] at hCall
        cases hCall
      · obtain rfl : r' = r := Option.some.inj (hReturns.symm.trans hCall)
        -- what is stored and what is left add up to the stream behind the first read
        have hCount := congrArg List.length (hStored.symm.trans hContent)
        rw [List.length_take, Nat.min_eq_left hInside] at hCount
        obtain rfl : cut'' = cut' := Feed.ofPieces_injective (hRx'.symm.trans hRx)
        have hUnread := congrArg List.length
          (hLeft.flatten_eq.symm.trans hRest.flatten_eq)
        rw [List.length_drop] at hUnread
        refine ⟨hOpen, ?_, k, ?_⟩
        · omega
        · omega
    · -- the first boundary that reaches the size is the one at the end of the file
      rintro ⟨-, hWhole, k', hBoundary⟩
      have hBytes : bytes = msg := by
        have hFront := congrArg (List.take bytes.length) hStream
        rw [List.take_left' rfl, hFirst, hWhole, ← hMsg, List.take_left' rfl]
          at hFront
        exact hFront
      have hScan : scanFileNotice (store notice 0 bytes) 0 = fileSize := by
        rw [store_zero, hBytes, hNotice.scan_eq, Nat.mod_eq_of_lt hSize]
      have hLeft : (msg ++ (payload ++ rest)).drop bytes.length =
          payload ++ rest := by
        rw [hBytes, List.drop_left' rfl]
      rw [hScan, hLeft] at hRun
      rcases hRun with ⟨hShort, -⟩ |
          ⟨k, cut', r, hReturns, hRet, hStored, hRx, hUnread, -, hReach, hBefore⟩
      · rw [List.length_append] at hShort
        omega
      · have hExact := readBoundary_eq_of_first hReach hBefore hBoundary
        rw [hExact, ← hPayload] at hStored hUnread
        rw [List.take_left' rfl] at hStored
        rw [List.drop_left' rfl] at hUnread
        exact ⟨r, hReturns, hRet, hStored, cut', hRx, hUnread⟩

/-- The notice of a file of one byte, in an array of zeros. -/
def oneByteNotice : List UInt8 := fileNotice (List.replicate 16 0) 1

theorem isFileNotice_oneByteNotice : IsFileNotice 1 oneByteNotice :=
  ⟨List.replicate 16 0, rfl, rfl⟩

/-- Reads that stop at both ends. -/
theorem receivesExactly_one_byte :
    ReceivesExactly 3 [] [] [oneByteNotice, [65], [66]] ⟨true, false, [], []⟩
      [65] [66] := by
  have hCut : IsCut [oneByteNotice, [65], [66]] (oneByteNotice ++ ([65] ++ [66])) :=
    ⟨rfl, by decide +kernel⟩
  refine (receivesExactly_iff (by decide) (by decide) isFileNotice_oneByteNotice rfl
    [66] hCut [] [] (by intro outcome hMem; cases hMem)).mpr ⟨rfl, ?_, 1, ?_⟩
  · decide +kernel
  · decide +kernel

/-- A read that runs across the end of the file takes the next byte with it. -/
theorem receives_next_byte :
    IsCut [oneByteNotice, [65, 66]] (oneByteNotice ++ ([65] ++ [66])) ∧
      ¬ ReceivesExactly 3 [] [] [oneByteNotice, [65, 66]] ⟨true, false, [], []⟩
        [65] [66] := by
  refine ⟨⟨rfl, by decide +kernel⟩, ?_⟩
  rintro ⟨r, hCall, -, hContent, -⟩
  have hBoth : (antennaFreadFd 3 [] []
      (Port.fresh (Feed.ofPieces [oneByteNotice, [65, 66]]) [])
      ⟨true, false, [], []⟩).map (fun r => r.file.content) = some [65, 66] := by
    decide +kernel
  rw [hCall, Option.map_some, hContent] at hBoth
  exact absurd hBoth (by decide)

end Loris
end CubeSatComm
