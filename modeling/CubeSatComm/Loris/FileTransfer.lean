import CubeSatComm.Loris.FileFraming
import CubeSatComm.Loris.FileSender

/-!
# File transfers end to end

What `antenna_fwrite_fd` emits, given to `antenna_fread_fd`.

A file whose size is no multiple of `FILE_BUFFER_SIZE` loses its last block on the
sending side.  Any other file comes through when the first read returns the whole notice.
When it stops inside the notice the receiver takes the rest of the notice for the
beginning of the file, so the file comes through by chance only (`ByChance`).
-/

namespace CubeSatComm
namespace Loris

open Lib CInteger Posix

/-- The round trip of a file with complete writes, when the reads of the receiver cut what
has been emitted in one way: it returns `0` and has stored `content`.  `stale`, `notice`
and `buffer` are what the arrays of the two programs hold at first. -/
def FileRoundTrip (content stale notice buffer : List UInt8) (file : TargetFile)
    (cut : List (List UInt8)) : Prop :=
  ∀ fdTx fdRx : Int, 0 ≤ fdTx → 0 ≤ fdRx →
    ∀ tx : List WriteOutcome, (Port.fresh [] tx).CompleteWrites →
    ∀ (ret : Int) (port : Port),
      antennaFwriteFd fdTx ⟨content, content.length, true⟩ stale
        (Port.fresh [] tx) = some (ret, port) →
      IsCut cut port.sent →
        ∃ r, antennaFreadFd fdRx notice buffer
            (Port.fresh (Feed.ofPieces cut) []) file = some r ∧
          r.ret = 0 ∧ r.file.content = content

/-- The stream that the sender emits. -/
def fileStream (content stale : List UInt8) : List UInt8 :=
  fileNotice stale content.length ++
    content.take (fileBufferSize * (content.length / fileBufferSize))

/-- The size that the receiver's array announces behind a first read of `count` bytes. -/
def announcedBy (content stale notice : List UInt8) (count : Nat) : Nat :=
  scanFileNotice (store notice 0 ((fileStream content stale).take count)) 0

/-- What follows the first read in the stream begins with the content of the file, and the
first of the later reads that reaches the announced size ends where the file does. -/
def MeetsFile (content stale notice : List UInt8) (cut : List (List UInt8)) : Prop :=
  let first := readBoundary fileNoticeLen cut 1
  let later := readBoundary fileBufferSize (afterRead fileNoticeLen cut)
  content <+: (fileStream content stale).drop first ∧
    ∃ k, later k = content.length ∧
      announcedBy content stale notice first ≤ content.length ∧
      ∀ j < k, later j < announcedBy content stale notice first

/-- The first read stops inside the notice, and the reads meet the file all the same. -/
def ByChance (content stale notice : List UInt8) (cut : List (List UInt8)) : Prop :=
  readBoundary fileNoticeLen cut 1 < fileNoticeLen ∧ MeetsFile content stale notice cut

section RoundTrip

variable {content stale notice buffer : List UInt8} {file : TargetFile}
  {cut : List (List UInt8)}

theorem fileStream_head (content stale : List UInt8) :
    (fileStream content stale).head? = some fileNoticeTag := by
  rw [fileStream, fileNotice_eq]
  rfl

/-- The notice is in front, and the full blocks of the file behind it. -/
theorem fileStream_drop (hStale : stale.length = fileNoticeLen) :
    (fileStream content stale).drop fileNoticeLen =
      content.take (fileBufferSize * (content.length / fileBufferSize)) := by
  rw [fileStream, List.drop_left' (length_fileNotice content.length hStale)]

/-- The round trip, in terms of the stream. -/
theorem fileRoundTrip_iff (hStale : stale.length = fileNoticeLen)
    (hCut : IsCut cut (fileStream content stale)) :
    FileRoundTrip content stale notice buffer file cut ↔
      ∀ fd : Int, 0 ≤ fd →
        ∃ r, antennaFreadFd fd notice buffer
            (Port.fresh (Feed.ofPieces cut) []) file = some r ∧
          r.ret = 0 ∧ r.file.content = content := by
  have hSend : ∀ fd : Int, 0 ≤ fd → ∀ tx : List WriteOutcome,
      (Port.fresh [] tx).CompleteWrites → ∃ port,
        antennaFwriteFd fd ⟨content, content.length, true⟩ stale
          (Port.fresh [] tx) = some (0, port) ∧
        port.sent = fileStream content stale := by
    intro fd hFd tx hTx
    exact antennaFwriteFd_complete hFd rfl hStale hTx
  constructor
  · intro hTrip fd hFd
    have hTx := Port.completeWrites_fresh []
    obtain ⟨port, hRun, hSent⟩ := hSend 0 (Int.le_refl 0) [] hTx
    exact hTrip 0 fd (Int.le_refl 0) hFd [] hTx 0 port hRun (by rwa [hSent])
  · intro hStream fdTx fdRx hFdTx hFdRx tx hTx ret port hRun _
    exact hStream fdRx hFdRx

/-- A destination that cannot be opened is reported. -/
theorem not_fileRoundTrip_closed (hStale : stale.length = fileNoticeLen)
    (hCut : IsCut cut (fileStream content stale)) (hClosed : file.openable ≠ true) :
    ¬ FileRoundTrip content stale notice buffer file cut := by
  intro hTrip
  obtain ⟨r, hCall, hRet, -⟩ := (fileRoundTrip_iff hStale hCut).mp hTrip 0 (Int.le_refl 0)
  obtain ⟨bytes, port, -, -, -, -, -, hRun⟩ := antennaFreadFd_cut_first (Int.le_refl 0) notice
    buffer hCut (fileStream_head content stale) file
  rw [if_neg hClosed, hCall] at hRun
  obtain rfl := Option.some.inj hRun
  simp at hRet

/-- What one receiver makes of the stream, in terms of its reads. -/
theorem antennaFreadFd_iff_meetsFile {fd : Int} (hFd : 0 ≤ fd) (hFile : file.CompleteFwrites)
    (hCut : IsCut cut (fileStream content stale)) (hOpen : file.openable = true) :
    (∃ r, antennaFreadFd fd notice buffer (Port.fresh (Feed.ofPieces cut) []) file = some r ∧
        r.ret = 0 ∧ r.file.content = content) ↔
      MeetsFile content stale notice cut := by
  obtain ⟨bytes, hStream, hFirst, -, hRun⟩ :=
    antennaFreadFd_cut hFd notice buffer hCut (fileStream_head content stale) hFile hOpen
  have hBytes : (fileStream content stale).take bytes.length = bytes := by
    rw [← hStream, List.take_left' rfl]
  dsimp only at hRun
  rw [MeetsFile, announcedBy, ← hFirst, hBytes]
  constructor
  · rintro ⟨r, hCall, -, hContent⟩
    rcases hRun with ⟨-, hWaits⟩ |
        ⟨k, cut', r', hReturns, -, hStored, -, -, hInside, hReach, hBefore⟩
    · rw [hWaits] at hCall
      cases hCall
    · obtain rfl : r' = r := Option.some.inj (hReturns.symm.trans hCall)
      have hSame := hContent.symm.trans hStored
      have hCount := congrArg List.length hSame
      rw [List.length_take, Nat.min_eq_left hInside] at hCount
      refine ⟨?_, k, hCount.symm, by omega, hBefore⟩
      have hFront := List.take_prefix (readBoundary fileBufferSize (afterRead fileNoticeLen cut) k)
        ((fileStream content stale).drop bytes.length)
      rwa [← hSame] at hFront
  · rintro ⟨hPrefix, k', hBoundary, hAnnounced, hFirstReach⟩
    rcases hRun with ⟨hShort, -⟩ |
        ⟨k, cut', r, hReturns, hRet, hStored, -, -, -, hReach, hBefore⟩
    · have hEnough := hPrefix.length_le
      omega
    · -- both are the first boundary that reaches the announced size
      have hSame : k = k' := by
        rcases Nat.lt_trichotomy k k' with hLt | hEq | hGt
        · have hEarly := hFirstReach k hLt
          omega
        · exact hEq
        · have hEarly := hBefore k' hGt
          omega
      rw [hSame, hBoundary, ← List.prefix_iff_eq_take.mp hPrefix] at hStored
      exact ⟨r, hReturns, hRet, hStored⟩

/-- The round trip in terms of the reads. -/
theorem fileRoundTrip_iff_meetsFile (hStale : stale.length = fileNoticeLen)
    (hFile : file.CompleteFwrites) (hCut : IsCut cut (fileStream content stale))
    (hOpen : file.openable = true) :
    FileRoundTrip content stale notice buffer file cut ↔
      MeetsFile content stale notice cut := by
  rw [fileRoundTrip_iff hStale hCut]
  constructor
  · intro hTrip
    have hReceived := hTrip 0 (Int.le_refl 0)
    exact (antennaFreadFd_iff_meetsFile (Int.le_refl 0) hFile hCut hOpen).mp hReceived
  · intro hMeets fd hFd
    exact (antennaFreadFd_iff_meetsFile hFd hFile hCut hOpen).mpr hMeets

/-- When the first read returns the whole notice the reads meet the file, unless its last
block has not been sent. -/
theorem meetsFile_iff_of_whole (hStale : stale.length = fileNoticeLen)
    (hSize : content.length < 2 ^ 32) (hCut : IsCut cut (fileStream content stale))
    (hWhole : readBoundary fileNoticeLen cut 1 = fileNoticeLen) :
    MeetsFile content stale notice cut ↔ fileBufferSize ∣ content.length := by
  have hNotice : IsFileNotice content.length (fileNotice stale content.length) :=
    ⟨stale, hStale, rfl⟩
  have hTake : (fileStream content stale).take fileNoticeLen =
      fileNotice stale content.length := by
    rw [fileStream, List.take_left' hNotice.length_eq]
  have hAnnounced : announcedBy content stale notice fileNoticeLen = content.length := by
    rw [announcedBy, hTake, store_zero, hNotice.scan_eq, Nat.mod_eq_of_lt hSize]
  rw [MeetsFile, hWhole, fileStream_drop hStale, hAnnounced]
  constructor
  · rintro ⟨hPrefix, -⟩
    have hLe := hPrefix.length_le
    have hSplit := Nat.div_add_mod content.length fileBufferSize
    rw [List.length_take] at hLe
    exact Nat.dvd_of_mod_eq_zero (by omega)
  · intro hFull
    have hAll : content.take (fileBufferSize * (content.length / fileBufferSize)) = content := by
      rw [Nat.mul_div_cancel' hFull, List.take_length]
    have hNe : fileStream content stale ≠ [] := by
      intro hNil
      have hHead := fileStream_head content stale
      rw [hNil] at hHead
      cases hHead
    -- the last read ends where the stream does
    have hRest := isCut_afterRead fileNoticeLen_pos hCut hNe
    rw [hWhole, fileStream_drop hStale, hAll] at hRest
    obtain ⟨k, hEnd, hBefore⟩ := exists_readBoundary_length fileBufferSize_pos hRest
    rw [hAll]
    exact ⟨List.prefix_refl content, k, hEnd, Nat.le_refl _, hBefore⟩

/-- When a file comes through: the destination can be opened, and either the first read
returns the whole notice and the file consists of full blocks, or chance will have it. -/
theorem fileRoundTrip_exact_iff (hStale : stale.length = fileNoticeLen)
    (hFile : file.CompleteFwrites) (hSize : content.length < 2 ^ 32)
    (hCut : IsCut cut (fileStream content stale)) :
    FileRoundTrip content stale notice buffer file cut ↔
      file.openable = true ∧
        (readBoundary fileNoticeLen cut 1 = fileNoticeLen ∧
            fileBufferSize ∣ content.length ∨
          ByChance content stale notice cut) := by
  by_cases hOpen : file.openable = true
  case neg =>
    exact iff_of_false (not_fileRoundTrip_closed hStale hCut hOpen) fun hAll => hOpen hAll.1
  case pos =>
    rw [fileRoundTrip_iff_meetsFile hStale hFile hCut hOpen, ByChance]
    rcases Nat.lt_or_eq_of_le (readBoundary_one_le fileNoticeLen_pos hCut) with hInside | hWhole
    · have hNotWhole := Nat.ne_of_lt hInside
      simp only [hOpen, hInside, hNotWhole, true_and, false_and, false_or]
    · have hMeets : MeetsFile content stale notice cut ↔ fileBufferSize ∣ content.length :=
        meetsFile_iff_of_whole hStale hSize hCut hWhole
      simp only [hOpen, hWhole, hMeets, Nat.lt_irrefl, true_and, false_and, or_false]

end RoundTrip

/-- A file of one full block, whose stream comes in one piece. -/
theorem fileRoundTrip_one_block :
    FileRoundTrip (List.replicate 255 65) (List.replicate 16 0) (List.replicate 16 0) []
      ⟨true, false, [], []⟩ [fileStream (List.replicate 255 65) (List.replicate 16 0)] := by
  have hFile : TargetFile.CompleteFwrites ⟨true, false, [], []⟩ :=
    TargetFile.completeFwrites_of_eq_nil rfl
  have hLength : (fileStream (List.replicate 255 65) (List.replicate 16 0)).length = 271 := by
    decide +kernel
  have hCut := isCut_singleton (List.ne_nil_of_length_eq_add_one hLength)
  have hContent : (List.replicate 255 (65 : UInt8)).length = 255 := List.length_replicate
  have hSize : (List.replicate 255 (65 : UInt8)).length < 2 ^ 32 := by
    rw [hContent]
    decide
  refine (fileRoundTrip_exact_iff rfl hFile hSize hCut).mpr ⟨rfl, .inl ⟨?_, ?_⟩⟩
  · rw [readBoundary_singleton fileNoticeLen_pos, hLength]
    decide
  · show 255 ∣ (List.replicate 255 (65 : UInt8)).length
    rw [hContent]

/-- Of a file of one byte only the notice is sent, and the receiver waits. -/
theorem not_fileRoundTrip_one_byte :
    IsCut [fileStream [65] (List.replicate 16 0)] (fileStream [65] (List.replicate 16 0)) ∧
      ¬ FileRoundTrip [65] (List.replicate 16 0) (List.replicate 16 0) []
        ⟨true, false, [], []⟩ [fileStream [65] (List.replicate 16 0)] := by
  have hFile : TargetFile.CompleteFwrites ⟨true, false, [], []⟩ :=
    TargetFile.completeFwrites_of_eq_nil rfl
  have hLength : (fileStream [65] (List.replicate 16 0)).length = 16 := by decide +kernel
  have hCut := isCut_singleton (List.ne_nil_of_length_eq_add_one hLength)
  have hWhole : readBoundary fileNoticeLen [fileStream [65] (List.replicate 16 0)] 1 =
      fileNoticeLen := by
    rw [readBoundary_singleton fileNoticeLen_pos, hLength]
    decide
  refine ⟨hCut, ?_⟩
  rw [fileRoundTrip_iff_meetsFile rfl hFile hCut rfl,
    meetsFile_iff_of_whole rfl (by decide) hCut hWhole]
  decide

end Loris
end CubeSatComm
