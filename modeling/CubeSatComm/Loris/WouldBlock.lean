import CubeSatComm.Loris.FileReads

/-!
# Reads that would block

What a read error that only says that nothing has arrived yet does to a receiving call.
`antenna_read_fd` means to return `0` for it, but stores the result of `read` in a
`size_t` and never finds it negative; it returns `-1` like for every other error, and
`antenna_fread_fd` gives up.  So such errors are invisible only to a call that has
returned before the first of them.
-/

namespace CubeSatComm
namespace Loris

open Lib CInteger Posix

/-- The errors of a non-blocking descriptor on which nothing has arrived. -/
def WouldBlock (e : Errno) : Prop := e = .eagain ∨ e = .ewouldblock

instance : DecidablePred WouldBlock := fun _ => inferInstanceAs (Decidable (_ ∨ _))

/-- An arrival that is no such error. -/
def arrived : Arrival UInt8 Errno → Bool
  | .piece _ => true
  | .failure e => !decide (WouldBlock e)

/-- The feed without such errors. -/
def withoutPolls (feed : Feed UInt8 Errno) : Feed UInt8 Errno := feed.filter arrived

/-- Two calls return alike, with the same bytes stored, and have used up the same
arrivals but for reads that would block; or neither returns. -/
def SameOutcome : Option FreadReturn → Option FreadReturn → Prop
  | none, none => True
  | some r, some r' =>
      r.ret = r'.ret ∧ r.file.content = r'.file.content ∧
        withoutPolls r.port.rx = withoutPolls r'.port.rx
  | none, some _ => False
  | some _, none => False

/-- Reads that would block make no difference to a call of `antenna_fread_fd`. -/
def PollsInvisible (fd : Int) (notice buffer : List UInt8) (file : TargetFile)
    (feed : Feed UInt8 Errno) : Prop :=
  SameOutcome (antennaFreadFd fd notice buffer (Port.fresh feed []) file)
    (antennaFreadFd fd notice buffer (Port.fresh (withoutPolls feed) []) file)

/-- `antenna_read_fd` returns `0` for a read that would block and `-1` for any other
error. -/
def ReportsError (fd : Int) (buffer : List UInt8) (readLen : Nat) (port : Port)
    (e : Errno) : Prop :=
  ∃ r, antennaReadFd fd buffer readLen readModeUpto port = some r ∧
    r.ret = if WouldBlock e then 0 else -1

/-! ## Feeds without polls -/

theorem SameOutcome.refl (out : Option FreadReturn) : SameOutcome out out := by
  cases out with
  | none => trivial
  | some r => exact ⟨rfl, rfl, rfl⟩

theorem size_withoutPolls_le (feed : Feed UInt8 Errno) :
    (withoutPolls feed).size ≤ feed.size := by
  induction feed with
  | nil => exact Nat.le_refl 0
  | cons arrival feed ih =>
      rw [withoutPolls] at ih ⊢
      rw [List.filter_cons]
      split
      · cases arrival with
        | failure e =>
            simp only [Feed.size]
            omega
        | piece xs =>
            simp only [Feed.size]
            omega
      · cases arrival with
        | failure e =>
            simp only [Feed.size]
            omega
        | piece xs =>
            simp only [Feed.size]
            omega

theorem withoutPolls_append (feed later : Feed UInt8 Errno) :
    withoutPolls (feed ++ later) = withoutPolls feed ++ withoutPolls later :=
  List.filter_append feed later

theorem withoutPolls_withoutPolls (feed : Feed UInt8 Errno) :
    withoutPolls (withoutPolls feed) = withoutPolls feed := by
  rw [withoutPolls, withoutPolls, List.filter_filter]
  simp

/-- The arrivals before the first poll stay. -/
theorem withoutPolls_takeWhile (feed : Feed UInt8 Errno) :
    withoutPolls (feed.takeWhile arrived) = feed.takeWhile arrived := by
  rw [withoutPolls, List.filter_eq_self]
  intro arrival hMem
  exact List.all_eq_true.mp List.all_takeWhile arrival hMem

/-- A feed with a poll, split at the first of them. -/
theorem exists_first_poll {feed : Feed UInt8 Errno}
    (hPoll : ¬ ∀ arrival ∈ feed, arrived arrival = true) :
    ∃ e later, WouldBlock e ∧
      feed = feed.takeWhile arrived ++ .failure e :: later := by
  induction feed with
  | nil => exact absurd (fun _ hMem => absurd hMem List.not_mem_nil) hPoll
  | cons arrival feed ih =>
      by_cases hArrived : arrived arrival = true
      · have hRest : ¬ ∀ a ∈ feed, arrived a = true := by
          intro hAll
          exact hPoll (List.forall_mem_cons.mpr ⟨hArrived, hAll⟩)
        obtain ⟨e, later, hBlock, hSplit⟩ := ih hRest
        refine ⟨e, later, hBlock, ?_⟩
        rw [List.takeWhile_cons_of_pos hArrived, List.cons_append, ← hSplit]
      · cases arrival with
        | piece xs => exact absurd rfl hArrived
        | failure e =>
            have hBlock : WouldBlock e := by
              by_contra hOther
              simp [arrived, hOther] at hArrived
            refine ⟨e, feed, hBlock, ?_⟩
            rw [List.takeWhile_cons_of_neg hArrived, List.nil_append]

/-! ## The two readers -/

section Readers

variable {fd : Int} (hFd : 0 ≤ fd)

include hFd

/-- Reads that would block make no difference exactly if there are none, or if the call
has returned before the first of them. -/
theorem pollsInvisible_iff (notice buffer : List UInt8) (file : TargetFile)
    (feed : Feed UInt8 Errno) :
    PollsInvisible fd notice buffer file feed ↔
      (∀ arrival ∈ feed, arrived arrival = true) ∨
        CallEnds notice file (feed.takeWhile arrived) := by
  have hReturns := antennaFreadFd_returns_iff hFd notice buffer
    (Port.fresh (feed.takeWhile arrived) []) file
  constructor
  · intro hSame
    by_contra hNot
    rw [not_or] at hNot
    obtain ⟨hPoll, hEnds⟩ := hNot
    obtain ⟨e, later, hBlock, hSplit⟩ := exists_first_poll hPoll
    have hWaits : antennaFreadFd fd notice buffer
        (Port.fresh (feed.takeWhile arrived) []) file = none := by
      by_contra hSome
      exact hEnds (hReturns.mp (Option.ne_none_iff_exists'.mp hSome))
    obtain ⟨hFails, hReads⟩ := antennaFreadFd_waits hFd hWaits
    -- with the poll the call returns there, without it it reads on
    obtain ⟨r, hCall, -, hRx⟩ := hFails e later
    rw [withLater_fresh, ← hSplit] at hCall
    have hFiltered : withoutPolls feed =
        feed.takeWhile arrived ++ withoutPolls later := by
      have hPollGone : withoutPolls (.failure e :: later) = withoutPolls later := by
        simp [withoutPolls, arrived, hBlock]
      conv_lhs => rw [hSplit]
      rw [withoutPolls_append, withoutPolls_takeWhile, hPollGone]
    rw [PollsInvisible, hCall, hFiltered] at hSame
    cases hOther : antennaFreadFd fd notice buffer
        (Port.fresh (feed.takeWhile arrived ++ withoutPolls later) []) file with
    | none =>
        rw [hOther] at hSame
        exact hSame
    | some r' =>
        rw [hOther] at hSame
        have hLess := hReads (withoutPolls later) r' (by rw [withLater_fresh, hOther])
        have hSize := congrArg Feed.size hSame.2.2
        have hLe := size_withoutPolls_le r'.port.rx
        rw [hRx] at hSize
        omega
  · rintro (hNone | hEnds)
    · have hFeed : withoutPolls feed = feed := List.filter_eq_self.mpr hNone
      rw [PollsInvisible, hFeed]
      exact .refl _
    · obtain ⟨r, hCall⟩ := hReturns.mpr hEnds
      have hWith := antennaFreadFd_later hFd (feed.dropWhile arrived) hCall
      have hWithout := antennaFreadFd_later hFd
        (withoutPolls (feed.dropWhile arrived)) hCall
      have hFiltered : withoutPolls feed =
          feed.takeWhile arrived ++ withoutPolls (feed.dropWhile arrived) := by
        conv_lhs => rw [← @List.takeWhile_append_dropWhile _ arrived feed]
        rw [withoutPolls_append, withoutPolls_takeWhile]
      rw [withLater_fresh, List.takeWhile_append_dropWhile] at hWith
      rw [withLater_fresh, ← hFiltered] at hWithout
      rw [PollsInvisible, hWith, hWithout]
      refine ⟨rfl, rfl, ?_⟩
      simp only [withLater, withoutPolls_append, withoutPolls_withoutPolls]

/-- `antenna_read_fd` reports every error by `-1`. -/
theorem reportsError_iff (buffer : List UInt8) (readLen : Nat) {port : Port}
    {e : Errno} {rest : Feed UInt8 Errno} (hRx : port.rx = .failure e :: rest) :
    ReportsError fd buffer readLen port e ↔ ¬ WouldBlock e := by
  have hFeed : port.rx.read readLen = some (.error e, rest) := by
    rw [hRx, Feed.read]
  rw [ReportsError, antennaReadFd_upto, Port.read_open hFd hFeed]
  simp only [readRet_error, int32_sizeT_neg_one, Option.some.injEq, exists_eq_left']
  split
  · next hBlock => simp [hBlock]
  · next hOther => simp [hOther]

/-- When reads that would block are treated as such: by `antenna_fread_fd` exactly if
there are none before it returns, and by `antenna_read_fd` never, while every other
error is reported. -/
theorem wouldBlock_invisible_iff :
    (∀ (notice buffer : List UInt8) (file : TargetFile) (feed : Feed UInt8 Errno),
      PollsInvisible fd notice buffer file feed ↔
        (∀ arrival ∈ feed, arrived arrival = true) ∨
          CallEnds notice file (feed.takeWhile arrived)) ∧
    (∀ (buffer : List UInt8) (readLen : Nat) (port : Port) (e : Errno)
      (rest : Feed UInt8 Errno), port.rx = .failure e :: rest →
        (ReportsError fd buffer readLen port e ↔ ¬ WouldBlock e)) :=
  ⟨pollsInvisible_iff hFd, fun buffer readLen _ _ _ hRx =>
    reportsError_iff hFd buffer readLen hRx⟩

end Readers

/-- A notice for an empty file. -/
def emptyFileNotice : List UInt8 := fileNotice (List.replicate 16 0) 0

/-- Polls behind the notice of an empty file are not even seen, and another error is
reported. -/
theorem wouldBlock_invisible_late :
    PollsInvisible 3 [] [] ⟨true, false, [], []⟩
        [.piece emptyFileNotice, .failure .eagain] ∧
      ReportsError 3 [] 1 (Port.fresh [.failure (.other 5)] []) (.other 5) := by
  obtain ⟨hFread, hRead⟩ := @wouldBlock_invisible_iff 3 (by decide)
  constructor
  · refine (hFread _ _ _ _).mpr (.inr (.inr ?_))
    exact ⟨emptyFileNotice, _, [], .here rfl (by decide), fun _ => by decide⟩
  · exact (hRead _ _ _ _ _ rfl).mpr (by decide)

/-- One poll before that notice, and the file is not received; and the poll is
reported as an error. -/
theorem not_wouldBlock_invisible :
    ¬ PollsInvisible 3 [] [] ⟨true, false, [], []⟩
        [.failure .eagain, .piece emptyFileNotice] ∧
      ¬ ReportsError 3 [] 1 (Port.fresh [.failure .eagain] []) .eagain := by
  constructor
  · intro hSame
    have hFirst : (antennaFreadFd 3 [] [] (Port.fresh [.failure .eagain,
        .piece emptyFileNotice] []) ⟨true, false, [], []⟩).map FreadReturn.ret =
          some (-1) := by
      decide +kernel
    have hSecond : (antennaFreadFd 3 [] [] (Port.fresh (withoutPolls [.failure .eagain,
        .piece emptyFileNotice]) []) ⟨true, false, [], []⟩).map FreadReturn.ret =
          some 0 := by
      decide +kernel
    obtain ⟨r, hCall, hRet⟩ := Option.map_eq_some_iff.mp hFirst
    obtain ⟨r', hCall', hRet'⟩ := Option.map_eq_some_iff.mp hSecond
    rw [PollsInvisible, hCall, hCall'] at hSame
    have hEqual := hSame.1
    rw [hRet, hRet'] at hEqual
    exact absurd hEqual (by decide)
  · rw [reportsError_iff (by decide) [] 1 rfl]
    decide

end Loris
end CubeSatComm
