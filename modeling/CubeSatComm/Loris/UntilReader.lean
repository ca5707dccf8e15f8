import CubeSatComm.Loris.FileReads

/-!
# The blocking reader

`antenna_read_fd` in `READ_MODE_UNTIL` takes `read_len` bytes off the stream, no more
and no fewer, however `read` cuts it.  What it leaves behind is the rest of the stream,
so reads that follow each other read one after the other what a single read would.
-/

namespace CubeSatComm
namespace Loris

open Lib CInteger Posix

/-- A stream arrives at the port, cut in any way, and `later` behind it. -/
def Arrives (port : Port) (stream : List UInt8) (later : Feed UInt8 Errno) : Prop :=
  ∃ cut, port.rx = Feed.ofPieces cut ++ later ∧ IsCut cut stream

/-- The next thing to happen is a `read` that fails. -/
def FailsNext (later : Feed UInt8 Errno) : Prop :=
  ∃ e rest, later = .failure e :: rest

/-- A call has read `readLen` bytes of the stream, with at most that many `read`
calls, and has written to no other cell of its buffer. -/
structure ReadsExactly (readLen : Nat) (buffer : List UInt8) (port : Port)
    (stream : List UInt8) (later : Feed UInt8 Errno) (r : ReadReturn) : Prop where
  ret : r.ret = readLen
  calls : r.port.reads ≤ port.reads + readLen
  front : r.buffer.take readLen = stream.take readLen
  behind : r.buffer.drop readLen = buffer.drop readLen
  rest : Arrives r.port (stream.drop readLen) later

/-- Two calls return the same, and leave the same in the buffer and in the stream. -/
structure SameRead (later : Feed UInt8 Errno) (r r' : ReadReturn) : Prop where
  ret : r.ret = r'.ret
  buffer : r.buffer = r'.buffer
  rest : ∃ rest, Arrives r.port rest later ∧ Arrives r'.port rest later

/-- What a call reads is determined by the stream and the buffer. -/
theorem ReadsExactly.same {readLen : Nat} {buffer : List UInt8} {port port' : Port}
    {stream : List UInt8} {later : Feed UInt8 Errno} {r r' : ReadReturn}
    (h : ReadsExactly readLen buffer port stream later r)
    (h' : ReadsExactly readLen buffer port' stream later r') : SameRead later r r' := by
  refine ⟨by rw [h.ret, h'.ret], ?_, _, h.rest, h'.rest⟩
  rw [← List.take_append_drop readLen r.buffer, h.front, h.behind, ← h'.front, ← h'.behind,
    List.take_append_drop]

/-- A call for `a` bytes and one for the `b` bytes behind them have read `a + b`. -/
theorem ReadsExactly.append {a b : Nat} {buffer : List UInt8} {port : Port}
    {stream : List UInt8} {later : Feed UInt8 Errno} {r₁ r₂ : ReadReturn}
    (h₁ : ReadsExactly a buffer port stream later r₁)
    (h₂ : ReadsExactly b (r₁.buffer.drop a) r₁.port (stream.drop a) later r₂)
    (hEnough : a ≤ stream.length) :
    ReadsExactly (a + b) buffer port stream later
      ⟨r₁.ret + r₂.ret, r₁.buffer.take a ++ r₂.buffer, r₂.port⟩ := by
  have hFront : (r₁.buffer.take a).length = a := by
    rw [h₁.front, List.length_take, Nat.min_eq_left hEnough]
  constructor
  · dsimp only
    rw [h₁.ret, h₂.ret, Nat.cast_add]
  · have hCalls₁ := h₁.calls
    have hCalls₂ := h₂.calls
    dsimp only
    omega
  · dsimp only
    rw [List.take_append, hFront, List.take_of_length_le (by omega), Nat.add_sub_cancel_left,
      h₂.front, h₁.front, ← List.take_add]
  · dsimp only
    rw [List.drop_append, hFront, List.drop_of_length_le (by omega), Nat.add_sub_cancel_left,
      h₂.behind, h₁.behind, List.nil_append, List.drop_drop]
  · have hRest := h₂.rest
    rwa [List.drop_drop] at hRest

/-- A call for `a` bytes, and then one for `b` bytes to the cells behind them. -/
def readTwice (fd : Int) (buffer : List UInt8) (a b : Nat) (port : Port) :
    Option ReadReturn :=
  match antennaReadFd fd buffer a readModeUntil port with
  | none => none
  | some r =>
      if r.ret < 0 then
        some r
      else
        match antennaReadFd fd (r.buffer.drop a) b readModeUntil r.port with
        | none => none
        | some r' =>
            some ⟨if r'.ret < 0 then r'.ret else r.ret + r'.ret,
              r.buffer.take a ++ r'.buffer, r'.port⟩

section Reader

variable {fd : Int} (hFd : 0 ≤ fd) {readLen : Nat} {port port' : Port}
  {stream : List UInt8} {later : Feed UInt8 Errno} {buffer : List UInt8}

include hFd

/-- The loop does not look at what arrives later. -/
theorem untilPass_follows (readLen : Nat) (later : Feed UInt8 Errno) :
    Loop.Follows (untilPass fd readLen) (untilPass fd readLen)
      (fun s => ⟨s.buffer, s.bytesRead, withLater s.port later⟩)
      (fun r => ⟨r.ret, r.buffer, withLater r.port later⟩) := by
  intro s hPass
  by_cases hLt : s.bytesRead < readLen
  case neg =>
    let s' : UntilState := ⟨s.buffer, s.bytesRead, withLater s.port later⟩
    have hDone' := @untilPass_done fd readLen s' hLt
    rw [untilPass_done hLt]
    exact hDone'
  case pos =>
    cases hRead : s.port.rx.read (readLen - s.bytesRead) with
    | none => exact absurd (untilPass_blocked hLt (Port.read_waits hFd hRead)) hPass
    | some result =>
        obtain ⟨out, rx⟩ := result
        have hLater : (withLater s.port later).read fd (readLen - s.bytesRead) =
            some (out, withLater
              { s.port with rx := rx, reads := s.port.reads + 1 } later) :=
          Port.read_open hFd (Feed.read_append hRead later)
        unfold untilPass
        rw [if_pos hLt, if_pos hLt, hLater, Port.read_open hFd hRead]
        dsimp only
        split
        · rfl
        · rfl

/-- A call that returns does the same whatever arrives later. -/
theorem antennaReadFd_later {r : ReadReturn}
    (hCall : antennaReadFd fd buffer readLen readModeUntil port = some r)
    (later : Feed UInt8 Errno) :
    antennaReadFd fd buffer readLen readModeUntil (withLater port later) =
      some ⟨r.ret, r.buffer, withLater r.port later⟩ := by
  rw [antennaReadFd_until] at hCall ⊢
  exact (untilPass_follows hFd readLen later).run hCall

/-- A call on a stream that is long enough. -/
theorem antennaReadFd_exact (hMax : readLen ≤ intMax) (buffer : List UInt8)
    (hArrives : Arrives port stream later) (hEnough : readLen ≤ stream.length) :
    ∃ r, antennaReadFd fd buffer readLen readModeUntil port = some r ∧
      ReadsExactly readLen buffer port stream later r := by
  obtain ⟨cut, hRx, hCut⟩ := hArrives
  have hPort : withLater { port with rx := Feed.ofPieces cut } later = port := by
    rw [withLater, ← hRx]
  obtain ⟨cut', calls, hCall, hCut', hCalls⟩ :=
    @antennaReadFd_until_cut fd readLen { port with rx := Feed.ofPieces cut } buffer hFd
      hMax cut stream rfl hCut hEnough
  have hCallLater := antennaReadFd_later hFd hCall later
  rw [hPort] at hCallLater
  have hTake : (stream.take readLen).length = readLen := by
    rw [List.length_take, Nat.min_eq_left hEnough]
  refine ⟨_, hCallLater, rfl, Nat.add_le_add_left hCalls _, ?_, ?_, cut', rfl, hCut'⟩
  · show (store buffer 0 (stream.take readLen)).take readLen = stream.take readLen
    rw [store_zero, List.take_left' hTake]
  · show (store buffer 0 (stream.take readLen)).drop readLen = buffer.drop readLen
    exact drop_store (Nat.zero_le _) (by omega)

/-- A pass that goes on has met no failure. -/
theorem untilPass_again_fails {s s' : UntilState}
    (hPass : untilPass fd readLen s = .again s') (hFails : s.port.rx.Fails) :
    s'.port.rx.Fails := by
  have hLt : s.bytesRead < readLen := by
    by_contra hDone
    rw [untilPass_done hDone] at hPass
    cases hPass
  cases hRead : s.port.rx.read (readLen - s.bytesRead) with
  | none =>
      rw [untilPass_blocked hLt (Port.read_waits hFd hRead)] at hPass
      cases hPass
  | some result =>
      obtain ⟨out, rx⟩ := result
      cases out with
      | error e =>
          rw [untilPass_error hLt (Port.read_open hFd hRead)] at hPass
          cases hPass
      | ok bytes =>
          have hRest := (Feed.fails_iff_of_read hRead).mp hFails
          unfold untilPass at hPass
          rw [if_pos hLt, Port.read_open hFd hRead] at hPass
          dsimp only at hPass
          split at hPass
          · cases hPass
          · obtain rfl := Pass.again.inj hPass
            exact hRest

/-- A loop that waits for ever has used up its feed. -/
theorem untilPass_blocked_nil {s : UntilState}
    (hBlocked : untilPass fd readLen s = .blocked) : s.port.rx = [] := by
  have hLt : s.bytesRead < readLen := by
    by_contra hDone
    rw [untilPass_done hDone] at hBlocked
    cases hBlocked
  cases hRead : s.port.rx.read (readLen - s.bytesRead) with
  | none => exact Feed.eq_nil_of_read_none hRead
  | some result =>
      obtain ⟨out, rx⟩ := result
      unfold untilPass at hBlocked
      rw [if_pos hLt, Port.read_open hFd hRead] at hBlocked
      dsimp only at hBlocked
      split at hBlocked
      · cases hBlocked
      · cases hBlocked

/-- With a failure among the arrivals a call returns. -/
theorem antennaReadFd_returns (hFails : port.rx.Fails) (buffer : List UInt8) :
    ∃ r, antennaReadFd fd buffer readLen readModeUntil port = some r := by
  rw [antennaReadFd_until]
  cases hRun : Loop.run (untilPass fd readLen) _ (untilPass_decreases fd readLen)
      ⟨buffer, 0, port⟩ with
  | some r => exact ⟨r, rfl⟩
  | none =>
      obtain ⟨k, s, hPasses, hBlocked⟩ := Loop.run_eq_none hRun
      have hStill : s.port.rx.Fails :=
        hPasses.invariant (motive := fun _ s => s.port.rx.Fails) hFails
          fun _ _ _ h hPass => untilPass_again_fails hFd hPass h
      rw [untilPass_blocked_nil hFd hBlocked] at hStill
      exact absurd hStill Feed.not_fails_nil

/-- A call that a failure finds waiting for more. -/
theorem antennaReadFd_fails (hMax : readLen ≤ intMax) (buffer : List UInt8)
    (hArrives : Arrives port stream later) (hFew : stream.length < readLen)
    (hFails : FailsNext later) :
    ∃ r, antennaReadFd fd buffer readLen readModeUntil port = some r ∧ r.ret = -1 := by
  obtain ⟨cut, hRx, hCut⟩ := hArrives
  obtain ⟨e, rest, rfl⟩ := hFails
  have hPortFails : port.rx.Fails :=
    ⟨e, by rw [hRx]; exact List.mem_append_right _ List.mem_cons_self⟩
  have hArriving : port.rx.arriving = stream := by
    rw [hRx, Feed.arriving_ofPieces_append, hCut.flatten_eq, Feed.arriving,
      List.append_nil]
  have hMaxLt := intMax_lt_sizeRange
  obtain ⟨r, hCall⟩ := @antennaReadFd_returns fd hFd readLen port hPortFails buffer
  have hRun := hCall
  rw [antennaReadFd_until] at hRun
  refine ⟨r, hCall, (untilLoop_few (by omega) (.inl hMax) ?_ hRun).1⟩
  dsimp only
  rw [hArriving]
  omega

/-- Two calls that follow each other do what one call does. -/
theorem readTwice_exact {a b : Nat} (hMax : a + b ≤ intMax) (buffer : List UInt8)
    (hArrives : Arrives port stream later) (hEnough : a + b ≤ stream.length) :
    ∃ r, readTwice fd buffer a b port = some r ∧
      ReadsExactly (a + b) buffer port stream later r := by
  obtain ⟨r₁, hCall₁, hExact₁⟩ :=
    antennaReadFd_exact hFd (by omega : a ≤ intMax) buffer hArrives (by omega)
  have hRest : b ≤ (stream.drop a).length := by
    rw [List.length_drop]
    omega
  obtain ⟨r₂, hCall₂, hExact₂⟩ :=
    antennaReadFd_exact hFd (by omega : b ≤ intMax) (r₁.buffer.drop a) hExact₁.rest hRest
  refine ⟨_, ?_, hExact₁.append hExact₂ (by omega)⟩
  have hRet₁ : ¬ r₁.ret < 0 := by
    rw [hExact₁.ret]
    omega
  have hRet₂ : ¬ r₂.ret < 0 := by
    rw [hExact₂.ret]
    omega
  rw [readTwice, hCall₁]
  dsimp only
  rw [if_neg hRet₁, hCall₂]
  dsimp only
  rw [if_neg hRet₂]

/-- When a failure comes before the last of `a + b` bytes, one of the two calls
reports it. -/
theorem readTwice_fails {a b : Nat} (hMax : a + b ≤ intMax) (buffer : List UInt8)
    (hArrives : Arrives port stream later) (hFew : stream.length < a + b)
    (hFails : FailsNext later) :
    ∃ r, readTwice fd buffer a b port = some r ∧ r.ret = -1 := by
  by_cases hFirst : a ≤ stream.length
  case neg =>
    obtain ⟨r₁, hCall₁, hRet₁⟩ :=
      antennaReadFd_fails hFd (by omega : a ≤ intMax) buffer hArrives (by omega) hFails
    refine ⟨r₁, ?_, hRet₁⟩
    rw [readTwice, hCall₁]
    dsimp only
    rw [if_pos (by rw [hRet₁]; decide)]
  case pos =>
    obtain ⟨r₁, hCall₁, hExact₁⟩ :=
      antennaReadFd_exact hFd (by omega : a ≤ intMax) buffer hArrives hFirst
    have hRest : (stream.drop a).length < b := by
      rw [List.length_drop]
      omega
    obtain ⟨r₂, hCall₂, hRet₂⟩ :=
      antennaReadFd_fails hFd (by omega : b ≤ intMax) (r₁.buffer.drop a) hExact₁.rest hRest
        hFails
    have hRet₁ : ¬ r₁.ret < 0 := by
      rw [hExact₁.ret]
      omega
    refine ⟨⟨-1, r₁.buffer.take a ++ r₂.buffer, r₂.port⟩, ?_, rfl⟩
    rw [readTwice, hCall₁]
    dsimp only
    rw [if_neg hRet₁, hCall₂]
    dsimp only
    rw [hRet₂, if_pos (by decide)]

/-- The blocking reader.  A call for up to `INT_MAX` bytes reads them all, when they
arrive, and fails when a `read` fails before; how the stream is cut makes no difference;
and two calls that follow each other do what one call for all the bytes does. -/
theorem untilReader_exact (buffer stream : List UInt8) (later : Feed UInt8 Errno) :
    (∀ readLen port, readLen ≤ intMax → Arrives port stream later →
      (readLen ≤ stream.length →
        ∃ r, antennaReadFd fd buffer readLen readModeUntil port = some r ∧
          ReadsExactly readLen buffer port stream later r) ∧
      (stream.length < readLen → FailsNext later →
        ∃ r, antennaReadFd fd buffer readLen readModeUntil port = some r ∧
          r.ret = -1)) ∧
    (∀ readLen port port', readLen ≤ intMax → readLen ≤ stream.length →
      Arrives port stream later → Arrives port' stream later →
        ∃ r r', antennaReadFd fd buffer readLen readModeUntil port = some r ∧
          antennaReadFd fd buffer readLen readModeUntil port' = some r' ∧
          SameRead later r r') ∧
    (∀ a b port, a + b ≤ intMax → Arrives port stream later →
      (a + b ≤ stream.length →
        ∃ r r', readTwice fd buffer a b port = some r ∧
          antennaReadFd fd buffer (a + b) readModeUntil port = some r' ∧
          SameRead later r r') ∧
      (stream.length < a + b → FailsNext later →
        ∃ r, readTwice fd buffer a b port = some r ∧ r.ret = -1)) := by
  refine ⟨?_, ?_, ?_⟩
  · intro readLen port hMax hArrives
    exact ⟨antennaReadFd_exact hFd hMax buffer hArrives,
      antennaReadFd_fails hFd hMax buffer hArrives⟩
  · intro readLen port port' hMax hEnough hArrives hArrives'
    obtain ⟨r, hCall, hExact⟩ := antennaReadFd_exact hFd hMax buffer hArrives hEnough
    obtain ⟨r', hCall', hExact'⟩ := antennaReadFd_exact hFd hMax buffer hArrives' hEnough
    exact ⟨r, r', hCall, hCall', hExact.same hExact'⟩
  · intro a b port hMax hArrives
    constructor
    · intro hEnough
      obtain ⟨r, hCall, hExact⟩ := readTwice_exact hFd hMax buffer hArrives hEnough
      obtain ⟨r', hCall', hExact'⟩ :=
        antennaReadFd_exact hFd hMax buffer hArrives hEnough
      exact ⟨r, r', hCall, hCall', hExact.same hExact'⟩
    · exact readTwice_fails hFd hMax buffer hArrives

end Reader

/-- Three bytes in two pieces, read at once and one after the other. -/
theorem untilReader_exact_three_bytes :
    ∃ r r', readTwice 3 [0, 0, 0, 0] 1 2 (Port.fresh (Feed.ofPieces [[1, 2], [3]]) []) =
        some r ∧
      antennaReadFd 3 [0, 0, 0, 0] 3 readModeUntil
        (Port.fresh (Feed.ofPieces [[1, 2], [3]]) []) = some r' ∧
      SameRead [] r r' := by
  have hCut : IsCut [[1, 2], [3]] ([1, 2, 3] : List UInt8) := ⟨rfl, by decide⟩
  have hArrives : Arrives (Port.fresh (Feed.ofPieces [[1, 2], [3]]) []) [1, 2, 3] [] :=
    ⟨_, rfl, hCut⟩
  exact ((untilReader_exact (by decide : (0 : Int) ≤ 3) [0, 0, 0, 0] [1, 2, 3] []).2.2 1 2 _
    (by decide) hArrives).1 (by decide)

end Loris
end CubeSatComm
