import CubeSatComm.Loris.FileReads
import CubeSatComm.Loris.RsCounter

/-!
# The end of the link

What the blocking readers do when the link has ended: after some pieces, every further
`read` returns `0`.  None of their loops tests for that.  They return only if what has
arrived is enough, and otherwise poll for ever; the loops of the drivers that read
`while (read(...) > 0)` end there.
-/

namespace CubeSatComm
namespace Loris

open Lib CInteger Posix

/-- What arrives on a link that delivers `cut` and then reports its end `ends` times. -/
def endedFeed (cut : List (List UInt8)) (ends : Nat) : Feed UInt8 Errno :=
  Feed.ofPieces (cut ++ List.replicate ends [])

/-- A call stops on such a link: it returns after finitely many reports of the end, with
an error unless what it was asked for is `complete`. -/
def StopsAtEnd (call : Port → Option Int) (cut : List (List UInt8))
    (complete : Nat → Prop) : Prop :=
  ∃ ends ret, call (Port.fresh (endedFeed cut ends) []) = some ret ∧
    (ret < 0 ∨ complete ends)

/-! ## Feeds that end -/

section Ended

theorem not_fails_endedFeed (cut : List (List UInt8)) (ends : Nat) :
    ¬ (endedFeed cut ends).Fails :=
  Feed.not_fails_ofPieces _

theorem arriving_endedFeed (cut : List (List UInt8)) (ends : Nat) :
    (endedFeed cut ends).arriving = cut.flatten := by
  rw [endedFeed, Feed.arriving_ofPieces, List.flatten_append, List.flatten_replicate_nil,
    List.append_nil]

theorem piecesLe_endedFeed {n : Nat} {cut : List (List UInt8)}
    (hLe : ∀ xs ∈ cut, xs.length ≤ n) (ends : Nat) :
    (endedFeed cut ends).PiecesLe n := by
  intro xs hMem
  obtain ⟨ys, hYs, hEq⟩ := List.mem_map.mp hMem
  obtain rfl := Arrival.piece.inj hEq
  rcases List.mem_append.mp hYs with hCut | hEnd
  · exact hLe ys hCut
  · rw [List.eq_of_mem_replicate hEnd]
    exact Nat.zero_le n

end Ended

/-! ## `antenna_read_fd` -/

/-- The raw reader stops exactly if all the bytes have arrived. -/
theorem readUntil_stops_iff {fd : Int} (hFd : 0 ≤ fd) (cut : List (List UInt8))
    (buffer : List UInt8) {readLen : Nat} (hLen : readLen < sizeRange)
    (hFit : readLen ≤ intMax ∨ ∀ xs ∈ cut, xs.length ≤ intMax) :
    StopsAtEnd (fun port =>
        (antennaReadFd fd buffer readLen readModeUntil port).map ReadReturn.ret) cut
        (fun _ => readLen ≤ cut.flatten.length) ↔
      readLen ≤ cut.flatten.length := by
  have hFits : ∀ ends, readLen ≤ intMax ∨ (endedFeed cut ends).PiecesLe intMax :=
    fun ends => hFit.imp_right fun hLe => piecesLe_endedFeed hLe ends
  constructor
  · rintro ⟨ends, ret, hCall, -⟩
    by_contra hFew
    obtain ⟨r, hRun, -⟩ := Option.map_eq_some_iff.mp hCall
    rw [antennaReadFd_until] at hRun
    have hArrive := arriving_endedFeed cut ends
    have hFailed := untilLoop_few hLen (hFits ends)
      (by
        dsimp only [Port.fresh]
        rw [hArrive]
        omega) hRun
    exact not_fails_endedFeed cut ends (hFailed.2 hFd)
  · intro hEnough
    obtain ⟨r, hRun, -⟩ := @untilLoop_enough fd readLen hFd hLen
      ⟨buffer, 0, Port.fresh (endedFeed cut 0) []⟩ (Nat.zero_le _) (Nat.zero_le _)
      (hFits 0) (by
        dsimp only [Port.fresh]
        rw [arriving_endedFeed]
        omega)
    refine ⟨0, r.ret, ?_, .inr hEnough⟩
    dsimp only
    rw [antennaReadFd_until, hRun, Option.map_some]

/-! ## `antenna_read_rs_fd` -/

/-- The blocks of `stream` end a call that has decoded `offset` bytes and stops at
`target`: the messages of one or more of them reach it, or one of them is refused. -/
def RsEnds (codec : ReedSolomon) (target offset : Nat) (stream : List UInt8) : Prop :=
  (∃ msgs, msgs ≠ [] ∧ RsDecodes codec stream msgs ∧
      target ≤ offset + msgs.flatten.length) ∨
    ∃ msgs, RsDecodes codec stream msgs ∧
      rsBlockLen * (msgs.length + 1) ≤ stream.length ∧
      codec.decode ((stream.drop (rsBlockLen * msgs.length)).take rsBlockLen) = none

section Ends

variable {codec : ReedSolomon} {target offset : Nat} {stream : List UInt8}

/-- Without a whole block nothing ends the call. -/
theorem not_rsEnds_short (hShort : stream.length < rsBlockLen) :
    ¬ RsEnds codec target offset stream := by
  rintro (⟨msgs, hNe, hDecodes, -⟩ | ⟨msgs, -, hEnough, -⟩)
  · cases msgs with
    | nil => exact hNe rfl
    | cons msg msgs => exact absurd hDecodes.1 (by omega)
  · rw [Nat.mul_succ] at hEnough
    omega

theorem rsEnds_of_refused (hBlock : rsBlockLen ≤ stream.length)
    (hRefused : codec.decode (stream.take rsBlockLen) = none) :
    RsEnds codec target offset stream :=
  .inr ⟨[], trivial, by simpa using hBlock, by simpa using hRefused⟩

/-- A block that decodes ends the call, or leaves it to the blocks behind. -/
theorem rsEnds_of_decoded (hBlock : rsBlockLen ≤ stream.length) {msg : List UInt8}
    (hDecode : codec.decode (stream.take rsBlockLen) = some msg) :
    RsEnds codec target offset stream ↔
      target ≤ offset + msg.length ∨
        RsEnds codec target (offset + msg.length) (stream.drop rsBlockLen) := by
  have hDropLength : (stream.drop rsBlockLen).length = stream.length - rsBlockLen :=
    List.length_drop
  constructor
  · rintro (⟨msgs, hNe, hDecodes, hReach⟩ | ⟨msgs, hDecodes, hEnough, hRefused⟩)
    · cases msgs with
      | nil => exact absurd rfl hNe
      | cons first msgs =>
          obtain ⟨-, hFirst, hRest⟩ := hDecodes
          obtain rfl := Option.some.inj (hDecode.symm.trans hFirst)
          rw [List.flatten_cons, List.length_append, ← Nat.add_assoc] at hReach
          by_cases hNil : msgs = []
          · rw [hNil] at hReach
            exact .inl (by simpa using hReach)
          · exact .inr (.inl ⟨msgs, hNil, hRest, hReach⟩)
    · cases msgs with
      | nil =>
          rw [List.length_nil, Nat.mul_zero, List.drop_zero, hDecode] at hRefused
          cases hRefused
      | cons first msgs =>
          obtain ⟨-, hFirst, hRest⟩ := hDecodes
          obtain rfl := Option.some.inj (hDecode.symm.trans hFirst)
          rw [List.length_cons] at hEnough hRefused
          rw [Nat.mul_succ, Nat.add_comm, ← List.drop_drop] at hRefused
          refine .inr (.inr ⟨msgs, hRest, ?_, hRefused⟩)
          rw [hDropLength]
          rw [Nat.mul_succ] at hEnough
          omega
  · rintro (hReach | ⟨msgs, hNe, hRest, hReach⟩ | ⟨msgs, hRest, hEnough, hRefused⟩)
    · exact .inl ⟨[msg], List.cons_ne_nil _ _, ⟨hBlock, hDecode, trivial⟩,
        by simpa using hReach⟩
    · refine .inl ⟨msg :: msgs, List.cons_ne_nil _ _, ⟨hBlock, hDecode, hRest⟩, ?_⟩
      rw [List.flatten_cons, List.length_append, ← Nat.add_assoc]
      exact hReach
    · refine .inr ⟨msg :: msgs, ⟨hBlock, hDecode, hRest⟩, ?_, ?_⟩
      · rw [hDropLength] at hEnough
        rw [List.length_cons, Nat.mul_succ]
        omega
      · rw [List.length_cons, Nat.mul_succ, Nat.add_comm, ← List.drop_drop]
        exact hRefused

end Ends

section Rs

variable {codec : ReedSolomon} {fd : Int} (hFd : 0 ≤ fd) {readLen : Nat}

include hFd

/-- One pass of the blocking reader over any feed on which a whole block arrives. -/
theorem rsReadPass_arriving {s : RsReadState}
    (hBlock : rsBlockLen ≤ s.port.rx.arriving.length) :
    ∃ port', port'.rx.arriving = s.port.rx.arriving.drop rsBlockLen ∧
      (s.port.rx.Fails ↔ port'.rx.Fails) ∧
      rsReadPass codec fd readLen readModeUntil s =
        match codec.decode (s.port.rx.arriving.take rsBlockLen) with
        | none => .leave ⟨-1, s.buffer, port'⟩
        | some decoded =>
            let s' := rsCopy readLen s decoded port'
            if sizeT s'.bytesDecoded < readLen then
              .again s'
            else
              .leave ⟨s'.bytesDecoded, s'.buffer, s'.port⟩ := by
  obtain ⟨r, hRead, hRet, hBuffer, hRest, hFails⟩ := rsReadBlock_arriving hFd hBlock
  have hTake : (s.port.rx.arriving.take rsBlockLen).take (sizeT (rsBlockLen : Int)) =
      s.port.rx.arriving.take rsBlockLen := by
    rw [sizeT_natCast (by decide), List.take_take, Nat.min_self]
  refine ⟨r.port, hRest, hFails, ?_⟩
  unfold rsReadPass
  rw [hRead]
  dsimp only
  rw [if_neg (by omega), hRet, hBuffer, hTake]
  cases hDecode : codec.decode (s.port.rx.arriving.take rsBlockLen) with
  | none => rfl
  | some decoded => simp only [and_true]

/-- With fewer bytes than a block the reader waits, unless a failure arrives. -/
theorem rsReadPass_few {s : RsReadState} (hFails : ¬ s.port.rx.Fails)
    (hFew : s.port.rx.arriving.length < rsBlockLen) :
    rsReadPass codec fd readLen readModeUntil s = .blocked := by
  have hRead : rsReadBlock fd readModeUntil s.port = none := by
    cases hRead : rsReadBlock fd readModeUntil s.port with
    | none => rfl
    | some r => exact absurd ((rsReadBlock_few hFew hRead).2 hFd) hFails
  unfold rsReadPass
  rw [hRead]

/-- A pass over a block that decodes counts its message, and is the last one if that
reaches the number at which the loop ends. -/
theorem rsReadPass_decoded (hLen : readLen < sizeRange) {s : RsReadState} {offset : Nat}
    (hOffset : s.bytesDecoded = int32 offset)
    (hBelow : offset < rsStopsAt readLen ∨ offset = 0)
    (hBlock : rsBlockLen ≤ s.port.rx.arriving.length) {msg : List UInt8}
    (hDecode : codec.decode (s.port.rx.arriving.take rsBlockLen) = some msg) :
    (offset + msg.length < rsStopsAt readLen → ∃ s' : RsReadState,
      rsReadPass codec fd readLen readModeUntil s = .again s' ∧
        s'.bytesDecoded = int32 (offset + msg.length : Nat) ∧
        (s.port.rx.Fails ↔ s'.port.rx.Fails) ∧
        s'.port.rx.arriving = s.port.rx.arriving.drop rsBlockLen) ∧
    (rsStopsAt readLen ≤ offset + msg.length → ∃ r : ReadReturn,
      rsReadPass codec fd readLen readModeUntil s = .leave r ∧
        (r.ret < 0 ∨ readLen ≤ offset + msg.length)) := by
  have hMsg : msg.length ≤ rsBlockLen := codec.decode_length_le hDecode
  have hInt : int32 (msg.length : Int) = msg.length :=
    int32_natCast (Nat.le_trans hMsg rsBlockLen_le_intMax)
  obtain ⟨port', hRest, hKeeps, hPass⟩ := @rsReadPass_arriving codec fd hFd readLen s hBlock
  obtain ⟨hOn, hEnd⟩ := rsCounter_step hLen hBelow hMsg
  have hCounter : (rsCopy readLen s msg port').bytesDecoded =
      int32 (int32 offset + bytesToCopy readLen (int32 offset) msg.length) := by
    rw [rsCopy, hOffset, hInt]
  rw [hDecode] at hPass
  dsimp only at hPass
  rw [hCounter] at hPass
  constructor
  · intro hRoom
    obtain ⟨hSame, hLess⟩ := hOn hRoom
    rw [hSame, if_pos hLess] at hPass
    exact ⟨_, hPass, hCounter.trans hSame, hKeeps, hRest⟩
  · intro hFull
    obtain ⟨hReach, hNegative⟩ := hEnd hFull
    rw [if_neg (Nat.not_lt_of_le hReach)] at hPass
    refine ⟨_, hPass, ?_⟩
    rcases Nat.lt_or_ge intMax readLen with hMax | hMax
    · exact .inl (hNegative hMax)
    · rw [rsStopsAt_of_le hMax] at hFull
      exact .inr hFull

/-- The loop is left exactly when the blocks that arrive end the call.  Its result is an
error, unless the messages reach `read_len`. -/
theorem rsReadLoop_ends (hLen : readLen < sizeRange) {s : RsReadState} {offset : Nat}
    (hOffset : s.bytesDecoded = int32 offset)
    (hBelow : offset < rsStopsAt readLen ∨ offset = 0) (hFails : ¬ s.port.rx.Fails) :
    (RsEnds codec (rsStopsAt readLen) offset s.port.rx.arriving →
      ∃ r, Loop.run (rsReadPass codec fd readLen readModeUntil) _
          (rsReadPass_decreases codec fd readLen readModeUntil) s = some r ∧
        (r.ret < 0 ∨ ∃ msgs, RsDecodes codec s.port.rx.arriving msgs ∧
          readLen ≤ offset + msgs.flatten.length)) ∧
    (¬ RsEnds codec (rsStopsAt readLen) offset s.port.rx.arriving →
      Loop.run (rsReadPass codec fd readLen readModeUntil) _
        (rsReadPass_decreases codec fd readLen readModeUntil) s = none) := by
  induction hSize : s.port.rx.size using Nat.strongRecOn generalizing s offset with
  | _ size ih =>
      rcases Nat.lt_or_ge s.port.rx.arriving.length rsBlockLen with hFew | hBlock
      · constructor
        · exact fun hEnds => absurd hEnds (not_rsEnds_short hFew)
        · exact fun _ => Loop.run_blocked (rsReadPass_few hFd hFails hFew)
      · cases hDecode : codec.decode (s.port.rx.arriving.take rsBlockLen) with
        | none =>
            obtain ⟨port', -, -, hPass⟩ := @rsReadPass_arriving codec fd hFd readLen s hBlock
            rw [hDecode] at hPass
            constructor
            · exact fun _ => ⟨_, Loop.run_leave hPass, .inl (by simp)⟩
            · exact fun hNot => absurd (rsEnds_of_refused hBlock hDecode) hNot
        | some msg =>
            obtain ⟨hOn, hEnd⟩ := rsReadPass_decoded hFd hLen hOffset hBelow hBlock hDecode
            rw [rsEnds_of_decoded hBlock hDecode]
            rcases Nat.lt_or_ge (offset + msg.length) (rsStopsAt readLen) with hRoom | hFull
            · -- the message leaves room, and the loop goes on behind it
              obtain ⟨s', hPass, hCounter, hKeeps, hRest⟩ := hOn hRoom
              have hSmaller := rsReadPass_decreases codec fd readLen readModeUntil _ _
                hPass
              have hNext := ih _ (hSize ▸ hSmaller) hCounter (.inl hRoom)
                (fun h => hFails (hKeeps.mpr h)) rfl
              rw [hRest] at hNext
              rw [Loop.run_again hPass]
              constructor
              · intro hEnds
                obtain ⟨r, hRun, hRet⟩ := hNext.1 (hEnds.resolve_left (Nat.not_le_of_lt hRoom))
                refine ⟨r, hRun, hRet.imp_right ?_⟩
                rintro ⟨msgs, hMsgs, hReach⟩
                refine ⟨msg :: msgs, ⟨hBlock, hDecode, hMsgs⟩, ?_⟩
                rw [List.flatten_cons, List.length_append, ← Nat.add_assoc]
                exact hReach
              · exact fun hNot => hNext.2 fun h => hNot (.inr h)
            · obtain ⟨r, hPass, hRet⟩ := hEnd hFull
              constructor
              · intro _
                refine ⟨r, Loop.run_leave hPass, hRet.imp_right ?_⟩
                intro hReach
                exact ⟨[msg], ⟨hBlock, hDecode, trivial⟩, by simpa using hReach⟩
              · exact fun hNot => absurd (.inl hFull) hNot

/-- The decoding reader stops exactly if the blocks that have arrived end the call. -/
theorem readRsUntil_stops_iff (codec : ReedSolomon) (cut : List (List UInt8))
    (buffer : List UInt8) (hLen : readLen < sizeRange) :
    StopsAtEnd (fun port =>
        (antennaReadRsFd codec fd buffer readLen readModeUntil port).map ReadReturn.ret)
        cut (fun _ => ∃ msgs, RsDecodes codec cut.flatten msgs ∧
          readLen ≤ msgs.flatten.length) ↔
      codec.created = false ∨ RsEnds codec (rsStopsAt readLen) 0 cut.flatten := by
  by_cases hCreated : codec.created = true
  case neg =>
    constructor
    · exact fun _ => .inl (by simpa using hCreated)
    · refine fun _ => ⟨0, -1, ?_, .inl (by decide)⟩
      dsimp only
      rw [antennaReadRsFd, if_neg hCreated, Option.map_some]
  case pos =>
    have hLoop := fun ends => @rsReadLoop_ends codec fd hFd readLen hLen
      ⟨buffer, 0, Port.fresh (endedFeed cut ends) []⟩ 0 rfl (.inr rfl)
      (not_fails_endedFeed cut ends)
    simp only [Port.fresh, arriving_endedFeed, Nat.zero_add] at hLoop
    constructor
    · rintro ⟨ends, ret, hCall, -⟩
      right
      by_contra hNot
      dsimp only at hCall
      rw [antennaReadRsFd, if_pos hCreated, Port.fresh, (hLoop ends).2 hNot] at hCall
      cases hCall
    · rintro (hNone | hEnds)
      · rw [hCreated] at hNone
        cases hNone
      · obtain ⟨r, hRun, hRet⟩ := (hLoop 0).1 hEnds
        refine ⟨0, r.ret, ?_, hRet⟩
        dsimp only
        rw [antennaReadRsFd, if_pos hCreated, Port.fresh, hRun, Option.map_some]

end Rs

/-! ## `antenna_fread_fd` -/

/-- What arrives from the read on that ends the wait: a whole notice, and behind it as
many bytes as it announces. -/
def FileArrives (arrives : List UInt8) : Prop :=
  arrives.head? = some fileNoticeTag ∧
    fileNoticeLen + scanFileNotice (arrives.take fileNoticeLen) 0 ≤ arrives.length

instance (arrives : List UInt8) : Decidable (FileArrives arrives) :=
  inferInstanceAs (Decidable (_ ∧ _))

/-- Where nothing arrives, the letter that ends the wait was in the array before. -/
theorem NoticeRead.head_of_nothing {notice bytes array : List UInt8}
    {feed rest : Feed UInt8 Errno} (hNotice : NoticeRead notice feed bytes array rest)
    (hNothing : feed.arriving = []) : notice.head? = some fileNoticeTag := by
  induction hNotice with
  | here hRead hTag =>
      rw [Feed.arriving_of_read hRead, List.append_eq_nil_iff] at hNothing
      rwa [hNothing.1, store_nil] at hTag
  | later hRead _ _ ih =>
      rw [Feed.arriving_of_read hRead, List.append_eq_nil_iff] at hNothing
      have hHead := ih hNothing.2
      rwa [hNothing.1, store_nil] at hHead

/-- The notice and the file have arrived in full. -/
def FileComplete (notice : List UInt8) (cut : List (List UInt8)) (ends : Nat) : Prop :=
  ∃ bytes array rest, NoticeRead notice (endedFeed cut ends) bytes array rest ∧
    FileArrives (bytes ++ rest.arriving)

/-- The file receiver stops exactly if a read ends its wait and the destination cannot
be opened, or the chunks behind that read are counted up to the announced size, and the
notice and the file have arrived in full. -/
theorem fread_stops_iff {fd : Int} (hFd : 0 ≤ fd) (cut : List (List UInt8))
    (notice buffer : List UInt8) (file : TargetFile) :
    StopsAtEnd (fun port =>
        (antennaFreadFd fd notice buffer port file).map FreadReturn.ret) cut
        (FileComplete notice cut) ↔
      ∃ ends bytes array rest, NoticeRead notice (endedFeed cut ends) bytes array rest ∧
        (file.openable = true →
          scanFileNotice array 0 ≤
              countedBytes file.fwrites (rest.chunks fileBufferSize) ∧
            FileArrives (bytes ++ rest.arriving)) := by
  constructor
  · rintro ⟨ends, ret, hCall, hComplete⟩
    obtain ⟨r, hReturns, hRet⟩ := Option.map_eq_some_iff.mp hCall
    have hEnds := (antennaFreadFd_returns_iff hFd notice buffer _ file).mp ⟨r, hReturns⟩
    obtain ⟨bytes, array, rest, hNotice, hCount⟩ :=
      hEnds.resolve_left (not_fails_endedFeed cut ends)
    refine ⟨ends, bytes, array, rest, hNotice, fun hOpen => ⟨hCount hOpen, ?_⟩⟩
    have hFailsNot : ¬ rest.Fails :=
      fun h => not_fails_endedFeed cut ends (hNotice.fails_iff.mpr h)
    obtain ⟨port', hRx, hRun⟩ := @antennaFreadFd_notice fd hFd _ _ _
      (Port.fresh (endedFeed cut ends) []) _ hNotice buffer file
    rw [hReturns, if_pos hOpen] at hRun
    -- without a failure the data loop ends without error
    have hZero : r.ret = 0 := by
      rcases (freadLoop_ret hFd (Nat.le_of_lt (scanFileNotice_lt array)) hRun.symm).1
        with hZero | ⟨-, hFails⟩
      · exact hZero
      · rw [hRx] at hFails
        exact absurd hFails hFailsNot
    obtain ⟨bytes', array', rest', hNotice', hArrives⟩ :=
      hComplete.resolve_left (by omega)
    obtain ⟨rfl, -, rfl⟩ := hNotice.unique hNotice'
    exact hArrives
  · rintro ⟨ends, bytes, array, rest, hNotice, hFile⟩
    obtain ⟨r, hReturns⟩ := (antennaFreadFd_returns_iff hFd notice buffer
      (Port.fresh (endedFeed cut ends) []) file).mpr
        (.inr ⟨bytes, array, rest, hNotice, fun hOpen => (hFile hOpen).1⟩)
    refine ⟨ends, r.ret, by dsimp only; rw [hReturns, Option.map_some], ?_⟩
    by_cases hOpen : file.openable = true
    · exact .inr ⟨bytes, array, rest, hNotice, (hFile hOpen).2⟩
    · obtain ⟨port', -, hRun⟩ := @antennaFreadFd_notice fd hFd _ _ _
        (Port.fresh (endedFeed cut ends) []) _ hNotice buffer file
      rw [hReturns, if_neg hOpen] at hRun
      obtain rfl := Option.some.inj hRun
      exact .inl (by simp)

/-! ## The three readers -/

/-- When the readers stop on a link that ends.  Each does exactly if what has arrived
suffices to end it, and reports its error exactly if it then meets one; with anything
less it polls the ended link for ever. -/
theorem readers_stop_iff {fd : Int} (hFd : 0 ≤ fd) (cut : List (List UInt8)) :
    (∀ (buffer : List UInt8) (readLen : Nat), readLen < sizeRange →
      (readLen ≤ intMax ∨ ∀ xs ∈ cut, xs.length ≤ intMax) →
      (StopsAtEnd (fun port =>
          (antennaReadFd fd buffer readLen readModeUntil port).map ReadReturn.ret) cut
          (fun _ => readLen ≤ cut.flatten.length) ↔
        readLen ≤ cut.flatten.length)) ∧
    (∀ (codec : ReedSolomon) (buffer : List UInt8) (readLen : Nat), readLen < sizeRange →
      (StopsAtEnd (fun port =>
          (antennaReadRsFd codec fd buffer readLen readModeUntil port).map
            ReadReturn.ret) cut
          (fun _ => ∃ msgs, RsDecodes codec cut.flatten msgs ∧
            readLen ≤ msgs.flatten.length) ↔
        codec.created = false ∨ RsEnds codec (rsStopsAt readLen) 0 cut.flatten)) ∧
    (∀ (notice buffer : List UInt8) (file : TargetFile),
      StopsAtEnd (fun port =>
          (antennaFreadFd fd notice buffer port file).map FreadReturn.ret) cut
          (FileComplete notice cut) ↔
        ∃ ends bytes array rest,
          NoticeRead notice (endedFeed cut ends) bytes array rest ∧
          (file.openable = true →
            scanFileNotice array 0 ≤
                countedBytes file.fwrites (rest.chunks fileBufferSize) ∧
              FileArrives (bytes ++ rest.arriving))) := by
  refine ⟨?_, ?_, ?_⟩
  · intro buffer readLen hLen hFit
    exact readUntil_stops_iff hFd cut buffer hLen hFit
  · intro codec buffer readLen hLen
    exact readRsUntil_stops_iff hFd codec cut buffer hLen
  · intro notice buffer file
    exact fread_stops_iff hFd cut notice buffer file

/-- Two bytes, read as such; one block, of whose message a byte is asked for; and a file of one
byte. -/
theorem readers_stop_complete :
    let block : List UInt8 := List.replicate 255 65
    let notice : List UInt8 := [70, 49] ++ List.replicate 14 0
    StopsAtEnd (fun port => (antennaReadFd 3 [] 2 readModeUntil port).map ReadReturn.ret)
        [[65], [66]] (fun _ => 2 ≤ [[(65 : UInt8)], [66]].flatten.length) ∧
      StopsAtEnd (fun port =>
          (antennaReadRsFd (parityCodec 0) 3 [] 1 readModeUntil port).map ReadReturn.ret)
        [block] (fun _ => ∃ msgs, RsDecodes (parityCodec 0) [block].flatten msgs ∧
          1 ≤ msgs.flatten.length) ∧
      StopsAtEnd (fun port =>
          (antennaFreadFd 3 [] [] port ⟨true, false, [], []⟩).map FreadReturn.ret)
        [notice, [65]] (FileComplete [] [notice, [65]]) := by
  intro block notice
  refine ⟨?_, ?_, ?_⟩
  · have hBytes := (@readers_stop_iff 3 (by decide) [[65], [66]]).1
    exact (hBytes [] 2 (by decide) (.inl (by decide))).mpr (by decide)
  · have hBlocks := (@readers_stop_iff 3 (by decide) [block]).2.1
    have hDecodes : RsDecodes (parityCodec 0) [block].flatten [block.take 253] :=
      ⟨by decide +kernel, by decide +kernel, trivial⟩
    have hEnough : rsStopsAt 1 ≤ 0 + [block.take 253].flatten.length := by decide +kernel
    apply (hBlocks (parityCodec 0) [] 1 (by decide)).mpr
    exact .inr (.inl ⟨_, List.cons_ne_nil _ _, hDecodes, hEnough⟩)
  · have hFile := (@readers_stop_iff 3 (by decide) [notice, [65]]).2.2
    -- the first read returns the notice
    have hRead : NoticeRead [] (endedFeed [notice, [65]] 0) notice (store [] 0 notice)
        (Feed.ofPieces [[65]]) := .here rfl (by decide)
    apply (hFile [] [] ⟨true, false, [], []⟩).mpr
    exact ⟨0, _, _, _, hRead, fun _ => ⟨by decide +kernel, by decide +kernel⟩⟩

/-- A link that ends before it has delivered anything. -/
theorem not_readers_stop_nothing :
    ¬ StopsAtEnd (fun port =>
        (antennaReadFd 3 [] 1 readModeUntil port).map ReadReturn.ret) []
        (fun _ => 1 ≤ ([] : List (List UInt8)).flatten.length) ∧
      ¬ StopsAtEnd (fun port =>
        (antennaReadRsFd (parityCodec 0) 3 [] 1 readModeUntil port).map ReadReturn.ret) []
        (fun _ => ∃ msgs, RsDecodes (parityCodec 0) [] msgs ∧
          1 ≤ msgs.flatten.length) ∧
      ¬ StopsAtEnd (fun port =>
        (antennaFreadFd 3 (List.replicate 16 0) [] port ⟨true, false, [], []⟩).map
          FreadReturn.ret) [] (FileComplete (List.replicate 16 0) []) := by
  refine ⟨?_, ?_, ?_⟩
  · rw [readUntil_stops_iff (by decide) [] [] (by decide) (.inl (by decide))]
    decide
  · rw [List.flatten_nil.symm, readRsUntil_stops_iff (by decide) _ _ _ (by decide)]
    rintro (hNone | hEnds)
    · cases hNone
    · exact not_rsEnds_short (by decide) hEnds
  · rw [fread_stops_iff (by decide)]
    rintro ⟨ends, bytes, array, rest, hNotice, -⟩
    have hTag := hNotice.head_of_nothing (arriving_endedFeed [] ends)
    exact absurd hTag (by decide)

end Loris
end CubeSatComm
