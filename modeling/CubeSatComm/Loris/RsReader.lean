import CubeSatComm.Loris.ReedSolomon

/-!
# The blocking Reed-Solomon reader

`antenna_read_rs_fd` in `READ_MODE_UNTIL`, over any decoder and without regard to
what a writer has sent.  A call takes whole blocks of `RS_BLOCK_LEN` bytes off the
stream until their messages fill the caller's buffer, or until a block does not
decode.

The end of the last message that does not fit is lost: the next call starts with the
next block.
-/

namespace CubeSatComm
namespace Loris

open Lib CInteger Posix

/-- The size of the message in a block of `RS_BLOCK_LEN` bytes. -/
def rsMsgLen : Nat := rsBlockLen - rsNumRoots

theorem rsMsgLen_pos : 0 < rsMsgLen := by decide

/-- A whole block decodes to a message of `RS_BLOCK_LEN - RS_NUM_ROOTS` bytes, if it
decodes at all. -/
def ReedSolomon.FullMessages (codec : ReedSolomon) : Prop :=
  ∀ block msg : List UInt8, block.length = rsBlockLen →
    codec.decode block = some msg → msg.length = rsMsgLen

theorem parityCodec_fullMessages (parity : UInt8) :
    (parityCodec parity).FullMessages := by
  intro block msg hLength hDecode
  simp only [parityCodec, hLength, Nat.le_refl, if_true, Option.some.injEq] at hDecode
  rw [← hDecode, List.length_take, hLength]
  rfl

/-- The whole blocks at the front of `stream` decode to `msgs`. -/
def RsDecodes (codec : ReedSolomon) : List UInt8 → List (List UInt8) → Prop
  | _, [] => True
  | stream, msg :: msgs =>
      rsBlockLen ≤ stream.length ∧
      codec.decode (stream.take rsBlockLen) = some msg ∧
      RsDecodes codec (stream.drop rsBlockLen) msgs

/-- Number of blocks that a call takes for `read_len` bytes.  The loop tests behind
its body, so it takes one even for none. -/
def rsBlocksFor (readLen : Nat) : Nat :=
  max 1 ((readLen + (rsMsgLen - 1)) / rsMsgLen)

section Decodes

variable {codec : ReedSolomon} {stream : List UInt8} {msgs msgs' : List (List UInt8)}

theorem rsDecodes_append :
    RsDecodes codec stream (msgs ++ msgs') ↔
      RsDecodes codec stream msgs ∧
        RsDecodes codec (stream.drop (rsBlockLen * msgs.length)) msgs' := by
  induction msgs generalizing stream with
  | nil => simp [RsDecodes]
  | cons msg msgs ih =>
      rw [List.cons_append, RsDecodes, RsDecodes, ih, List.drop_drop,
        List.length_cons, Nat.mul_succ, Nat.add_comm rsBlockLen, and_assoc, and_assoc]

theorem RsDecodes.length_flatten (hFull : codec.FullMessages)
    (hDecodes : RsDecodes codec stream msgs) :
    msgs.flatten.length = rsMsgLen * msgs.length := by
  induction msgs generalizing stream with
  | nil => rfl
  | cons msg msgs ih =>
      obtain ⟨hBlock, hDecode, hRest⟩ := hDecodes
      have hMsg : msg.length = rsMsgLen :=
        hFull _ msg (by rw [List.length_take, Nat.min_eq_left hBlock]) hDecode
      rw [List.flatten_cons, List.length_append, hMsg, ih hRest, List.length_cons,
        Nat.mul_succ, Nat.add_comm]

end Decodes

section Blocks

variable {readLen : Nat}

theorem rsBlocksFor_pos : 0 < rsBlocksFor readLen :=
  Nat.lt_of_lt_of_le Nat.one_pos (Nat.le_max_left _ _)

/-- The messages of that many blocks fill the buffer, -/
theorem le_rsBlocksFor : readLen ≤ rsMsgLen * rsBlocksFor readLen := by
  simp only [rsBlocksFor, rsMsgLen, rsBlockLen, rsNumRoots]
  omega

/-- and those of fewer blocks do not. -/
theorem lt_of_lt_rsBlocksFor {j : Nat} (hPos : 0 < j)
    (hLt : j < rsBlocksFor readLen) : rsMsgLen * j < readLen := by
  simp only [rsBlocksFor, rsMsgLen, rsBlockLen, rsNumRoots] at hLt ⊢
  omega

end Blocks

/-! ## One call -/

section Loop

variable {codec : ReedSolomon} {fd : Int} {readLen : Nat} (hFd : 0 ≤ fd)
  (hMax : readLen ≤ intMax)

include hFd hMax

/-- While the messages leave room in the caller's buffer, the loop goes on and stores
one behind the other. -/
theorem rsReadLoop_passes {msgs : List (List UInt8)} (offset : Nat)
    (hOffset : offset ≤ readLen)
    (hRoom : msgs ≠ [] → offset + msgs.flatten.length < readLen)
    (buffer : List UInt8) (hBuffer : offset ≤ buffer.length) {port : Port}
    {cut : List (List UInt8)} {stream : List UInt8}
    (hRx : port.rx = Feed.ofPieces cut) (hCut : IsCut cut stream)
    (hDecodes : RsDecodes codec stream msgs) :
    ∃ port' cut', port'.rx = Feed.ofPieces cut' ∧
      IsCut cut' (stream.drop (rsBlockLen * msgs.length)) ∧
      Loop.Passes (rsReadPass codec fd readLen readModeUntil) msgs.length
        ⟨buffer, offset, port⟩
        ⟨store buffer offset msgs.flatten, (offset + msgs.flatten.length : Nat),
          port'⟩ := by
  induction msgs generalizing offset buffer port cut stream with
  | nil =>
      refine ⟨port, cut, hRx, by simpa using hCut, ?_⟩
      rw [List.flatten_nil, store_nil]
      exact .refl _
  | cons msg msgs ih =>
      obtain ⟨hBlock, hDecode, hRest⟩ := hDecodes
      have hLt := hRoom (List.cons_ne_nil msg msgs)
      rw [List.flatten_cons, List.length_append] at hLt
      obtain ⟨port₁, cut₁, hRx₁, hCut₁, hPass⟩ :=
        rsReadPass_until_cut hFd hMax hOffset buffer hRx hCut hBlock
      have hTake : msg.take (readLen - offset) = msg :=
        List.take_of_length_le (by omega)
      rw [hDecode] at hPass
      dsimp only at hPass
      rw [hTake, Nat.min_eq_left (by omega), if_pos (by omega)] at hPass
      obtain ⟨port', cut', hRx', hCut', hPasses⟩ :=
        ih (offset + msg.length) (by omega) (fun _ => by omega) _
          (le_length_store hBuffer) hRx₁ hCut₁ hRest
      refine ⟨port', cut', hRx', ?_, ?_⟩
      · rw [List.length_cons, Nat.mul_succ, Nat.add_comm, ← List.drop_drop]
        exact hCut'
      · rw [store_store_adjacent hBuffer, Nat.add_assoc] at hPasses
        rw [List.flatten_cons, List.length_append]
        exact .again hPass hPasses

/-- A call whose last message fills the buffer. -/
theorem rsReadLoop_filled {msgs : List (List UInt8)} {msg : List UInt8}
    (hRoom : msgs ≠ [] → msgs.flatten.length < readLen)
    (hFills : readLen ≤ (msgs ++ [msg]).flatten.length) (buffer : List UInt8)
    {port : Port} {cut : List (List UInt8)} {stream : List UInt8}
    (hRx : port.rx = Feed.ofPieces cut) (hCut : IsCut cut stream)
    (hDecodes : RsDecodes codec stream (msgs ++ [msg])) :
    ∃ r cut', Loop.run (rsReadPass codec fd readLen readModeUntil) _
        (rsReadPass_decreases codec fd readLen readModeUntil) ⟨buffer, 0, port⟩ =
        some r ∧
      r.ret = readLen ∧
      r.buffer = store buffer 0 ((msgs ++ [msg]).flatten.take readLen) ∧
      r.port.rx = Feed.ofPieces cut' ∧
      IsCut cut' (stream.drop (rsBlockLen * (msgs.length + 1))) := by
  obtain ⟨hInit, hBlock, hDecode, -⟩ := rsDecodes_append.mp hDecodes
  obtain ⟨port₁, cut₁, hRx₁, hCut₁, hPasses⟩ :=
    rsReadLoop_passes hFd hMax 0 (Nat.zero_le _) (by simpa using hRoom) buffer
      (Nat.zero_le _) hRx hCut hInit
  have hBelow : msgs.flatten.length ≤ readLen := by
    cases msgs with
    | nil => exact Nat.zero_le _
    | cons m ms => exact Nat.le_of_lt (hRoom (List.cons_ne_nil m ms))
  rw [Nat.zero_add] at hPasses
  obtain ⟨port₂, cut₂, hRx₂, hCut₂, hPass⟩ :=
    rsReadPass_until_cut hFd hMax hBelow (store buffer 0 msgs.flatten) hRx₁ hCut₁
      hBlock
  simp only [List.flatten_append, List.flatten_singleton, List.length_append]
    at hFills
  rw [hDecode] at hPass
  dsimp only at hPass
  rw [Nat.min_eq_right (by omega), Nat.add_sub_of_le hBelow,
    if_neg (Nat.lt_irrefl _)] at hPass
  refine ⟨_, cut₂, (Loop.run_passes hPasses).trans (Loop.run_leave hPass), rfl, ?_,
    hRx₂, ?_⟩
  · have hAdjacent := @store_store_adjacent _ buffer msgs.flatten
      (msg.take (readLen - msgs.flatten.length)) 0 (Nat.zero_le _)
    rw [Nat.zero_add] at hAdjacent
    dsimp only
    rw [hAdjacent, List.flatten_append, List.flatten_singleton, List.take_append,
      List.take_of_length_le hBelow]
  · rw [Nat.mul_succ, ← List.drop_drop]
    exact hCut₂

/-- A call that meets a block that does not decode. -/
theorem rsReadLoop_refused {msgs : List (List UInt8)}
    (hRoom : msgs ≠ [] → msgs.flatten.length < readLen) (buffer : List UInt8)
    {port : Port} {cut : List (List UInt8)} {stream : List UInt8}
    (hRx : port.rx = Feed.ofPieces cut) (hCut : IsCut cut stream)
    (hDecodes : RsDecodes codec stream msgs)
    (hEnough : rsBlockLen * (msgs.length + 1) ≤ stream.length)
    (hRefused : codec.decode
      ((stream.drop (rsBlockLen * msgs.length)).take rsBlockLen) = none) :
    ∃ r cut', Loop.run (rsReadPass codec fd readLen readModeUntil) _
        (rsReadPass_decreases codec fd readLen readModeUntil) ⟨buffer, 0, port⟩ =
        some r ∧
      r.ret = -1 ∧ r.buffer = store buffer 0 msgs.flatten ∧
      r.port.rx = Feed.ofPieces cut' ∧
      IsCut cut' (stream.drop (rsBlockLen * (msgs.length + 1))) := by
  obtain ⟨port₁, cut₁, hRx₁, hCut₁, hPasses⟩ :=
    rsReadLoop_passes hFd hMax 0 (Nat.zero_le _) (by simpa using hRoom) buffer
      (Nat.zero_le _) hRx hCut hDecodes
  have hBelow : msgs.flatten.length ≤ readLen := by
    cases msgs with
    | nil => exact Nat.zero_le _
    | cons m ms => exact Nat.le_of_lt (hRoom (List.cons_ne_nil m ms))
  rw [Nat.zero_add] at hPasses
  obtain ⟨port₂, cut₂, hRx₂, hCut₂, hPass⟩ :=
    rsReadPass_until_cut hFd hMax hBelow (store buffer 0 msgs.flatten) hRx₁ hCut₁
      (by rw [List.length_drop, Nat.mul_succ] at *; omega)
  rw [hRefused] at hPass
  refine ⟨_, cut₂, (Loop.run_passes hPasses).trans (Loop.run_leave hPass), rfl, rfl,
    hRx₂, ?_⟩
  rw [Nat.mul_succ, ← List.drop_drop]
  exact hCut₂

/-- A call waits when the blocks end before the caller's buffer is full. -/
theorem rsReadLoop_short {msgs : List (List UInt8)}
    (hRoom : msgs ≠ [] → msgs.flatten.length < readLen) (buffer : List UInt8)
    {port : Port} {cut : List (List UInt8)} {stream : List UInt8}
    (hRx : port.rx = Feed.ofPieces cut) (hCut : IsCut cut stream)
    (hDecodes : RsDecodes codec stream msgs)
    (hShort : stream.length < rsBlockLen * (msgs.length + 1)) :
    Loop.run (rsReadPass codec fd readLen readModeUntil) _
      (rsReadPass_decreases codec fd readLen readModeUntil) ⟨buffer, 0, port⟩ =
      none := by
  obtain ⟨port₁, cut₁, hRx₁, hCut₁, hPasses⟩ :=
    rsReadLoop_passes hFd hMax 0 (Nat.zero_le _) (by simpa using hRoom) buffer
      (Nat.zero_le _) hRx hCut hDecodes
  have hLeft : (stream.drop (rsBlockLen * msgs.length)).length < rsBlockLen := by
    rw [Nat.mul_succ] at hShort
    rw [List.length_drop]
    have hPos : 0 < rsBlockLen := by decide
    omega
  refine (Loop.run_passes hPasses).trans (Loop.run_blocked ?_)
  unfold rsReadPass
  rw [rsReadBlock_until_short hFd hRx₁ hCut₁ hLeft]

end Loop

/-- What is left unread behind a call. -/
def ReadReturn.Unread (r : ReadReturn) (rest : List UInt8) : Prop :=
  ∃ cut, r.port.rx = Feed.ofPieces cut ∧ IsCut cut rest

section Call

variable {codec : ReedSolomon} (hCreated : codec.created = true)
  (hFull : codec.FullMessages) {fd : Int} (hFd : 0 ≤ fd) {readLen : Nat}
  (hMax : readLen ≤ intMax)

include hCreated hFull hFd hMax

/-- A call on a stream with enough blocks that decode. -/
theorem antennaReadRsFd_until_filled {msgs : List (List UInt8)}
    (hCount : msgs.length = rsBlocksFor readLen) (buffer : List UInt8) {port : Port}
    {cut : List (List UInt8)} {stream : List UInt8}
    (hRx : port.rx = Feed.ofPieces cut) (hCut : IsCut cut stream)
    (hDecodes : RsDecodes codec stream msgs) :
    ∃ r, antennaReadRsFd codec fd buffer readLen readModeUntil port = some r ∧
      r.ret = readLen ∧ r.buffer = store buffer 0 (msgs.flatten.take readLen) ∧
      r.Unread (stream.drop (rsBlockLen * rsBlocksFor readLen)) := by
  have hPos := @rsBlocksFor_pos readLen
  have hNe : msgs ≠ [] := List.ne_nil_of_length_pos (by omega)
  obtain ⟨init, last, rfl⟩ : ∃ init last, msgs = init ++ [last] :=
    ⟨msgs.dropLast, msgs.getLast hNe, (List.dropLast_append_getLast hNe).symm⟩
  have hInit := (rsDecodes_append.mp hDecodes).1.length_flatten hFull
  have hAll := hDecodes.length_flatten hFull
  rw [List.length_append, List.length_singleton] at hCount
  have hRoom : init ≠ [] → init.flatten.length < readLen := by
    intro hInitNe
    rw [hInit]
    exact lt_of_lt_rsBlocksFor (List.length_pos_iff.mpr hInitNe) (by omega)
  have hFills : readLen ≤ (init ++ [last]).flatten.length := by
    rw [hAll, List.length_append, List.length_singleton, hCount]
    exact le_rsBlocksFor
  obtain ⟨r, cut', hRun, hRet, hBuffer, hRx', hCut'⟩ :=
    rsReadLoop_filled hFd hMax hRoom hFills buffer hRx hCut hDecodes
  rw [hCount] at hCut'
  refine ⟨r, ?_, hRet, hBuffer, cut', hRx', hCut'⟩
  rw [antennaReadRsFd, if_pos hCreated, hRun]

/-- What a blocking call does on a stream that is long enough.  If the blocks it
needs all decode, it returns `read_len` with the front of their messages; if one of
them is the first that does not, it returns `-1` behind this block.  In both cases
it has taken whole blocks off the stream and written nothing behind the caller's
`read_len` bytes. -/
theorem rsReader_exact (buffer : List UInt8) {port : Port}
    {cut : List (List UInt8)} {stream : List UInt8}
    (hRx : port.rx = Feed.ofPieces cut) (hCut : IsCut cut stream)
    {msgs : List (List UInt8)} (hDecodes : RsDecodes codec stream msgs) :
    (msgs.length = rsBlocksFor readLen →
      ∃ r, antennaReadRsFd codec fd buffer readLen readModeUntil port = some r ∧
        r.ret = readLen ∧
        r.Unread (stream.drop (rsBlockLen * rsBlocksFor readLen)) ∧
        r.buffer.take readLen = msgs.flatten.take readLen ∧
        r.buffer.drop readLen = buffer.drop readLen) ∧
    (msgs.length < rsBlocksFor readLen →
      rsBlockLen * (msgs.length + 1) ≤ stream.length →
      codec.decode
        ((stream.drop (rsBlockLen * msgs.length)).take rsBlockLen) = none →
      ∃ r, antennaReadRsFd codec fd buffer readLen readModeUntil port = some r ∧
        r.ret = -1 ∧
        r.Unread (stream.drop (rsBlockLen * (msgs.length + 1))) ∧
        r.buffer.drop readLen = buffer.drop readLen) := by
  have hFlatten := hDecodes.length_flatten hFull
  constructor
  · intro hCount
    obtain ⟨r, hCall, hRet, hBuffer, hUnread⟩ :=
      antennaReadRsFd_until_filled hCreated hFull hFd hMax hCount buffer hRx hCut
        hDecodes
    have hFills : (msgs.flatten.take readLen).length = readLen := by
      have hEnough := @le_rsBlocksFor readLen
      rw [← hCount, ← hFlatten] at hEnough
      rw [List.length_take, Nat.min_eq_left hEnough]
    refine ⟨r, hCall, hRet, hUnread, ?_, ?_⟩
    · rw [hBuffer, store_zero, List.take_left' hFills]
    · rw [hBuffer]
      exact drop_store (Nat.zero_le _) (by omega)
  · intro hCount hEnough hRefused
    have hRoom : msgs ≠ [] → msgs.flatten.length < readLen := by
      intro hNe
      rw [hFlatten]
      exact lt_of_lt_rsBlocksFor (List.length_pos_iff.mpr hNe) hCount
    obtain ⟨r, cut', hRun, hRet, hBuffer, hRx', hCut'⟩ :=
      rsReadLoop_refused hFd hMax hRoom buffer hRx hCut hDecodes hEnough hRefused
    refine ⟨r, ?_, hRet, ⟨cut', hRx', hCut'⟩, ?_⟩
    · rw [antennaReadRsFd, if_pos hCreated, hRun]
    · rw [hBuffer]
      apply drop_store (Nat.zero_le _)
      cases msgs with
      | nil => exact Nat.zero_le _
      | cons msg msgs =>
          have hLt := hRoom (List.cons_ne_nil msg msgs)
          omega

end Call

/-! ### Streams of one byte -/

/-- The stream of `count` blocks that hold nothing but `byte`. -/
def uniformBlocks (count : Nat) (byte : UInt8) : List UInt8 :=
  List.replicate (rsBlockLen * count) byte

theorem uniformBlocks_succ (count : Nat) (byte : UInt8) :
    uniformBlocks (count + 1) byte =
      List.replicate rsBlockLen byte ++ uniformBlocks count byte := by
  rw [uniformBlocks, uniformBlocks, Nat.mul_succ, Nat.add_comm,
    List.replicate_append_replicate]

theorem uniformBlocks_ne_nil {count : Nat} (hPos : 0 < count) (byte : UInt8) :
    uniformBlocks count byte ≠ [] := by
  apply List.ne_nil_of_length_pos
  rw [uniformBlocks, List.length_replicate]
  exact Nat.mul_pos (by decide) hPos

/-- `parityCodec` decodes each of them to a message of the same kind. -/
theorem rsDecodes_uniformBlocks (parity byte : UInt8) (count : Nat)
    (rest : List UInt8) :
    RsDecodes (parityCodec parity) (uniformBlocks count byte ++ rest)
      (List.replicate count (List.replicate rsMsgLen byte)) := by
  induction count with
  | zero => trivial
  | succ count ih =>
      have hLength : (List.replicate rsBlockLen byte).length = rsBlockLen :=
        List.length_replicate
      rw [uniformBlocks_succ, List.append_assoc, List.replicate_succ, RsDecodes,
        List.take_left' hLength, List.drop_left' hLength]
      refine ⟨?_, ?_, ih⟩
      · rw [List.length_append, hLength]
        exact Nat.le_add_right _ _
      · simp only [parityCodec, hLength, Nat.le_refl, if_true, List.take_replicate]
        rfl

/-- Three hundred bytes are read from two blocks. -/
theorem rsReader_exact_two_blocks :
    ∃ r, antennaReadRsFd (parityCodec 0) 3 [] 300 readModeUntil
        (Port.fresh (Feed.ofPieces [uniformBlocks 2 7]) []) = some r ∧
      r.ret = 300 ∧ r.buffer.take 300 = List.replicate 300 7 := by
  have hDecodes := rsDecodes_uniformBlocks 0 7 2 []
  rw [List.append_nil] at hDecodes
  have hCut := isCut_singleton (@uniformBlocks_ne_nil 2 (by decide) 7)
  obtain ⟨r, hCall, hRet, -, hData, -⟩ :=
    (@rsReader_exact (parityCodec 0) rfl (parityCodec_fullMessages 0) 3 (by decide) 300
      (by decide) [] (Port.fresh (Feed.ofPieces [uniformBlocks 2 7]) []) _ _ rfl hCut _
      hDecodes).1 rfl
  refine ⟨r, hCall, hRet, ?_⟩
  rw [hData, List.flatten_replicate_replicate, List.take_replicate]
  rfl

end Loris
end CubeSatComm
