import CubeSatComm.Loris.ReedSolomon

/-!
# Reed-Solomon transfers end to end

What the Reed-Solomon writer emits, given to the Reed-Solomon reader.

* Over a link that keeps records apart, one `READ_MODE_UPTO` call for each record
  returns the message, block by block.
* Over a byte stream, a `READ_MODE_UNTIL` call fills blocks of `RS_BLOCK_LEN`
  bytes, while the writer emits blocks of at most `RS_DATA_LEN + RS_NUM_ROOTS`
  bytes: the two sides do not agree on where a block ends.
-/

namespace CubeSatComm
namespace Loris

open Lib CInteger Posix

/-! ## Records -/

/-- Successive calls of `antenna_read_rs_fd`, one for each caller's buffer. -/
def rsReadCalls (codec : ReedSolomon) (fd : Int) (readLen : Nat)
    (readMode : Int) : List (List UInt8) → Port → Option (List ReadReturn)
  | [], _ => some []
  | buffer :: buffers, port =>
      match antennaReadRsFd codec fd buffer readLen readMode port with
      | none => none
      | some r =>
          match rsReadCalls codec fd readLen readMode buffers r.port with
          | none => none
          | some results => some (r :: results)

/-- The bytes that a call has returned. -/
def ReadReturn.returned (r : ReadReturn) : List UInt8 :=
  r.buffer.take r.ret.toNat

/-- A call that finds the record of `msg` returns `msg`. -/
theorem antennaReadRsFd_record {codec : ReedSolomon} (hCodec : codec.Contract)
    {fd : Int} (hFd : 0 ≤ fd) {readLen : Nat} (hLow : rsDataLen ≤ readLen)
    (hMax : readLen ≤ intMax) {msg : List UInt8} (hLength : msg.length ≤ rsDataLen)
    {port : Port} {rest : Feed UInt8 Errno}
    (hRx : port.rx = .piece (codec.block msg) :: rest) (buffer : List UInt8) :
    antennaReadRsFd codec fd buffer readLen readModeUpto port =
      some ⟨msg.length, msg ++ buffer.drop msg.length,
        { port with rx := rest, reads := port.reads + 1 }⟩ := by
  have hBlockLength := hCodec.length_block hLength
  have hFits : (codec.block msg).length ≤ rsBlockLen := by
    rw [hBlockLength]
    exact Nat.le_trans (Nat.add_le_add_right hLength _) (by decide)
  have hMaxLt := intMax_lt_sizeRange
  have hBlockMax := rsBlockLen_le_intMax
  have hTake : (store (List.replicate rsBlockLen 0) 0
      (codec.block msg)).take (sizeT (codec.block msg).length) =
        codec.block msg := by
    rw [sizeT_natCast (by omega), store_zero, List.take_left']
    rfl
  have hMsg : msg.length ≤ rsBlockLen := Nat.le_trans hLength (by decide)
  have hRoom : min msg.length readLen = msg.length := by omega
  have hAll : msg.take readLen = msg := List.take_of_length_le (by omega)
  have hPass : rsReadPass codec fd readLen readModeUpto ⟨buffer, 0, port⟩ =
      .leave ⟨msg.length, msg ++ buffer.drop msg.length,
        { port with rx := rest, reads := port.reads + 1 }⟩ := by
    unfold rsReadPass
    rw [rsReadBlock_upto_record hFd hRx hFits]
    dsimp only
    rw [if_neg (by omega), hTake, hCodec.decode_block hLength]
    dsimp only
    rw [rsCopy_first hMax hMsg, hRoom, hAll, store_zero,
      if_neg (by intro h; exact absurd h.2 (by decide))]
  rw [antennaReadRsFd, if_pos hCodec.created_eq, Loop.run_leave hPass]

/-- Calls that find the records of `msgs` return `msgs`, one each. -/
theorem rsReadCalls_records {codec : ReedSolomon} (hCodec : codec.Contract)
    {fd : Int} (hFd : 0 ≤ fd) {readLen : Nat} (hLow : rsDataLen ≤ readLen)
    (hMax : readLen ≤ intMax) {msgs buffers : List (List UInt8)}
    (hLengths : ∀ msg ∈ msgs, msg.length ≤ rsDataLen)
    (hBuffers : buffers.length = msgs.length) {port : Port}
    (hRx : port.rx = Feed.ofPieces (msgs.map codec.block)) :
    ∃ results,
      rsReadCalls codec fd readLen readModeUpto buffers port = some results ∧
      results.map ReadReturn.ret = msgs.map (fun msg => (msg.length : Int)) ∧
      results.map ReadReturn.returned = msgs := by
  induction msgs generalizing buffers port with
  | nil =>
      obtain rfl := List.eq_nil_of_length_eq_zero hBuffers
      exact ⟨[], rfl, rfl, rfl⟩
  | cons msg msgs ih =>
      cases buffers with
      | nil => cases hBuffers
      | cons buffer buffers =>
          have hMsg := hLengths msg List.mem_cons_self
          have hTail : ∀ m ∈ msgs, m.length ≤ rsDataLen := fun m hMem =>
            hLengths m (List.mem_cons_of_mem _ hMem)
          let port' : Port :=
            { port with
              rx := Feed.ofPieces (msgs.map codec.block)
              reads := port.reads + 1 }
          have hRx' : port'.rx = Feed.ofPieces (msgs.map codec.block) := rfl
          have hCall : antennaReadRsFd codec fd buffer readLen readModeUpto port =
              some ⟨msg.length, msg ++ buffer.drop msg.length, port'⟩ :=
            antennaReadRsFd_record hCodec hFd hLow hMax hMsg hRx buffer
          obtain ⟨results, hRest, hRets, hReturned⟩ :=
            ih hTail (Nat.succ.inj hBuffers) hRx'
          refine ⟨⟨msg.length, msg ++ buffer.drop msg.length, port'⟩ :: results,
            ?_, ?_, ?_⟩
          · rw [rsReadCalls, hCall]
            dsimp only
            rw [hRest]
          · rw [List.map_cons, List.map_cons, hRets]
          · rw [List.map_cons, hReturned, ReadReturn.returned]
            simp

/-- The records that the writer leaves on a fresh port. -/
theorem antennaWriteRsFd_fresh {codec : ReedSolomon} (hCodec : codec.Contract)
    {fd : Int} (hFd : 0 ≤ fd) {data : List UInt8} (hMax : data.length ≤ intMax)
    {tx : List WriteOutcome} (hTx : (Port.fresh [] tx).CompleteWrites)
    {fuel : Nat} (hFuel : (blocks rsDataLen data).length < fuel) :
    ∃ port, antennaWriteRsFd fuel codec fd data (Port.fresh [] tx) =
        some (0, port) ∧
      port.written.map WriteRecord.bytes =
        (blocks rsDataLen data).map codec.block := by
  refine ⟨_, antennaWriteRsFd_complete hFd hCodec hMax hTx hFuel, ?_⟩
  simp [Port.fresh, Function.comp_def]

/-- Reassembly in `READ_MODE_UPTO`: the writer emits one record for each block of
`RS_DATA_LEN` bytes, none longer than a block of the codec, and over a link that
delivers one whole record for each `read` as many calls of the reader return
positive counts and together the data. -/
theorem rsUpto_reassembles {codec : ReedSolomon} (hCodec : codec.Contract)
    {fdTx fdRx : Int} (hFdTx : 0 ≤ fdTx) (hFdRx : 0 ≤ fdRx)
    (data : List UInt8) (hMax : data.length ≤ intMax) {readLen : Nat}
    (hLow : rsDataLen ≤ readLen) (hHigh : readLen ≤ intMax)
    {tx : List WriteOutcome} (hTx : (Port.fresh [] tx).CompleteWrites) :
    ∃ fuel port,
      antennaWriteRsFd fuel codec fdTx data (Port.fresh [] tx) =
        some (0, port) ∧
      port.written.length = (data.length + (rsDataLen - 1)) / rsDataLen ∧
      (∀ record ∈ port.written, record.Complete ∧
        record.bytes.length ≤ rsDataLen + rsNumRoots ∧
        record.bytes.length ≤ 255) ∧
      ∀ buffers : List (List UInt8), buffers.length = port.written.length →
        ∃ results,
          rsReadCalls codec fdRx readLen readModeUpto buffers
            (Port.fresh
              (Feed.ofPieces (port.written.map WriteRecord.bytes)) []) =
            some results ∧
          results.length = port.written.length ∧
          (∀ r ∈ results, 0 < r.ret ∧ r.ret ≤ rsDataLen) ∧
          results.flatMap ReadReturn.returned = data := by
  have hBlock := rsDataLen_pos
  have hLengths : ∀ msg ∈ blocks rsDataLen data, msg.length ≤ rsDataLen :=
    fun msg hMem => length_le_of_mem_blocks hBlock hMem
  have hRun := antennaWriteRsFd_complete hFdTx hCodec hMax hTx
    (Nat.lt_succ_self (blocks rsDataLen data).length)
  refine ⟨_, _, hRun, ?_, ?_, ?_⟩
  · simpa [Port.fresh] using length_blocks hBlock data
  · intro record hMem
    simp only [Port.fresh, List.nil_append, List.mem_map] at hMem
    obtain ⟨msg, hMsg, rfl⟩ := hMem
    have hEncoded := hCodec.length_block (hLengths msg hMsg)
    have hMsgLength := hLengths msg hMsg
    rw [WriteRecord.bytes_whole, hEncoded]
    simp only [rsDataLen, rsNumRoots] at hMsgLength ⊢
    exact ⟨WriteRecord.complete_whole _, by omega, by omega⟩
  · intro buffers hBuffers
    have hRecords : ((blocks rsDataLen data).map
        fun msg => WriteRecord.whole (codec.block msg)).map WriteRecord.bytes =
          (blocks rsDataLen data).map codec.block := by
      simp [Function.comp_def]
    simp only [Port.fresh, List.nil_append, List.length_map] at hBuffers ⊢
    rw [hRecords]
    have hRx : (Port.fresh
        (Feed.ofPieces ((blocks rsDataLen data).map codec.block)) []).rx =
          Feed.ofPieces ((blocks rsDataLen data).map codec.block) := rfl
    obtain ⟨results, hCalls, hRets, hReturned⟩ :=
      rsReadCalls_records hCodec hFdRx hLow hHigh hLengths hBuffers hRx
    refine ⟨results, hCalls, ?_, ?_, ?_⟩
    · simpa using congrArg List.length hReturned
    · intro r hMem
      have hRet : r.ret ∈ (blocks rsDataLen data).map
          (fun msg => (msg.length : Int)) := by
        rw [← hRets]
        exact List.mem_map_of_mem hMem
      obtain ⟨msg, hMsg, hEq⟩ := List.mem_map.mp hRet
      have hNe := List.length_pos_iff.mpr (ne_nil_of_mem_blocks hBlock hMsg)
      have hLe := hLengths msg hMsg
      omega
    · rw [List.flatMap, hReturned, flatten_blocks hBlock]

/-- A message of two blocks. -/
theorem rsUpto_reassembles_two_blocks :
    ∃ fuel port,
      antennaWriteRsFd fuel (parityCodec 0) 3 (List.replicate 300 7)
        (Port.fresh [] []) = some (0, port) ∧
      port.written.length = 2 ∧
      ∃ results,
        rsReadCalls (parityCodec 0) 4 223 readModeUpto [[], []]
          (Port.fresh (Feed.ofPieces (port.written.map WriteRecord.bytes)) []) =
          some results ∧
        results.flatMap ReadReturn.returned = List.replicate 300 7 := by
  have hTx := Port.completeWrites_fresh []
  obtain ⟨fuel, port, hWrite, hCount, -, hRead⟩ :=
    @rsUpto_reassembles (parityCodec 0) (parityCodec_contract 0) 3 4 (by decide)
      (by decide) (List.replicate 300 7) (by rw [List.length_replicate]; decide)
      223 (by decide) (by decide) [] hTx
  rw [List.length_replicate] at hCount
  obtain ⟨results, hCalls, -, -, hData⟩ := hRead [[], []] hCount.symm
  exact ⟨fuel, port, hWrite, hCount, results, hCalls, hData⟩

/-! ## Streams -/

/-- On a port where exactly `cut` arrives, the blocking reader returns `data`.
It does not when it fails, returns other bytes, or waits for more. -/
def RsDelivers (codec : ReedSolomon) (fd : Int) (buffer : List UInt8)
    (cut : List (List UInt8)) (data : List UInt8) : Prop :=
  ∃ r, antennaReadRsFd codec fd buffer data.length readModeUntil
      (Port.fresh (Feed.ofPieces cut) []) = some r ∧
    r.ret = data.length ∧ r.returned = data

/-- The round trip of `data` in `READ_MODE_UNTIL`, with nothing known of the codec
but its contract: whenever the writer returns `0` with complete writes, the reader
delivers `data` for every cut of what has been emitted. -/
def RsStreamRoundTrip (data : List UInt8) : Prop :=
  ∀ codec : ReedSolomon, codec.Contract → ∀ fdTx fdRx : Int, 0 ≤ fdTx →
    0 ≤ fdRx → ∀ tx : List WriteOutcome, (Port.fresh [] tx).CompleteWrites →
    ∀ (fuel : Nat) (port : Port),
      antennaWriteRsFd fuel codec fdTx data (Port.fresh [] tx) =
        some (0, port) →
      ∀ cut, IsCut cut port.sent → ∀ buffer,
        RsDelivers codec fdRx buffer cut data

/-- A blocking call that returns without error has decoded the first
`RS_BLOCK_LEN` bytes of the stream and delivers that message first. -/
theorem antennaReadRsFd_until_first {codec : ReedSolomon}
    (hCreated : codec.created = true) {fd : Int} (hFd : 0 ≤ fd) {readLen : Nat}
    (hMax : readLen ≤ intMax) {buffer : List UInt8} {port : Port}
    {cut : List (List UInt8)} {stream : List UInt8}
    (hRx : port.rx = Feed.ofPieces cut) (hCut : IsCut cut stream) {r : ReadReturn}
    (hRun : antennaReadRsFd codec fd buffer readLen readModeUntil port = some r)
    (hRet : 0 ≤ r.ret) :
    rsBlockLen ≤ stream.length ∧
      ∃ decoded, codec.decode (stream.take rsBlockLen) = some decoded ∧
        r.buffer.take (min decoded.length readLen) = decoded.take readLen := by
  rw [antennaReadRsFd, if_pos hCreated] at hRun
  by_cases hEnough : rsBlockLen ≤ stream.length
  case neg =>
    have hPass : rsReadPass codec fd readLen readModeUntil ⟨buffer, 0, port⟩ =
        .blocked := by
      unfold rsReadPass
      rw [rsReadBlock_until_short hFd hRx hCut (by omega)]
    rw [Loop.run_blocked hPass] at hRun
    cases hRun
  case pos =>
    refine ⟨hEnough, ?_⟩
    obtain ⟨port', cut', -, -, hFirst⟩ :=
      @rsReadPass_until_cut codec fd readLen hFd hMax 0 (Nat.zero_le _) buffer port cut
        stream hRx hCut hEnough
    cases hDecode : codec.decode (stream.take rsBlockLen) with
    | none =>
        have hPass : rsReadPass codec fd readLen readModeUntil ⟨buffer, 0, port⟩ =
            .leave ⟨-1, buffer, port'⟩ := by
          simpa [hDecode] using hFirst
        rw [Loop.run_leave hPass] at hRun
        cases hRun
        simp at hRet
    | some decoded =>
        refine ⟨decoded, rfl, ?_⟩
        have hPass : rsReadPass codec fd readLen readModeUntil ⟨buffer, 0, port⟩ =
            if min decoded.length readLen < readLen then
              .again ⟨store buffer 0 (decoded.take readLen),
                (min decoded.length readLen : Nat), port'⟩
            else
              .leave ⟨(min decoded.length readLen : Nat),
                store buffer 0 (decoded.take readLen), port'⟩ := by
          simpa only [hDecode, Nat.sub_zero, Nat.zero_add, Int.natCast_zero] using hFirst
        have hCount : (decoded.take readLen).length = min decoded.length readLen := by
          rw [List.length_take, Nat.min_comm]
        -- what the first pass stores, whether the loop goes on or not
        have hStored : (store buffer 0 (decoded.take readLen)).take
            (min decoded.length readLen) = decoded.take readLen := by
          rw [store_zero, ← hCount, List.take_left']
          rfl
        split at hPass
        · rw [Loop.run_again hPass] at hRun
          rw [← hStored]
          refine rsReadLoop_prefix hMax rfl (Nat.min_le_right _ _) ?_ hRun
          rw [← hCount]
          simp
        · rw [Loop.run_leave hPass] at hRun
          cases hRun
          exact hStored

/-- The writer's stream over `parityCodec`: the first block's message, its parity
bytes, and more. -/
theorem sent_parityCodec {parity : UInt8} {data : List UInt8} (hNe : data ≠ [])
    {port : Port}
    (hRecords : port.written.map WriteRecord.bytes =
      (blocks rsDataLen data).map (parityCodec parity).block) :
    port.sent = data.take rsDataLen ++ List.replicate rsNumRoots parity ++
      ((blocks rsDataLen (data.drop rsDataLen)).map
        (parityCodec parity).block).flatten := by
  have hBlock := rsDataLen_pos
  have hFirst : (data.take rsDataLen).length ≤ rsDataLen :=
    List.length_take_le rsDataLen data
  rw [Port.sent, List.flatMap, hRecords, blocks_of_ne_nil hBlock hNe,
    List.map_cons, List.flatten_cons, block_parityCodec hFirst]

/-- Data of one block do not come through: the reader waits for more than the
writer emitted. -/
theorem not_rsStreamRoundTrip_short {data : List UInt8} (hNe : data ≠ [])
    (hShort : data.length ≤ rsDataLen) : ¬ RsStreamRoundTrip data := by
  intro hTrip
  have hMax : data.length ≤ intMax := Nat.le_trans hShort (by decide)
  have hCodec := parityCodec_contract 0
  have hTx := Port.completeWrites_fresh []
  obtain ⟨port, hWrite, hRecords⟩ := antennaWriteRsFd_fresh hCodec
    (Int.le_refl 0) hMax hTx (Nat.lt_succ_self _)
  have hSent := sent_parityCodec hNe hRecords
  rw [List.take_of_length_le hShort, List.drop_eq_nil_of_le hShort] at hSent
  -- any cut will do
  have hCut : IsCut (blocks 1 port.sent) port.sent := isCut_blocks Nat.one_pos _
  obtain ⟨r, hRun, hRet, -⟩ := hTrip _ hCodec 0 0 (Int.le_refl 0) (Int.le_refl 0)
    [] hTx _ port hWrite _ hCut []
  obtain ⟨hEnough, -⟩ := antennaReadRsFd_until_first hCodec.created_eq
    (Int.le_refl 0) hMax rfl hCut hRun (by omega)
  rw [hSent] at hEnough
  simp only [blocks_nil, List.map_nil, List.flatten_nil, List.append_nil,
    List.length_append, List.length_replicate, rsBlockLen, rsNumRoots,
    rsDataLen] at hEnough hShort
  omega

/-- Longer data do not come through either: behind the first `RS_DATA_LEN` bytes
the reader delivers parity bytes. -/
theorem not_rsStreamRoundTrip_long {data : List UInt8}
    (hLong : rsDataLen < data.length) (hMax : data.length ≤ intMax) :
    ¬ RsStreamRoundTrip data := by
  intro hTrip
  have hNe : data ≠ [] := List.ne_nil_of_length_pos (by omega)
  -- a parity byte that differs from the first byte of the second block
  obtain ⟨parity, hParity⟩ : ∃ parity : UInt8, parity ≠ data[rsDataLen] := by
    by_cases hZero : data[rsDataLen] = 0
    · exact ⟨1, by rw [hZero]; decide⟩
    · exact ⟨0, fun h => hZero h.symm⟩
  have hCodec := parityCodec_contract parity
  have hTx := Port.completeWrites_fresh []
  obtain ⟨port, hWrite, hRecords⟩ := antennaWriteRsFd_fresh hCodec
    (Int.le_refl 0) hMax hTx (Nat.lt_succ_self _)
  have hSent := sent_parityCodec hNe hRecords
  have hCut : IsCut (blocks 1 port.sent) port.sent := isCut_blocks Nat.one_pos _
  obtain ⟨r, hRun, hRet, hReturned⟩ := hTrip _ hCodec 0 0 (Int.le_refl 0)
    (Int.le_refl 0) [] hTx _ port hWrite _ hCut []
  obtain ⟨hEnough, decoded, hDecode, hBuffer⟩ := antennaReadRsFd_until_first
    hCodec.created_eq (Int.le_refl 0) hMax rfl hCut hRun (by omega)
  -- the decoder takes off the last two bytes of the reader's block, and leaves the
  -- parity bytes of the writer's
  have hDecoded : decoded = port.sent.take (rsBlockLen - rsNumRoots) := by
    have hFits : (port.sent.take rsBlockLen).length = rsBlockLen := by
      rw [List.length_take, Nat.min_eq_left hEnough]
    simp only [parityCodec, hFits, Nat.le_refl, if_true,
      Option.some.injEq] at hDecode
    rw [← hDecode, List.take_take]
    rfl
  have hDecodedLength : decoded.length = rsBlockLen - rsNumRoots := by
    rw [hDecoded, List.length_take]
    exact Nat.min_eq_left (Nat.le_trans (by decide) hEnough)
  have hData : r.buffer.take data.length = data := by
    rw [ReadReturn.returned, hRet] at hReturned
    exact hReturned
  -- both sides of `hBuffer` at index `RS_DATA_LEN`
  have hIndex : rsDataLen < min decoded.length data.length := by
    rw [hDecodedLength]
    exact Nat.lt_min.mpr ⟨by decide, hLong⟩
  have hFromData : (r.buffer.take (min decoded.length data.length))[rsDataLen]? =
      data[rsDataLen]? := by
    have hWhole : data[rsDataLen]? = (r.buffer.take data.length)[rsDataLen]? := by
      rw [hData]
    rw [hWhole, List.getElem?_take_of_lt hIndex, List.getElem?_take_of_lt hLong]
  have hFromSent : (decoded.take data.length)[rsDataLen]? = some parity := by
    have hFirst : (data.take rsDataLen).length = rsDataLen := by
      rw [List.length_take, Nat.min_eq_left (by omega)]
    rw [List.getElem?_take_of_lt hLong, hDecoded,
      List.getElem?_take_of_lt (by decide), hSent, List.append_assoc,
      List.getElem?_append_right (by omega), hFirst, Nat.sub_self]
    rfl
  rw [hBuffer, hFromSent, List.getElem?_eq_getElem hLong] at hFromData
  exact hParity (Option.some.inj hFromData)

/-- The round trip in `READ_MODE_UNTIL` holds of no data: the writer's blocks of
`RS_DATA_LEN` bytes and parity are shorter than the blocks of `RS_BLOCK_LEN` bytes
that the reader fills.  With a decoder that takes off the parity bytes and no more,
a call that does deliver the data has first overrun the array `decoded`. -/
theorem rsStream_never_roundTrips (data : List UInt8) (hLow : 1 ≤ data.length)
    (hHigh : data.length ≤ intMax) :
    ¬ RsStreamRoundTrip data ∧
      ∀ codec : ReedSolomon, codec.Contract →
        (∀ block msg, codec.decode block = some msg →
          msg.length + rsNumRoots = block.length) →
        ∀ (fdRx : Int) (buffer stream : List UInt8) (cut : List (List UInt8)),
          0 ≤ fdRx → IsCut cut stream → RsDelivers codec fdRx buffer cut data →
          ∃ decoded, codec.decode (stream.take rsBlockLen) = some decoded ∧
            rsDataLen < decoded.length := by
  refine ⟨?_, ?_⟩
  · by_cases hShort : data.length ≤ rsDataLen
    · exact not_rsStreamRoundTrip_short (List.ne_nil_of_length_pos hLow) hShort
    · exact not_rsStreamRoundTrip_long (by omega) hHigh
  · intro codec hCodec hParity fdRx buffer stream cut hFd hCut hDelivers
    obtain ⟨r, hRun, hRet, -⟩ := hDelivers
    obtain ⟨hEnough, decoded, hDecode, -⟩ := antennaReadRsFd_until_first
      hCodec.created_eq hFd hHigh rfl hCut hRun (by omega)
    refine ⟨decoded, hDecode, ?_⟩
    have hLength := hParity _ _ hDecode
    rw [List.length_take, Nat.min_eq_left hEnough] at hLength
    simp only [rsBlockLen, rsNumRoots, rsDataLen] at hLength ⊢
    omega

/-- A message of one byte. -/
theorem rsStream_never_roundTrips_one_byte :
    1 ≤ [(65 : UInt8)].length ∧ ¬ RsStreamRoundTrip [65] :=
  ⟨by decide, (rsStream_never_roundTrips [65] (by decide) (by decide)).1⟩

/-- The writer emits three bytes for a message of one byte, the reader waits for
the remaining 252 of its block. -/
theorem rsStream_one_byte_waits : ¬ RsStreamRoundTrip [65] :=
  not_rsStreamRoundTrip_short (by decide) (by decide)

end Loris
end CubeSatComm
