import CubeSatComm.Loris.Sending

/-!
# The antenna module: Reed-Solomon transfers

`antenna_write_rs_fd` and `antenna_read_rs_fd` of `antenna.c` over an arbitrary
codec.  The codec library is not part of the sources; `correct.h` documents what
`ReedSolomon.Contract` says and nothing more is assumed about it.

The writer cuts its data into blocks of `RS_DATA_LEN` bytes and sends every
encoded block with one `write`; the reader fills blocks of `RS_BLOCK_LEN` bytes
and copies what they decode to.  The counters of both are `int`, the lengths they
are compared with `size_t`.
-/

namespace CubeSatComm
namespace Loris

open Lib CInteger Posix

/-- A codec of the library: whether `correct_reed_solomon_create` succeeds, and
what `correct_reed_solomon_encode` and `correct_reed_solomon_decode` write;
`none` stands for a negative result.  A block has at most 255 symbols. -/
structure ReedSolomon where
  created : Bool
  encode : List UInt8 → Option (List UInt8)
  decode : List UInt8 → Option (List UInt8)
  encode_length_le : ∀ {msg block : List UInt8},
    encode msg = some block → block.length ≤ rsBlockLen
  decode_length_le : ∀ {block msg : List UInt8},
    decode block = some msg → msg.length ≤ rsBlockLen

namespace ReedSolomon

/-- What `correct.h` documents: a message that leaves room for the parity bytes
is encoded to a block longer by their number, and an uncorrupted block decodes to
its message. -/
structure Contract (codec : ReedSolomon) : Prop where
  created_eq : codec.created = true
  encode_spec : ∀ msg : List UInt8, msg.length ≤ rsBlockLen - rsNumRoots →
    ∃ block, codec.encode msg = some block ∧
      block.length = msg.length + rsNumRoots ∧ codec.decode block = some msg

/-- The encoded block of a message. -/
def block (codec : ReedSolomon) (msg : List UInt8) : List UInt8 :=
  (codec.encode msg).getD []

section Contract

variable {codec : ReedSolomon} (hCodec : codec.Contract) {msg : List UInt8}
  (hLength : msg.length ≤ rsDataLen)

include hCodec hLength

theorem Contract.encode_eq : codec.encode msg = some (codec.block msg) := by
  obtain ⟨encoded, hEncode, -⟩ :=
    hCodec.encode_spec msg (Nat.le_trans hLength rsDataLen_le)
  rw [block, hEncode, Option.getD_some]

theorem Contract.length_block :
    (codec.block msg).length = msg.length + rsNumRoots := by
  obtain ⟨encoded, hEncode, hBlock, -⟩ :=
    hCodec.encode_spec msg (Nat.le_trans hLength rsDataLen_le)
  rw [block, hEncode, Option.getD_some, hBlock]

theorem Contract.decode_block : codec.decode (codec.block msg) = some msg := by
  obtain ⟨encoded, hEncode, -, hDecode⟩ :=
    hCodec.encode_spec msg (Nat.le_trans hLength rsDataLen_le)
  rw [block, hEncode, Option.getD_some, hDecode]

end Contract

end ReedSolomon

/-- A codec that meets the contract: it appends `RS_NUM_ROOTS` copies of one byte
and, on the way back, takes as many bytes off. -/
def parityCodec (parity : UInt8) : ReedSolomon where
  created := true
  encode msg :=
    if msg.length ≤ rsBlockLen - rsNumRoots then
      some (msg ++ List.replicate rsNumRoots parity)
    else
      none
  decode block :=
    if block.length ≤ rsBlockLen then
      some (block.take (block.length - rsNumRoots))
    else
      none
  encode_length_le := by
    intro msg block hEncode
    split at hEncode
    · cases hEncode
      simp only [List.length_append, List.length_replicate, rsBlockLen,
        rsNumRoots] at *
      omega
    · cases hEncode
  decode_length_le := by
    intro block msg hDecode
    split at hDecode
    · cases hDecode
      exact Nat.le_trans (List.length_take_le' _ _) ‹_›
    · cases hDecode

theorem parityCodec_contract (parity : UInt8) : (parityCodec parity).Contract where
  created_eq := rfl
  encode_spec := by
    intro msg hLength
    refine ⟨msg ++ List.replicate rsNumRoots parity, if_pos hLength, by simp, ?_⟩
    have hBlock : (msg ++ List.replicate rsNumRoots parity).length ≤
        rsBlockLen := by
      simp only [List.length_append, List.length_replicate, rsBlockLen,
        rsNumRoots] at *
      omega
    simp only [parityCodec]
    rw [if_pos hBlock]
    simp

theorem block_parityCodec {parity : UInt8} {msg : List UInt8}
    (hLength : msg.length ≤ rsDataLen) :
    (parityCodec parity).block msg = msg ++ List.replicate rsNumRoots parity := by
  have hMsg : msg.length ≤ rsBlockLen - rsNumRoots :=
    Nat.le_trans hLength rsDataLen_le
  simp [ReedSolomon.block, parityCodec, hMsg]

/-! ## `antenna_write_rs_fd` -/

/-- `bytes_to_encode` of one pass: `data_len - bytes_encoded` is computed as a
`size_t` and stored in an `int`. -/
def bytesToEncode (dataLen : Nat) (bytesEncoded : Int) : Int :=
  let bytesRemaining := int32 (sizeT (dataLen - bytesEncoded))
  if bytesRemaining > rsDataLen then rsDataLen else bytesRemaining

/-- State of the encoding loop. -/
structure RsWriteState where
  bytesEncoded : Int
  port : Port

/-- The message that a pass of the encoding loop hands to the codec. -/
def rsMessage (data : List UInt8) (bytesEncoded : Int) : List UInt8 :=
  (data.drop (sizeT bytesEncoded)).take
    (sizeT (bytesToEncode data.length bytesEncoded))

/-- One pass through the encoding loop. -/
def rsWritePass (codec : ReedSolomon) (fd : Int) (data : List UInt8)
    (s : RsWriteState) : Pass RsWriteState (Int × Port) :=
  if sizeT s.bytesEncoded < data.length then
    match codec.encode (rsMessage data s.bytesEncoded) with
    | none => .leave (-1, s.port)
    | some dataEncoded =>
        let (sent, port) := antennaWriteFd fd dataEncoded s.port
        if sent < 0 then
          .leave (-1, port)
        else
          .again
            ⟨int32 (s.bytesEncoded + bytesToEncode data.length s.bytesEncoded),
              port⟩
  else
    .leave (0, s.port)

/-- `antenna_write_rs_fd`, run for at most `fuel` passes of its loop. -/
def antennaWriteRsFd (fuel : Nat) (codec : ReedSolomon) (fd : Int)
    (data : List UInt8) (port : Port) : Option (Int × Port) :=
  if codec.created then
    Loop.runFor (rsWritePass codec fd data) fuel ⟨0, port⟩
  else
    some (-1, port)

section Write

variable {codec : ReedSolomon} {fd : Int} {data : List UInt8}

/-- Up to `INT_MAX` bytes no conversion changes a value: the loop takes the next
`RS_DATA_LEN` bytes, or what is left of them. -/
theorem bytesToEncode_eq {offset : Nat} (hLe : offset ≤ data.length)
    (hMax : data.length ≤ intMax) :
    bytesToEncode data.length offset =
      (min rsDataLen (data.length - offset) : Nat) := by
  have hMaxLt := intMax_lt_sizeRange
  have hRemaining : int32 (sizeT ((data.length : Int) - (offset : Int))) =
      (data.length - offset : Nat) := by
    rw [← Int.natCast_sub hLe, sizeT_natCast (by omega),
      int32_natCast (by omega)]
  unfold bytesToEncode
  simp only [hRemaining]
  split <;> omega

theorem rsMessage_eq {offset : Nat} (hLe : offset ≤ data.length)
    (hMax : data.length ≤ intMax) :
    rsMessage data offset = (data.drop offset).take rsDataLen := by
  have hMaxLt := intMax_lt_sizeRange
  have hOffset : sizeT (offset : Int) = offset := sizeT_natCast (by omega)
  have hCount : sizeT (min rsDataLen (data.length - offset) : Nat) =
      min rsDataLen (data.length - offset) := sizeT_natCast (by omega)
  rw [rsMessage, bytesToEncode_eq hLe hMax, hOffset, hCount,
    ← List.length_drop, ← List.take_eq_take_min]

/-- The passes that start at `bytes_encoded = offset` encode the blocks `encoded` and
leave `bytes_encoded = offset'`. -/
def RsEncodes (codec : ReedSolomon) (data : List UInt8) :
    Int → List (List UInt8) → Int → Prop
  | offset, [], offset' => offset' = offset
  | offset, block :: encoded, offset' =>
      sizeT offset < data.length ∧
      codec.encode (rsMessage data offset) = some block ∧
      RsEncodes codec data (int32 (offset + bytesToEncode data.length offset))
        encoded offset'

/-- A block of the codec is not too long for a `write`. -/
theorem RsEncodes.length_lt {offset offset' : Int} {encoded : List (List UInt8)}
    (hEncodes : RsEncodes codec data offset encoded offset') :
    ∀ block ∈ encoded, block.length < sizeRange := by
  induction encoded generalizing offset with
  | nil => simp
  | cons block encoded ih =>
      obtain ⟨-, hEncode, hRest⟩ := hEncodes
      rw [List.forall_mem_cons]
      exact ⟨Nat.lt_of_le_of_lt (codec.encode_length_le hEncode) (by decide),
        ih hRest⟩

/-- The loop sends what it encodes: it is left where the sequence of writes stops, or
goes on behind it. -/
theorem rsWriteLoop_sendAll {offset offset' : Int} {encoded : List (List UInt8)}
    (hEncodes : RsEncodes codec data offset encoded offset') (port : Port)
    (fuel : Nat) :
    Loop.runFor (rsWritePass codec fd data) (fuel + encoded.length)
        ⟨offset, port⟩ =
      if (sendAll fd encoded port).1 < 0 then
        some (sendAll fd encoded port)
      else
        Loop.runFor (rsWritePass codec fd data) fuel
          ⟨offset', (sendAll fd encoded port).2⟩ := by
  induction encoded generalizing offset port with
  | nil =>
      obtain rfl : offset' = offset := hEncodes
      rfl
  | cons block encoded ih =>
      obtain ⟨hLt, hEncode, hRest⟩ := hEncodes
      rw [List.length_cons, ← Nat.add_assoc, sendAll]
      by_cases hSent : (antennaWriteFd fd block port).1 < 0
      · have hPass : rsWritePass codec fd data ⟨offset, port⟩ =
            .leave (-1, (antennaWriteFd fd block port).2) := by
          simp [rsWritePass, hLt, hEncode, hSent]
        rw [Loop.runFor_leave hPass]
        simp [hSent]
      · have hPass : rsWritePass codec fd data ⟨offset, port⟩ =
            .again ⟨int32 (offset + bytesToEncode data.length offset),
              (antennaWriteFd fd block port).2⟩ := by
          simp only [rsWritePass, hLt, if_true, hEncode, hSent, if_false]
        rw [Loop.runFor_again hPass, ih hRest]
        simp only [hSent, if_false]

/-- How a run of the loop ends: with a `write` that is reported, with a block that
the codec refuses, or at the end of the data. -/
theorem rsWriteLoop_cases {offset : Int} {port port' : Port} {ret : Int}
    {fuel : Nat}
    (hRun : Loop.runFor (rsWritePass codec fd data) fuel ⟨offset, port⟩ =
      some (ret, port')) :
    ∃ encoded offset', RsEncodes codec data offset encoded offset' ∧
      ((sendAll fd encoded port = (-1, port') ∧ ret = -1) ∨
        (sendAll fd encoded port = (0, port') ∧ ret = -1 ∧
          sizeT offset' < data.length ∧
          codec.encode (rsMessage data offset') = none) ∨
        (sendAll fd encoded port = (0, port') ∧ ret = 0 ∧
          ¬ sizeT offset' < data.length)) := by
  induction fuel generalizing offset port with
  | zero => cases hRun
  | succ fuel ih =>
      by_cases hLt : sizeT offset < data.length
      case neg =>
        have hPass : rsWritePass codec fd data ⟨offset, port⟩ =
            .leave (0, port) := by
          simp [rsWritePass, hLt]
        rw [Loop.runFor_leave hPass] at hRun
        cases hRun
        exact ⟨[], offset, rfl, .inr (.inr ⟨rfl, rfl, hLt⟩)⟩
      case pos =>
        cases hEncode : codec.encode (rsMessage data offset) with
        | none =>
            have hPass : rsWritePass codec fd data ⟨offset, port⟩ =
                .leave (-1, port) := by
              simp [rsWritePass, hLt, hEncode]
            rw [Loop.runFor_leave hPass] at hRun
            cases hRun
            exact ⟨[], offset, rfl, .inr (.inl ⟨rfl, rfl, hLt, hEncode⟩)⟩
        | some block =>
            by_cases hSent : (antennaWriteFd fd block port).1 < 0
            · have hPass : rsWritePass codec fd data ⟨offset, port⟩ =
                  .leave (-1, (antennaWriteFd fd block port).2) := by
                simp [rsWritePass, hLt, hEncode, hSent]
              rw [Loop.runFor_leave hPass] at hRun
              cases hRun
              refine ⟨[block], _, ⟨hLt, hEncode, rfl⟩, .inl ⟨?_, rfl⟩⟩
              simp [sendAll, hSent]
            · have hPass : rsWritePass codec fd data ⟨offset, port⟩ =
                  .again ⟨int32 (offset + bytesToEncode data.length offset),
                    (antennaWriteFd fd block port).2⟩ := by
                simp only [rsWritePass, hLt, if_true, hEncode, hSent, if_false]
              rw [Loop.runFor_again hPass] at hRun
              obtain ⟨encoded, offset', hRest, hEnds⟩ := ih hRun
              refine ⟨block :: encoded, offset', ⟨hLt, hEncode, hRest⟩, ?_⟩
              rw [sendAll]
              simp only [hSent, if_false]
              exact hEnds

/-- Up to `INT_MAX` bytes the loop encodes the blocks of `RS_DATA_LEN` bytes, in
order and to the end. -/
theorem rsEncodes_iff_blocks (hMax : data.length ≤ intMax) {rest : List UInt8}
    {offset : Nat} (hRest : data.drop offset = rest) (hOffset : offset ≤ data.length)
    {encoded : List (List UInt8)} {offset' : Int} :
    (RsEncodes codec data offset encoded offset' ∧
        ¬ sizeT offset' < data.length) ↔
      encoded.map some = (blocks rsDataLen rest).map codec.encode ∧
        offset' = data.length := by
  have hMaxLt := intMax_lt_sizeRange
  have hStay : sizeT (offset : Int) = offset := sizeT_natCast (by omega)
  -- one block of the data for each pass of the loop
  induction rest using blocks_induction rsDataLen_pos
    generalizing offset encoded with
  | nil =>
      have hEnd : offset = data.length := by
        have hLe := List.drop_eq_nil_iff.mp hRest
        omega
      cases encoded with
      | nil =>
          constructor
          · rintro ⟨hSame, -⟩
            exact ⟨by simp, hSame.trans (by rw [hEnd])⟩
          · rintro ⟨-, rfl⟩
            refine ⟨by rw [hEnd]; rfl, ?_⟩
            rw [sizeT_natCast (by omega)]
            exact Nat.lt_irrefl _
      | cons block encoded =>
          constructor
          · rintro ⟨⟨hLt, -⟩, -⟩
            omega
          · rintro ⟨hNil, -⟩
            simp at hNil
  | block rest hNe ih =>
      have hLt : offset < data.length := by
        by_contra hGe
        exact hNe (hRest ▸ List.drop_eq_nil_of_le (by omega))
      have hLength : rest.length = data.length - offset := by
        rw [← hRest, List.length_drop]
      have hMessage : rsMessage data offset = rest.take rsDataLen := by
        rw [rsMessage_eq (by omega) hMax, hRest]
      have hNext : int32 ((offset : Int) + bytesToEncode data.length offset) =
          (offset + min rsDataLen rest.length : Nat) := by
        rw [bytesToEncode_eq (by omega) hMax, ← Int.natCast_add,
          int32_natCast (by omega), hLength]
      have hTail : data.drop (offset + min rsDataLen rest.length) =
          rest.drop rsDataLen := by
        rw [← List.drop_drop, hRest]
        by_cases hLast : rest.length ≤ rsDataLen
        · rw [List.drop_eq_nil_of_le (by omega), List.drop_eq_nil_of_le (by omega)]
        · rw [Nat.min_eq_left (by omega)]
      rw [blocks_of_ne_nil rsDataLen_pos hNe, List.map_cons]
      cases encoded with
      | nil =>
          constructor
          · rintro ⟨hSame, hEnd⟩
            obtain rfl : offset' = offset := hSame
            omega
          · rintro ⟨hNil, -⟩
            simp at hNil
      | cons block encoded =>
          have hRestIff : (RsEncodes codec data
              (offset + min rsDataLen rest.length : Nat) encoded offset' ∧
                ¬ sizeT offset' < data.length) ↔
              encoded.map some =
                  (blocks rsDataLen (rest.drop rsDataLen)).map codec.encode ∧
                offset' = data.length :=
            ih hTail (by omega) (sizeT_natCast (by omega))
          rw [List.map_cons, List.cons.injEq, RsEncodes, hMessage, hNext, hStay,
            @eq_comm _ (some block), and_assoc, and_assoc, and_assoc, hRestIff]
          simp [hLt]

/-- `antenna_write_rs_fd` with complete writes. -/
theorem antennaWriteRsFd_complete (hFd : 0 ≤ fd) (hCodec : codec.Contract)
    (hMax : data.length ≤ intMax) {port : Port} (hPort : port.CompleteWrites)
    {fuel : Nat} (hFuel : (blocks rsDataLen data).length < fuel) :
    antennaWriteRsFd fuel codec fd data port =
      some (0,
        { port with
          tx := port.tx.drop (blocks rsDataLen data).length
          written := port.written ++ (blocks rsDataLen data).map
            fun msg => WriteRecord.whole (codec.block msg) }) := by
  have hEncoded : ((blocks rsDataLen data).map codec.block).map some =
      (blocks rsDataLen data).map codec.encode := by
    rw [List.map_map]
    refine List.map_congr_left fun msg hMem => ?_
    exact (hCodec.encode_eq (length_le_of_mem_blocks rsDataLen_pos hMem)).symm
  obtain ⟨hEncodes, hEnd⟩ := (rsEncodes_iff_blocks hMax
    (show data.drop 0 = data from List.drop_zero) (Nat.zero_le _)).mpr
      ⟨hEncoded, rfl⟩
  -- one pass for each block, and one that finds the data at its end
  obtain ⟨fuel, rfl⟩ :
      ∃ k, fuel = (k + 1) + ((blocks rsDataLen data).map codec.block).length :=
    ⟨fuel - ((blocks rsDataLen data).length + 1), by rw [List.length_map]; omega⟩
  have hSend := sendAll_complete hFd hEncodes.length_lt hPort
  have hRun := @rsWriteLoop_sendAll codec fd data _ _ _ hEncodes port (fuel + 1)
  have hPass : rsWritePass codec fd data
      ⟨data.length, (sendAll fd ((blocks rsDataLen data).map codec.block) port).2⟩ =
        .leave (0,
          (sendAll fd ((blocks rsDataLen data).map codec.block) port).2) := by
    rw [rsWritePass, if_neg hEnd]
  rw [Loop.runFor_leave hPass, hSend] at hRun
  rw [antennaWriteRsFd, if_pos hCodec.created_eq]
  refine hRun.trans ?_
  simp [Function.comp_def]

end Write

/-! ## `antenna_read_rs_fd` -/

/-- State of the decoding loop. -/
structure RsReadState where
  buffer : List UInt8
  bytesDecoded : Int
  port : Port

/-- The read of one block into the cleared array `data_in`. -/
def rsReadBlock (fd : Int) (readMode : Int) (port : Port) : Option ReadReturn :=
  antennaReadFd fd (List.replicate rsBlockLen 0) rsBlockLen readMode port

/-- `bytes_to_copy` of one pass: what has been decoded, cut to the room that is
left in the caller's buffer. -/
def bytesToCopy (readLen : Nat) (bytesDecoded newBytesDecoded : Int) : Int :=
  let room := sizeT (readLen - bytesDecoded)
  int32 (if room > sizeT newBytesDecoded then newBytesDecoded else room)

/-- The copy of the decoded bytes into the caller's buffer. -/
def rsCopy (readLen : Nat) (s : RsReadState) (decoded : List UInt8)
    (port : Port) : RsReadState :=
  let count := bytesToCopy readLen s.bytesDecoded (int32 decoded.length)
  { buffer := store s.buffer (sizeT s.bytesDecoded) (decoded.take (sizeT count))
    bytesDecoded := int32 (s.bytesDecoded + count)
    port := port }

/-- One pass through the decoding loop; its test stands at the end. -/
def rsReadPass (codec : ReedSolomon) (fd : Int) (readLen : Nat) (readMode : Int)
    (s : RsReadState) : Pass RsReadState ReadReturn :=
  match rsReadBlock fd readMode s.port with
  | none => .blocked
  | some r =>
      if r.ret < 0 then
        .leave ⟨-1, s.buffer, r.port⟩
      else
        match codec.decode (r.buffer.take (sizeT r.ret)) with
        | none => .leave ⟨-1, s.buffer, r.port⟩
        | some decoded =>
            let s' := rsCopy readLen s decoded r.port
            if sizeT s'.bytesDecoded < readLen ∧ readMode = readModeUntil then
              .again s'
            else
              .leave ⟨s'.bytesDecoded, s'.buffer, s'.port⟩

theorem rsReadPass_decreases (codec : ReedSolomon) (fd : Int) (readLen : Nat)
    (readMode : Int) :
    Loop.Decreases (rsReadPass codec fd readLen readMode)
      fun s => s.port.rx.size := by
  intro s s' hPass
  unfold rsReadPass at hPass
  split at hPass
  · cases hPass
  · next r hBlock =>
    split at hPass
    · cases hPass
    · next hRet =>
      split at hPass
      · cases hPass
      · dsimp only at hPass
        split at hPass
        · next hTest =>
          cases hPass
          rw [rsReadBlock, hTest.2] at hBlock
          exact antennaReadFd_until_size (by decide) hBlock (by omega)
        · cases hPass

/-- `antenna_read_rs_fd` -/
def antennaReadRsFd (codec : ReedSolomon) (fd : Int) (buffer : List UInt8)
    (readLen : Nat) (readMode : Int) (port : Port) : Option ReadReturn :=
  if codec.created then
    Loop.run (rsReadPass codec fd readLen readMode) _
      (rsReadPass_decreases codec fd readLen readMode) ⟨buffer, 0, port⟩
  else
    some ⟨-1, buffer, port⟩

section Read

variable {codec : ReedSolomon} {fd : Int} {readLen : Nat}

/-- Up to `INT_MAX` bytes the copy stores what has been decoded, cut to the room
that is left. -/
theorem rsCopy_eq {offset : Nat} (hOffset : offset ≤ readLen)
    (hMax : readLen ≤ intMax) {buffer decoded : List UInt8} {port port' : Port}
    (hDecoded : decoded.length ≤ rsBlockLen) :
    rsCopy readLen ⟨buffer, offset, port⟩ decoded port' =
      ⟨store buffer offset (decoded.take (readLen - offset)),
        (offset + min decoded.length (readLen - offset) : Nat), port'⟩ := by
  have hMaxLt := intMax_lt_sizeRange
  have hBlock := rsBlockLen_le_intMax
  have hNew : int32 (decoded.length : Int) = decoded.length :=
    int32_natCast (by omega)
  have hRoom : sizeT ((readLen : Int) - (offset : Int)) = readLen - offset := by
    rw [← Int.natCast_sub hOffset, sizeT_natCast (by omega)]
  have hCount : bytesToCopy readLen offset (decoded.length : Int) =
      (min decoded.length (readLen - offset) : Nat) := by
    unfold bytesToCopy
    simp only [hRoom]
    rw [sizeT_natCast (by omega)]
    split
    · rw [int32_natCast (by omega)]
      omega
    · rw [int32_natCast (by omega)]
      omega
  have hTake : decoded.take (min decoded.length (readLen - offset)) =
      decoded.take (readLen - offset) := by
    rw [Nat.min_comm, ← List.take_eq_take_min]
  unfold rsCopy
  simp only [hNew, hCount]
  rw [sizeT_natCast (by omega), sizeT_natCast (by omega), hTake,
    ← Int.natCast_add, int32_natCast (by omega)]

/-- The copy of the first block. -/
theorem rsCopy_first (hMax : readLen ≤ intMax) {buffer decoded : List UInt8}
    {port port' : Port} (hDecoded : decoded.length ≤ rsBlockLen) :
    rsCopy readLen ⟨buffer, 0, port⟩ decoded port' =
      ⟨store buffer 0 (decoded.take readLen),
        (min decoded.length readLen : Nat), port'⟩ := by
  simpa using @rsCopy_eq readLen 0 (Nat.zero_le readLen) hMax buffer decoded port
    port' hDecoded

/-- The blocking read of one block takes the next `RS_BLOCK_LEN` bytes of the
stream. -/
theorem rsReadBlock_until_cut (hFd : 0 ≤ fd) {port : Port}
    {cut : List (List UInt8)} {stream : List UInt8}
    (hRx : port.rx = Feed.ofPieces cut) (hCut : IsCut cut stream)
    (hEnough : rsBlockLen ≤ stream.length) :
    ∃ cut' calls, rsReadBlock fd readModeUntil port =
        some ⟨rsBlockLen, stream.take rsBlockLen,
          { port with
            rx := Feed.ofPieces cut', reads := port.reads + calls }⟩ ∧
      IsCut cut' (stream.drop rsBlockLen) := by
  obtain ⟨cut', calls, hRead, hCut', -⟩ :=
    antennaReadFd_until_cut (List.replicate rsBlockLen 0) hFd rsBlockLen_le_intMax hRx
      hCut hEnough
  refine ⟨cut', calls, ?_, hCut'⟩
  rw [rsReadBlock, hRead, store_zero]
  simp [Nat.min_eq_left hEnough]

theorem rsReadBlock_until_short (hFd : 0 ≤ fd) {port : Port}
    {cut : List (List UInt8)} {stream : List UInt8}
    (hRx : port.rx = Feed.ofPieces cut) (hCut : IsCut cut stream)
    (hShort : stream.length < rsBlockLen) :
    rsReadBlock fd readModeUntil port = none :=
  antennaReadFd_until_short hFd rsBlockLen_le_intMax hRx hCut hShort

/-- A read of one record that arrives whole. -/
theorem rsReadBlock_upto_record (hFd : 0 ≤ fd) {port : Port}
    {record : List UInt8} {rest : Feed UInt8 Errno}
    (hRx : port.rx = .piece record :: rest) (hLength : record.length ≤ rsBlockLen) :
    rsReadBlock fd readModeUpto port =
      some ⟨record.length, store (List.replicate rsBlockLen 0) 0 record,
        { port with rx := rest, reads := port.reads + 1 }⟩ := by
  have hFeed : port.rx.read rsBlockLen = some (.ok record, rest) := by
    rw [hRx, Feed.read, if_pos hLength]
  have hBlock := rsBlockLen_le_intMax
  rw [rsReadBlock,
    antennaReadFd_upto_read _ (Port.read_open hFd hFeed) (by omega)]

/-- One pass of the blocking reader takes one block off the stream.  It is the last
one if the block does not decode, or if the caller's buffer is full behind it. -/
theorem rsReadPass_until_cut (hFd : 0 ≤ fd) (hMax : readLen ≤ intMax)
    {offset : Nat} (hOffset : offset ≤ readLen) (buffer : List UInt8) {port : Port}
    {cut : List (List UInt8)} {stream : List UInt8}
    (hRx : port.rx = Feed.ofPieces cut) (hCut : IsCut cut stream)
    (hEnough : rsBlockLen ≤ stream.length) :
    ∃ port' cut', port'.rx = Feed.ofPieces cut' ∧
      IsCut cut' (stream.drop rsBlockLen) ∧
      rsReadPass codec fd readLen readModeUntil ⟨buffer, offset, port⟩ =
        match codec.decode (stream.take rsBlockLen) with
        | none => .leave ⟨-1, buffer, port'⟩
        | some msg =>
            let filled := store buffer offset (msg.take (readLen - offset))
            let total := offset + min msg.length (readLen - offset)
            if total < readLen then
              .again ⟨filled, total, port'⟩
            else
              .leave ⟨total, filled, port'⟩ := by
  have hMaxLt := intMax_lt_sizeRange
  obtain ⟨cut', calls, hBlock, hCut'⟩ := rsReadBlock_until_cut hFd hRx hCut hEnough
  have hTake : (stream.take rsBlockLen).take (sizeT (rsBlockLen : Int)) =
      stream.take rsBlockLen := by
    rw [sizeT_natCast (by decide), List.take_take, Nat.min_self]
  refine ⟨{ port with rx := Feed.ofPieces cut', reads := port.reads + calls }, cut',
    rfl, hCut', ?_⟩
  unfold rsReadPass
  rw [hBlock]
  dsimp only
  rw [if_neg (by omega), hTake]
  cases hDecode : codec.decode (stream.take rsBlockLen) with
  | none => rfl
  | some msg =>
      have hTotal : sizeT (offset + min msg.length (readLen - offset) : Nat) =
          offset + min msg.length (readLen - offset) :=
        sizeT_natCast (by omega)
      dsimp only
      rw [rsCopy_eq hOffset hMax (codec.decode_length_le hDecode)]
      dsimp only
      simp only [hTotal, and_true]

/-- What the decoding loop has stored stays in place. -/
theorem rsReadLoop_prefix {readMode : Int} (hMax : readLen ≤ intMax)
    {s : RsReadState} {r : ReadReturn} {offset : Nat}
    (hOffset : s.bytesDecoded = offset) (hLe : offset ≤ readLen)
    (hBuffer : offset ≤ s.buffer.length)
    (hRun : Loop.run (rsReadPass codec fd readLen readMode) _
      (rsReadPass_decreases codec fd readLen readMode) s = some r) :
    r.buffer.take offset = s.buffer.take offset := by
  have hMotive : ∀ offset : Nat, s.bytesDecoded = offset → offset ≤ readLen →
      offset ≤ s.buffer.length →
      r.buffer.take offset = s.buffer.take offset := by
    refine Loop.run_relates (motive := fun (s : RsReadState) (r : ReadReturn) =>
      ∀ offset : Nat, s.bytesDecoded = offset → offset ≤ readLen →
        offset ≤ s.buffer.length →
        r.buffer.take offset = s.buffer.take offset) ?_ ?_ hRun
    · rintro ⟨buffer, bytesDecoded, port⟩ r hPass offset hOffset hLe hBuffer
      obtain rfl : bytesDecoded = offset := hOffset
      unfold rsReadPass at hPass
      split at hPass
      · cases hPass
      · split at hPass
        · obtain rfl := Pass.leave.inj hPass
          rfl
        · split at hPass
          · obtain rfl := Pass.leave.inj hPass
            rfl
          · next decoded hDecode =>
            rw [rsCopy_eq hLe hMax (codec.decode_length_le hDecode)] at hPass
            dsimp only at hPass
            split at hPass
            · cases hPass
            · obtain rfl := Pass.leave.inj hPass
              exact take_store hBuffer (Nat.le_refl _)
    · rintro ⟨buffer, bytesDecoded, port⟩ s' r hPass ih offset hOffset hLe hBuffer
      obtain rfl : bytesDecoded = offset := hOffset
      unfold rsReadPass at hPass
      split at hPass
      · cases hPass
      · split at hPass
        · cases hPass
        · split at hPass
          · cases hPass
          · next decoded hDecode =>
            rw [rsCopy_eq hLe hMax (codec.decode_length_le hDecode)] at hPass
            dsimp only at hPass
            split at hPass
            · obtain rfl := Pass.again.inj hPass
              -- the later passes keep what this one has stored
              have hStored : offset + (decoded.take (readLen - offset)).length ≤
                  (store buffer offset
                    (decoded.take (readLen - offset))).length :=
                le_length_store hBuffer
              rw [List.length_take, Nat.min_comm] at hStored
              have hTake := congrArg (List.take offset)
                (ih _ rfl (by omega) hStored)
              rw [List.take_take, List.take_take, Nat.min_eq_left (by omega)]
                at hTake
              rw [hTake]
              exact take_store hBuffer (Nat.le_refl _)
            · cases hPass
  exact hMotive offset hOffset hLe hBuffer

end Read

end Loris
end CubeSatComm
