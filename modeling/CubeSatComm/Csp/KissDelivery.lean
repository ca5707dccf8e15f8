import CubeSatComm.Csp.KissFraming

/-!
# What a KISS line delivers

The two ends of a line together: what `csp_kiss_tx` sends is what `csp_kiss_rx` hands on,
however the driver cuts it into pieces, except for the packets for which there was no
buffer.  The MTU of the interface leaves room for the checksum, but nothing keeps the
length of a packet from overflowing when the header is counted in.  On a line with noise
one frame is given up, and no other frame is lost or made up.  The last result says how far
the receiver keeps to its buffer.
-/

namespace CubeSatComm
namespace Csp
namespace Kiss

open Lib

variable {size : Nat} {supply : Nat → Option (RxBuffer size)} {s : KissRx size}

/-! ## The round trip -/

/-- What `csp_kiss_tx` reads of a packet that has room for its checksum. -/
theorem cspKissTx_take {packet : AreaPacket size} (hRoom : packet.length + crcSize ≤ size) :
    (cspKissTx packet true).bytes = frame
      ((toBigEndian idSize packet.id ++ (packet.payload ++ crcBytes packet.payload)).take
        ((packet.length + crcSize + idSize) % 2 ^ 16)) := by
  obtain ⟨packet', hAppend⟩ : ∃ packet', cspCrc32Append packet false = (cspErrNone, packet') :=
    Trailer.append_eq hRoom
  obtain ⟨hLength, -, hId, hEnds⟩ := Trailer.append_ends hAppend
  have hPayload : packet'.payload = packet.payload ++ crcBytes packet.payload := hEnds
  have hHeader : (toBigEndian idSize packet'.id).length = idSize := length_toBigEndian _ _
  have hRead : wireContent packet' = (toBigEndian idSize packet'.id ++ packet'.payload).take
      ((packet'.length + idSize) % 2 ^ 16) := by
    -- what is read does not go behind the data
    have hLe : (packet'.length + idSize) % 2 ^ 16 - idSize ≤ packet'.length := by
      have hMod := Nat.mod_le (packet'.length + idSize) (2 ^ 16)
      omega
    rw [wireContent, AreaPacket.payload, List.take_append, List.take_append, hHeader,
      List.take_take, Nat.min_eq_left hLe]
  show frame (wireContent (cspCrc32Append packet false).2) = _
  rw [hAppend, hRead, hId, hPayload, hLength]
  rfl

/-- The whole packet is sent if its length can be counted. -/
theorem cspKissTx_bytes {packet : AreaPacket size} (hRoom : packet.length + crcSize ≤ size)
    (hWord : packet.length + crcSize + idSize < 2 ^ 16) :
    (cspKissTx packet true).bytes =
      frame (toBigEndian idSize packet.id ++ (packet.payload ++ crcBytes packet.payload)) := by
  have hLength := packet.length_payload (by omega)
  rw [cspKissTx_take hRoom, Nat.mod_eq_of_lt hWord, List.take_of_length_le]
  simp only [List.length_append, length_toBigEndian, length_crcBytes]
  omega

/-- Of a packet whose length overflows when the header is counted in, a part of the header is
sent. -/
theorem cspKissTx_bytes_of_overflow {packet : AreaPacket size} (hSize : size < 2 ^ 16)
    (hRoom : packet.length + crcSize ≤ size)
    (hOver : 2 ^ 16 ≤ packet.length + crcSize + idSize) :
    (cspKissTx packet true).bytes = frame
      ((toBigEndian idSize packet.id).take (packet.length + crcSize + idSize - 2 ^ 16)) := by
  have hHeader : (toBigEndian idSize packet.id).length = idSize := length_toBigEndian _ _
  have hMod : (packet.length + crcSize + idSize) % 2 ^ 16 =
      packet.length + crcSize + idSize - 2 ^ 16 := by
    rw [Nat.mod_eq_sub_mod hOver]
    apply Nat.mod_eq_of_lt
    simp only [idSize]
    omega
  rw [cspKissTx_take hRoom, hMod, List.take_append_of_le_length]
  rw [hHeader]
  omega

/-- The receiver makes the same packet of it. -/
theorem accepted_sent {packet : AreaPacket size} (hId : packet.id < 2 ^ 32) :
    accepted (toBigEndian idSize packet.id ++ (packet.payload ++ crcBytes packet.payload)) =
      [packet.datagram] := by
  have hHeader : (toBigEndian idSize packet.id).length = cspHeaderLength :=
    length_toBigEndian _ _
  have hDrop : (toBigEndian idSize packet.id ++ (packet.payload ++ crcBytes packet.payload)).drop
      cspHeaderLength = packet.payload ++ crcBytes packet.payload := by
    rw [← hHeader, List.drop_left]
  have hBody : (packet.payload ++ crcBytes packet.payload).take
      ((packet.payload ++ crcBytes packet.payload).length - crcSize) = packet.payload := by
    rw [List.length_append, length_crcBytes, Nat.add_sub_cancel, List.take_left]
  rw [accepted, hDrop]
  simp only [hBody, and_true]
  rw [if_pos, ← hHeader, List.take_left, ofBigEndian_toBigEndian_of_lt hId]
  · rfl
  · simp [hHeader]

/-- The receiver between two frames, with no buffer of its own. -/
structure Idle (s : KissRx size) : Prop where
  maxRxLength : s.maxRxLength = cspHeaderLength + size
  rxLength : s.rxLength ≤ s.maxRxLength
  rxMode : s.rxMode = .notStarted
  rxPacket : s.rxPacket = none

theorem idle_added : Idle (KissRx.added : KissRx size) :=
  ⟨rfl, Nat.zero_le _, rfl, rfl⟩

theorem start_of_none (hPacket : s.rxPacket = none) (hSupply : supply s.gets = none) :
    s.start supply = { s with gets := s.gets + 1, rxMode := .skipFrame } := by
  simp [KissRx.start, hPacket, hSupply]

theorem start_of_some {buffer : RxBuffer size} (hPacket : s.rxPacket = none)
    (hSupply : supply s.gets = some buffer) :
    s.start supply = { s with gets := s.gets + 1 }.begun buffer := by
  simp [KissRx.start, KissRx.begun, hPacket, hSupply]

/-- A receiver that skips a frame does so up to its end. -/
theorem cspKissRx_skip (hMode : s.rxMode = .skipFrame) (hMax : s.rxLength ≤ s.maxRxLength)
    (content : List UInt8) :
    cspKissRx supply s (tncData :: (content.flatMap escape ++ [fend])) =
      { s with rxMode := .notStarted } := by
  have hNoFend : fend ∉ tncData :: content.flatMap escape := by
    have hData : fend ≠ tncData := by decide
    simp [hData, fend_not_mem_flatMap_escape content]
  rw [← List.cons_append, cspKissRx_append, cspKissRx_skipFrame hMode hMax hNoFend,
    cspKissRx_cons, cspKissRx_nil, KissRx.rxByte, KissRx.checkOverflow_of_le hMax,
    KissRx.dispatch, hMode]
  rfl

/-- A packet arrives if there is a buffer for it. -/
theorem Idle.frame (supply : Nat → Option (RxBuffer size)) (hIdle : Idle s)
    {content : List UInt8} {datagram : Datagram} (hAccepted : accepted content = [datagram])
    (hFits : content.length ≤ cspHeaderLength + size) :
    Idle (cspKissRx supply s (Kiss.frame content)) ∧
      (cspKissRx supply s (Kiss.frame content)).gets = s.gets + 1 ∧
      (cspKissRx supply s (Kiss.frame content)).rxError = s.rxError ∧
      (cspKissRx supply s (Kiss.frame content)).injected =
        s.injected ++ if (supply s.gets).isSome then [datagram] else [] := by
  have hNe : content ≠ [] := by
    rintro rfl
    rw [accepted_of_short (by decide)] at hAccepted
    cases hAccepted
  have hMax := hIdle.maxRxLength
  have hBody : cspKissRx supply s (Kiss.frame content) =
      cspKissRx supply (s.start supply) (tncData :: (content.flatMap escape ++ [fend])) := by
    rw [Kiss.frame, List.append_assoc, cspKissRx_append, cspKissRx_cons,
      rxByte_notStarted hIdle.rxMode hIdle.rxLength]
    rfl
  rw [hBody]
  cases hSupply : supply s.gets with
  | none =>
      rw [start_of_none hIdle.rxPacket hSupply,
        cspKissRx_skip (s := { s with gets := s.gets + 1, rxMode := .skipFrame }) rfl
          hIdle.rxLength]
      exact ⟨⟨hMax, hIdle.rxLength, rfl, hIdle.rxPacket⟩, rfl, rfl, (List.append_nil _).symm⟩
  | some buffer =>
      let t : KissRx size := { s with gets := s.gets + 1 }
      have hLe : ([] : List UInt8).length + content.length ≤ t.maxRxLength + 1 := by
        show 0 + content.length ≤ s.maxRxLength + 1
        omega
      have hEnd := cspKissRx_fend (s := t) supply buffer hMax hNe hFits
      have hContent : cspKissRx supply (t.begun buffer)
          (tncData :: (content.flatMap escape ++ [fend])) =
            cspKissRx supply (t.filled buffer content) [fend] := by
        rw [← List.singleton_append, cspKissRx_append, cspKissRx_begun, cspKissRx_append,
          cspKissRx_content hLe, List.nil_append]
      rw [start_of_some hIdle.rxPacket hSupply, hContent]
      refine ⟨⟨hEnd.maxRxLength.trans hMax, ?_, hEnd.rxMode, ?_⟩, hEnd.gets, ?_, ?_⟩
      · rw [hEnd.rxLength, hEnd.maxRxLength]
        show content.length ≤ s.maxRxLength
        omega
      · exact hEnd.rxPacket (by simp [hAccepted])
      · rw [hEnd.rxError, hAccepted]
        rfl
      · rw [hEnd.injected, hAccepted]
        rfl

/-- The packets for which there is a buffer, from the `k`-th call of `csp_buffer_get` on. -/
def survivors {sendSize : Nat} (supply : Nat → Option (RxBuffer size)) (k : Nat)
    (packets : List (AreaPacket sendSize)) : List Datagram :=
  ((packets.zipIdx k).filter fun numbered => (supply numbered.2).isSome).map
    fun numbered => numbered.1.datagram

/-- A packet that `csp_send_direct` gives to the interface, with an identifier of 32 bits and
a length that can be counted, and that fits the buffers of the receiver. -/
structure Carried {sendSize : Nat} (mtu size : Nat) (packet : AreaPacket sendSize) : Prop where
  passes : PassesMtu (cspKissMtu sendSize mtu) packet.length
  id_lt : packet.id < 2 ^ 32
  word : packet.length + crcSize + idSize < 2 ^ 16
  fits : packet.length + crcSize ≤ size

/-- The packets arrive that have found a buffer, in their order. -/
theorem Idle.packets {sendSize mtu : Nat} (hCrc : crcSize < sendSize)
    (hSend : sendSize < 2 ^ 16) (supply : Nat → Option (RxBuffer size)) (hIdle : Idle s)
    {packets : List (AreaPacket sendSize)}
    (hCarried : ∀ packet ∈ packets, Carried mtu size packet) :
    Idle (cspKissRx supply s (packets.flatMap fun packet => (cspKissTx packet true).bytes)) ∧
      (cspKissRx supply s (packets.flatMap fun packet => (cspKissTx packet true).bytes)).gets =
        s.gets + packets.length ∧
      (cspKissRx supply s
          (packets.flatMap fun packet => (cspKissTx packet true).bytes)).rxError =
        s.rxError ∧
      (cspKissRx supply s
          (packets.flatMap fun packet => (cspKissTx packet true).bytes)).injected =
        s.injected ++ survivors supply s.gets packets := by
  induction packets generalizing s with
  | nil => exact ⟨hIdle, rfl, rfl, (List.append_nil _).symm⟩
  | cons packet packets ih =>
      obtain ⟨hFirst, hOthers⟩ := List.forall_mem_cons.mp hCarried
      have hRoom := room_of_passesMtu hCrc hSend hFirst.passes
      have hLength : (toBigEndian idSize packet.id ++
          (packet.payload ++ crcBytes packet.payload)).length ≤ cspHeaderLength + size := by
        have hPayload : packet.payload.length ≤ packet.length := List.length_take_le _ _
        have hHeader : idSize = cspHeaderLength := rfl
        have hFits := hFirst.fits
        simp only [List.length_append, length_toBigEndian, length_crcBytes]
        omega
      obtain ⟨hNext, hGets, hError, hInjected⟩ :=
        hIdle.frame supply (accepted_sent hFirst.id_lt) hLength
      obtain ⟨hEnd, hGets', hError', hInjected'⟩ := ih hNext hOthers
      rw [List.flatMap_cons, cspKissRx_append, cspKissTx_bytes hRoom hFirst.word]
      refine ⟨hEnd, ?_, ?_, ?_⟩
      · rw [hGets', hGets, List.length_cons]
        omega
      · rw [hError', hError]
      · rw [hInjected', hInjected, hGets, survivors, survivors, List.zipIdx_cons,
          List.filter_cons]
        cases (supply s.gets).isSome <;> simp

/-- What has been sent arrives, except for the packets that have found no buffer, and the
receiver keeps none. -/
theorem cspKissTx_cspKissRx {sendSize mtu : Nat} (hCrc : crcSize < sendSize)
    (hSend : sendSize < 2 ^ 16) (supply : Nat → Option (RxBuffer size))
    {packets : List (AreaPacket sendSize)}
    (hCarried : ∀ packet ∈ packets, Carried mtu size packet)
    {chunks : List (List UInt8)}
    (hChunks : chunks.flatten = packets.flatMap fun packet => (cspKissTx packet true).bytes) :
    let s := chunks.foldl (cspKissRx supply) KissRx.added
    s.injected = survivors supply 0 packets ∧ s.rxError = 0 ∧ s.gets = packets.length ∧
      s.rxPacket = none := by
  obtain ⟨hEnd, hGets, hError, hInjected⟩ := idle_added.packets hCrc hSend supply hCarried
  rw [foldl_cspKissRx, hChunks]
  exact ⟨hInjected, hError, hGets.trans (Nat.zero_add _), hEnd.rxPacket⟩

/-- Two packets with bytes to escape, in two pieces, to a receiver with smaller buffers, and no
buffer for the first. -/
theorem cspKissTx_cspKissRx_two :
    let buffer : RxBuffer 8 := ⟨List.replicate 12 0, rfl⟩
    let supply : Nat → Option (RxBuffer 8) := fun k => if k = 0 then none else some buffer
    let first : AreaPacket 10 := ⟨1, 1, [fend, 0, 0, 0, 0, 0, 0, 0, 0, 0], rfl⟩
    let second : AreaPacket 10 := ⟨2, 2, [fesc, fend, 0, 0, 0, 0, 0, 0, 0, 0], rfl⟩
    let bytes := [first, second].flatMap fun packet => (cspKissTx packet true).bytes
    let s := [bytes.take 9, bytes.drop 9].foldl (cspKissRx supply) KissRx.added
    s.injected = [⟨2, [fesc, fend]⟩] ∧ s.rxError = 0 ∧ s.gets = 2 ∧ s.rxPacket = none := by
  intro buffer supply first second bytes s
  have hCarried : ∀ packet ∈ [first, second], Carried 0 8 packet := by
    intro packet hPacket
    obtain rfl | rfl : packet = first ∨ packet = second := by simpa using hPacket
    · exact ⟨by decide, by decide, by decide, by decide⟩
    · exact ⟨by decide, by decide, by decide, by decide⟩
  have hChunks : [bytes.take 9, bytes.drop 9].flatten =
      [first, second].flatMap fun packet => (cspKissTx packet true).bytes := by simp [bytes]
  exact cspKissTx_cspKissRx (by decide) (by decide) supply hCarried hChunks

/-! ## Noise -/

/-- Behind any noise, and one frame, the receiver hands on what the frames contain, and
counts an error for each frame that it does not hand on. -/
theorem cspKissRx_resynchronises (hSupply : ∀ k, (supply k).isSome = true)
    (noise : List UInt8) {lost : List UInt8} (hLost : lost ≠ [])
    {contents : List (List UInt8)} (hNe : ∀ content ∈ contents, content ≠ []) :
    (cspKissRx supply KissRx.added (noise ++ frame lost ++ contents.flatMap frame)).injected =
        (cspKissRx supply KissRx.added (noise ++ frame lost)).injected ++
          contents.flatMap (delivered size) ∧
      (cspKissRx supply KissRx.added (noise ++ frame lost ++ contents.flatMap frame)).rxError =
        (cspKissRx supply KissRx.added (noise ++ frame lost)).rxError +
          contents.countP (fun content => delivered size content = []) := by
  have hReady : Ready (cspKissRx supply KissRx.added (noise ++ frame lost)) := by
    rw [cspKissRx_append]
    exact (sound_added.receive supply noise).ready_frame hSupply hLost
  obtain ⟨-, hError, hInjected, -⟩ := cspKissRx_frames hSupply hReady hNe
  rw [cspKissRx_append]
  exact ⟨hInjected, hError⟩

/-- A frame cut short is the noise, and the next one is given up.  Of the frames behind it one
is too short for a checksum and is counted, and the other is handed on. -/
theorem cspKissRx_resynchronises_short :
    let buffer : RxBuffer 8 := ⟨List.replicate 12 0, rfl⟩
    let supply : Nat → Option (RxBuffer 8) := fun _ => some buffer
    let good : List UInt8 := toBigEndian idSize 5 ++ ([7] ++ crcBytes [7])
    let noise : List UInt8 := [fend, tncData, 1, 2] ++ frame [1]
    let s := cspKissRx supply KissRx.added noise
    let t := cspKissRx supply KissRx.added (noise ++ [[1, 2], good].flatMap frame)
    t.injected = s.injected ++ [⟨5, [7]⟩] ∧ t.rxError = s.rxError + 1 := by
  intro buffer supply good noise s t
  have hAccepted : accepted good = [⟨5, [7]⟩] :=
    @accepted_sent 1 ⟨1, 5, [7], rfl⟩ (by decide)
  have hGood : delivered 8 good = [⟨5, [7]⟩] := by
    rw [delivered, hAccepted, if_pos]
    simp [good, idSize, crcSize, cspHeaderLength]
  have hShort : delivered 8 [1, 2] = [] := by decide
  have hNe : ∀ content ∈ [[1, 2], good], content ≠ [] := by simp [good]
  have hSupply : ∀ k, (supply k).isSome = true := fun _ => rfl
  obtain ⟨hInjected, hError⟩ := cspKissRx_resynchronises hSupply
    [fend, tncData, 1, 2] (List.cons_ne_nil 1 []) hNe
  have hHanded : [[1, 2], good].flatMap (delivered 8) = [⟨5, [7]⟩] := by
    simp [hShort, hGood]
  have hCount : [[1, 2], good].countP (fun content => delivered 8 content = []) = 1 := by
    simp [hShort, hGood]
  exact ⟨hInjected.trans (congrArg _ hHanded), hError.trans (congrArg _ hCount)⟩

/-- Whatever is received, nothing is stored farther than one byte behind the buffer; and if there
is a buffer for each, frames have that byte stored exactly if one of them is too long for the
buffer. -/
theorem cspKissRx_stores (supply : Nat → Option (RxBuffer size)) :
    (∀ bytes, ∀ index ∈ (cspKissRx supply KissRx.added bytes).stores,
      index ≤ cspHeaderLength + size) ∧
    ((∀ k, (supply k).isSome = true) →
      ∀ contents : List (List UInt8), (∀ content ∈ contents, content ≠ []) →
        ((cspHeaderLength + size) ∈
            (cspKissRx supply KissRx.added (contents.flatMap frame)).stores ↔
          ∃ content ∈ contents, cspHeaderLength + size < content.length)) := by
  refine ⟨fun bytes => (sound_added.receive supply bytes).stores, ?_⟩
  intro hSupply contents hNe
  obtain ⟨-, -, -, hStores⟩ := cspKissRx_frames hSupply ready_added hNe
  rw [hStores, show (KissRx.added : KissRx size).stores = [] from rfl, List.nil_append,
    List.mem_flatMap]
  refine exists_congr fun content => and_congr_right fun _ => ?_
  rw [storedAt, List.mem_range]
  omega

/-- With a buffer for one byte, a frame of five bytes keeps to it and one of six does not. -/
theorem cspKissRx_stores_one :
    let buffer : RxBuffer 1 := ⟨List.replicate 5 0, rfl⟩
    let supply : Nat → Option (RxBuffer 1) := fun _ => some buffer
    5 ∉ (cspKissRx supply KissRx.added ([[1, 2, 3, 4, 5]].flatMap frame)).stores ∧
      5 ∈ (cspKissRx supply KissRx.added
        ([[1, 2, 3, 4, 5], [1, 2, 3, 4, 5, 6]].flatMap frame)).stores := by
  intro buffer supply
  have hIff := (cspKissRx_stores supply).2 fun _ => rfl
  constructor
  · show ¬ (cspHeaderLength + 1) ∈ _
    rw [hIff [[1, 2, 3, 4, 5]] (by simp)]
    simp [cspHeaderLength]
  · apply (hIff [[1, 2, 3, 4, 5], [1, 2, 3, 4, 5, 6]] (by simp)).mpr
    simp [cspHeaderLength]

end Kiss
end Csp
end CubeSatComm
