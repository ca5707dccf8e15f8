import CubeSatComm.Csp.Send

/-!
# Packets over the link of the FIFO and UART driver

`csp_send_direct` lets a packet through to `fifo_tx` as long as its data is no longer
than the MTU, which is `CSP_PACKET_SIZE`.  `fifo_tx` sends the two header fields in
front of the data, and `fifo_rx` asks for `CSP_PACKET_SIZE` bytes and takes every
read for one packet.  So a frame of more than `CSP_PACKET_SIZE` bytes becomes two
packets, and so does every newline of the UART mode.
-/

namespace CubeSatComm
namespace Csp

open Lib Posix

/-- The peer's end of the link: the bytes of every `write` arrive in a piece of their
own, of which a `read` takes as many as it has asked for. -/
def peerPort (port : Port) : Port :=
  Port.fresh (Feed.ofPieces (port.written.map WriteRecord.bytes)) []

/-- The packets that `fifo_rx` of `peer` hands to `csp_qfifo_write` when `fifo_tx` of
`device` sends over a lossless link.  `stale` is what the buffers hold that
`csp_buffer_get` returns. -/
def injectedAtPeer {n : Nat} (device peer : Device) (pool : BufferPool n)
    (memory : Fin n → PacketBuffer) (stale : Nat → PacketBuffer)
    (sends : List (Fin n × PacketBuffer)) : List CspPacket :=
  let node := fifoTxAll device sends ⟨pool, memory, Port.fresh [] []⟩
  let rx := fifoRx peer (fun k => some (stale k)) (peerPort node.port)
  rx.injected.map PacketBuffer.packet

/-- The packets that are handed to `fifo_tx`. -/
def sentPackets {n : Nat} (sends : List (Fin n × PacketBuffer)) :
    List CspPacket :=
  sends.map fun send => send.2.packet

/-- The pieces of the link: a frame for every packet, and in UART mode a newline. -/
def linkPieces {n : Nat} (FIFO : Bool) (sends : List (Fin n × PacketBuffer)) :
    List (List UInt8) :=
  sends.flatMap fun send => fifoTxRequests FIFO send.2

section RoundTrip

variable {n : Nat} {device : Device} (peer : Device) (pool : BufferPool n)
  (memory : Fin n → PacketBuffer) (stale : Nat → PacketBuffer)
  (sends : List (Fin n × PacketBuffer))

theorem linkPieces_ne_nil (FIFO : Bool) :
    ∀ piece ∈ linkPieces FIFO sends, piece ≠ [] := by
  intro piece hMem
  obtain ⟨send, -, hPiece⟩ := List.mem_flatMap.mp hMem
  have hFrame := send.2.frame_ne_nil
  unfold fifoTxRequests at hPiece
  cases FIFO with
  | true =>
      obtain rfl : piece = send.2.frame := by simpa using hPiece
      exact hFrame
  | false =>
      obtain rfl | rfl : piece = send.2.frame ∨ piece = newline := by
        simpa using hPiece
      · exact hFrame
      · exact List.cons_ne_nil _ _

/-- `fifo_rx` makes one packet of every read from the link. -/
theorem injectedAtPeer_reads (device : Device) :
    ∃ buffers,
      injectedAtPeer device peer pool memory stale sends =
        buffers.map PacketBuffer.packet ∧
      List.Forall₂ PacketBuffer.Holds
        (reads cspPacketSize (linkPieces device.FIFO sends)) buffers := by
  let node : CspNode n := ⟨pool, memory, Port.fresh [] []⟩
  have hPort : node.port.CompleteWrites := Port.completeWrites_fresh []
  have hWritten := fifoTxAll_complete device hPort sends
  have hRx : (peerPort (fifoTxAll device sends node).port).rx =
      Feed.ofPieces (linkPieces device.FIFO sends) := by
    show Feed.ofPieces ((fifoTxAll device sends node).port.written.map
      WriteRecord.bytes) = _
    rw [hWritten, List.map_append, List.map_map]
    congr 1
    exact List.map_id'' WriteRecord.bytes_whole _
  have hCut : IsCut (linkPieces device.FIFO sends)
      (linkPieces device.FIFO sends).flatten :=
    ⟨rfl, linkPieces_ne_nil sends device.FIFO⟩
  let start : FifoRxState :=
    ⟨some (stale 0), 1, peerPort (fifoTxAll device sends node).port, []⟩
  obtain ⟨buffers, hInjected, hHolds⟩ :=
    @fifoRxLoop_cut peer start stale (stale 0) rfl _ _ hRx hCut
  refine ⟨buffers, ?_, hHolds⟩
  show List.map _ (fifoRx peer _ _).injected = _
  rw [fifoRx, hInjected, List.nil_append]

/-- In UART mode at least two packets come out for every one that is sent. -/
theorem length_linkPieces_uart :
    (linkPieces false sends).length = 2 * sends.length := by
  induction sends with
  | nil => rfl
  | cons send rest ih =>
      rw [linkPieces] at ih ⊢
      rw [List.flatMap_cons, List.length_append, ih, List.length_cons]
      show 2 + 2 * rest.length = _
      omega

theorem linkPieces_fifo :
    linkPieces true sends = sends.map fun send => send.2.frame := by
  rw [linkPieces, List.map_eq_flatMap]
  rfl

/-- A buffer that holds the frame of a packet holds this packet. -/
theorem packet_of_holds_frame {buffer buffer' : PacketBuffer}
    (hLength : buffer.length ≤ bufSize) (hHolds : buffer'.Holds buffer.frame) :
    buffer'.packet = buffer.packet := by
  apply PacketBuffer.packet_eq_of_take_eq
  have hFront := hHolds
  rw [PacketBuffer.Holds, PacketBuffer.length_frame hLength] at hFront
  rw [hFront, PacketBuffer.frame, packetHeaderSize]
  congr 1
  omega

/-- The packets that the MTU test lets through come out as they are sent exactly when
there are none, or when the mode is FIFO and every frame, not only its data, fits into
one read. -/
theorem fifoRoundTrip_iff (device : Device)
    (hMtu : ∀ send ∈ sends, PassesMtu cspPacketSize send.2.length) :
    injectedAtPeer device peer pool memory stale sends = sentPackets sends ↔
      sends = [] ∨
        (device.FIFO = true ∧
          ∀ send ∈ sends, packetHeaderSize + send.2.length ≤ cspPacketSize) := by
  have hData : ∀ send ∈ sends, send.2.length ≤ bufSize := by
    intro send hMem
    have hLe := (passesMtu_iff cspPacketSize_pos _).mp (hMtu send hMem)
    exact Nat.le_trans hLe cspPacketSize_le_bufSize
  have hPos := cspPacketSize_pos
  have hNe := linkPieces_ne_nil sends device.FIFO
  obtain ⟨buffers, hInjected, hHolds⟩ :=
    injectedAtPeer_reads peer pool memory stale sends device
  have hCount : (reads cspPacketSize (linkPieces device.FIFO sends)).length =
      (injectedAtPeer device peer pool memory stale sends).length := by
    rw [hInjected, List.length_map, hHolds.length_eq]
  have hFrames : (∀ piece ∈ linkPieces true sends, piece.length ≤ cspPacketSize) ↔
      ∀ send ∈ sends, packetHeaderSize + send.2.length ≤ cspPacketSize := by
    rw [linkPieces_fifo, List.forall_mem_map]
    apply forall₂_congr
    intro send hMem
    rw [PacketBuffer.length_frame (hData send hMem)]
  constructor
  · -- as many packets come out as there are reads, and as many go in as are sent
    intro hTrip
    rw [hTrip, sentPackets, List.length_map] at hCount
    cases hMode : device.FIFO with
    | true =>
        right
        rw [hMode] at hCount hNe
        refine ⟨rfl, hFrames.mp ?_⟩
        rw [← length_reads_eq_iff hPos hNe, hCount, linkPieces_fifo,
          List.length_map]
    | false =>
        left
        rw [hMode] at hCount hNe
        have hReads := length_le_length_reads hPos hNe
        rw [hCount, length_linkPieces_uart] at hReads
        apply List.eq_nil_of_length_eq_zero
        omega
  · rintro (rfl | ⟨hMode, hFits⟩)
    · cases hHolds
      exact hInjected
    · rw [hMode] at hHolds hNe
      rw [reads_eq_self hNe (hFrames.mpr hFits), linkPieces_fifo] at hHolds
      rw [hInjected, sentPackets]
      clear hInjected hCount hFrames hNe hFits hMtu
      -- frame by frame
      induction sends generalizing buffers with
      | nil =>
          cases hHolds
          rfl
      | cons send rest ih =>
          rw [List.forall_mem_cons] at hData
          cases hHolds with
          | cons hFirst hRest =>
              rw [List.map_cons, List.map_cons, ih hData.2 _ hRest,
                packet_of_holds_frame hData.1 hFirst]

end RoundTrip

/-- A packet of `count` letters. -/
def letters (count : Nat) (hFits : count < bufSize) : PacketBuffer :=
  (PacketBuffer.zero.strcpyData (List.replicate count 65)
    (length_letters_lt hFits)).setLength count

/-- A pool whose only buffer is in use. -/
def usedPool : BufferPool 1 :=
  ⟨[], fun _ => 1, []⟩

/-- Ten bytes of data come out as they are sent. -/
theorem fifoRoundTrip_ten_bytes :
    injectedAtPeer fifoDevice fifoDevice usedPool (fun _ => .zero) (fun _ => .zero)
        [(0, letters 10 (by decide))] =
      sentPackets [((0 : Fin 1), letters 10 (by decide))] :=
  (fifoRoundTrip_iff fifoDevice usedPool _ _ _ fifoDevice (by decide)).mpr
    (.inr ⟨rfl, by decide⟩)

/-- Eleven bytes of data pass the MTU test and come out as two packets, of which the
second takes the last byte of the data for its length.  In UART mode an empty packet
comes out as two, the second made of the newline. -/
theorem not_fifoRoundTrip :
    (PassesMtu cspPacketSize (letters 11 (by decide)).length ∧
      (injectedAtPeer fifoDevice fifoDevice usedPool (fun _ => .zero)
          (fun _ => .zero) [(0, letters 11 (by decide))]).map CspPacket.length =
        [11, 65] ∧
      injectedAtPeer fifoDevice fifoDevice usedPool (fun _ => .zero)
          (fun _ => .zero) [(0, letters 11 (by decide))] ≠
        sentPackets [((0 : Fin 1), letters 11 (by decide))]) ∧
    (PassesMtu cspPacketSize (letters 0 (by decide)).length ∧
      (injectedAtPeer uartDevice uartDevice usedPool (fun _ => .zero)
          (fun _ => .zero) [(0, letters 0 (by decide))]).map CspPacket.length =
        [0, 10] ∧
      injectedAtPeer uartDevice uartDevice usedPool (fun _ => .zero)
          (fun _ => .zero) [(0, letters 0 (by decide))] ≠
        sentPackets [((0 : Fin 1), letters 0 (by decide))]) := by
  refine ⟨⟨by decide, by decide +kernel, ?_⟩, ⟨by decide, by decide +kernel, ?_⟩⟩
  · decide +kernel
  · decide +kernel

end Csp
end CubeSatComm
