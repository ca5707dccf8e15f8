import CubeSatComm.Csp.Buffer
import CubeSatComm.Lib.Loop
import CubeSatComm.Posix.Port

/-!
# The FIFO and UART driver

`fifo_tx` and `fifo_rx`, which the client and the server share word for word.
`fifo_tx` puts the two header fields and the data of a packet into one `write`; in
UART mode a newline follows in a `write` of its own.  `fifo_rx` takes whatever one
`read` of `CSP_PACKET_SIZE` bytes returns for one packet.

The router and the server's read loop return buffers to the pool while `fifo_rx`
runs.  So `fifo_rx` is given the results of its calls of `csp_buffer_get`: a buffer,
with what its last user has left in it, or `NULL`.
-/

namespace CubeSatComm
namespace Csp

open Lib Posix

/-- The globals `FIFO`, `io`, `fifo_i` and `fifo_o`.  A program that cannot open the
descriptors of its mode ends before it uses them. -/
structure Device where
  FIFO : Bool
  io : Int
  fifoI : Int
  fifoO : Int
  io_open : FIFO = false → 0 ≤ io
  fifo_open : FIFO = true → 0 ≤ fifoI ∧ 0 ≤ fifoO

/-- The descriptor that `fifo_tx` writes to. -/
def Device.txFd (device : Device) : Int :=
  if device.FIFO then device.fifoO else device.io

/-- The descriptor that `fifo_rx` reads from. -/
def Device.rxFd (device : Device) : Int :=
  if device.FIFO then device.fifoI else device.io

theorem Device.txFd_nonneg (device : Device) : 0 ≤ device.txFd := by
  unfold txFd
  split
  · next hFifo => exact (device.fifo_open hFifo).2
  · next hUart => exact device.io_open (Bool.eq_false_iff.mpr hUart)

theorem Device.rxFd_nonneg (device : Device) : 0 ≤ device.rxFd := by
  unfold rxFd
  split
  · next hFifo => exact (device.fifo_open hFifo).1
  · next hUart => exact device.io_open (Bool.eq_false_iff.mpr hUart)

/-- The named pipes of the FIFO mode. -/
def fifoDevice : Device where
  FIFO := true
  io := 0
  fifoI := 3
  fifoO := 4
  io_open := nofun
  fifo_open := fun _ => ⟨by decide, by decide⟩

/-- The serial line of the UART mode. -/
def uartDevice : Device where
  FIFO := false
  io := 3
  fifoI := 0
  fifoO := 0
  io_open := fun _ => by decide
  fifo_open := nofun

/-! ## Sending -/

/-- `CSP_ERR_NONE` -/
def cspErrNone : Int := 0

/-- `"\n"` -/
def newline : List UInt8 := [10]

/-- The pool of a program, the memory of its buffers, and the device it sends to. -/
structure CspNode (n : Nat) where
  pool : BufferPool n
  memory : Fin n → PacketBuffer
  port : Port

/-- What `fifo_tx` writes for the packet: `length`, `id` and the data.  A length that
the buffer does not have is cut off at its end. -/
def PacketBuffer.frame (buffer : PacketBuffer) : List UInt8 :=
  buffer.cells.take (buffer.length + idSize + lengthSize)

/-- `fifo_tx` -/
def fifoTx {n : Nat} (device : Device) (packet : Fin n) (node : CspNode n) :
    Int × CspNode n :=
  -- a `write` that returns `-1` is reported on the screen only
  let port := (node.port.write device.txFd (node.memory packet).frame).2
  let port :=
    if device.FIFO then port else (port.write device.txFd newline).2
  (cspErrNone,
    { node with pool := cspBufferFree (some packet) node.pool, port := port })

/-- The requests of the `write` calls of `fifo_tx`. -/
def fifoTxRequests (FIFO : Bool) (buffer : PacketBuffer) : List (List UInt8) :=
  if FIFO then [buffer.frame] else [buffer.frame, newline]

/-- Packets that are filled in and handed to `fifo_tx` one after the other, each in
the buffer that stands with it. -/
def fifoTxAll {n : Nat} (device : Device) :
    List (Fin n × PacketBuffer) → CspNode n → CspNode n
  | [], node => node
  | (packet, contents) :: rest, node =>
      let memory := Function.update node.memory packet contents
      fifoTxAll device rest
        (fifoTx device packet { node with memory := memory }).2

/-- A frame has as many bytes as the length field and the header size say, as long
as these do not exceed the buffer. -/
theorem PacketBuffer.length_frame {buffer : PacketBuffer}
    (hLength : buffer.length ≤ bufSize) :
    buffer.frame.length = packetHeaderSize + buffer.length := by
  rw [frame, List.length_take, buffer.length_cells]
  simp only [packetHeaderSize]
  omega

theorem PacketBuffer.frame_ne_nil (buffer : PacketBuffer) : buffer.frame ≠ [] := by
  apply List.ne_nil_of_length_pos
  rw [frame, List.length_take, buffer.length_cells]
  simp only [packetHeaderSize, idSize, lengthSize]
  omega

section Tx

variable {n : Nat} (device : Device) {node : CspNode n}

/-- Over a device that accepts everything, `fifo_tx` sends its requests whole. -/
theorem fifoTx_complete (hPort : node.port.CompleteWrites) (packet : Fin n) :
    (fifoTx device packet node).2.port.CompleteWrites ∧
      (fifoTx device packet node).2.port.written =
        node.port.written ++
          (fifoTxRequests device.FIFO (node.memory packet)).map
            WriteRecord.whole := by
  have hFd := device.txFd_nonneg
  have hFirst := Port.write_complete hFd hPort (node.memory packet).frame
  have hRest : (node.port.write device.txFd
      (node.memory packet).frame).2.CompleteWrites := by
    rw [hFirst]
    exact Port.completeWrites_tail hPort rfl
  unfold fifoTx fifoTxRequests
  cases device.FIFO with
  | true =>
      refine ⟨hRest, ?_⟩
      simp [hFirst]
  | false =>
      have hSecond := Port.write_complete hFd hRest newline
      constructor
      · dsimp only
        rw [if_neg Bool.false_ne_true, hSecond]
        exact Port.completeWrites_tail hRest rfl
      · dsimp only
        rw [if_neg Bool.false_ne_true, hSecond, hFirst]
        simp

theorem fifoTxAll_complete (hPort : node.port.CompleteWrites)
    (sends : List (Fin n × PacketBuffer)) :
    (fifoTxAll device sends node).port.written =
      node.port.written ++
        (sends.flatMap fun send => fifoTxRequests device.FIFO send.2).map
          WriteRecord.whole := by
  induction sends generalizing node with
  | nil => simp [fifoTxAll]
  | cons send rest ih =>
      obtain ⟨packet, contents⟩ := send
      let filled : CspNode n :=
        { node with memory := Function.update node.memory packet contents }
      obtain ⟨hComplete, hWritten⟩ :=
        @fifoTx_complete n device filled hPort packet
      have hMemory : filled.memory packet = contents := Function.update_self ..
      rw [hMemory] at hWritten
      show (fifoTxAll device rest (fifoTx device packet filled).2).port.written = _
      rw [ih hComplete, hWritten, List.flatMap_cons, List.map_append,
        List.append_assoc]

end Tx

/-! ## Receiving -/

/-- State of the loop of `fifo_rx`. -/
structure FifoRxState where
  /-- The buffer that `packet` points to; `none` stands for `NULL`. -/
  packet : Option PacketBuffer
  /-- Number of calls of `csp_buffer_get` so far. -/
  gets : Nat
  port : Port
  /-- The packets handed to `csp_qfifo_write` so far, oldest first. -/
  injected : List PacketBuffer

/-- The buffer after a `read` at `&packet->length`. -/
def PacketBuffer.load (buffer : PacketBuffer) (bytes : List UInt8)
    (hLength : bytes.length ≤ cspPacketSize) : PacketBuffer :=
  buffer.store 0 bytes (by
    simp only [cspPacketSize, packetHeaderSize, bufSize] at hLength ⊢
    omega)

/-- `csp_qfifo_write` of a packet, and `csp_buffer_get` for the next one. -/
def FifoRxState.inject (supply : Nat → Option PacketBuffer) (port : Port)
    (packet : PacketBuffer) (s : FifoRxState) : FifoRxState where
  packet := supply s.gets
  gets := s.gets + 1
  port := port
  injected := s.injected ++ [packet]

/-- One pass through the loop of `fifo_rx`. -/
def fifoRxPass (device : Device) (supply : Nat → Option PacketBuffer)
    (s : FifoRxState) : Pass FifoRxState FifoRxState :=
  match hRead : s.port.read device.rxFd cspPacketSize with
  | none => .blocked
  | some (.error _, port) => .leave { s with port := port }
  | some (.ok bytes, port) =>
      match s.packet with
      -- `read` does not store at `&((csp_packet_t *) NULL)->length`: it fails
      | none => .leave s
      | some buffer =>
          if bytes.length > 0 then
            .again (s.inject supply port
              (buffer.load bytes (Port.length_le_of_read hRead)))
          else
            .leave { s with port := port }

theorem fifoRxPass_decreases (device : Device)
    (supply : Nat → Option PacketBuffer) :
    Loop.Decreases (fifoRxPass device supply) fun s => s.port.rx.size := by
  intro s s' hPass
  unfold fifoRxPass at hPass
  split at hPass
  · cases hPass
  · cases hPass
  · next bytes port hRead =>
    split at hPass
    · cases hPass
    · split at hPass
      · obtain rfl := Pass.again.inj hPass
        exact Port.size_lt_of_read cspPacketSize_pos hRead
      · cases hPass

/-- `fifo_rx`, until it returns or waits for ever. -/
def fifoRx (device : Device) (supply : Nat → Option PacketBuffer) (port : Port) :
    FifoRxState :=
  match supply 0 with
  | none => ⟨none, 1, port, []⟩
  | some buffer =>
      Loop.settle (fifoRxPass device supply) (fun s => s.port.rx.size)
        (fifoRxPass_decreases device supply) ⟨some buffer, 1, port, []⟩

section Rx

variable {device : Device} {supply : Nat → Option PacketBuffer} {s : FifoRxState}

theorem fifoRxPass_read {buffer : PacketBuffer} {bytes : List UInt8} {port : Port}
    (hPacket : s.packet = some buffer) (hNe : bytes ≠ [])
    (hRead : s.port.read device.rxFd cspPacketSize = some (.ok bytes, port)) :
    fifoRxPass device supply s =
      .again (s.inject supply port
        (buffer.load bytes (Port.length_le_of_read hRead))) := by
  have hPos := List.length_pos_iff.mpr hNe
  unfold fifoRxPass
  split
  · simp_all
  · simp_all
  · next bytes' port' hRead' =>
    obtain ⟨hBytes, rfl⟩ := Prod.mk.inj (Option.some.inj (hRead.symm.trans hRead'))
    obtain rfl := Except.ok.inj hBytes
    rw [hPacket]
    dsimp only
    rw [if_pos hPos]

theorem fifoRxPass_blocked
    (hRead : s.port.read device.rxFd cspPacketSize = none) :
    fifoRxPass device supply s = .blocked := by
  unfold fifoRxPass
  split <;> simp_all

theorem fifoRxPass_error {e : Errno} {port : Port}
    (hRead : s.port.read device.rxFd cspPacketSize = some (.error e, port)) :
    fifoRxPass device supply s = .leave { s with port := port } := by
  unfold fifoRxPass
  split <;> simp_all

theorem fifoRxPass_null {bytes : List UInt8} {port : Port}
    (hPacket : s.packet = none)
    (hRead : s.port.read device.rxFd cspPacketSize = some (.ok bytes, port)) :
    fifoRxPass device supply s = .leave s := by
  unfold fifoRxPass
  split <;> simp_all

theorem fifoRxPass_end {buffer : PacketBuffer} {port : Port}
    (hPacket : s.packet = some buffer)
    (hRead : s.port.read device.rxFd cspPacketSize = some (.ok [], port)) :
    fifoRxPass device supply s = .leave { s with port := port } := by
  unfold fifoRxPass
  split <;> simp_all

/-- A buffer that a `read` has stored `bytes` into. -/
def PacketBuffer.Holds (bytes : List UInt8) (buffer : PacketBuffer) : Prop :=
  buffer.cells.take bytes.length = bytes

theorem PacketBuffer.holds_load (buffer : PacketBuffer) {bytes : List UInt8}
    (hLength : bytes.length ≤ cspPacketSize) :
    Holds bytes (buffer.load bytes hLength) := by
  rw [Holds, load, cells_store, store_zero, List.take_left' rfl]

/-- With buffers always available, `fifo_rx` makes one packet of every read. -/
theorem fifoRxLoop_cut {stale : Nat → PacketBuffer} {buffer : PacketBuffer}
    (hPacket : s.packet = some buffer) {cut : List (List UInt8)}
    {stream : List UInt8} (hRx : s.port.rx = Feed.ofPieces cut)
    (hCut : IsCut cut stream) :
    ∃ buffers,
      (Loop.settle (fifoRxPass device fun k => some (stale k))
          (fun s => s.port.rx.size) (fifoRxPass_decreases device _) s).injected =
        s.injected ++ buffers ∧
      List.Forall₂ PacketBuffer.Holds (reads cspPacketSize cut) buffers := by
  have hPos := cspPacketSize_pos
  -- induction along the reads: each takes the first of them off the stream
  induction hReads : reads cspPacketSize cut generalizing s buffer cut stream with
  | nil =>
      have hStream := (isCut_reads hPos hCut).flatten_eq
      rw [hReads] at hStream
      obtain rfl : stream = [] := hStream.symm
      have hWait : s.port.read device.rxFd cspPacketSize = none :=
        Port.read_cut_end device.rxFd_nonneg hRx hCut
      rw [Loop.settle_blocked (fifoRxPass_blocked hWait)]
      exact ⟨[], (List.append_nil _).symm, .nil⟩
  | cons bytes rest ih =>
      have hNe : stream ≠ [] := by
        rintro rfl
        rw [isCut_nil_iff.mp hCut] at hReads
        cases hReads
      obtain ⟨xs, hRead, hXs, -, hNext, hRest, -⟩ :=
        Port.read_cut device.rxFd_nonneg hPos hRx hCut hNe
      rw [hReads] at hNext
      obtain ⟨rfl, rfl⟩ := List.cons.inj hNext
      let filled := buffer.load bytes (Port.length_le_of_read hRead)
      let supply : Nat → Option PacketBuffer := fun k => some (stale k)
      let port : Port :=
        { s.port with
          rx := Feed.ofPieces (afterRead cspPacketSize cut)
          reads := s.port.reads + 1 }
      have hPass : fifoRxPass device supply s =
          .again (s.inject supply port filled) :=
        fifoRxPass_read hPacket hXs hRead
      obtain ⟨buffers, hInjected, hHolds⟩ :=
        @ih (s.inject supply port filled) (stale s.gets) rfl _ _ rfl hRest rfl
      refine ⟨filled :: buffers, ?_, .cons (buffer.holds_load _) hHolds⟩
      rw [Loop.settle_again hPass, hInjected, FifoRxState.inject, List.append_assoc,
        List.singleton_append]

end Rx

end Csp
end CubeSatComm
