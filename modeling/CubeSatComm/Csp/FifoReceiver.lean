import CubeSatComm.Csp.FifoDriver
import CubeSatComm.Lib.Receiver

/-!
# `fifo_rx` as a receiver

`fifo_rx` owns one packet buffer at a time.  The receiver of `Receiver.pass` does the
same and keeps a log of its buffers; without the log it is `fifo_rx`, pass by pass
(`fifoRxPass_erase`) and over the whole run (`fifoRx_eq`).

The program of the named pipes has a `fifo_rx` of its own.  Its buffers are smaller, a
`read` may fill all of the data area, and it does not look at what the first
`csp_buffer_get` returns.
-/

namespace CubeSatComm
namespace Csp

open Lib Posix

theorem map_read {fd : Int} (hFd : 0 ≤ fd) (count : Nat) (port : Port) :
    (port.read fd count).map (Prod.map id Port.rx) = port.rx.read count := by
  rw [Port.read, if_neg (by omega)]
  cases port.rx.read count <;> rfl

/-- `read(fd, ..., count)` on an open descriptor. -/
def portReader (fd : Int) (hFd : 0 ≤ fd) (count : Nat) (hPos : 0 < count) :
    Reader Port UInt8 Errno where
  read := fun port => port.read fd count
  arrivals := Port.rx
  count := count
  count_pos := hPos
  read_arrivals := map_read hFd count

/-- The `read` of `fifo_rx`. -/
def Device.reader (device : Device) : Reader Port UInt8 Errno :=
  portReader device.rxFd device.rxFd_nonneg cspPacketSize cspPacketSize_pos

/-- The buffer after a `read` at `&packet->length` that has returned `bytes`. -/
def PacketBuffer.fill (buffer : PacketBuffer) (bytes : List UInt8) : PacketBuffer :=
  if hLength : bytes.length ≤ cspPacketSize then buffer.load bytes hLength else buffer

theorem PacketBuffer.fill_eq {buffer : PacketBuffer} {bytes : List UInt8}
    (hLength : bytes.length ≤ cspPacketSize) :
    buffer.fill bytes = buffer.load bytes hLength :=
  dif_pos hLength

/-- The state of `fifo_rx`: the state of the receiver without its log. -/
def FifoRxState.erase (s : Receiver.State Port PacketBuffer) : FifoRxState where
  packet := s.current.map Prod.snd
  gets := s.asked
  port := s.device
  injected := (Receiver.handed s.log).map Prod.snd

/-- `fifo_rx` with a log of its buffers. -/
def fifoRxOwning (device : Device) (supply : Nat → Option PacketBuffer) (port : Port) :
    Receiver.State Port PacketBuffer :=
  if supply 0 = none then
    Receiver.start supply port
  else
    Receiver.run device.reader PacketBuffer.fill supply (Receiver.start supply port)

section Erase

variable {device : Device} {supply : Nat → Option PacketBuffer}

theorem map_snd_request (k : Nat) :
    (Receiver.request supply k).map Prod.snd = supply k := by
  rw [Receiver.request]
  cases supply k <;> rfl

/-- Handing a buffer on is what `fifo_rx` does behind `csp_qfifo_write`. -/
theorem erase_handOn (s : Receiver.State Port PacketBuffer) (k : Nat)
    (buffer : PacketBuffer) (port : Port) :
    FifoRxState.erase (s.handOn supply k buffer port) =
      (FifoRxState.erase s).inject supply port buffer := by
  have hInjected : (Receiver.handed (s.handOn supply k buffer port).log).map Prod.snd =
      (Receiver.handed s.log).map Prod.snd ++ [buffer] := by
    rw [Receiver.handed_handOn, List.map_append]
    rfl
  rw [FifoRxState.erase, hInjected, Receiver.State.handOn]
  dsimp only
  rw [map_snd_request]
  rfl

/-- A pass of the receiver is one of `fifo_rx`. -/
theorem fifoRxPass_erase (s : Receiver.State Port PacketBuffer) :
    fifoRxPass device supply (.erase s) =
      (Receiver.pass device.reader PacketBuffer.fill supply s).map
        FifoRxState.erase FifoRxState.erase := by
  cases hRead : device.reader.read s.device with
  | none =>
      rw [Receiver.pass_blocked hRead]
      exact fifoRxPass_blocked hRead
  | some result =>
      obtain ⟨out, port⟩ := result
      cases out with
      | error e =>
          rw [Receiver.pass_error hRead]
          exact fifoRxPass_error hRead
      | ok bytes =>
          cases hCurrent : s.current with
          | none =>
              have hPacket : (FifoRxState.erase s).packet = none := by
                rw [FifoRxState.erase, hCurrent]
                rfl
              rw [Receiver.pass_refused hRead hCurrent]
              exact fifoRxPass_null hPacket hRead
          | some numbered =>
              obtain ⟨k, buffer⟩ := numbered
              have hPacket : (FifoRxState.erase s).packet = some buffer := by
                rw [FifoRxState.erase, hCurrent]
                rfl
              by_cases hNil : bytes = []
              · subst hNil
                rw [Receiver.pass_end hRead hCurrent]
                exact fifoRxPass_end hPacket hRead
              · rw [Receiver.pass_data hRead hCurrent hNil,
                  fifoRxPass_read hPacket hNil hRead, Pass.map, erase_handOn,
                  PacketBuffer.fill_eq (Port.length_le_of_read hRead)]

/-- What `fifo_rx` does is what the receiver does. -/
theorem fifoRx_eq (device : Device) (supply : Nat → Option PacketBuffer)
    (port : Port) :
    fifoRx device supply port = .erase (fifoRxOwning device supply port) := by
  have hStart : FifoRxState.erase (Receiver.start supply port) =
      ⟨supply 0, 1, port, []⟩ := by
    simp [FifoRxState.erase, Receiver.start, map_snd_request, Receiver.handed_answer]
  unfold fifoRx fifoRxOwning
  cases hFirst : supply 0 with
  | none =>
      rw [if_pos rfl, hStart, hFirst]
  | some buffer =>
      have hSettle : Loop.settle (fifoRxPass device supply) (fun s => s.port.rx.size)
          (fifoRxPass_decreases device supply) (.erase (Receiver.start supply port)) =
            .erase (Receiver.run device.reader PacketBuffer.fill supply
              (Receiver.start supply port)) :=
        Loop.settle_map fifoRxPass_erase _
      rw [hStart, hFirst] at hSettle
      rw [if_neg (Option.some_ne_none buffer)]
      exact hSettle

end Erase

/-! ## The program of the named pipes -/

namespace NamedPipe

/-- `BUF_SIZE`, the size of the data area and the count of every `read`. -/
def bufSize : Nat := 250

/-- A buffer of the pool, from the field `length` of its packet on. -/
structure PacketBuffer where
  cells : List UInt8
  length_cells : cells.length = packetHeaderSize + bufSize

/-- `packet->length` -/
def PacketBuffer.length (buffer : PacketBuffer) : Nat :=
  ofLittleEndian (buffer.cells.take lengthSize)

/-- A buffer full of zeros. -/
def PacketBuffer.zero : PacketBuffer :=
  ⟨List.replicate (packetHeaderSize + bufSize) 0, List.length_replicate⟩

/-- The buffer after a `read` at `&packet->length` that has returned `bytes`. -/
def PacketBuffer.fill (buffer : PacketBuffer) (bytes : List UInt8) : PacketBuffer :=
  if hLength : bytes.length ≤ bufSize then
    { cells := store buffer.cells 0 bytes
      length_cells := by
        rw [length_store (by rw [buffer.length_cells]; omega), buffer.length_cells] }
  else
    buffer

theorem PacketBuffer.cells_fill {buffer : PacketBuffer} {bytes : List UInt8}
    (hLength : bytes.length ≤ bufSize) :
    (buffer.fill bytes).cells = store buffer.cells 0 bytes := by
  rw [fill, dif_pos hLength]

/-- `rx_channel`.  The program ends when it cannot open it. -/
structure RxChannel where
  fd : Int
  fd_open : 0 ≤ fd

/-- The `read` of `fifo_rx`. -/
def RxChannel.reader (rxChannel : RxChannel) : Reader Port UInt8 Errno :=
  portReader rxChannel.fd rxChannel.fd_open bufSize (by decide)

/-- `fifo_rx`.  A first packet that is `NULL` goes to `read` as any later one. -/
def fifoRx (rxChannel : RxChannel) (supply : Nat → Option PacketBuffer) (port : Port) :
    Receiver.State Port PacketBuffer :=
  Receiver.run rxChannel.reader PacketBuffer.fill supply (Receiver.start supply port)

/-- The packets handed to `csp_qfifo_write`, oldest first. -/
def injected (s : Receiver.State Port PacketBuffer) : List PacketBuffer :=
  (Receiver.handed s.log).map Prod.snd

end NamedPipe

end Csp
end CubeSatComm
