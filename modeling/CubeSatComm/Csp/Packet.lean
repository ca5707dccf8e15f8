import CubeSatComm.Lib.LittleEndian
import CubeSatComm.Lib.Memory

/-!
# CSP packets and the buffers that hold them

A packet lives in a buffer of the pool.  The programs address it from its field
`length` on: two bytes of `length`, four of `id`, and the data area of `BUF_SIZE`
bytes behind them, in this order and without gaps.  `fifo_tx` writes the front of
this memory to its device and `fifo_rx` lets `read` store over it, so a buffer is
modelled by its cells, and the fields are read off them.

The data area holds more bytes than the packet has.  What a consumer of a packet
sees is `PacketBuffer.packet`: the two fields and as much data as `length` says.
-/

namespace CubeSatComm
namespace Csp

open Lib

/-- `BUF_SIZE`, the size of the data area of every buffer. -/
def bufSize : Nat := 256

/-- `CSP_PACKET_SIZE`, the MTU of the interface and the count of every `read`. -/
def cspPacketSize : Nat := 16

theorem cspPacketSize_pos : 0 < cspPacketSize := by decide

theorem cspPacketSize_le_bufSize : cspPacketSize ≤ bufSize := by decide

/-- `sizeof(uint16_t)`, the size of the field `length`. -/
def lengthSize : Nat := 2

/-- `sizeof(uint32_t)`, the size of the field `id`. -/
def idSize : Nat := 4

/-- Size of the two fields in front of the data. -/
def packetHeaderSize : Nat := lengthSize + idSize

/-- A packet as its consumers see it. -/
structure CspPacket where
  length : Nat
  id : Nat
  data : List UInt8
  deriving DecidableEq, Repr

/-- A buffer of the pool, from the field `length` of its packet on. -/
structure PacketBuffer where
  cells : List UInt8
  length_cells : cells.length = packetHeaderSize + bufSize

namespace PacketBuffer

variable (buffer : PacketBuffer)

/-- `packet->length` -/
def length : Nat :=
  ofLittleEndian (buffer.cells.take lengthSize)

/-- `packet->id.ext` -/
def id : Nat :=
  ofLittleEndian ((buffer.cells.drop lengthSize).take idSize)

/-- `packet->data` -/
def data : List UInt8 :=
  buffer.cells.drop packetHeaderSize

/-- The packet in a buffer. -/
def packet : CspPacket :=
  ⟨buffer.length, buffer.id, buffer.data.take buffer.length⟩

/-- A buffer full of zeros. -/
def zero : PacketBuffer :=
  ⟨List.replicate (packetHeaderSize + bufSize) 0, List.length_replicate⟩

/-- Store bytes into a buffer.  They have to fit. -/
def store (offset : Nat) (bytes : List UInt8)
    (hFits : offset + bytes.length ≤ packetHeaderSize + bufSize) :
    PacketBuffer :=
  ⟨Lib.store buffer.cells offset bytes, by
    rw [length_store (by rwa [buffer.length_cells]), buffer.length_cells]⟩

@[simp] theorem cells_store (offset : Nat) (bytes : List UInt8)
    (hFits : offset + bytes.length ≤ packetHeaderSize + bufSize) :
    (buffer.store offset bytes hFits).cells =
      Lib.store buffer.cells offset bytes := rfl

/-- `packet->length = value` -/
def setLength (value : Nat) : PacketBuffer :=
  buffer.store 0 (toLittleEndian lengthSize value) (by
    rw [length_toLittleEndian]
    decide)

/-- `packet->id.ext = value` -/
def setId (value : Nat) : PacketBuffer :=
  buffer.store lengthSize (toLittleEndian idSize value) (by
    rw [length_toLittleEndian]
    decide)

/-- `strcpy(packet->data, text)` -/
def strcpyData (text : List UInt8) (hFits : text.length < bufSize) :
    PacketBuffer :=
  buffer.store packetHeaderSize (text ++ [0]) (by
    rw [List.length_append, List.length_singleton]
    omega)

@[simp] theorem length_setLength (value : Nat) :
    (buffer.setLength value).length = value % 2 ^ 16 := by
  have hFront : (buffer.setLength value).cells.take lengthSize =
      toLittleEndian lengthSize value := by
    rw [setLength, cells_store, store_zero, List.take_left' (by simp)]
  rw [length, hFront, ofLittleEndian_toLittleEndian]
  rfl

/-- Stores behind the field `length` leave it alone. -/
theorem length_store_behind {offset : Nat} {bytes : List UInt8}
    (hFits : offset + bytes.length ≤ packetHeaderSize + bufSize)
    (hBehind : lengthSize ≤ offset) :
    (buffer.store offset bytes hFits).length = buffer.length := by
  have hOffset : offset ≤ buffer.cells.length := by
    rw [buffer.length_cells]
    omega
  rw [length, cells_store, take_store hOffset hBehind, length]

@[simp] theorem length_setId (value : Nat) :
    (buffer.setId value).length = buffer.length :=
  buffer.length_store_behind _ (Nat.le_refl _)

end PacketBuffer

/-- A packet is determined by the front of its buffer: the two fields and as many
bytes of data as `length` says. -/
theorem PacketBuffer.packet_eq_of_take_eq {buffer buffer' : PacketBuffer}
    (hFront : buffer'.cells.take (packetHeaderSize + buffer.length) =
      buffer.cells.take (packetHeaderSize + buffer.length)) :
    buffer'.packet = buffer.packet := by
  have hTake : ∀ k ≤ packetHeaderSize + buffer.length,
      buffer'.cells.take k = buffer.cells.take k := by
    intro k hLe
    have hEq := congrArg (List.take k) hFront
    rwa [List.take_take, List.take_take, Nat.min_eq_left hLe] at hEq
  have hLength : buffer'.length = buffer.length := by
    rw [length, length, hTake lengthSize (by simp only [packetHeaderSize]; omega)]
  have hId : buffer'.id = buffer.id := by
    rw [id, id, List.take_drop, List.take_drop,
      hTake (lengthSize + idSize) (by simp only [packetHeaderSize]; omega)]
  have hData : buffer'.data.take buffer.length = buffer.data.take buffer.length := by
    rw [data, data, List.take_drop, List.take_drop, hFront]
  rw [packet, packet, hLength, hId, hData]

/-- A text of letters fits into the data area with its NUL. -/
theorem length_letters_lt {count : Nat} (hFits : count < bufSize) :
    (List.replicate count (65 : UInt8)).length < bufSize := by
  rwa [List.length_replicate]

end Csp
end CubeSatComm
