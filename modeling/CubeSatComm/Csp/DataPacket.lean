import CubeSatComm.Csp.Send
import CubeSatComm.Lib.BigEndian

/-!
# Packets and their data areas

`csp_packet_t` as the library itself works on it: the fields `length` and `id`, and the
data area that `csp_buffer_init` has given every buffer.  The layers of the library append
their checksums and headers to the data, each behind those that are there already, and
strip them in the reverse order.

A store into the data area has to fit, so no layer can be modelled that writes behind it.
-/

namespace CubeSatComm
namespace Csp

open Lib

/-- `CSP_ERR_NOMEM` -/
def cspErrNomem : Int := -1

/-- `CSP_ERR_INVAL` -/
def cspErrInval : Int := -2

/-- `CSP_ERR_TIMEDOUT` -/
def cspErrTimedout : Int := -3

/-- `CSP_HEADER_LENGTH` -/
def cspHeaderLength : Nat := 4

/-! ## The header

The fields of `csp_id_t`, from the lowest bits of `ext` on. -/

/-- `id.flags` -/
def idFlags (ext : Nat) : Nat := ext % 2 ^ 8

/-- `id.dst` -/
def idDst (ext : Nat) : Nat := ext / 2 ^ 20 % 2 ^ 5

/-- `id.src` -/
def idSrc (ext : Nat) : Nat := ext / 2 ^ 25 % 2 ^ 5

/-! ## The data -/

/-- A packet as its consumers see it. -/
structure Datagram where
  id : Nat
  payload : List UInt8
  deriving DecidableEq, Repr

/-- `csp_packet_t` with a data area of `size` bytes.  `csp_conf.buffer_data_size` is a word of
16 bits, and so is `length`. -/
structure AreaPacket (size : Nat) where
  length : Nat
  id : Nat
  data : List UInt8
  length_data : data.length = size
  deriving DecidableEq

namespace AreaPacket

variable {size : Nat} (packet : AreaPacket size)

/-- The data that the packet has. -/
def payload : List UInt8 := packet.data.take packet.length

/-- The packet as its consumers see it. -/
def datagram : Datagram := ⟨packet.id, packet.payload⟩

/-- Store bytes into the data area. -/
def put (offset : Nat) (bytes : List UInt8) (hFits : offset + bytes.length ≤ size) :
    AreaPacket size :=
  { packet with
    data := store packet.data offset bytes
    length_data := by rw [length_store (by rwa [packet.length_data]), packet.length_data] }

/-- Overwrite the data with as many bytes. -/
theorem payload_put_zero {bytes : List UInt8} (hFits : 0 + bytes.length ≤ size)
    (hLength : bytes.length = packet.length) : (packet.put 0 bytes hFits).payload = bytes := by
  show (store packet.data 0 bytes).take packet.length = bytes
  rw [store_zero, ← hLength, List.take_left]

/-- Store bytes behind the data, and count them in. -/
def append (bytes : List UInt8) (hFits : packet.length + bytes.length ≤ size) :
    AreaPacket size :=
  { packet.put packet.length bytes hFits with length := packet.length + bytes.length }

/-- Take the last `count` bytes off the data. -/
def strip (count : Nat) : AreaPacket size :=
  { packet with length := packet.length - count }

@[simp] theorem length_put (offset : Nat) (bytes : List UInt8)
    (hFits : offset + bytes.length ≤ size) :
    (packet.put offset bytes hFits).length = packet.length := rfl

@[simp] theorem id_put (offset : Nat) (bytes : List UInt8)
    (hFits : offset + bytes.length ≤ size) :
    (packet.put offset bytes hFits).id = packet.id := rfl

@[simp] theorem length_append (bytes : List UInt8)
    (hFits : packet.length + bytes.length ≤ size) :
    (packet.append bytes hFits).length = packet.length + bytes.length := rfl

@[simp] theorem id_append (bytes : List UInt8)
    (hFits : packet.length + bytes.length ≤ size) :
    (packet.append bytes hFits).id = packet.id := rfl

@[simp] theorem length_strip (count : Nat) :
    (packet.strip count).length = packet.length - count := rfl

@[simp] theorem id_strip (count : Nat) : (packet.strip count).id = packet.id := rfl

@[simp] theorem data_strip (count : Nat) : (packet.strip count).data = packet.data := rfl

theorem length_payload_le : packet.payload.length ≤ size := by
  rw [payload, List.length_take, packet.length_data]
  exact Nat.min_le_right _ _

theorem length_payload (hFits : packet.length ≤ size) :
    packet.payload.length = packet.length := by
  rw [payload, List.length_take, packet.length_data, Nat.min_eq_left hFits]

@[simp] theorem payload_append (bytes : List UInt8)
    (hFits : packet.length + bytes.length ≤ size) :
    (packet.append bytes hFits).payload = packet.payload ++ bytes :=
  take_add_store (by rw [packet.length_data]; omega)

theorem payload_strip (count : Nat) :
    (packet.strip count).payload = packet.payload.take (packet.length - count) := by
  rw [payload, payload, List.take_take, length_strip, data_strip,
    Nat.min_eq_left (Nat.sub_le _ _)]

/-- What has been appended can be taken off again. -/
theorem payload_strip_of_eq {body bytes : List UInt8} (hFits : packet.length ≤ size)
    (hPayload : packet.payload = body ++ bytes) :
    (packet.strip bytes.length).payload = body := by
  have hLength := packet.length_payload hFits
  rw [hPayload, List.length_append] at hLength
  rw [payload_strip, hPayload, ← hLength, Nat.add_sub_cancel, List.take_left']
  rfl

end AreaPacket

/-- A packet whose length has been found to fit. -/
abbrev FittingPacket (size : Nat) := { packet : AreaPacket size // packet.length ≤ size }

end Csp
end CubeSatComm
