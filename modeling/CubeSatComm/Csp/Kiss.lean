import CubeSatComm.Csp.Crc32

/-!
# The KISS interface

`csp_if_kiss.c`: packets on a serial line.  `csp_kiss_tx` completes a packet with its
checksum and sends its header and data between two `FEND`s, with every byte that would be
taken for one escaped.  `csp_kiss_rx` is called with whatever the driver has read, and
takes it apart byte by byte; a packet that is complete goes to the router.

What `csp_buffer_get` returns is an argument of the receiver: its `k`-th call returns the
`k`-th entry of a supply, a buffer with the contents that its last user has left, or
`NULL`.
-/

namespace CubeSatComm
namespace Csp
namespace Kiss

open Lib

/-- `FEND` -/
def fend : UInt8 := 0xC0

/-- `FESC` -/
def fesc : UInt8 := 0xDB

/-- `TFEND` -/
def tfend : UInt8 := 0xDC

/-- `TFESC` -/
def tfesc : UInt8 := 0xDD

/-- `TNC_DATA` -/
def tncData : UInt8 := 0x00

/-! ## Sending -/

/-- What is sent for a byte. -/
def escape (byte : UInt8) : List UInt8 :=
  if byte = fend then [fesc, tfend] else if byte = fesc then [fesc, tfesc] else [byte]

/-- What is sent for the header and the data of a packet. -/
def frame (content : List UInt8) : List UInt8 :=
  [fend, tncData] ++ content.flatMap escape ++ [fend]

/-- What is sent of the header and the data behind it.  The header is counted into
`packet->length`, a word of 16 bits. -/
def wireContent {size : Nat} (packet : AreaPacket size) : List UInt8 :=
  (toBigEndian idSize packet.id ++ packet.data).take ((packet.length + idSize) % 2 ^ 16)

/-- What `csp_kiss_tx` returns, what it has sent, and whether it has freed the packet. -/
structure KissSent where
  ret : Int
  bytes : List UInt8
  freed : Bool
  deriving DecidableEq, Repr

/-- `csp_kiss_tx`; `locked` says whether the lock is had in time. -/
def cspKissTx {size : Nat} (packet : AreaPacket size) (locked : Bool) : KissSent :=
  -- the result of `csp_crc32_append` is not looked at: the MTU has to leave room
  let packet := (cspCrc32Append packet false).2
  if locked then
    ⟨cspErrNone, frame (wireContent packet), true⟩
  else
    ⟨cspErrTimedout, [], false⟩

/-! ## Receiving -/

/-- `csp_kiss_mode_t` -/
inductive KissMode where
  | notStarted
  | started
  | escaped
  | skipFrame
  deriving DecidableEq, Repr

/-- A buffer, from the field `id` of its packet on. -/
structure RxBuffer (size : Nat) where
  cells : List UInt8
  length_cells : cells.length = cspHeaderLength + size

namespace RxBuffer

variable {size : Nat} (buffer : RxBuffer size)

/-- Store a byte.  One behind the end is not stored in the buffer. -/
def set (index : Nat) (byte : UInt8) : RxBuffer size :=
  ⟨buffer.cells.set index byte, by rw [List.length_set, buffer.length_cells]⟩

/-- The packet, once `rxLength` bytes have been received. -/
def packet (rxLength : Nat) : AreaPacket size where
  -- no longer than the data area, so the word of 16 bits does not overflow
  length := rxLength - cspHeaderLength
  id := ofBigEndian (buffer.cells.take cspHeaderLength)
  data := buffer.cells.drop cspHeaderLength
  length_data := by rw [List.length_drop, buffer.length_cells, Nat.add_sub_cancel_left]

/-- The field `id` in host order. -/
def hostOrder : RxBuffer size :=
  ⟨store buffer.cells 0 (buffer.cells.take cspHeaderLength).reverse, by
    rw [length_store]
    · exact buffer.length_cells
    · simp [buffer.length_cells]⟩

end RxBuffer

/-- The interface as its receiver sees it: `csp_kiss_interface_data_t`, the counters of
`csp_iface_t`, and what has been done so far. -/
structure KissRx (size : Nat) where
  maxRxLength : Nat
  rxMode : KissMode
  rxLength : Nat
  rxFirst : Bool
  rxPacket : Option (RxBuffer size)
  rxError : Nat
  frames : Nat
  /-- Number of calls of `csp_buffer_get`. -/
  gets : Nat
  /-- The packets that have been given to `csp_qfifo_write`. -/
  injected : List Datagram
  /-- Where in a buffer bytes have been stored. -/
  stores : List Nat

variable {size : Nat}

/-- The interface as `csp_kiss_add_interface` leaves it. -/
def KissRx.added : KissRx size where
  maxRxLength := cspHeaderLength + size
  rxMode := .notStarted
  rxLength := 0
  rxFirst := false
  rxPacket := none
  rxError := 0
  frames := 0
  gets := 0
  injected := []
  stores := []

/-- The MTU that `csp_kiss_add_interface` leaves, for the MTU that it finds. -/
def cspKissMtu (size mtu : Nat) : Nat :=
  -- the difference is taken without a sign
  let maxDataSize := (2 ^ 32 + size - crcSize) % 2 ^ 32
  if mtu = 0 ∨ mtu > maxDataSize then maxDataSize % 2 ^ 16 else mtu

/-- The interface has an MTU, which leaves room for the checksum. -/
theorem cspKissMtu_room (hCrc : crcSize < size) (hSize : size < 2 ^ 16) (mtu : Nat) :
    0 < cspKissMtu size mtu ∧ cspKissMtu size mtu + crcSize ≤ size := by
  have hMax : (2 ^ 32 + size - crcSize) % 2 ^ 32 = size - crcSize := by
    rw [Nat.add_sub_assoc (Nat.le_of_lt hCrc), Nat.add_mod_left, Nat.mod_eq_of_lt (by omega)]
  have hWord : (size - crcSize) % 2 ^ 16 = size - crcSize := Nat.mod_eq_of_lt (by omega)
  simp only [cspKissMtu, hMax, hWord]
  split <;> omega

/-- A packet that passes it has room for the checksum. -/
theorem room_of_passesMtu (hCrc : crcSize < size) (hSize : size < 2 ^ 16) {mtu length : Nat}
    (hPasses : PassesMtu (cspKissMtu size mtu) length) : length + crcSize ≤ size := by
  obtain ⟨hPos, hRoom⟩ := cspKissMtu_room hCrc hSize mtu
  have hLe := (passesMtu_iff hPos length).mp hPasses
  omega

namespace KissRx

/-- The store of a byte of the packet. -/
def put (s : KissRx size) (byte : UInt8) : KissRx size :=
  match s.rxPacket with
  | none => s
  | some buffer =>
      { s with
        rxPacket := some (buffer.set s.rxLength byte)
        rxLength := s.rxLength + 1
        stores := s.stores ++ [s.rxLength] }

/-- A packet that is too long is given up. -/
def checkOverflow (s : KissRx size) : KissRx size :=
  if s.rxLength > s.maxRxLength then
    { s with rxError := s.rxError + 1, rxMode := .notStarted, rxLength := 0 }
  else
    s

/-- A `FEND` at which a packet may begin. -/
def start (supply : Nat → Option (RxBuffer size)) (s : KissRx size) : KissRx size :=
  match s.rxPacket with
  | some _ => { s with rxLength := 0, rxMode := .started, rxFirst := true }
  | none =>
      match supply s.gets with
      | none => { s with gets := s.gets + 1, rxMode := .skipFrame }
      | some buffer =>
          { s with
            gets := s.gets + 1
            rxPacket := some buffer
            rxLength := 0
            rxMode := .started
            rxFirst := true }

/-- A `FEND` behind `rxLength` bytes. -/
def finish (s : KissRx size) : KissRx size :=
  if s.rxLength < cspHeaderLength + crcSize then
    { s with rxError := s.rxError + 1, rxMode := .notStarted }
  else
    match s.rxPacket with
    | none => s
    | some buffer =>
        let (ret, packet) := cspCrc32Verify (buffer.packet s.rxLength) false
        if ret ≠ cspErrNone then
          { s with
            frames := s.frames + 1
            rxError := s.rxError + 1
            rxPacket := some buffer.hostOrder
            rxMode := .notStarted }
        else
          { s with
            frames := s.frames + 1
            injected := s.injected ++ [packet.datagram]
            rxPacket := none
            rxMode := .notStarted }

/-- What `csp_kiss_rx` does with a byte, behind the test for an overflow. -/
def dispatch (supply : Nat → Option (RxBuffer size)) (s : KissRx size) (byte : UInt8) :
    KissRx size :=
  match s.rxMode with
  | .notStarted => if byte ≠ fend then s else s.start supply
  | .started =>
      if byte = fesc then
        { s with rxMode := .escaped }
      else if byte = fend then
        if s.rxLength > 0 then s.finish else s
      else if s.rxFirst then
        { s with rxFirst := false }
      else
        s.put byte
  | .escaped =>
      let s := if byte = tfesc then s.put fesc else s
      let s := if byte = tfend then s.put fend else s
      { s with rxMode := .started }
  | .skipFrame => if byte = fend then { s with rxMode := .notStarted } else s

/-- What it does with a byte. -/
def rxByte (supply : Nat → Option (RxBuffer size)) (s : KissRx size) (byte : UInt8) :
    KissRx size :=
  s.checkOverflow.dispatch supply byte

end KissRx

/-- `csp_kiss_rx` -/
def cspKissRx (supply : Nat → Option (RxBuffer size)) (s : KissRx size)
    (buf : List UInt8) : KissRx size :=
  buf.foldl (KissRx.rxByte supply) s

end Kiss
end Csp
end CubeSatComm
