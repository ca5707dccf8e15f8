import CubeSatComm.Csp.DataPacket
import CubeSatComm.Lib.BitField

/-!
# The CAN interface

`csp_if_can.c` and `csp_if_can_pbuf.c`: a frame on the bus has no more than 8 bytes of data,
so a packet is sent as a first frame (`BEGIN`), with the header and the length in front of
the data, and as many more (`MORE`) as it takes.  The identifier of a frame says from whom
and to whom it is, which packet it belongs to, and how many frames of the packet are still
to come.  The receiver has a few elements in which packets are put together.

As for the KISS interface, what `csp_buffer_get` returns is an argument of the receiver.
Both ends are modelled as called by a task; the calls from an interrupt differ in the names
of the functions only.
-/

namespace CubeSatComm
namespace Csp
namespace Can

open Lib

/-- `CSP_ERR_TX` -/
def cspErrTx : Int := -10

/-- `CSP_ERR_DRIVER` -/
def cspErrDriver : Int := -11

/-- `MAX_BYTES_IN_CAN_FRAME` -/
def maxBytesInCanFrame : Nat := 8

/-- `CFP_OVERHEAD` -/
def cfpOverhead : Nat := 6

/-- `CFP_HOST_SIZE` -/
def cfpHostSize : Nat := 5

/-- `CFP_TYPE_SIZE` -/
def cfpTypeSize : Nat := 1

/-- `CFP_REMAIN_SIZE` -/
def cfpRemainSize : Nat := 8

/-- `CFP_ID_SIZE` -/
def cfpIdSize : Nat := 10

/-- `MAX_CAN_DATA_SIZE` -/
def maxCanDataSize : Nat := 2 ^ cfpRemainSize * maxBytesInCanFrame - cfpOverhead

/-! ## Identifiers -/

/-- `CFP_TYPE` -/
def cfpType (id : BitVec 32) : BitVec 32 := bitField id (cfpRemainSize + cfpIdSize) cfpTypeSize

/-- `CFP_REMAIN` -/
def cfpRemain (id : BitVec 32) : BitVec 32 := bitField id cfpIdSize cfpRemainSize

/-- `CFP_MAKE_SRC` -/
def cfpMakeSrc (value : BitVec 32) : BitVec 32 :=
  bitPlace value cfpHostSize (cfpHostSize + cfpTypeSize + cfpRemainSize + cfpIdSize)

/-- `CFP_MAKE_DST` -/
def cfpMakeDst (value : BitVec 32) : BitVec 32 :=
  bitPlace value cfpHostSize (cfpTypeSize + cfpRemainSize + cfpIdSize)

/-- `CFP_MAKE_TYPE` -/
def cfpMakeType (value : BitVec 32) : BitVec 32 :=
  bitPlace value cfpTypeSize (cfpRemainSize + cfpIdSize)

/-- `CFP_MAKE_REMAIN` -/
def cfpMakeRemain (value : BitVec 32) : BitVec 32 := bitPlace value cfpRemainSize cfpIdSize

/-- `CFP_MAKE_ID` -/
def cfpMakeId (value : BitVec 32) : BitVec 32 := bitPlace value cfpIdSize 0

/-- `CFP_ID_CONN_MASK` -/
def cfpIdConnMask : BitVec 32 :=
  cfpMakeSrc (1 <<< cfpHostSize - 1) ||| cfpMakeDst (1 <<< cfpHostSize - 1) |||
    cfpMakeId (1 <<< cfpIdSize - 1)

/-- `CFP_BEGIN` -/
def cfpBegin : BitVec 32 := 0

/-- `CFP_MORE` -/
def cfpMore : BitVec 32 := 1

/-- A frame on the bus; `dlc` is the length of its data. -/
structure CanFrame where
  id : BitVec 32
  data : List UInt8
  deriving DecidableEq, Repr

/-! ## Sending -/

/-- What `csp_can_tx` returns, the frames that it has sent, whether it has freed the packet,
and what it has done to `cfp_frame_id` and `tx_error`. -/
structure CanSent where
  ret : Int
  frames : List CanFrame
  freed : Bool
  cfpFrameId : BitVec 32
  txError : Nat
  deriving DecidableEq, Repr

variable {size : Nat}

/-- The identifier of a frame. -/
def cfpIdentifier (src dest ident type : BitVec 32) (remain : Nat) : BitVec 32 :=
  cfpMakeSrc src ||| cfpMakeDst dest ||| cfpMakeId ident ||| cfpMakeType type |||
    cfpMakeRemain (BitVec.ofNat 32 remain)

/-- The loop of `csp_can_tx` from the `k`-th frame on, when `txCount` bytes have been sent;
every pass sends one byte at least.  `accepts` says which frames the driver takes. -/
def canTxLoop (packet : AreaPacket size) (src dest ident : BitVec 32) (accepts : Nat → Bool) :
    Nat → Nat → Nat → Bool × List CanFrame
  | 0, _, _ => (true, [])
  | fuel + 1, k, txCount =>
      if txCount < packet.length then
        let bytes :=
          if packet.length - txCount ≥ maxBytesInCanFrame then maxBytesInCanFrame
          else packet.length - txCount
        let remain :=
          (packet.length - txCount - bytes + maxBytesInCanFrame - 1) / maxBytesInCanFrame
        let frame : CanFrame :=
          ⟨cfpIdentifier src dest ident cfpMore remain, (packet.data.drop txCount).take bytes⟩
        if accepts k then
          let rest := canTxLoop packet src dest ident accepts fuel (k + 1) (txCount + bytes)
          (rest.1, frame :: rest.2)
        else
          (false, [])
      else
        (true, [])

/-- `csp_can_tx`; `via` is the route's, unless it is `CSP_NO_VIA_ADDRESS`. -/
def cspCanTx (packet : AreaPacket size) (via : Option Nat) (cfpFrameId : BitVec 32)
    (accepts : Nat → Bool) : CanSent :=
  let ident := cfpFrameId
  let cfpFrameId := cfpFrameId + 1
  if packet.length > maxCanDataSize then
    ⟨cspErrTx, [], false, cfpFrameId, 0⟩
  else
    let src := BitVec.ofNat 32 (idSrc packet.id)
    let dest := BitVec.ofNat 32 (via.getD (idDst packet.id))
    let avail := maxBytesInCanFrame - cfpOverhead
    let bytes := if packet.length ≤ avail then packet.length else avail
    let remain := (packet.length + cfpOverhead - 1) / maxBytesInCanFrame
    let first : CanFrame :=
      ⟨cfpIdentifier src dest ident cfpBegin remain,
        toBigEndian 4 packet.id ++ toBigEndian 2 packet.length ++ packet.data.take bytes⟩
    if accepts 0 then
      let rest := canTxLoop packet src dest ident accepts packet.length 1 bytes
      if rest.1 then
        ⟨cspErrNone, first :: rest.2, true, cfpFrameId, 0⟩
      else
        ⟨cspErrDriver, first :: rest.2, false, cfpFrameId, 1⟩
    else
      ⟨cspErrDriver, [], false, cfpFrameId, 1⟩

/-! ## Receiving -/

/-- `csp_can_pbuf_element_t`; `used` is `state == BUF_USED`. -/
structure PbufElement (size : Nat) where
  rxCount : Nat
  remain : BitVec 32
  cfpid : BitVec 32
  packet : Option (FittingPacket size)
  used : Bool
  lastUsed : BitVec 32

/-- `PBUF_ELEMENTS` -/
def pbufElements : Nat := 5

/-- `PBUF_TIMEOUT_MS` -/
def pbufTimeoutMs : BitVec 32 := 1000

/-- An element as it is at first, and as `csp_can_pbuf_free` leaves it. -/
def PbufElement.cleared : PbufElement size := ⟨0, 0, 0, none, false, 0⟩

/-- The frame belongs to the packet that is put together in the element. -/
def PbufElement.matches (element : PbufElement size) (id : BitVec 32) : Bool :=
  element.used && element.cfpid &&& cfpIdConnMask == id &&& cfpIdConnMask

/-- What `csp_can_pbuf_free` frees. -/
def PbufElement.held (element : PbufElement size) : Nat :=
  if element.packet.isSome then 1 else 0

/-- The interface as its receiver sees it, and what has been done so far. -/
structure CanRx (size : Nat) where
  /-- `csp_can_pbuf` -/
  pbufs : List (PbufElement size)
  rxError : Nat
  frame : Nat
  /-- Number of calls of `csp_buffer_get`. -/
  gets : Nat
  /-- Number of buffers that have been freed. -/
  freed : Nat
  /-- The packets that have been given to `csp_qfifo_write`. -/
  injected : List Datagram

/-- The interface before it has received anything. -/
def CanRx.added : CanRx size := ⟨List.replicate pbufElements PbufElement.cleared, 0, 0, 0, 0, []⟩

/-- `csp_can_pbuf_find`: which element it is. -/
def cspCanPbufFind (pbufs : List (PbufElement size)) (id : BitVec 32) : Option Nat :=
  pbufs.findIdx? (·.matches id)

/-- Whether `csp_can_pbuf_new` cleans an element up. -/
def PbufElement.timedOut (element : PbufElement size) (now : BitVec 32) : Bool :=
  element.used && now - element.lastUsed > pbufTimeoutMs

/-- `csp_can_pbuf_new`: which element it is, the elements, and how many buffers have been
freed. -/
def cspCanPbufNew (id now : BitVec 32) :
    List (PbufElement size) → Option Nat × List (PbufElement size) × Nat
  | [] => (none, [], 0)
  | element :: rest =>
      let freed := if element.timedOut now then element.held else 0
      let element := if element.timedOut now then PbufElement.cleared else element
      if element.used then
        let others := cspCanPbufNew id now rest
        (others.1.map (· + 1), element :: others.2.1, freed + others.2.2)
      else
        (some 0, { element with used := true, cfpid := id, remain := 0, lastUsed := now } :: rest,
          freed)

/-- What a frame has done, apart from what it has done to the other elements. -/
structure CanEffect (size : Nat) where
  element : PbufElement size
  rxError : Nat
  frame : Nat
  gets : Nat
  freed : Nat
  injected : List Datagram

/-- `csp_can_pbuf_free` for a frame that is not as it should be. -/
def PbufElement.giveUp (element : PbufElement size) (rxError frame gets : Nat) :
    CanEffect size :=
  ⟨PbufElement.cleared, rxError, frame, gets, element.held, []⟩

/-- The case `CFP_MORE` of `csp_can_rx` for an element with a packet, from the `offset`-th
byte of the frame on. -/
def rxMore (element : PbufElement size) (packet : FittingPacket size) (frame : CanFrame)
    (offset gets : Nat) : CanEffect size :=
  if cfpRemain frame.id ≠ element.remain - 1 then
    element.giveUp 0 1 gets
  else
    let remain := element.remain - 1
    let bytes := frame.data.drop offset
    if hOver : packet.val.length < element.rxCount + bytes.length then
      element.giveUp 0 1 gets
    else
      let stored := packet.val.put element.rxCount bytes (by have h := packet.property; omega)
      let rxCount := element.rxCount + bytes.length
      if rxCount = packet.val.length then
        ⟨PbufElement.cleared, 0, 0, gets, 0, [stored.datagram]⟩
      else
        ⟨{ element with rxCount := rxCount, remain := remain, packet := some ⟨stored, packet.2⟩ },
          0, 0, gets, 0, []⟩

/-- The case `CFP_BEGIN` from the check of the length on. -/
def rxLength (element : PbufElement size) (packet : AreaPacket size) (frame : CanFrame)
    (frames gets : Nat) : CanEffect size :=
  if hLong : packet.length > maxCanDataSize ∨ packet.length > size then
    ⟨PbufElement.cleared, 1, frames, gets, 1, []⟩
  else
    let held : FittingPacket size := ⟨packet, by omega⟩
    let more := rxMore
      { element with rxCount := 0, remain := cfpRemain frame.id + 1, packet := some held } held
      frame cfpOverhead gets
    { more with frame := frames + more.frame }

/-- The case `CFP_BEGIN` for an element with a buffer. -/
def rxBegin (element : PbufElement size) (buffer : AreaPacket size) (frame : CanFrame)
    (frames gets : Nat) : CanEffect size :=
  rxLength element
    { buffer with
      id := ofBigEndian (frame.data.take 4)
      length := ofBigEndian ((frame.data.drop 4).take 2) }
    frame frames gets

/-- What `csp_can_rx` does with a frame and its element; `supply` is what `csp_buffer_get`
returns. -/
def rxElement (supply : Option (AreaPacket size)) (element : PbufElement size)
    (frame : CanFrame) : CanEffect size :=
  if cfpType frame.id = cfpBegin then
    if frame.data.length < cfpOverhead then
      element.giveUp 0 1 0
    else
      match element.packet with
      | some packet => rxBegin element packet.val frame 1 0
      | none =>
          match supply with
          | some buffer => rxBegin element buffer frame 0 1
          | none => element.giveUp 0 1 1
  else
    match element.packet with
    | some packet => rxMore element packet frame 0 0
    -- not reached: a used element has a packet
    | none => ⟨element, 0, 0, 0, 0, []⟩

/-- The interface after a frame has been dealt with in the `i`-th element. -/
def CanRx.receive (supply : Nat → Option (AreaPacket size)) (s : CanRx size) (i : Nat)
    (frame : CanFrame) : CanRx size :=
  match s.pbufs[i]? with
  | none => s
  | some element =>
      let effect := rxElement (supply s.gets) element frame
      { pbufs := s.pbufs.set i effect.element
        rxError := s.rxError + effect.rxError
        frame := s.frame + effect.frame
        gets := s.gets + effect.gets
        freed := s.freed + effect.freed
        injected := s.injected ++ effect.injected }

/-- `csp_can_rx`; `now` is what `csp_get_ms` returns. -/
def cspCanRx (supply : Nat → Option (AreaPacket size)) (s : CanRx size) (now : BitVec 32)
    (frame : CanFrame) : CanRx size :=
  match cspCanPbufFind s.pbufs frame.id with
  | some i =>
      { s with pbufs := s.pbufs.modify i fun element => { element with lastUsed := now } }.receive
        supply i frame
  | none =>
      if cfpType frame.id = cfpBegin then
        let new := cspCanPbufNew frame.id now s.pbufs
        let s := { s with pbufs := new.2.1, freed := s.freed + new.2.2 }
        match new.1 with
        | some i => s.receive supply i frame
        | none => { s with rxError := s.rxError + 1 }
      else
        { s with frame := s.frame + 1 }

/-- What has been received at which time. -/
def canRun (supply : Nat → Option (AreaPacket size)) (s : CanRx size)
    (events : List (BitVec 32 × CanFrame)) : CanRx size :=
  events.foldl (fun s event => cspCanRx supply s event.1 event.2) s

end Can
end Csp
end CubeSatComm
