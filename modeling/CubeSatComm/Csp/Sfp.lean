import CubeSatComm.Csp.Security
import CubeSatComm.Lib.CInteger
import CubeSatComm.Lib.Fragment

/-!
# The fragmentation protocol

`csp_sfp.c`: a message that is too long for one packet is sent over a connection in packets
of `mtu` bytes each.  Behind these bytes every packet has a header with the offset of its
bytes in the message and the length of the message.

The receiver allocates an area for the whole message when it has the header of the first
packet, and copies the packets into it as they come.  It compares the end of a packet with
the size of the area in 32 bits, so a copy behind the area is part of the model
(`SfpPass.outside`).
-/

namespace CubeSatComm
namespace Csp
namespace Sfp

open Lib Lib.CInteger Security

/-- `CSP_FFRAG` -/
def cspFfrag : Nat := 0x10

/-- `CSP_ERR_SFP` -/
def cspErrSfp : Int := -103

/-- `sizeof(sfp_header_t)` -/
def sfpHeaderSize : Nat := 8

/-- `sfp_header_t` -/
structure SfpHeader where
  offset : Nat
  totalsize : Nat
  deriving DecidableEq, Repr

/-- The header in network byte order. -/
def SfpHeader.bytes (header : SfpHeader) : List UInt8 :=
  toBigEndian 4 header.offset ++ toBigEndian 4 header.totalsize

/-- Read the header. -/
def SfpHeader.ofBytes (bytes : List UInt8) : SfpHeader :=
  ⟨ofBigEndian (bytes.take 4), ofBigEndian ((bytes.drop 4).take 4)⟩

@[simp] theorem SfpHeader.length_bytes (header : SfpHeader) :
    header.bytes.length = sfpHeaderSize := by
  simp [bytes, sfpHeaderSize]

variable {size : Nat}

/-- `csp_sfp_header_add`, and the fields that are then written. -/
def cspSfpHeaderAdd (packet : AreaPacket size) (header : SfpHeader)
    (hFits : packet.length + sfpHeaderSize ≤ size) : AreaPacket size :=
  packet.append header.bytes (by rwa [SfpHeader.length_bytes])

/-- `csp_sfp_header_remove`; `none` stands for `NULL`. -/
def cspSfpHeaderRemove (packet : AreaPacket size) : Option (SfpHeader × AreaPacket size) :=
  if ¬ hasFlag packet.id cspFfrag then
    none
  else if packet.length < sfpHeaderSize then
    none
  else
    let header := SfpHeader.ofBytes (packet.data.drop (packet.length - sfpHeaderSize))
    if header.offset > header.totalsize then
      none
    else
      some (header, packet.strip sfpHeaderSize)

/-! ## Sending -/

/-- What the calls of `csp_buffer_get` and of `csp_send` return, in their order. -/
structure SfpEnv (size : Nat) where
  supply : Nat → Option (AreaPacket size)
  accepts : Nat → Bool

/-- What `csp_sfp_send_own_memcpy` returns, and what it has done. -/
structure SfpTx (size : Nat) where
  ret : Int
  /-- `conn->idout` -/
  idout : Nat
  /-- The packets that `csp_send` has taken, with the headers it has given them. -/
  sent : List (AreaPacket size)
  /-- Number of buffers that `csp_buffer_get` has returned. -/
  gets : Nat
  /-- Number of buffers that have been freed. -/
  freed : Nat

/-- The packet with the bytes from `count` on. -/
def sfpPacket (buffer : AreaPacket size) (data : List UInt8) (mtu count : Nat)
    (hRoom : mtu + sfpHeaderSize ≤ size) : AreaPacket size :=
  let bytes := (data.drop count).take mtu
  have hBytes : bytes.length ≤ mtu := List.length_take_le _ _
  let copied := buffer.put 0 bytes (by omega)
  cspSfpHeaderAdd { copied with length := bytes.length } ⟨count, data.length⟩
    (Nat.le_trans (Nat.add_le_add_right hBytes _) hRoom)

/-- The loop of `csp_sfp_send_own_memcpy` from its `i`-th pass on. -/
def sfpSendLoop (env : SfpEnv size) (data : List UInt8) {mtu : Nat} (hMtu : 0 < mtu)
    (i count idout : Nat) : SfpTx size :=
  if _hMore : count < data.length then
    if hRoom : mtu + sfpHeaderSize ≤ size then
      match env.supply i with
      | none => ⟨cspErrNomem, idout, [], 0, 0⟩
      | some buffer =>
          let packet := sfpPacket buffer data mtu count hRoom
          let idout := idout ||| cspFfrag
          if env.accepts i then
            let rest := sfpSendLoop env data hMtu (i + 1)
              (count + min mtu (data.length - count)) idout
            { rest with
              sent := { packet with id := idout } :: rest.sent
              gets := rest.gets + 1 }
          else
            ⟨cspErrTx, idout, [], 1, 1⟩
    else
      -- `csp_buffer_get` refuses what is longer than its buffers
      ⟨cspErrNomem, idout, [], 0, 0⟩
  else
    ⟨cspErrNone, idout, [], 0, 0⟩
termination_by data.length - count
decreasing_by omega

/-- `csp_sfp_send_own_memcpy` -/
def cspSfpSendOwnMemcpy (env : SfpEnv size) (idout : Nat) (data : List UInt8) (mtu : Nat) :
    SfpTx size :=
  if hMtu : mtu = 0 then
    ⟨cspErrInval, idout, [], 0, 0⟩
  else
    sfpSendLoop env data (Nat.pos_of_ne_zero hMtu) 0 0 idout

/-! ## Receiving -/

/-- What `csp_malloc` returns for a size; `none` stands for `NULL`. -/
structure Malloc where
  area : Nat → Option (List UInt8)
  length_area : ∀ count bytes, area count = some bytes → bytes.length = count

/-- An allocator that never fails. -/
def Malloc.zeroed : Malloc where
  area count := some (List.replicate count 0)
  length_area := by
    intro count bytes hArea
    rw [← Option.some.inj hArea, List.length_replicate]

/-- The area at `data`, with `datasize` and `data_offset`. -/
structure SfpArea where
  datasize : Nat
  data : List UInt8
  length_data : data.length = datasize
  dataOffset : Nat
  offset_le : dataOffset ≤ datasize

/-- What a pass of the loop of `csp_sfp_recv_fp` does. -/
inductive SfpPass where
  /-- The packet has been copied, and more are to come. -/
  | goOn (area : SfpArea)
  /-- The message is complete. -/
  | complete (area : SfpArea)
  /-- `goto error`; `area` is what `csp_free` then gets. -/
  | error (code : Int) (area : Option SfpArea)
  /-- `memcpy` writes behind the area. -/
  | outside

/-- Copy the data of a packet behind those that have been copied before. -/
def SfpArea.copy (area : SfpArea) (packet : AreaPacket size)
    (hFits : area.dataOffset + packet.length ≤ area.datasize) : SfpArea where
  datasize := area.datasize
  data := store area.data area.dataOffset packet.payload
  length_data := by
    have hPayload : packet.payload.length ≤ packet.length := List.length_take_le _ _
    rw [length_store (by rw [area.length_data]; omega), area.length_data]
  dataOffset := area.dataOffset + packet.length
  offset_le := hFits

/-- The pass from its second consistency check on. -/
def sfpCopy (area : SfpArea) (header : SfpHeader) (packet : AreaPacket size) : SfpPass :=
  if (area.dataOffset + packet.length) % 2 ^ 32 > area.datasize ∨
      area.datasize ≠ header.totalsize then
    .error cspErrSfp (some area)
  else if hFits : area.dataOffset + packet.length ≤ area.datasize then
    let area := area.copy packet hFits
    if area.dataOffset ≥ area.datasize then
      .complete area
    else if packet.length = 0 then
      .error cspErrSfp (some area)
    else
      .goOn area
  else
    .outside

/-- `data_offset`, which is zero as long as `data` is `NULL`. -/
def dataOffset (area : Option SfpArea) : Nat := (area.map SfpArea.dataOffset).getD 0

/-- The allocation of a pass. -/
def allocated (malloc : Malloc) (area : Option SfpArea) (totalsize : Nat) : Option SfpArea :=
  match area with
  | some area => some area
  | none =>
      match hArea : malloc.area totalsize with
      | some bytes => some ⟨totalsize, bytes, malloc.length_area _ _ hArea, 0, Nat.zero_le _⟩
      | none => none

/-- A pass of the loop. -/
def sfpPass (malloc : Malloc) (area : Option SfpArea) (packet : AreaPacket size) : SfpPass :=
  match cspSfpHeaderRemove packet with
  | none => .error cspErrSfp area
  | some (header, packet) =>
      if header.offset ≠ dataOffset area then
        .error cspErrSfp area
      else
        match allocated malloc area header.totalsize with
        | none => .error cspErrNomem none
        | some area => sfpCopy area header packet

/-- What `csp_sfp_recv_fp` leaves when it returns. -/
structure SfpEnd (size : Nat) where
  ret : Int
  returnData : Option (List UInt8)
  returnDatasize : Int
  /-- What `csp_free` has been called with. -/
  released : Option SfpArea
  /-- The packets that have been given to `csp_buffer_free`. -/
  freed : List (FittingPacket size)
  /-- The packets that are still to be read from the connection. -/
  unread : List (FittingPacket size)

/-- How a call of `csp_sfp_recv_fp` ends. -/
inductive SfpOutcome (size : Nat) where
  | returns (left : SfpEnd size)
  | outside

/-- A packet has been freed before all others. -/
def SfpOutcome.freeing (packet : FittingPacket size) : SfpOutcome size → SfpOutcome size
  | .returns left => .returns { left with freed := packet :: left.freed }
  | .outside => .outside

/-- The loop of `csp_sfp_recv_fp`; the list has what `csp_read` returns before it times
out. -/
def sfpRecvLoop (malloc : Malloc) :
    Option SfpArea → List (FittingPacket size) → SfpOutcome size
  | area, [] => .returns ⟨cspErrTimedout, none, 0, area, [], []⟩
  | area, packet :: packets =>
      match sfpPass malloc area packet.val with
      | .goOn area => (sfpRecvLoop malloc (some area) packets).freeing packet
      | .complete area =>
          .returns
            ⟨cspErrNone, some area.data, int32 area.datasize, none, [packet], packets⟩
      | .error code area => .returns ⟨code, none, 0, area, [packet], packets⟩
      | .outside => .outside

/-- `csp_sfp_recv_fp` -/
def cspSfpRecvFp (malloc : Malloc) (firstPacket : Option (FittingPacket size))
    (connection : List (FittingPacket size)) : SfpOutcome size :=
  sfpRecvLoop malloc none (firstPacket.toList ++ connection)

end Sfp
end Csp
end CubeSatComm
