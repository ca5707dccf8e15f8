import CubeSatComm.Csp.FifoDriver

/-!
# `csp_send`

The way of a packet from `csp_send` to the `nexthop` of an interface.  A packet that
does not get there stays with the caller, who has to free it; `fifo_tx` frees every
packet it is given.

The connections of the client are opened without options, so the flags of `idout`
are all clear, and `csp_send_direct` neither appends a checksum nor encrypts.
-/

namespace CubeSatComm
namespace Csp

/-- `CSP_ERR_TX` -/
def cspErrTx : Int := -10

/-- `csp_conn_state_t` -/
inductive ConnState where
  | connClosed
  | connOpen
  deriving DecidableEq, Repr

/-- What `csp_send` looks at in a connection. -/
structure CspConn where
  state : ConnState
  /-- `idout.ext` -/
  idout : Nat
  deriving DecidableEq, Repr

/-- An interface. -/
structure CspIface (n : Nat) where
  mtu : Nat
  nexthop : Fin n → CspNode n → Int × CspNode n

/-- `csp_io_dev`, to which the client's default route leads. -/
def cspIoDev {n : Nat} (device : Device) : CspIface n where
  mtu := cspPacketSize
  nexthop := fifoTx device

/-- The MTU test of `csp_send_direct`. -/
def PassesMtu (mtu bytes : Nat) : Prop :=
  ¬ (mtu > 0 ∧ bytes > mtu)

instance (mtu bytes : Nat) : Decidable (PassesMtu mtu bytes) :=
  inferInstanceAs (Decidable (¬ (mtu > 0 ∧ bytes > mtu)))

theorem passesMtu_iff {mtu : Nat} (hPos : 0 < mtu) (bytes : Nat) :
    PassesMtu mtu bytes ↔ bytes ≤ mtu := by
  unfold PassesMtu
  omega

/-- The interface of the client lets `CSP_PACKET_SIZE` bytes of data through. -/
theorem passesMtu_cspIoDev {n : Nat} (device : Device) (bytes : Nat) :
    PassesMtu (cspIoDev (n := n) device).mtu bytes ↔ bytes ≤ cspPacketSize :=
  passesMtu_iff cspPacketSize_pos bytes

/-- Change the packet in a buffer. -/
def CspNode.modify {n : Nat} (packet : Fin n)
    (change : PacketBuffer → PacketBuffer) (node : CspNode n) : CspNode n :=
  { node with
    memory := Function.update node.memory packet (change (node.memory packet)) }

/-- `csp_send_direct`; `none` stands for `NULL`. -/
def cspSendDirect {n : Nat} (idout : Nat) (packet : Option (Fin n))
    (ifroute : Option (CspIface n)) (node : CspNode n) : Int × CspNode n :=
  match packet, ifroute with
  | none, _ => (cspErrTx, node)
  | some _, none => (cspErrTx, node)
  | some packet, some ifout =>
      let node := node.modify packet (·.setId idout)
      if PassesMtu ifout.mtu (node.memory packet).length then
        let (ret, node) := ifout.nexthop packet node
        if ret ≠ cspErrNone then (cspErrTx, node) else (cspErrNone, node)
      else
        (cspErrTx, node)

/-- `csp_send`: `1` when the packet is consumed, `0` when the caller has to free
it. -/
def cspSend {n : Nat} (conn : Option CspConn) (packet : Option (Fin n))
    (ifroute : Option (CspIface n)) (node : CspNode n) : Int × CspNode n :=
  match conn, packet with
  | none, _ => (0, node)
  | some _, none => (0, node)
  | some conn, some packet =>
      if conn.state ≠ .connOpen then
        (0, node)
      else
        let (ret, node) := cspSendDirect conn.idout (some packet) ifroute node
        (if ret = cspErrNone then 1 else 0, node)

section Send

variable {n : Nat} {conn : CspConn} {device : Device} {packet : Fin n}
  {node : CspNode n}

@[simp] theorem CspNode.memory_modify (change : PacketBuffer → PacketBuffer) :
    (node.modify packet change).memory packet = change (node.memory packet) :=
  Function.update_self ..

/-- A packet that the connection and the MTU test let through is consumed: `fifo_tx`
frees it. -/
theorem cspSend_consumed (hOpen : conn.state = .connOpen)
    (hMtu : (node.memory packet).length ≤ cspPacketSize) :
    (cspSend (some conn) (some packet) (some (cspIoDev device)) node).1 = 1 ∧
      (cspSend (some conn) (some packet) (some (cspIoDev device)) node).2.pool =
        cspBufferFree (some packet) node.pool := by
  have hPasses : PassesMtu (cspIoDev (n := n) device).mtu
      ((node.modify packet (·.setId conn.idout)).memory packet).length := by
    rw [CspNode.memory_modify, PacketBuffer.length_setId]
    exact (passesMtu_cspIoDev device _).mpr hMtu
  simp only [cspSend, hOpen, ne_eq, not_true_eq_false, if_false, cspSendDirect]
  rw [if_pos hPasses]
  constructor
  · rfl
  · rfl

/-- Any other packet stays with the caller. -/
theorem cspSend_refused
    (hRefused : ¬ (conn.state = .connOpen ∧
      (node.memory packet).length ≤ cspPacketSize)) :
    (cspSend (some conn) (some packet) (some (cspIoDev device)) node).1 = 0 ∧
      (cspSend (some conn) (some packet) (some (cspIoDev device)) node).2.pool =
        node.pool := by
  by_cases hOpen : conn.state = .connOpen
  · have hLong : ¬ PassesMtu (cspIoDev (n := n) device).mtu
        ((node.modify packet (·.setId conn.idout)).memory packet).length := by
      rw [CspNode.memory_modify, PacketBuffer.length_setId]
      intro hPasses
      exact hRefused ⟨hOpen, (passesMtu_cspIoDev device _).mp hPasses⟩
    simp only [cspSend, hOpen, ne_eq, not_true_eq_false, if_false, cspSendDirect]
    rw [if_neg hLong]
    constructor
    · rfl
    · rfl
  · simp only [cspSend, ne_eq, hOpen, not_false_eq_true, if_true, and_self]

end Send

end Csp
end CubeSatComm
