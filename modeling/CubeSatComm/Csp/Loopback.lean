import CubeSatComm.Csp.Buffer
import CubeSatComm.Csp.Send
import CubeSatComm.Lib.Memory

/-!
# The way of a packet through the loopback interface

A program that sends to its own address: `csp_send` gives the packet to `csp_lo_tx`,
which puts it into the router FIFO, and the router puts it into the queue of the
connection, from which `csp_read` takes it.

All connections are opened without options, so no packet has flags, and the security
checks of the router let every packet through.  There is one socket, bound to `CSP_ANY`,
and no interface but the loopback interface.
-/

namespace CubeSatComm
namespace Csp
namespace Loopback

open Lib

/-- What is looked at in `csp_conf_t`, beside the address and the numbers of buffers and
connections. -/
structure CspConf where
  connQueueLength : Nat
  fifoLength : Nat
  portMaxBind : Nat

/-- `csp_conf.address` -/
def cspAddress : Nat := 1

/-- `CSP_BROADCAST_ADDR` -/
def cspBroadcastAddr : Nat := 31

/-- `CSP_ID_PORT_MAX` -/
def cspIdPortMax : Nat := 63

/-- `csp_conf.buffer_data_size` -/
def bufferDataSize : Nat := 1000

/-- The argument of `csp_listen`. -/
def backlogLength : Nat := 1

/-- The fields of `csp_id_t` that `CSP_ID_CONN_MASK` keeps. -/
structure CspId where
  src : Nat
  dst : Nat
  dport : Nat
  sport : Nat
  deriving DecidableEq, Repr

/-- `csp_conn_type_t` -/
inductive ConnType where
  | connClient
  | connServer
  deriving DecidableEq, Repr

/-- `csp_conn_t` -/
structure Conn (n : Nat) where
  type : ConnType
  state : ConnState
  idin : CspId
  idout : CspId
  rxQueue : List (Fin n)
  /-- Whether `socket` points to the queue that `csp_listen` has created, or is `NULL`. -/
  socket : Bool
  deriving DecidableEq, Repr

/-- `csp_packet_t` -/
structure Packet where
  id : CspId
  length : Nat
  data : List UInt8
  deriving DecidableEq, Repr

/-- The state of the library, with `n` buffers and `m` connections. -/
structure Node (n m : Nat) where
  pool : BufferPool n
  memory : Fin n → Packet
  qfifo : List (Fin n)
  arrConn : Fin m → Conn n
  cspConnLastGiven : Nat
  /-- The socket that is bound to `CSP_ANY`. -/
  ports : Option (Fin m)
  /-- The queue of the socket, which `csp_listen` creates. -/
  backlog : List (Fin m)

variable {n m : Nat}

namespace Node

/-- Change a connection. -/
def modifyConn (conn : Fin m) (change : Conn n → Conn n) (node : Node n m) : Node n m :=
  { node with arrConn := Function.update node.arrConn conn (change (node.arrConn conn)) }

/-- Change the packet in a buffer. -/
def modifyPacket (packet : Fin n) (change : Packet → Packet) (node : Node n m) :
    Node n m :=
  { node with
    memory := Function.update node.memory packet (change (node.memory packet)) }

/-- `csp_buffer_free` -/
def free (packet : Option (Fin n)) (node : Node n m) : Node n m :=
  { node with pool := cspBufferFree packet node.pool }

end Node

/-! ## Connections -/

/-- `csp_conn_find`; `same` compares the identifier of a connection. -/
def cspConnFind (same : CspId → Bool) (node : Node n m) : Option (Fin m) :=
  (List.finRange m).find? fun conn =>
    (node.arrConn conn).state = .connOpen && (node.arrConn conn).type = .connClient &&
      same (node.arrConn conn).idin

/-- `csp_conn_flush_rx_queue` -/
def cspConnFlushRxQueue (conn : Fin m) (node : Node n m) : Node n m :=
  let packets := (node.arrConn conn).rxQueue
  { node with
    pool := packets.foldl (fun pool packet => cspBufferFree (some packet) pool) node.pool
    arrConn := Function.update node.arrConn conn { node.arrConn conn with rxQueue := [] } }

/-- `csp_conn_allocate` -/
def cspConnAllocate (type : ConnType) (node : Node n m) : Option (Fin m) × Node n m :=
  let order := (List.finRange m).rotate (node.cspConnLastGiven + 1)
  match order.find? fun conn => (node.arrConn conn).state = .connClosed with
  | none => (none, node)
  | some conn =>
      let node := node.modifyConn conn fun c =>
        { c with
          type := type
          state := .connOpen
          idin := ⟨0, 0, 0, 0⟩
          idout := ⟨0, 0, 0, 0⟩
          socket := false }
      (some conn, { node with cspConnLastGiven := conn })

/-- `csp_conn_new` -/
def cspConnNew (idin idout : CspId) (node : Node n m) : Option (Fin m) × Node n m :=
  match cspConnAllocate .connClient node with
  | (none, node) => (none, node)
  | (some conn, node) =>
      let node := node.modifyConn conn fun c => { c with idin := idin, idout := idout }
      (some conn, cspConnFlushRxQueue conn node)

/-- `csp_close` -/
def cspClose (conn : Fin m) (node : Node n m) : Node n m :=
  if (node.arrConn conn).state = .connClosed then
    node
  else
    let node := node.modifyConn conn fun c => { c with state := .connClosed }
    let node := cspConnFlushRxQueue conn node
    if (node.arrConn conn).socket ∧ (node.arrConn conn).type = .connServer then
      let node := node.modifyConn conn fun c => { c with socket := false }
      { node with backlog := [] }
    else
      node

/-- The source port that `csp_connect` takes: the first one that it tries and finds
unused.  At the start it tries a random one. -/
def IsUnusedPort (conf : CspConf) (sport : Nat) (node : Node n m) : Prop :=
  conf.portMaxBind < sport ∧ sport ≤ cspIdPortMax ∧
    cspConnFind (fun idin => idin.dport = sport) node = none

instance (conf : CspConf) (sport : Nat) (node : Node n m) :
    Decidable (IsUnusedPort conf sport node) :=
  inferInstanceAs (Decidable (_ ∧ _ ∧ _))

/-- `csp_connect`, with the source port that it takes. -/
def cspConnect (dest dport sport : Nat) (node : Node n m) : Option (Fin m) × Node n m :=
  cspConnNew ⟨dest, cspAddress, sport, dport⟩ ⟨cspAddress, dest, dport, sport⟩ node

/-! ## Sending -/

/-- `csp_qfifo_write` -/
def cspQfifoWrite (conf : CspConf) (packet : Fin n) (node : Node n m) : Node n m :=
  if node.qfifo.length < conf.fifoLength then
    { node with qfifo := node.qfifo ++ [packet] }
  else
    node.free (some packet)

/-- `csp_lo_tx` -/
def cspLoTx (conf : CspConf) (packet : Fin n) (node : Node n m) : Int × Node n m :=
  if (node.memory packet).id.dst ≠ cspAddress then
    (cspErrNone, node.free (some packet))
  else
    (cspErrNone, cspQfifoWrite conf packet node)

/-- `csp_send_direct`; every route leads to the loopback interface, which has no MTU. -/
def cspSendDirect (conf : CspConf) (idout : CspId) (packet : Fin n) (node : Node n m) :
    Int × Node n m :=
  let node := node.modifyPacket packet fun p => { p with id := idout }
  let (ret, node) := cspLoTx conf packet node
  if ret ≠ cspErrNone then (cspErrTx, node) else (cspErrNone, node)

/-- `csp_send` -/
def cspSend (conf : CspConf) (conn : Option (Fin m)) (packet : Option (Fin n))
    (node : Node n m) : Int × Node n m :=
  match conn, packet with
  | none, _ => (0, node)
  | some _, none => (0, node)
  | some conn, some packet =>
      if (node.arrConn conn).state ≠ .connOpen then
        (0, node)
      else
        let (ret, node) := cspSendDirect conf (node.arrConn conn).idout packet node
        (if ret = cspErrNone then 1 else 0, node)

/-! ## Routing -/

/-- `csp_port_get_socket` -/
def cspPortGetSocket (conf : CspConf) (port : Nat) (node : Node n m) : Option (Fin m) :=
  if port > conf.portMaxBind then none else node.ports

/-- The part of `csp_route_work` that looks for the connection of a packet, and opens one
if there is none; without a connection the packet is freed. -/
def cspRouteConn (conf : CspConf) (packet : Fin n) (node : Node n m) :
    Option (Fin m) × Node n m :=
  let id := (node.memory packet).id
  if id.dst ≠ cspAddress ∧ id.dst ≠ cspBroadcastAddr then
    -- the route leads back to the loopback interface
    (none, node.free (some packet))
  else
    match cspConnFind (fun idin => idin = id) node with
    | some conn => (some conn, node)
    | none =>
        match cspPortGetSocket conf id.dport node with
        | none => (none, node.free (some packet))
        | some socket =>
            match cspConnNew id ⟨cspAddress, id.src, id.sport, id.dport⟩ node with
            | (none, node) => (none, node.free (some packet))
            | (some conn, node) =>
                (some conn, node.modifyConn conn fun c =>
                  { c with socket := (node.arrConn socket).socket })

/-- `csp_udp_new_packet` -/
def cspUdpNewPacket (conf : CspConf) (conn : Fin m) (packet : Fin n) (node : Node n m) :
    Node n m :=
  if (node.arrConn conn).rxQueue.length < conf.connQueueLength then
    let node := node.modifyConn conn fun c => { c with rxQueue := c.rxQueue ++ [packet] }
    if (node.arrConn conn).socket then
      if node.backlog.length < backlogLength then
        let node := node.modifyConn conn fun c => { c with socket := false }
        { node with backlog := node.backlog ++ [conn] }
      else
        cspClose conn node
    else
      node
  else
    node.free (some packet)

/-! ## Receiving -/

/-- `csp_socket` without options; `none` stands for `NULL`. -/
def cspSocket (node : Node n m) : Option (Fin m) × Node n m :=
  cspConnAllocate .connServer node

/-- `csp_bind` to `CSP_ANY` -/
def cspBind (socket : Option (Fin m)) (node : Node n m) : Node n m :=
  match socket, node.ports with
  | some socket, none => { node with ports := some socket }
  | _, _ => node

/-- `csp_listen` -/
def cspListen (socket : Option (Fin m)) (node : Node n m) : Node n m :=
  match socket with
  | none => node
  | some socket =>
      let node := node.modifyConn socket fun c => { c with socket := true }
      { node with backlog := [] }

/-- `csp_accept`; `none` stands for `NULL`. -/
def cspAccept (socket : Option (Fin m)) (node : Node n m) : Option (Fin m) × Node n m :=
  match socket with
  | none => (none, node)
  | some socket =>
      if (node.arrConn socket).socket then
        match node.backlog with
        | [] => (none, node)
        | conn :: rest => (some conn, { node with backlog := rest })
      else
        (none, node)

/-- `csp_read`; `none` stands for `NULL`. -/
def cspRead (conn : Fin m) (node : Node n m) : Option (Fin n) × Node n m :=
  if (node.arrConn conn).state ≠ .connOpen then
    (none, node)
  else
    match (node.arrConn conn).rxQueue with
    | [] => (none, node)
    | packet :: rest =>
        (some packet, node.modifyConn conn fun c => { c with rxQueue := rest })

end Loopback
end Csp
end CubeSatComm
