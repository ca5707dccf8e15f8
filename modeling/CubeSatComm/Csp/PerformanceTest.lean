import CubeSatComm.Csp.Loopback
import CubeSatComm.Lib.Custody

/-!
# The local performance test

The threads of the test, which send packets to themselves: `task_client`, the router, and
`task_server`.  An event is a step of one of them, and a sequence of events is an
interleaving of the three.  What the server measures and prints, and the pauses of the
client, are left out.
-/

namespace CubeSatComm
namespace Csp
namespace Loopback

open Lib

variable {n m : Nat}

/-! ## The client -/

/-- The address of the server. -/
def serverAddress : Nat := 1

/-- The port of the server. -/
def serverPort : Nat := 10

/-- Number of connections that the client makes. -/
def testCount : Nat := 10

/-- Number of packets that it sends on each. -/
def packetCount : Nat := 1000

/-- `"yoyoyo"` -/
def message : List UInt8 := [121, 111, 121, 111, 121, 111]

/-- Length of every packet. -/
def packetLength : Nat := 1000

/-- Where `task_client` is: in front of this call. -/
inductive ClientLoc where
  | connect
  | get
  | fill
  | send
  | free
  | close
  /-- It has returned. -/
  | returned
  deriving DecidableEq, Repr

/-- The local variables of `task_client`. -/
structure Client (n m : Nat) where
  loc : ClientLoc
  conn : Option (Fin m)
  packet : Option (Fin n)
  /-- The counter of the outer loop. -/
  tests : Nat
  /-- The counter of the inner loop. -/
  packets : Nat

/-- The front of the inner loop. -/
def Client.nextPacket (client : Client n m) : Client n m :=
  { client with loc := if client.packets < packetCount then .get else .close }

/-- The front of the outer loop. -/
def Client.nextTest (client : Client n m) : Client n m :=
  { client with loc := if client.tests < testCount then .connect else .returned }

/-- `strcpy(packet->data, message)` and `packet->length = 1000` -/
def Packet.fill (packet : Packet) : Packet :=
  { packet with data := store packet.data 0 (message ++ [0]), length := packetLength }

/-- A step of the client; `sport` is the source port that `csp_connect` takes. -/
def clientStep (conf : CspConf) (sport : Nat) (client : Client n m) (node : Node n m) :
    Option (Client n m × Node n m) :=
  match client.loc with
  | .connect =>
      if IsUnusedPort conf sport node then
        match cspConnect serverAddress serverPort sport node with
        | (none, node) =>
            -- `packet` may be uninitialised here
            some ({ client with loc := .returned, conn := none }, node.free client.packet)
        | (some conn, node) =>
            some (Client.nextPacket { client with conn := some conn, packets := 0 }, node)
      else
        none
  | .get =>
      match cspBufferGetSized bufferDataSize packetLength node.pool with
      | (none, pool) =>
          some ({ client with loc := .returned, packet := none }, { node with pool := pool })
      | (some packet, pool) =>
          some ({ client with loc := .fill, packet := some packet },
            { node with pool := pool })
  | .fill =>
      match client.packet with
      | none => none
      | some packet =>
          some ({ client with loc := .send }, node.modifyPacket packet Packet.fill)
  | .send =>
      let (ret, node) := cspSend conf client.conn client.packet node
      some ({ client with loc := if ret = 0 then .returned else .free }, node)
  | .free =>
      some (Client.nextPacket { client with packets := client.packets + 1 },
        node.free client.packet)
  | .close =>
      let node :=
        match client.conn with
        | none => node
        | some conn => cspClose conn node
      some (Client.nextTest { client with tests := client.tests + 1 }, node)
  | .returned => none

/-! ## The router -/

/-- Where the router is. -/
inductive RouterLoc (n m : Nat) where
  /-- In front of `csp_qfifo_read`. -/
  | idle
  /-- It has taken this packet from the FIFO. -/
  | routing (packet : Fin n)
  /-- It has a connection for the packet. -/
  | delivering (packet : Fin n) (conn : Fin m)
  deriving DecidableEq, Repr

/-- The packet that the router has in hand. -/
def RouterLoc.packet : RouterLoc n m → Option (Fin n)
  | idle => none
  | routing packet => some packet
  | delivering packet _ => some packet

/-- A step of `csp_route_work`. -/
def routerStep (conf : CspConf) (router : RouterLoc n m) (node : Node n m) :
    RouterLoc n m × Node n m :=
  match router with
  | .idle =>
      match node.qfifo with
      | [] => (.idle, node)
      | packet :: rest => (.routing packet, { node with qfifo := rest })
  | .routing packet =>
      match cspRouteConn conf packet node with
      | (none, node) => (.idle, node)
      | (some conn, node) => (.delivering packet conn, node)
  | .delivering packet conn => (.idle, cspUdpNewPacket conf conn packet node)

/-! ## The server -/

/-- Where `task_server` is: in front of this call. -/
inductive ServerLoc (m : Nat) where
  | socket
  | bind
  | listen
  | accept
  | read (conn : Fin m)
  | close (conn : Fin m)
  deriving DecidableEq, Repr

/-- The local variables of `task_server`. -/
structure Server (n m : Nat) where
  loc : ServerLoc m
  sock : Option (Fin m)
  /-- What `csp_read` has returned last. -/
  packet : Option (Fin n)

/-- A step of the server. -/
def serverStep (server : Server n m) (node : Node n m) : Server n m × Node n m :=
  match server.loc with
  | .socket =>
      let (sock, node) := cspSocket node
      ({ server with loc := .bind, sock := sock }, node)
  | .bind => ({ server with loc := .listen }, cspBind server.sock node)
  | .listen => ({ server with loc := .accept }, cspListen server.sock node)
  | .accept =>
      match cspAccept server.sock node with
      | (none, node) => (server, node)
      | (some conn, node) => ({ server with loc := .read conn }, node)
  | .read conn =>
      match cspRead conn node with
      | (none, node) => ({ server with loc := .close conn, packet := none }, node)
      | (some packet, node) => ({ server with packet := some packet }, node)
  | .close conn => ({ server with loc := .accept }, cspClose conn node)

/-! ## The test -/

/-- State of the test. -/
structure TestState (n m : Nat) where
  node : Node n m
  client : Client n m
  router : RouterLoc n m
  server : Server n m

/-- A step of one of the threads. -/
inductive TestEvent where
  | client (sport : Nat)
  | router
  | server
  deriving DecidableEq, Repr

/-- The step, where it is possible. -/
def testStep (conf : CspConf) (event : TestEvent) (s : TestState n m) :
    Option (TestState n m) :=
  match event with
  | .client sport =>
      match clientStep conf sport s.client s.node with
      | none => none
      | some (client, node) => some { s with client := client, node := node }
  | .router =>
      let (router, node) := routerStep conf s.router s.node
      some { s with router := router, node := node }
  | .server =>
      let (server, node) := serverStep s.server s.node
      some { s with server := server, node := node }

/-- A connection of the array that `csp_conn_init` has allocated. -/
def Conn.closed : Conn n where
  type := .connClient
  state := .connClosed
  idin := ⟨0, 0, 0, 0⟩
  idout := ⟨0, 0, 0, 0⟩
  rxQueue := []
  socket := false

/-- The library behind `csp_buffer_init` and `csp_init`; `malloc` has not initialised the
buffers. -/
def Node.start (refcount : Fin n → Nat) (memory : Fin n → Packet) : Node n m where
  pool := ⟨List.finRange n, refcount, []⟩
  memory := memory
  qfifo := []
  arrConn := fun _ => Conn.closed
  cspConnLastGiven := 0
  ports := none
  backlog := []

/-- The test when its threads start; `packet` is the uninitialised variable of the
client. -/
def TestState.start (refcount : Fin n → Nat) (memory : Fin n → Packet)
    (packet : Option (Fin n)) : TestState n m where
  node := Node.start refcount memory
  client := ⟨.connect, none, packet, 0, 0⟩
  router := .idle
  server := ⟨.socket, none, none⟩

/-! ## Where the buffers are -/

/-- The places where a buffer can be, beside the hands of the client. -/
inductive Place (m : Nat) where
  | pool
  | qfifo
  | router
  | rxQueue (conn : Fin m)
  | server
  deriving DecidableEq, Repr

/-- The buffers in a place, when the router and the server hold these packets. -/
def Node.buffersIn (node : Node n m) (router server : Option (Fin n)) :
    Place m → List (Fin n)
  | .pool => node.pool.cspBuffers
  | .qfifo => node.qfifo
  | .router => router.toList
  | .rxQueue conn => (node.arrConn conn).rxQueue
  | .server => server.toList

/-- The buffers in a place. -/
def TestState.buffersIn (s : TestState n m) : Place m → List (Fin n) :=
  s.node.buffersIn s.router.packet s.server.packet

/-- No buffer is in two places, or twice in one. -/
def TestState.OwnsExclusively (s : TestState n m) : Prop := Exclusive s.buffersIn

/-- A packet that has been sent is on its way, or the server has it. -/
def TestState.InTransit (s : TestState n m) (packet : Fin n) : Prop :=
  ∃ place, place ≠ .pool ∧ packet ∈ s.buffersIn place

/-- The client does not free a packet in transit. -/
def FreesNoneInTransit (event : TestEvent) (s _ : TestState n m) : Prop :=
  ∀ sport, event = .client sport → s.client.loc = .free →
    ∀ packet, s.client.packet = some packet → ¬ s.InTransit packet

/-- The contents of the packets in transit stay as they are. -/
def KeepsPackets (_ : TestEvent) (s s' : TestState n m) : Prop :=
  ∀ packet, s.InTransit packet → s'.node.memory packet = s.node.memory packet

end Loopback
end Csp
end CubeSatComm
