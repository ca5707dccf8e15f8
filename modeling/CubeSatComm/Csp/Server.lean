import CubeSatComm.Csp.FifoDriver
import CubeSatComm.Lib.Transition
import CubeSatComm.Posix.Stdio

/-!
# The server

The server receives packets in `fifo_rx` and prints them in the read loop of `main`.
Between the two the router passes them on in the order in which they come.  Each packet
stays in the buffer that it was read into until it is printed; then `csp_buffer_free`
puts the buffer behind all free ones.

The steps are those of the two threads: `csp_buffer_get`, a `read` together with
`csp_qfifo_write`, and an iteration of the read loop.  They may come in any order that
the threads allow.
-/

namespace CubeSatComm
namespace Csp

open Lib Posix

/-- A packet of text that comes in one `read`: its data has room behind the header, and
no NUL is in it. -/
structure TextPacket where
  id : Nat
  data : List UInt8
  length_le : data.length ≤ cspPacketSize - packetHeaderSize
  no_nul : ∀ c ∈ data, c ≠ 0

namespace TextPacket

variable (packet : TextPacket)

/-- What `read` returns: the fields `length` and `id`, and the data. -/
def bytes : List UInt8 :=
  toLittleEndian lengthSize packet.data.length ++ toLittleEndian idSize packet.id ++
    packet.data

theorem length_bytes : packet.bytes.length = packetHeaderSize + packet.data.length := by
  simp [bytes, packetHeaderSize, Nat.add_assoc]

theorem length_bytes_le : packet.bytes.length ≤ cspPacketSize := by
  have hLe := packet.length_le
  rw [length_bytes]
  simp only [cspPacketSize, packetHeaderSize, lengthSize, idSize] at hLe ⊢
  omega

theorem bytes_ne_nil : packet.bytes ≠ [] := by
  apply List.ne_nil_of_length_pos
  rw [length_bytes]
  simp only [packetHeaderSize, lengthSize]
  omega

theorem length_data_lt : packet.data.length < bufSize := by
  have hLe := packet.length_le
  simp only [cspPacketSize, packetHeaderSize, lengthSize, idSize, bufSize] at hLe ⊢
  omega

end TextPacket

/-- Where `fifo_rx` is. -/
inductive RxLoc (n : Nat) where
  /-- It calls `csp_buffer_get`. -/
  | asking
  /-- It waits for a packet to read into this buffer. -/
  | reading (buffer : Fin n)
  /-- It has been refused a buffer.  Its thread ends without another packet. -/
  | ended
  deriving DecidableEq, Repr

/-- The buffer that `fifo_rx` has. -/
def RxLoc.buffers {n : Nat} : RxLoc n → List (Fin n)
  | asking => []
  | reading buffer => [buffer]
  | ended => []

/-- State of the server. -/
structure Server (n : Nat) where
  pool : BufferPool n
  memory : Fin n → PacketBuffer
  rx : RxLoc n
  /-- The packets between `csp_qfifo_write` and `csp_read`, oldest first. -/
  pending : List (Fin n)
  /-- The packets that have been read so far. -/
  received : List TextPacket
  /-- The texts that have been printed so far. -/
  printed : List (List UInt8)

variable {n : Nat}

namespace Server

/-- `csp_buffer_get` in `fifo_rx`. -/
def get (s : Server n) : Server n :=
  match cspBufferGet cspPacketSize s.pool with
  | (none, pool) => { s with pool := pool, rx := .ended }
  | (some buffer, pool) => { s with pool := pool, rx := .reading buffer }

/-- A `read` of a packet into the buffer of `fifo_rx`, and `csp_qfifo_write`. -/
def receive (packet : TextPacket) (buffer : Fin n) (s : Server n) : Server n where
  pool := s.pool
  memory :=
    Function.update s.memory buffer
      ((s.memory buffer).load packet.bytes packet.length_bytes_le)
  rx := .asking
  pending := s.pending ++ [buffer]
  received := s.received ++ [packet]
  printed := s.printed

@[simp] theorem memory_receive_self (packet : TextPacket) (buffer : Fin n)
    (s : Server n) :
    (s.receive packet buffer).memory buffer =
      (s.memory buffer).load packet.bytes packet.length_bytes_le :=
  Function.update_self ..

@[simp] theorem memory_receive_of_ne (packet : TextPacket) {buffer other : Fin n}
    (hOther : other ≠ buffer) (s : Server n) :
    (s.receive packet buffer).memory other = s.memory other :=
  Function.update_of_ne hOther ..

/-- `printf("%s", packet->data)` and `csp_buffer_free`.  What lies in memory behind the
buffer is not known. -/
def print (behind : List UInt8) (buffer : Fin n) (pending : List (Fin n))
    (s : Server n) : Server n where
  pool := cspBufferFree (some buffer) s.pool
  memory := s.memory
  rx := s.rx
  pending := pending
  received := s.received
  printed := s.printed ++ [cString ((s.memory buffer).data ++ behind)]

end Server

/-- A step of one of the two threads. -/
inductive ServerEvent where
  | get
  | receive (packet : TextPacket)
  | print (behind : List UInt8)

/-- The step, where it is possible. -/
def serverStep (event : ServerEvent) (s : Server n) : Option (Server n) :=
  match event with
  | .get => if s.rx = .asking then some s.get else none
  | .receive packet =>
      match s.rx with
      | .reading buffer => some (s.receive packet buffer)
      | _ => none
  | .print behind =>
      match s.pending with
      | [] => none
      | buffer :: rest => some (s.print behind buffer rest)

/-- The free buffers of a pool of which no buffer is in use, oldest first. -/
structure FreeQueue (n : Nat) where
  buffers : List (Fin n)
  nodup : buffers.Nodup
  length_eq : buffers.length = n

/-- The server before `fifo_rx` runs: all buffers are free, and hold whatever `malloc`
and earlier users have left in them. -/
structure ServerStart (queue : FreeQueue n) (memory : Fin n → PacketBuffer)
    (s : Server n) : Prop where
  cspBuffers : s.pool.cspBuffers = queue.buffers
  memory_eq : s.memory = memory
  rx : s.rx = .asking
  pending : s.pending = []
  received : s.received = []
  printed : s.printed = []

/-- The runs of the server. -/
def serverSystem (queue : FreeQueue n) (memory : Fin n → PacketBuffer) :
    TransitionSystem (Server n) where
  Init := ServerStart queue memory
  Step := fun s s' => ∃ event, serverStep event s = some s'

/-- What a step can do. -/
theorem serverStep_cases {event : ServerEvent} {s s' : Server n}
    (hStep : serverStep event s = some s') :
    (s.rx = .asking ∧ s' = s.get) ∨
    (∃ packet buffer, s.rx = .reading buffer ∧ s' = s.receive packet buffer) ∨
    (∃ behind buffer rest, s.pending = buffer :: rest ∧ s' = s.print behind buffer rest) := by
  cases event with
  | get =>
      simp only [serverStep] at hStep
      split at hStep
      · next hAsking => exact .inl ⟨hAsking, (Option.some.inj hStep).symm⟩
      · cases hStep
  | receive packet =>
      simp only [serverStep] at hStep
      split at hStep
      · next buffer hReading =>
        exact .inr (.inl ⟨packet, buffer, hReading, (Option.some.inj hStep).symm⟩)
      · cases hStep
  | print behind =>
      simp only [serverStep] at hStep
      split at hStep
      · cases hStep
      · next buffer rest hPending =>
        exact .inr (.inr ⟨behind, buffer, rest, hPending, (Option.some.inj hStep).symm⟩)

/-- A packet is received as `fifo_rx` does it: by a pass that reads it into the same
buffer. -/
theorem Server.receive_pass {device : Device} {supply : Nat → Option PacketBuffer}
    {s : Server n} {buffer : Fin n} {rx : FifoRxState} {packet : TextPacket} {port : Port}
    (hBuffer : rx.packet = some (s.memory buffer))
    (hRead : rx.port.read device.rxFd cspPacketSize = some (.ok packet.bytes, port)) :
    fifoRxPass device supply rx =
      .again (rx.inject supply port ((s.receive packet buffer).memory buffer)) := by
  rw [fifoRxPass_read hBuffer packet.bytes_ne_nil hRead, memory_receive_self]

end Csp
end CubeSatComm
