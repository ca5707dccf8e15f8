import CubeSatComm.Csp.RdpReceiver
import CubeSatComm.Lib.Transition
import Mathlib.Logic.Function.Basic

/-!
# Two ends of an RDP connection

A client and a server that have opened a connection, and the packets between them.  What
has been put on the line may arrive any number of times, in any order, or never; the ends
call the functions of the source in any order.

Sequence numbers are told apart as long as they are not too far apart.  So a packet is not
delivered any more once either end has sent too many others since (`lifetime`), and
`csp_rdp_check_timeouts` is called often enough that no packet has to wait for so many
others in the queue for its acknowledgement to be noticed.
-/

namespace CubeSatComm
namespace Csp
namespace Rdp

open Lib

/-- The two ends. -/
inductive Side where
  | client
  | server
  deriving DecidableEq, Repr

/-- The other end. -/
def Side.other : Side → Side
  | .client => .server
  | .server => .client

@[simp] theorem Side.other_other (x : Side) : x.other.other = x := by
  cases x <;> rfl

@[simp] theorem Side.other_ne (x : Side) : x.other ≠ x := by
  cases x <;> decide

theorem Side.eq_or_eq_other (x y : Side) : y = x ∨ y = x.other := by
  cases x <;> cases y <;> simp [Side.other]

/-- A packet on the line, with the numbers of packets that the ends had sent when it was put
there. -/
structure Wire where
  packet : RdpPacket
  stamp : Side → Nat

/-- The two ends, and what is on the way to each of them. -/
structure System where
  ends : Side → RdpConn
  wires : Side → List Wire

/-- The number of packets that an end has sent. -/
def System.sent (s : System) (x : Side) : Nat := (s.ends x).submitted.length

/-- An end has done something. -/
def System.act (s : System) (x : Side) (result : RdpConn × List RdpPacket) : System :=
  let ends := Function.update s.ends x result.1
  { ends := ends
    wires := Function.update s.wires x.other
      (s.wires x.other ++ result.2.map fun packet =>
        ⟨packet, fun y => (ends y).submitted.length⟩) }

/-- How many packets an end may send while a packet is on the line, or waits to be found
acknowledged. -/
def lifetime : Nat := 2 ^ 14

/-- What an end does. -/
inductive Move (conf : Side → RdpConf) (s : System) : Side → System → Prop where
  | send (x : Side) (env : RdpEnv) (data : List UInt8)
      (hTimely : ∀ element ∈ (s.ends x).txQueue,
        ((s.ends x).sndNxt - element.packet.seqNr).toNat < lifetime) :
      Move conf s x (s.act x (cspRdpSend (conf x) env (s.ends x) data).2)
  | deliver (x : Side) (env : RdpEnv) (wire : Wire) (hMem : wire ∈ s.wires x)
      (hYoung : ∀ y, s.sent y < wire.stamp y + lifetime) :
      Move conf s x (s.act x (routeRdp (conf x) env (s.ends x) wire.packet))
  | timeouts (x : Side) (env : RdpEnv) :
      Move conf s x (s.act x (cspRdpCheckTimeouts (conf x) env (s.ends x)))
  | read (x : Side) (env : RdpEnv) : Move conf s x (s.act x (cspRead (conf x) env (s.ends x)))
  | close (x : Side) (env : RdpEnv) :
      Move conf s x (s.act x (cspConnClose (conf x) env (s.ends x) closedByUserspace))

/-- How a connection is opened: the client sends its SYN, the server answers, and the client
receives the answer.  The acknowledgement of the client is on the line. -/
def handshake (conf : Side → RdpConf) (env envAnswer envAck : RdpEnv)
    (client server : RdpConn) (options : RdpOptions) : Option System :=
  let connecting := cspRdpConnect (conf .client) env client options
  match connecting.2 with
  | [syn] =>
      let answering := routeRdp (conf .server) envAnswer server syn
      match answering.2 with
      | [synAck] =>
          let acking := routeRdp (conf .client) envAck connecting.1 synAck
          let wire := fun packet => (⟨packet, fun _ => 0⟩ : Wire)
          some
            { ends := fun
                | .client => acking.1
                | .server => answering.1
              wires := fun
                | .client => [wire synAck]
                | .server => wire syn :: acking.2.map wire }
      | _ => none
  | _ => none

/-- What holds of the packets from one end to the other. -/
structure Flow (iss : BitVec 16) (window : Nat) (s : System) (x : Side) : Prop where
  live : (s.ends x).Live
  windowSize : (s.ends x).options.windowSize = BitVec.ofNat 32 window
  sndNxt : (s.ends x).sndNxt = serial iss (s.sent x + 1)
  sndUna : ∃ u, (s.ends x).sndUna = serial iss u ∧
    u ≤ (s.ends x.other).accepted.length + 1 ∧ s.sent x + 1 ≤ u + window + lifetime
  holding : Holding iss window (s.ends x).submitted 2 (s.ends x.other)
  queued : ∀ element ∈ (s.ends x).txQueue, element.packet.flags.eak = false ∧
    (element.packet.flags.syn = true ∨
      ∃ k, Numbered iss (s.ends x).submitted k element.packet ∧ s.sent x < k + lifetime)
  /-- Every packet has been taken, or is stored, or waits for its acknowledgement. -/
  kept : ∀ k, 1 ≤ k → k ≤ s.sent x → k ≤ (s.ends x.other).accepted.length ∨
    (∃ packet ∈ (s.ends x.other).rxQueue, packet.seqNr = serial iss k) ∨
    ∃ element ∈ (s.ends x).txQueue, Numbered iss (s.ends x).submitted k element.packet ∧
      s.sent x < k + lifetime
  data : ∀ wire ∈ s.wires x.other, wire.packet.IsData →
    ∃ k, Numbered iss (s.ends x).submitted k wire.packet ∧ wire.stamp x < k + lifetime
  ack : ∀ wire ∈ s.wires x, wire.packet.flags.ack = true →
    ∃ a ≤ (s.ends x.other).accepted.length, wire.packet.ackNr = serial iss a ∧
      wire.stamp x ≤ a + window
  eak : ∀ wire ∈ s.wires x, wire.packet.flags.eak = true →
    ∀ number ∈ eackNumbers wire.packet.data, ∃ k ≤ s.sent x, number = serial iss k ∧
      wire.stamp x ≤ k + window ∧
      (k ≤ (s.ends x.other).accepted.length ∨
        ∃ packet ∈ (s.ends x.other).rxQueue, packet.seqNr = serial iss k)

/-! ## Data formats -/

/-- The numbers of an EACK are read as they have been written. -/
theorem eackNumbers_eackData (numbers : List (BitVec 16)) :
    eackNumbers (eackData numbers) = numbers := by
  induction numbers with
  | nil => rfl
  | cons number numbers ih =>
      have hLength : (toBigEndian 2 number.toNat).length = 2 := length_toBigEndian _ _
      have hValue : ofBigEndian (toBigEndian 2 number.toNat) = number.toNat :=
        ofBigEndian_toBigEndian_of_lt number.isLt
      obtain ⟨high, low, hBytes⟩ := List.length_eq_two.mp hLength
      rw [eackData, List.flatMap_cons, hBytes]
      show BitVec.ofNat 16 (ofBigEndian [high, low]) :: eackNumbers (eackData numbers) = _
      rw [ih, ← hBytes, hValue, BitVec.ofNat_toNat, BitVec.setWidth_eq]

variable {conf : Side → RdpConf} {iss : BitVec 16} {window : Nat} {s : System} {x : Side}
  {result : RdpConn × List RdpPacket}

@[simp] theorem ends_act_self : (s.act x result).ends x = result.1 :=
  Function.update_self ..

@[simp] theorem ends_act_other : (s.act x result).ends x.other = s.ends x.other :=
  Function.update_of_ne (Side.other_ne x) ..

@[simp] theorem wires_act_self : (s.act x result).wires x = s.wires x :=
  Function.update_of_ne (Side.other_ne x).symm ..

theorem mem_wires_act_other {wire : Wire} {y : Side} (hOther : y = x.other)
    (hMem : wire ∈ (s.act x result).wires y) :
    wire ∈ s.wires y ∨ wire.packet ∈ result.2 ∧
      ∀ z, wire.stamp z = (s.act x result).sent z := by
  subst hOther
  have hWires : (s.act x result).wires x.other = s.wires x.other ++ result.2.map fun packet =>
      ⟨packet, fun z => ((s.act x result).ends z).submitted.length⟩ := Function.update_self ..
  rw [hWires, List.mem_append, List.mem_map] at hMem
  rcases hMem with hOld | ⟨packet, hPacket, rfl⟩
  · exact .inl hOld
  · exact .inr ⟨hPacket, fun z => rfl⟩

theorem Numbered.of_same {stream : List (List UInt8)} {k : Nat} {packet packet' : RdpPacket}
    (hNumbered : Numbered iss stream k packet) (hSame : SamePacket packet packet') :
    Numbered iss stream k packet' :=
  ⟨hSame.2.1.trans hNumbered.seqNr, hNumbered.pos, by rw [hSame.2.2]; exact hNumbered.data⟩

theorem live_of_state {conn conn' : RdpConn} (hLive : conn.Live)
    (hState : conn'.state = conn.state ∨ conn'.state = .rdpOpen ∨ conn'.state = .rdpCloseWait) :
    conn'.Live := by
  rcases hState with hSame | hOpen | hWait
  · rw [RdpConn.Live, hSame]
    exact hLive
  · exact .inr (.inl hOpen)
  · exact .inr (.inr hWait)

/-- The packet that a function of the sending end has been given has come off the line in
time. -/
def Arrived (s : System) (x : Side) (input : Option RdpPacket) : Prop :=
  ∀ packet ∈ input, ∃ wire ∈ s.wires x, wire.packet = packet ∧
    s.sent x < wire.stamp x + lifetime

theorem Flow.sender (hWindow : window ≤ 2 ^ 13) (hFlow : Flow iss window s x)
    {input : Option RdpPacket} (hSide : SendSide input (s.ends x) result)
    (hInput : Arrived s x input) : Flow iss window (s.act x result) x := by
  obtain ⟨u, hUna, hUnaLe, hUnaNear⟩ := hFlow.sndUna
  have hSent : (s.act x result).sent x = s.sent x := by
    simp [System.sent, hSide.submitted]
  have hNear : s.sent x ≤ (s.ends x.other).accepted.length + window := hFlow.holding.near
  have hTaken : (s.ends x.other).accepted.length ≤ s.sent x := hFlow.holding.length_le
  have hQueued : ∀ element ∈ result.1.txQueue, element.packet.flags.eak = false ∧
      (element.packet.flags.syn = true ∨ ∃ k,
        Numbered iss (s.ends x).submitted k element.packet ∧ s.sent x < k + lifetime) := by
    intro element' hMem
    rcases hSide.queued element' hMem with hFlags | ⟨element, hElement, hSame⟩
    · rw [hFlags]
      exact ⟨rfl, .inl rfl⟩
    · obtain ⟨hEak, hKind⟩ := hFlow.queued element hElement
      rw [hSame.1]
      refine ⟨hEak, hKind.imp_right ?_⟩
      rintro ⟨k, hNumbered, hYoung⟩
      exact ⟨k, hNumbered.of_same hSame, hYoung⟩
  have hLifetime : lifetime = 2 ^ 14 := rfl
  refine ⟨?_, ?_, ?_, ?_, ?_, ?_, ?_, ?_, ?_, ?_⟩
  · rw [ends_act_self]
    exact live_of_state hFlow.live hSide.state
  · rw [ends_act_self, hSide.options]
    exact hFlow.windowSize
  · rw [ends_act_self, hSent, hSide.sndNxt]
    exact hFlow.sndNxt
  · rw [ends_act_self, ends_act_other, hSent]
    rcases hSide.sndUna with hSame | ⟨packet, hPacket, hAck, hMoved⟩
    · exact ⟨u, hSame.trans hUna, hUnaLe, hUnaNear⟩
    · -- the acknowledgement has not been on the line for too long
      obtain ⟨wire, hWire, rfl, hYoung⟩ := hInput packet hPacket
      obtain ⟨a, ha, hNumber, hStamp⟩ := hFlow.ack wire hWire hAck
      refine ⟨a + 1, ?_, by omega, by omega⟩
      rw [hMoved, hNumber, serial_succ]
  · rw [ends_act_self, ends_act_other, hSide.submitted]
    exact hFlow.holding
  · rw [ends_act_self, hSent, hSide.submitted]
    exact hQueued
  · rw [ends_act_self, ends_act_other, hSent, hSide.submitted]
    intro k hPos hLe
    rcases hFlow.kept k hPos hLe with hTaken | hStored |
      ⟨element, hElement, hNumbered, hYoung⟩
    · exact .inl hTaken
    · exact .inr (.inl hStored)
    · rcases hSide.kept element hElement with ⟨element', hElement', hSame⟩ | hBefore |
        ⟨packet, hPacket, -, hEak, hTold⟩
      · exact .inr (.inr ⟨element', hElement', hNumbered.of_same hSame, hYoung⟩)
      · -- it has been acknowledged
        rw [cspRdpSeqBefore, hNumbered.seqNr, hUna, serialBefore_iff (by omega) (by omega)]
          at hBefore
        exact .inl (by omega)
      · -- it has been told in an EACK, in which no other number could be meant
        obtain ⟨wire, hWire, rfl, hWireYoung⟩ := hInput packet hPacket
        obtain ⟨j, hj, hNumber, hStamp, hReceived⟩ := hFlow.eak wire hWire hEak _ hTold
        rw [hNumbered.seqNr, serial_inj_of_lt (by omega) (by omega)] at hNumber
        rw [hNumber]
        exact hReceived.imp_right .inl
  · rw [ends_act_self, hSide.submitted]
    intro wire hMem hData
    rcases mem_wires_act_other rfl hMem with hOld | ⟨hNew, hStamp⟩
    · exact hFlow.data wire hOld hData
    · obtain ⟨element, hElement, hEq⟩ := hSide.data wire.packet hNew hData
      obtain ⟨-, hSyn | ⟨k, hNumbered, hYoung⟩⟩ := hQueued element hElement
      · rw [hEq, hData.1] at hSyn
        cases hSyn
      · refine ⟨k, hEq ▸ hNumbered, ?_⟩
        rw [hStamp x, hSent]
        exact hYoung
  · rw [wires_act_self, ends_act_other]
    exact hFlow.ack
  · rw [wires_act_self, ends_act_other, hSent]
    exact hFlow.eak

/-! ## What an end does to the packets that it receives -/

theorem Flow.receiver (hWindow : window ≤ 2 ^ 13) (hFlow : Flow iss window s x)
    (hSide : RecvSide iss window (s.ends x).submitted (s.ends x.other) result) :
    Flow iss window (s.act x.other result) x := by
  have hSelf : (s.act x.other result).ends x = s.ends x :=
    Function.update_of_ne (Side.other_ne x).symm ..
  have hOther : (s.act x.other result).ends x.other = result.1 := ends_act_self
  have hSent : (s.act x.other result).sent x = s.sent x := by rw [System.sent, hSelf, System.sent]
  have hGrown := hSide.grown
  have hNear : s.sent x ≤ (s.ends x.other).accepted.length + window := hFlow.holding.near
  -- what has been taken or stored stays so
  have hReceived : ∀ k ≤ s.sent x, (k ≤ (s.ends x.other).accepted.length ∨
      ∃ packet ∈ (s.ends x.other).rxQueue, packet.seqNr = serial iss k) →
      k ≤ result.1.accepted.length ∨
        ∃ packet ∈ result.1.rxQueue, packet.seqNr = serial iss k := by
    rintro k hLe (hTaken | ⟨packet, hMem, hSeq⟩)
    · exact .inl (by omega)
    · rcases hSide.kept packet hMem with hStored | ⟨j, hLow, hHigh, hSeq'⟩
      · exact .inr ⟨packet, hStored, hSeq⟩
      · by_cases hTaken : k ≤ result.1.accepted.length
        · exact .inl hTaken
        · rw [hSeq, serial_inj_of_lt (by omega) (by omega)] at hSeq'
          omega
  have hWires : ∀ wire ∈ (s.act x.other result).wires x, wire ∈ s.wires x ∨
      wire.packet ∈ result.2 ∧ wire.stamp x = s.sent x := by
    intro wire hMem
    rcases mem_wires_act_other (Side.other_other x).symm hMem with hOld | ⟨hNew, hStamp⟩
    · exact .inl hOld
    · exact .inr ⟨hNew, (hStamp x).trans hSent⟩
  refine ⟨?_, ?_, ?_, ?_, ?_, ?_, ?_, ?_, ?_, ?_⟩
  · rw [hSelf]
    exact hFlow.live
  · rw [hSelf]
    exact hFlow.windowSize
  · rw [hSelf, hSent]
    exact hFlow.sndNxt
  · obtain ⟨u, hUna, hLe, hUnaNear⟩ := hFlow.sndUna
    rw [hSelf, hSent, hOther]
    exact ⟨u, hUna, by omega, hUnaNear⟩
  · rw [hSelf, hOther]
    exact hSide.holding
  · rw [hSelf, hSent]
    exact hFlow.queued
  · rw [hSelf, hSent, hOther]
    intro k hPos hLe
    rcases hFlow.kept k hPos hLe with hTaken | hStored | hQueued
    · exact .inl (by omega)
    · exact (hReceived k hLe (.inr hStored)).imp_right .inl
    · exact .inr (.inr hQueued)
  · rw [hSelf, wires_act_self]
    exact hFlow.data
  · rw [hOther]
    intro wire hMem hAck
    rcases hWires wire hMem with hOld | ⟨hNew, hStamp⟩
    · obtain ⟨a, ha, hNumber, hStamp⟩ := hFlow.ack wire hOld hAck
      exact ⟨a, by omega, hNumber, hStamp⟩
    · obtain ⟨a, hLow, hHigh, hNumber⟩ := hSide.ack wire.packet hNew hAck
      exact ⟨a, hHigh, hNumber, by omega⟩
  · rw [hOther, hSent]
    intro wire hMem hEak number hNumber
    rcases hWires wire hMem with hOld | ⟨hNew, hStamp⟩
    · obtain ⟨k, hk, hSeq, hStamp, hReceived'⟩ := hFlow.eak wire hOld hEak number hNumber
      exact ⟨k, hk, hSeq, hStamp, hReceived k hk hReceived'⟩
    · -- what is told now is stored now
      rw [hSide.eak wire.packet hNew hEak, eackNumbers_eackData] at hNumber
      obtain ⟨packet, hPacket, rfl⟩ := List.mem_map.mp hNumber
      obtain ⟨-, k, hk, hNumbered⟩ := hSide.holding.stored packet hPacket
      exact ⟨k, hNumbered.le_length, hNumbered.seqNr, by omega,
        .inr ⟨packet, hPacket, hNumbered.seqNr⟩⟩

/-! ## Sending -/

theorem Numbered.append {stream : List (List UInt8)} {k : Nat} {packet : RdpPacket}
    (hNumbered : Numbered iss stream k packet) (data : List UInt8) :
    Numbered iss (stream ++ [data]) k packet := by
  refine ⟨hNumbered.seqNr, hNumbered.pos, ?_⟩
  obtain ⟨hLt, -⟩ := List.getElem?_eq_some_iff.mp hNumbered.data
  rw [List.getElem?_append_left hLt]
  exact hNumbered.data

/-- What `csp_rdp_send` does: nothing, or it takes the data. -/
theorem cspRdpSend_cases (conf : RdpConf) (env : RdpEnv) (conn : RdpConn) (data : List UInt8) :
    (cspRdpSend conf env conn data).2 = (conn, []) ∨
      cspRdpIsConnReadyForTx conn = true ∧
      (cspRdpSend conf env conn data).2 =
        ({ conn with
            txQueue := conn.txQueue ++ [⟨⟨rdpAck, conn.sndNxt, conn.rcvCur, data⟩, env.now, 0⟩]
            sndNxt := conn.sndNxt + 1
            submitted := conn.submitted ++ [data] },
          if env.sent then [⟨rdpAck, conn.sndNxt, conn.rcvCur, data⟩] else []) := by
  unfold cspRdpSend
  split
  · exact .inl rfl
  · split
    · exact .inl rfl
    · next hReady =>
      split
      · exact .inl rfl
      · split
        · exact .inl rfl
        · split
          · exact .inl rfl
          · exact .inr ⟨by simpa using hReady, rfl⟩

/-- A function that does nothing. -/
theorem Flow.idle (hWindow : window ≤ 2 ^ 13) (hFlow : Flow iss window s x) :
    Flow iss window (s.act x (s.ends x, [])) x := by
  have hSide : SendSide none (s.ends x) (s.ends x, []) := by
    refine SameSender.sendSide (SameSender.refl _) ?_
    simp
  exact hFlow.sender hWindow hSide fun packet hMem => by cases hMem

/-- The window admits the next packet. -/
theorem Flow.ready (hWindow : window ≤ 2 ^ 13) (hPos : 0 < window) (hFlow : Flow iss window s x)
    (hReady : cspRdpIsConnReadyForTx (s.ends x) = true) :
    ∃ u, (s.ends x).sndUna = serial iss u ∧ u ≤ (s.ends x.other).accepted.length + 1 ∧
      s.sent x + 2 ≤ u + window := by
  obtain ⟨u, hUna, hUnaLe, hUnaNear⟩ := hFlow.sndUna
  have hTaken : (s.ends x.other).accepted.length ≤ s.sent x := hFlow.holding.length_le
  have hLifetime : lifetime = 2 ^ 14 := rfl
  refine ⟨u, hUna, hUnaLe, ?_⟩
  have hEnd : (s.ends x).sndUna + (s.ends x).options.windowSize.setWidth 16 - 1 =
      serial iss (u + (window - 1)) := by
    have hSize : (s.ends x).options.windowSize.setWidth 16 = BitVec.ofNat 16 window := by
      rw [hFlow.windowSize, ← BitVec.toNat_inj, BitVec.toNat_setWidth, BitVec.toNat_ofNat,
        BitVec.toNat_ofNat]
      omega
    rw [hSize, hUna, serial_add, show u + window = u + (window - 1) + 1 by omega, serial_sub_one]
  rw [cspRdpIsConnReadyForTx, cspRdpSeqAfter, cspRdpSeqBefore, hEnd, hFlow.sndNxt] at hReady
  have hNotBefore : ¬ serialBefore (serial iss (u + (window - 1))) (serial iss (s.sent x + 1)) := by
    simpa using hReady
  rw [serialBefore_iff (by omega) (by omega)] at hNotBefore
  omega

/-- `csp_rdp_send` adds a packet at the end of those that are sent. -/
theorem Flow.send (hWindow : window ≤ 2 ^ 13) (hPos : 0 < window) (hFlow : Flow iss window s x)
    (hTimely : ∀ element ∈ (s.ends x).txQueue,
      ((s.ends x).sndNxt - element.packet.seqNr).toNat < lifetime)
    (conf : RdpConf) (env : RdpEnv) (data : List UInt8) :
    Flow iss window (s.act x (cspRdpSend conf env (s.ends x) data).2) x := by
  rcases cspRdpSend_cases conf env (s.ends x) data with hNothing | ⟨hReady, hSend⟩
  · rw [hNothing]
    exact hFlow.idle hWindow
  obtain ⟨u, hUna, hUnaLe, hRoom⟩ := hFlow.ready hWindow hPos hReady
  have hNear : s.sent x ≤ (s.ends x.other).accepted.length + window := hFlow.holding.near
  have hLifetime : lifetime = 2 ^ 14 := rfl
  rw [hSend]
  set packet : RdpPacket := ⟨rdpAck, (s.ends x).sndNxt, (s.ends x).rcvCur, data⟩ with hPacket
  set element : TxElement := ⟨packet, env.now, 0⟩ with hElement
  set result : RdpConn × List RdpPacket :=
    ({ s.ends x with
        txQueue := (s.ends x).txQueue ++ [element]
        sndNxt := (s.ends x).sndNxt + 1
        submitted := (s.ends x).submitted ++ [data] },
      if env.sent then [packet] else []) with hResult
  have hSent : (s.act x result).sent x = s.sent x + 1 := by simp [System.sent, hResult]
  have hNumbered : Numbered iss ((s.ends x).submitted ++ [data]) (s.sent x + 1) packet := by
    refine ⟨hFlow.sndNxt, by omega, ?_⟩
    rw [Nat.add_sub_cancel, System.sent, List.getElem?_append_right le_rfl, Nat.sub_self]
    rfl
  -- the packets in the queue are still found in time, with one packet more
  have hYoung : ∀ element ∈ (s.ends x).txQueue, ∀ k,
      Numbered iss (s.ends x).submitted k element.packet → s.sent x < k + lifetime →
      s.sent x + 1 < k + lifetime := by
    intro element hMem k hOld hLow
    have hClose := hTimely element hMem
    have hLe : k ≤ s.sent x := hOld.le_length
    rw [hFlow.sndNxt, hOld.seqNr, serial_sub_of_le (by omega) (by omega)] at hClose
    omega
  refine ⟨?_, ?_, ?_, ?_, ?_, ?_, ?_, ?_, ?_, ?_⟩
  · rw [ends_act_self]
    exact hFlow.live
  · rw [ends_act_self]
    exact hFlow.windowSize
  · rw [ends_act_self, hSent]
    show (s.ends x).sndNxt + 1 = _
    rw [hFlow.sndNxt, serial_succ]
  · rw [ends_act_self, ends_act_other, hSent]
    exact ⟨u, hUna, hUnaLe, by omega⟩
  · rw [ends_act_self, ends_act_other]
    obtain ⟨hCur, hIrs, hAccepted, hNonempty, hStored, hDistinct, -, hArrived, hOpening⟩ :=
      hFlow.holding
    refine ⟨hCur, hIrs, hAccepted.trans (List.prefix_append _ _), hNonempty, ?_, hDistinct, ?_,
      hArrived, hOpening⟩
    · intro stored hMem
      obtain ⟨hData, k, hk, hOld⟩ := hStored stored hMem
      exact ⟨hData, k, hk, hOld.append data⟩
    · have hLength : ((s.ends x).submitted ++ [data]).length = s.sent x + 1 := by
        simp [System.sent]
      show ((s.ends x).submitted ++ [data]).length ≤ _
      omega
  · rw [ends_act_self, hSent]
    intro other hMem
    rcases List.mem_append.mp hMem with hOld | hNew
    · obtain ⟨hEak, hKind⟩ := hFlow.queued other hOld
      refine ⟨hEak, hKind.imp_right ?_⟩
      rintro ⟨k, hOther, hLow⟩
      exact ⟨k, hOther.append data, hYoung other hOld k hOther hLow⟩
    · rw [List.mem_singleton.mp hNew]
      exact ⟨rfl, .inr ⟨s.sent x + 1, hNumbered, by omega⟩⟩
  · rw [ends_act_self, ends_act_other, hSent]
    intro k hOne hLe
    rcases Nat.lt_or_ge (s.sent x) k with hNew | hOld
    · obtain rfl : k = s.sent x + 1 := by omega
      exact .inr (.inr ⟨element, List.mem_append_right _ (List.mem_singleton_self _),
        hNumbered, by omega⟩)
    · rcases hFlow.kept k hOne hOld with hTaken | hStored | ⟨other, hMem, hOther, hLow⟩
      · exact .inl hTaken
      · exact .inr (.inl hStored)
      · exact .inr (.inr ⟨other, List.mem_append_left _ hMem, hOther.append data,
          hYoung other hMem k hOther hLow⟩)
  · rw [ends_act_self]
    intro wire hMem hData
    rcases mem_wires_act_other rfl hMem with hOld | ⟨hNew, hStamp⟩
    · obtain ⟨k, hOther, hLow⟩ := hFlow.data wire hOld hData
      exact ⟨k, hOther.append data, hLow⟩
    · have hEq : wire.packet = packet := by
        have hSome : wire.packet ∈ (if env.sent then [packet] else []) := hNew
        split at hSome
        · exact List.mem_singleton.mp hSome
        · cases hSome
      rw [hEq, hStamp x, hSent]
      exact ⟨s.sent x + 1, hNumbered, by omega⟩
  · rw [wires_act_self, ends_act_other]
    exact hFlow.ack
  · rw [wires_act_self, ends_act_other, hSent]
    intro wire hMem hEak number hNumber
    obtain ⟨k, hk, hRest⟩ := hFlow.eak wire hMem hEak number hNumber
    exact ⟨k, by omega, hRest⟩

/-- `csp_rdp_send` carries the acknowledgement of what has been taken. -/
theorem recvSide_cspRdpSend {stream : List (List UInt8)} {conn : RdpConn}
    (hHolding : Holding iss window stream 2 conn) (conf : RdpConf) (env : RdpEnv)
    (data : List UInt8) :
    RecvSide iss window stream conn (cspRdpSend conf env conn data).2 := by
  rcases cspRdpSend_cases conf env conn data with hNothing | ⟨-, hSend⟩
  · rw [hNothing]
    exact hHolding.recvSide (Unmoved.refl conn) (by simp)
  · rw [hSend]
    have hOut : ∀ q ∈ (if env.sent then [(⟨rdpAck, conn.sndNxt, conn.rcvCur, data⟩ : RdpPacket)]
        else []), q.flags.eak = false ∧ q.ackNr = conn.rcvCur := by
      intro q hMem
      split at hMem
      · rw [List.mem_singleton.mp hMem]
        exact ⟨rfl, rfl⟩
      · cases hMem
    refine ⟨hHolding.of_same ⟨rfl, rfl, rfl, rfl, rfl⟩ id, le_rfl,
      fun packet hMem => .inl hMem, ?_, ?_⟩
    · intro q hMem hAck
      exact ⟨conn.accepted.length, le_rfl, le_rfl, (hOut q hMem).2.trans hHolding.rcvCur⟩
    · intro q hMem hEak
      rw [(hOut q hMem).1] at hEak
      cases hEak

/-! ## The steps -/

/-- The packets of both directions. -/
def Flows (iss : Side → BitVec 16) (window : Nat) (s : System) : Prop :=
  ∀ x, Flow (iss x) window s x

/-- What is to be shown of a function that an end calls. -/
theorem Flows.act {iss : Side → BitVec 16} (hWindow : window ≤ 2 ^ 13)
    (hFlows : Flows iss window s) (hSender : Flow (iss x) window (s.act x result) x)
    (hReceiver : RecvSide (iss x.other) window (s.ends x.other).submitted (s.ends x) result) :
    Flows iss window (s.act x result) := by
  intro y
  rcases Side.eq_or_eq_other x y with rfl | rfl
  · exact hSender
  · have hSelf : x.other.other = x := Side.other_other x
    have hFlow := @Flow.receiver (iss x.other) window s x.other result hWindow (hFlows x.other)
      (by rw [hSelf]; exact hReceiver)
    rwa [hSelf] at hFlow

/-- A packet that is delivered is not mistaken for another one. -/
theorem Flow.fresh (hWindow : window ≤ 2 ^ 13) (hFlow : Flow iss window s x) {wire : Wire}
    (hMem : wire ∈ s.wires x.other) (hYoung : s.sent x < wire.stamp x + lifetime) :
    Fresh iss window (s.ends x).submitted (s.ends x.other) wire.packet := by
  intro hData
  obtain ⟨k, hNumbered, hStamp⟩ := hFlow.data wire hMem hData
  have hTaken : (s.ends x.other).accepted.length ≤ s.sent x := hFlow.holding.length_le
  have hLifetime : lifetime = 2 ^ 14 := rfl
  exact ⟨k, hNumbered, by omega⟩

theorem Flows.step {iss : Side → BitVec 16} (hWindow : window ≤ 2 ^ 13) (hPos : 0 < window)
    (hFlows : Flows iss window s) {s' : System} (hMove : Move conf s x s')
    (hState : ∀ y, (s'.ends y).state ≠ .rdpClosed) : Flows iss window s' := by
  have hSelf : x.other.other = x := Side.other_other x
  have hFlow := hFlows x
  have hHolding : Holding (iss x.other) window (s.ends x.other).submitted 2 (s.ends x) := by
    have h := (hFlows x.other).holding
    rwa [hSelf] at h
  cases hMove with
  | send env data hTimely =>
      exact hFlows.act hWindow (hFlow.send hWindow hPos hTimely (conf x) env data)
        (recvSide_cspRdpSend hHolding (conf x) env data)
  | deliver env wire hMem hYoung =>
      have hOpen := hState x
      rw [ends_act_self] at hOpen
      refine hFlows.act hWindow ?_ ?_
      · refine hFlow.sender hWindow (sendSide_routeRdp (conf x) env _ hFlow.live hOpen) ?_
        rintro packet hPacket
        exact ⟨wire, hMem, Option.some.inj hPacket, hYoung x⟩
      · refine recvSide_routeRdp (conf x) env hPos (by omega) hHolding hFlow.windowSize
          hFlow.live ?_ hOpen
        have hFresh := @Flow.fresh (iss x.other) window s x.other hWindow (hFlows x.other) wire
          (by rwa [hSelf]) (hYoung x.other)
        rwa [hSelf] at hFresh
  | timeouts env =>
      have hOpen := hState x
      rw [ends_act_self] at hOpen
      have hSide : SendSide none (s.ends x) (cspRdpCheckTimeouts (conf x) env (s.ends x)) :=
        sendSide_cspRdpCheckTimeouts (conf x) env hOpen
      exact hFlows.act hWindow (hFlow.sender hWindow hSide fun _ h => by cases h)
        (recvSide_cspRdpCheckTimeouts (conf x) env hHolding
          (fun element hMem => (hFlow.queued element hMem).1) hOpen)
  | read env =>
      obtain ⟨hUnmoved, hControl⟩ := @cspRead_unmoved (conf x) env (s.ends x)
      have hSide : SendSide none (s.ends x) (cspRead (conf x) env (s.ends x)) :=
        hUnmoved.toSameSender.sendSide fun q hMem => (hControl q hMem).noData
      exact hFlows.act hWindow (hFlow.sender hWindow hSide fun _ h => by cases h)
        (hHolding.recvSide hUnmoved hControl)
  | close env =>
      have hOpen := hState x
      rw [ends_act_self] at hOpen
      have hQuiet : Quiet (s.ends x) _ := quiet_cspConnClose (conf x) env closedByUserspace
      have hSide : SendSide none (s.ends x) _ := hQuiet.sendSide hOpen
      exact hFlows.act hWindow (hFlow.sender hWindow hSide fun _ h => by cases h)
        (hHolding.recvSide (hQuiet.unmoved hOpen) hQuiet.control)

end Rdp
end Csp
end CubeSatComm
