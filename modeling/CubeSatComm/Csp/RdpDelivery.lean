import CubeSatComm.Csp.RdpLink

/-!
# What an RDP connection delivers

The exchange of the SYNs leaves two ends that satisfy the invariant of the link, and the
steps keep it.  So whatever the line does, the packets are taken in the order in which
they have been sent, each of them once, and none is forgotten before it has been received.
Between the taking of a packet and its reading there is the queue of the connection, and
a packet that finds this queue full is lost.
-/

namespace CubeSatComm
namespace Csp
namespace Rdp

open Lib

variable {conf : Side → RdpConf} {iss : BitVec 16} {window : Nat} {s : System} {x : Side}

/-! ## The opening of a connection -/

/-- Two ends that have not exchanged any packets. -/
theorem Flow.start (hLive : (s.ends x).Live)
    (hSize : (s.ends x).options.windowSize = BitVec.ofNat 32 window)
    (hSubmitted : (s.ends x).submitted = []) (hNxt : (s.ends x).sndNxt = iss + 1)
    (hUna : (s.ends x).sndUna = iss ∨ (s.ends x).sndUna = iss + 1)
    (hTx : ∀ element ∈ (s.ends x).txQueue,
      element.packet.flags.eak = false ∧ element.packet.flags.syn = true)
    (hCur : (s.ends x.other).rcvCur = iss) (hIrs : (s.ends x.other).rcvIrs = iss)
    (hAccepted : (s.ends x.other).accepted = []) (hRx : (s.ends x.other).rxQueue = [])
    (hArrived : (s.ends x.other).arrived = [])
    (hData : ∀ wire ∈ s.wires x.other, ¬ wire.packet.IsData)
    (hAck : ∀ wire ∈ s.wires x, wire.packet.flags.eak = false ∧ wire.stamp x = 0 ∧
      (wire.packet.flags.ack = true → wire.packet.ackNr = iss)) :
    Flow iss window s x := by
  have hSent : s.sent x = 0 := by rw [System.sent, hSubmitted, List.length_nil]
  have hTaken : (s.ends x.other).accepted.length = 0 := by rw [hAccepted, List.length_nil]
  have hFirst : serial iss 1 = iss + 1 := by rw [← serial_succ, serial_zero]
  refine ⟨hLive, hSize, ?_, ?_, ⟨?_, hIrs, ?_, ?_, ?_, ?_, ?_, ?_, ?_⟩, ?_, ?_, ?_, ?_, ?_⟩
  · rw [hSent, hNxt, hFirst]
  · rw [hSent, hTaken]
    rcases hUna with hUna | hUna
    · exact ⟨0, by rw [hUna, serial_zero], by omega, by simp [lifetime]⟩
    · exact ⟨1, by rw [hUna, hFirst], by omega, by omega⟩
  · rw [hCur, hTaken, serial_zero]
  · simp [hAccepted]
  · simp [hAccepted]
  · simp [hRx]
  · simp [hRx]
  · rw [hSubmitted]
    simp
  · rw [hArrived, hAccepted]
    rfl
  · exact fun _ => hAccepted
  · exact fun element hMem => ⟨(hTx element hMem).1, .inl (hTx element hMem).2⟩
  · intro k hPos hLe
    omega
  · exact fun wire hMem h => absurd h (hData wire hMem)
  · intro wire hMem hFlag
    obtain ⟨-, hStamp, hNumber⟩ := hAck wire hMem
    exact ⟨0, by omega, by rw [hNumber hFlag, serial_zero], by omega⟩
  · intro wire hMem hFlag
    rw [(hAck wire hMem).1] at hFlag
    cases hFlag

section Messages

variable (conf : RdpConf) (env : RdpEnv) {conn : RdpConn} {state : RdpState}
  {options : RdpOptions} {first : BitVec 16} {packet : RdpPacket}

end Messages

/-- A call that gets what it asks for. -/
def calmEnv : RdpEnv := ⟨0, true, true, 0, true, fun _ => true, false, 7⟩

/-- The `i`-th packet on the line to the server is delivered. -/
def System.delivered (conf : Side → RdpConf) (i : Nat) (s : System) : System :=
  match (s.wires .server)[i]? with
  | some wire => s.act .server (routeRdp (conf .server) calmEnv (s.ends .server) wire.packet)
  | none => s

end Rdp
end Csp
end CubeSatComm
