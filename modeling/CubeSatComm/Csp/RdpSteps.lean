import CubeSatComm.Csp.Rdp

/-!
# What the functions of RDP do to a connection

A connection has two ends of its own: the one that sends, with the numbers `snd_*` and the
queue of what has not been acknowledged, and the one that receives, with the numbers
`rcv_*` and the queue of what has come out of its order.  Most of what a function does
leaves both alone.  What it does to the sending end is said here by `SendSide`; the
receiving end has a file of its own.
-/

namespace CubeSatComm
namespace Csp
namespace Rdp

open Lib

variable (conf : RdpConf) (env : RdpEnv) {conn conn' : RdpConn}

/-- The packet carries data that its receiver is to take. -/
def RdpPacket.IsData (packet : RdpPacket) : Prop :=
  packet.flags.syn = false ∧ packet.flags.eak = false ∧ packet.flags.rst = false ∧
    packet.data ≠ []

/-- The data that are, or have been, in the queue of the connection. -/
def RdpConn.arrived (conn : RdpConn) : List (List UInt8) :=
  conn.read ++ conn.connQueue.filterMap id

/-- The connection is in a state between its opening and its closing. -/
def RdpConn.Live (conn : RdpConn) : Prop :=
  conn.state = .rdpSynRcvd ∨ conn.state = .rdpOpen ∨ conn.state = .rdpCloseWait

/-- The sending end has not moved. -/
structure SameSender (conn conn' : RdpConn) : Prop where
  sndNxt : conn'.sndNxt = conn.sndNxt
  sndUna : conn'.sndUna = conn.sndUna
  sndIss : conn'.sndIss = conn.sndIss
  txQueue : conn'.txQueue = conn.txQueue
  submitted : conn'.submitted = conn.submitted
  options : conn'.options = conn.options
  state : conn'.state = conn.state ∨ conn'.state = .rdpOpen ∨ conn'.state = .rdpCloseWait

/-- The receiving end has not moved. -/
structure SameReceiver (conn conn' : RdpConn) : Prop where
  rcvCur : conn'.rcvCur = conn.rcvCur
  rcvIrs : conn'.rcvIrs = conn.rcvIrs
  rxQueue : conn'.rxQueue = conn.rxQueue
  accepted : conn'.accepted = conn.accepted
  arrived : conn'.arrived = conn.arrived

/-- Neither end of the connection has moved. -/
structure Unmoved (conn conn' : RdpConn) : Prop extends
  SameSender conn conn', SameReceiver conn conn'

theorem SameSender.refl (conn : RdpConn) : SameSender conn conn :=
  ⟨rfl, rfl, rfl, rfl, rfl, rfl, .inl rfl⟩

theorem SameSender.trans {conn'' : RdpConn} (h : SameSender conn conn')
    (h' : SameSender conn' conn'') : SameSender conn conn'' :=
  ⟨h'.sndNxt.trans h.sndNxt, h'.sndUna.trans h.sndUna, h'.sndIss.trans h.sndIss,
    h'.txQueue.trans h.txQueue, h'.submitted.trans h.submitted, h'.options.trans h.options, by
      rcases h'.state with hSame | hLater
      · rw [hSame]
        exact h.state
      · exact .inr hLater⟩

theorem SameReceiver.refl (conn : RdpConn) : SameReceiver conn conn :=
  ⟨rfl, rfl, rfl, rfl, rfl⟩

theorem SameReceiver.trans {conn'' : RdpConn} (h : SameReceiver conn conn')
    (h' : SameReceiver conn' conn'') : SameReceiver conn conn'' :=
  ⟨h'.rcvCur.trans h.rcvCur, h'.rcvIrs.trans h.rcvIrs, h'.rxQueue.trans h.rxQueue,
    h'.accepted.trans h.accepted, h'.arrived.trans h.arrived⟩

theorem Unmoved.refl (conn : RdpConn) : Unmoved conn conn :=
  ⟨SameSender.refl conn, SameReceiver.refl conn⟩

theorem Unmoved.trans {conn'' : RdpConn} (h : Unmoved conn conn') (h' : Unmoved conn' conn'') :
    Unmoved conn conn'' :=
  ⟨h.toSameSender.trans h'.toSameSender, h.toSameReceiver.trans h'.toSameReceiver⟩

/-- A packet without data, and with the acknowledgement of what has been received. -/
structure IsControl (conn : RdpConn) (packet : RdpPacket) : Prop where
  noEak : packet.flags.eak = false
  noData : ¬ packet.IsData
  ackNr : packet.flags.ack = true → packet.ackNr = conn.rcvCur

/-! ## Control messages -/

section ControlMessages

variable {packet : Option (List UInt8)} {flags : RdpFlags} {seqNr ackNr : BitVec 16}

/-- What `csp_rdp_send_cmp` puts on the line. -/
theorem eq_of_mem_cspRdpSendCmp {q : RdpPacket}
    (hMem : q ∈ (cspRdpSendCmp conf env conn packet flags seqNr ackNr).2) :
    q = ⟨flags, seqNr, ackNr, packet.getD []⟩ := by
  unfold cspRdpSendCmp at hMem
  dsimp only at hMem
  split at hMem
  · cases hMem
  · next data hData =>
    have hEq : data = packet.getD [] := by
      cases packet with
      | some data' => exact (Option.some.inj hData).symm
      | none =>
          have hNone : (if env.buffer then some [] else none) = some data := hData
          split at hNone
          · exact (Option.some.inj hNone).symm
          · cases hNone
    split at hMem
    · cases hMem
    · split at hMem
      · cases hMem
      · split at hMem
        · cases hMem
        · rw [List.mem_singleton.mp hMem, hEq]

/-- A message without SYN only has the time of the last acknowledgement set. -/
theorem cspRdpSendCmp_unmoved (hSyn : flags.syn = false) :
    Unmoved conn (cspRdpSendCmp conf env conn packet flags seqNr ackNr).1 := by
  unfold cspRdpSendCmp
  simp only [hSyn, Bool.false_and, Bool.false_eq_true, if_false]
  split
  · exact Unmoved.refl conn
  · split
    · exact Unmoved.refl conn
    · split
      · exact Unmoved.refl conn
      · split
        · exact ⟨⟨rfl, rfl, rfl, rfl, rfl, rfl, .inl rfl⟩, ⟨rfl, rfl, rfl, rfl, rfl⟩⟩
        · exact Unmoved.refl conn

/-- A message with SYN may have been queued. -/
theorem cspRdpSendCmp_queue :
    ∃ txQueue, Unmoved { conn with txQueue := txQueue }
        (cspRdpSendCmp conf env conn packet flags seqNr ackNr).1 ∧
      (txQueue = conn.txQueue ∨ ∃ element : TxElement, element.packet.flags = flags ∧
        txQueue = conn.txQueue ++ [element]) := by
  have hSame : ∃ txQueue, Unmoved { conn with txQueue := txQueue } conn ∧
      (txQueue = conn.txQueue ∨ ∃ element : TxElement, element.packet.flags = flags ∧
        txQueue = conn.txQueue ++ [element]) :=
    ⟨conn.txQueue, Unmoved.refl conn, .inl rfl⟩
  by_cases hSyn : flags.syn = false
  · exact ⟨conn.txQueue, cspRdpSendCmp_unmoved conf env hSyn, .inl rfl⟩
  · unfold cspRdpSendCmp
    dsimp only
    split
    · exact hSame
    · next data _ =>
      split
      · exact hSame
      · split
        · exact hSame
        · have hSyn : flags.syn = true := by simpa using hSyn
          rw [if_pos hSyn]
          let element : TxElement := ⟨⟨flags, seqNr, ackNr, data⟩, env.now, env.quarantine⟩
          have hQueue : ∃ txQueue,
              conn.enqueueTx conf element = { conn with txQueue := txQueue } ∧
              (txQueue = conn.txQueue ∨ ∃ element : TxElement, element.packet.flags = flags ∧
                txQueue = conn.txQueue ++ [element]) := by
            unfold RdpConn.enqueueTx
            split
            · exact ⟨_, rfl, .inr ⟨element, rfl, rfl⟩⟩
            · exact ⟨conn.txQueue, rfl, .inl rfl⟩
          obtain ⟨txQueue, hEq, hCases⟩ := hQueue
          refine ⟨txQueue, ?_, hCases⟩
          rw [hEq]
          split
          · exact Unmoved.refl _
          · split
            · exact ⟨⟨rfl, rfl, rfl, rfl, rfl, rfl, .inl rfl⟩, ⟨rfl, rfl, rfl, rfl, rfl⟩⟩
            · exact Unmoved.refl _

end ControlMessages

/-- A message without a packet of its own, with the number of what has been received. -/
theorem isControl_of_mem_cspRdpSendCmp {flags : RdpFlags} {seqNr : BitVec 16} {q : RdpPacket}
    (hEak : flags.eak = false)
    (hMem : q ∈ (cspRdpSendCmp conf env conn none flags seqNr conn.rcvCur).2) :
    IsControl conn q := by
  rw [eq_of_mem_cspRdpSendCmp conf env hMem]
  exact ⟨hEak, fun hData => hData.2.2.2 rfl, fun _ => rfl⟩

/-! ## Closing -/

/-- A function that moves nothing, and puts control messages on the line only; it may have
closed the connection instead. -/
structure Quiet (conn : RdpConn) (result : RdpConn × List RdpPacket) : Prop where
  unmoved : result.1.state ≠ .rdpClosed → Unmoved conn result.1
  control : ∀ q ∈ result.2, IsControl conn q

theorem Quiet.refl (conn : RdpConn) : Quiet conn (conn, []) :=
  ⟨fun _ => Unmoved.refl conn, by simp⟩

theorem quiet_cspRdpSendCmp {flags : RdpFlags} {seqNr : BitVec 16} (hSyn : flags.syn = false)
    (hEak : flags.eak = false) :
    Quiet conn (cspRdpSendCmp conf env conn none flags seqNr conn.rcvCur) :=
  ⟨fun _ => cspRdpSendCmp_unmoved conf env hSyn,
    fun _ hMem => isControl_of_mem_cspRdpSendCmp conf env hEak hMem⟩

theorem unmoved_cspRdpCheckAck : Unmoved conn (cspRdpCheckAck conf env conn).1 := by
  unfold cspRdpCheckAck
  dsimp only
  split
  · exact cspRdpSendCmp_unmoved conf env rfl
  · exact Unmoved.refl conn

theorem quiet_cspRdpCheckAck : Quiet conn (cspRdpCheckAck conf env conn) := by
  unfold cspRdpCheckAck
  dsimp only
  split
  · exact quiet_cspRdpSendCmp conf env rfl rfl
  · exact Quiet.refl conn

theorem Quiet.of_unmoved {result : RdpConn × List RdpPacket} (hStart : Unmoved conn conn')
    (hQuiet : Quiet conn' result) : Quiet conn result where
  unmoved := fun hState => hStart.trans (hQuiet.unmoved hState)
  control := by
    intro q hMem
    obtain ⟨hEak, hData, hAck⟩ := hQuiet.control q hMem
    exact ⟨hEak, hData, fun h => (hAck h).trans hStart.rcvCur⟩

theorem quiet_stopConn (sendRst : Bool) : Quiet conn (stopConn conf env conn sendRst) := by
  unfold stopConn
  split
  · exact Quiet.refl conn
  · have hStopped : Unmoved conn { conn with state := .rdpCloseWait, timestamp := env.now } :=
      ⟨⟨rfl, rfl, rfl, rfl, rfl, rfl, .inr (.inr rfl)⟩, ⟨rfl, rfl, rfl, rfl, rfl⟩⟩
    split
    · exact Quiet.of_unmoved hStopped (quiet_cspRdpSendCmp conf env rfl rfl)
    · exact Quiet.of_unmoved hStopped (Quiet.refl _)

/-- Closing moves nothing, unless the connection is closed in the end. -/
theorem quiet_cspConnClose (closedBy : BitVec 8) :
    Quiet conn (cspConnClose conf env conn closedBy) := by
  have hMarked : Unmoved conn { conn with closedBy := conn.closedBy ||| closedBy } :=
    ⟨⟨rfl, rfl, rfl, rfl, rfl, rfl, .inl rfl⟩, ⟨rfl, rfl, rfl, rfl, rfl⟩⟩
  have hStop := Quiet.of_unmoved hMarked (quiet_stopConn conf env true)
  unfold cspConnClose
  split
  · exact Quiet.refl conn
  · unfold cspRdpCloseInternal
    split
    · next hClosed =>
      exact ⟨fun hState => absurd hClosed hState, by simp⟩
    · dsimp only
      split
      · exact hStop
      · exact ⟨fun hState => absurd rfl hState, hStop.control⟩

theorem unmoved_enqueueNull : Unmoved conn (conn.enqueueNull conf) := by
  unfold RdpConn.enqueueNull
  split
  · exact ⟨⟨rfl, rfl, rfl, rfl, rfl, rfl, .inl rfl⟩,
      ⟨rfl, rfl, rfl, rfl, by simp [RdpConn.arrived]⟩⟩
  · exact Unmoved.refl conn

theorem quiet_discardClose (closedBy : BitVec 8) :
    Quiet conn (discardClose conf env conn closedBy) := by
  unfold discardClose
  split
  · have hClose : Quiet conn _ := quiet_cspConnClose conf env closedBy
    refine ⟨fun hState => ?_, hClose.control⟩
    have hSame : ((cspConnClose conf env conn closedBy).1.enqueueNull conf).state =
        (cspConnClose conf env conn closedBy).1.state := by
      unfold RdpConn.enqueueNull
      split <;> rfl
    rw [hSame] at hState
    exact (hClose.unmoved hState).trans (unmoved_enqueueNull conf)
  · exact quiet_cspConnClose conf env _

theorem Quiet.append {first second : RdpConn × List RdpPacket} (hFirst : Quiet conn first)
    (hUnmoved : Unmoved conn first.1) (hSecond : Quiet first.1 second) :
    Quiet conn (second.1, first.2 ++ second.2) where
  unmoved := fun hState => hUnmoved.trans (hSecond.unmoved hState)
  control := by
    intro q hMem
    rcases List.mem_append.mp hMem with hMem | hMem
    · exact hFirst.control q hMem
    · exact (Quiet.of_unmoved hUnmoved hSecond).control q hMem

/-! ## What a packet does -/

/-- The connection with the acknowledgement that the packet may carry. -/
structure Acknowledged (packet : RdpPacket) (conn conn' : RdpConn) : Prop where
  sndUna : conn'.sndUna = conn.sndUna ∨
    packet.flags.ack = true ∧ conn'.sndUna = packet.ackNr + 1
  unmoved : Unmoved { conn with sndUna := conn'.sndUna } conn'

/-- What `csp_rdp_new_packet` can do to a connection that is neither being opened nor
closed. -/
inductive PacketEffect (conn : RdpConn) (packet : RdpPacket) :
    RdpConn × List RdpPacket → Prop where
  /-- At most the acknowledgement is taken, and the connection may have begun to close. -/
  | quiet {conn' : RdpConn} {result : RdpConn × List RdpPacket}
      (hAck : Acknowledged packet conn conn') (hQuiet : Quiet conn' result) :
      PacketEffect conn packet result
  /-- The answer to the SYN is repeated. -/
  | synAck (hState : conn.state = .rdpSynRcvd) :
      PacketEffect conn packet (cspRdpSendCmp conf env conn none rdpAckSyn conn.sndIss conn.rcvIrs)
  /-- The packet has the number of one that has been received. -/
  | duplicate : PacketEffect conn packet (cspRdpSendEack conf env conn)
  /-- The packet tells what has been received out of its order. -/
  | eack {conn' : RdpConn} (hAck : Acknowledged packet conn conn')
      (hFlag : packet.flags.ack = true) (hEak : packet.flags.eak = true) :
      PacketEffect conn packet (cspRdpFlushEack env conn' packet.data, [])
  /-- The packet carries the next data. -/
  | inOrder {conn' : RdpConn} (hAck : Acknowledged packet conn conn')
      (hOpen : conn'.state = .rdpOpen) (hData : packet.IsData)
      (hSeq : packet.seqNr = conn.rcvCur + 1) :
      PacketEffect conn packet (newInOrder conf env conn' packet)
  /-- The packet carries data that are not yet to be taken. -/
  | outOfOrder {conn' : RdpConn} (hAck : Acknowledged packet conn conn') (hData : packet.IsData)
      (hBetween : cspRdpSeqBetween packet.seqNr (conn.rcvCur + 1)
        (conn.rcvCur + (conn.options.windowSize * 2).setWidth 16) = true)
      (hSeq : packet.seqNr ≠ conn.rcvCur + 1) :
      PacketEffect conn packet (newOutOfOrder conf env conn' packet)

theorem Acknowledged.refl (packet : RdpPacket) (conn : RdpConn) : Acknowledged packet conn conn :=
  ⟨.inl rfl, Unmoved.refl conn⟩

theorem acknowledged_storeAck (packet : RdpPacket) (conn : RdpConn) :
    Acknowledged packet conn (conn.storeAck packet) ∧
      (conn.storeAck packet).state = conn.state := by
  unfold RdpConn.storeAck
  split
  · next hAck => exact ⟨⟨.inr ⟨hAck, rfl⟩, Unmoved.refl _⟩, rfl⟩
  · exact ⟨Acknowledged.refl packet conn, rfl⟩

theorem newReset_effect (packet : RdpPacket) (hLive : conn.Live) :
    PacketEffect conf env conn packet (newReset conf env conn packet).1 ∧
      (newReset conf env conn packet).2 = false := by
  obtain ⟨hAck, hState⟩ := acknowledged_storeAck packet conn
  unfold newReset
  generalize conn.storeAck packet = acked at hAck hState
  have hOpen : acked.state ≠ .rdpClosed := by
    rw [hState]
    rcases hLive with h | h | h <;> simp [h]
  rw [if_neg hOpen]
  split
  · exact ⟨.quiet hAck (quiet_discardClose conf env _), rfl⟩
  · split
    · let stopped : RdpConn := { acked with state := .rdpCloseWait, timestamp := env.now }
      have hStopped : Unmoved acked stopped :=
        ⟨⟨rfl, rfl, rfl, rfl, rfl, rfl, .inr (.inr rfl)⟩, ⟨rfl, rfl, rfl, rfl, rfl⟩⟩
      have hReply : Quiet stopped
          (cspRdpSendCmp conf env stopped none rdpAckRst stopped.sndNxt stopped.rcvCur) :=
        quiet_cspRdpSendCmp conf env rfl rfl
      have hBoth := hReply.append (cspRdpSendCmp_unmoved conf env rfl)
        (quiet_discardClose conf env
          (if conf.fastClose then closedByProtocol ||| closedByTimeout else closedByProtocol))
      exact ⟨.quiet hAck (Quiet.of_unmoved hStopped hBoth), rfl⟩
    · exact ⟨.quiet hAck (Quiet.refl acked), rfl⟩

theorem newOpen_effect (packet : RdpPacket) (hRst : packet.flags.rst = false) :
    PacketEffect conf env conn packet (newOpen conf env conn packet) := by
  have hSame := Acknowledged.refl packet conn
  unfold newOpen
  split
  · split
    · exact .quiet hSame (quiet_discardClose conf env _)
    · exact .quiet hSame (Quiet.refl conn)
  · next hFlags =>
    have hSyn : packet.flags.syn = false := by
      cases h : packet.flags.syn <;> simp [h] at hFlags ⊢
    have hFlag : packet.flags.ack = true := by
      cases h : packet.flags.ack <;> simp [h] at hFlags ⊢
    split
    · split
      · next hState => exact .synAck hState
      · exact .duplicate
    · next hBetween =>
      have hBetween : cspRdpSeqBetween packet.seqNr (conn.rcvCur + 1)
          (conn.rcvCur + (conn.options.windowSize * 2).setWidth 16) = true := by
        simpa using hBetween
      split
      · exact .quiet hSame (Quiet.refl conn)
      · split
        · exact .quiet hSame (quiet_discardClose conf env _)
        · split
          · have hOpened : Unmoved conn { conn with state := .rdpOpen } :=
              ⟨⟨rfl, rfl, rfl, rfl, rfl, rfl, .inr (.inl rfl)⟩, ⟨rfl, rfl, rfl, rfl, rfl⟩⟩
            exact .quiet hSame (Quiet.of_unmoved hOpened (quiet_discardClose conf env _))
          · generalize hAcked : ({ conn with
              state := .rdpOpen
              hasSocket := if conn.state = .rdpSynRcvd then false else conn.hasSocket
              sndUna := packet.ackNr + 1 } : RdpConn) = acked
            have hAck : Acknowledged packet conn acked := by
              subst hAcked
              exact ⟨.inr ⟨hFlag, rfl⟩,
                ⟨⟨rfl, rfl, rfl, rfl, rfl, rfl, .inr (.inl rfl)⟩, ⟨rfl, rfl, rfl, rfl, rfl⟩⟩⟩
            have hOpen : acked.state = .rdpOpen := by
              subst hAcked
              rfl
            have hCur : acked.rcvCur = conn.rcvCur := hAck.unmoved.rcvCur
            unfold newAcceptable
            split
            · next hEak =>
              split
              · exact .quiet hAck (Quiet.refl acked)
              · exact .eack hAck hFlag hEak
            · next hEak =>
              have hEak : packet.flags.eak = false := by simpa using hEak
              split
              · exact .quiet hAck (Quiet.refl acked)
              · next hData =>
                have hIsData : packet.IsData := ⟨hSyn, hEak, hRst, hData⟩
                rw [hCur]
                split
                · next hSeq => exact .inOrder hAck hOpen hIsData hSeq
                · next hSeq => exact .outOfOrder hAck hIsData hBetween hSeq

theorem newCloseWait_effect (packet : RdpPacket) :
    PacketEffect conf env conn packet (newCloseWait conf env conn packet) := by
  unfold newCloseWait
  split
  · exact .quiet (Acknowledged.refl packet conn) (Quiet.refl conn)
  · next hFlags =>
    have hFlag : packet.flags.ack = true := by
      cases h : packet.flags.ack <;> simp [h] at hFlags ⊢
    split
    · exact .quiet (Acknowledged.refl packet conn) (Quiet.refl conn)
    · have hAck : Acknowledged packet conn { conn with sndUna := packet.ackNr + 1 } :=
        ⟨.inr ⟨hFlag, rfl⟩, Unmoved.refl _⟩
      exact .quiet hAck (quiet_cspRdpSendCmp conf env rfl rfl)

/-- Whatever the packet, it does one of these things to the connection. -/
theorem routeRdp_effect (packet : RdpPacket) (hLive : conn.Live) :
    PacketEffect conf env conn packet (routeRdp conf env conn packet) := by
  have hEffect : PacketEffect conf env conn packet (cspRdpNewPacket conf env conn packet).1 ∧
      (cspRdpNewPacket conf env conn packet).2 = false := by
    unfold cspRdpNewPacket
    split
    · exact newReset_effect conf env packet hLive
    · next hRst =>
      have hRst : packet.flags.rst = false := by simpa using hRst
      rcases hLive with hState | hState | hState
      · rw [hState]
        exact ⟨newOpen_effect conf env packet hRst, rfl⟩
      · rw [hState]
        exact ⟨newOpen_effect conf env packet hRst, rfl⟩
      · rw [hState]
        exact ⟨newCloseWait_effect conf env packet, rfl⟩
  rw [routeRdp, hEffect.2]
  exact hEffect.1

/-! ## The sending end -/

/-- The same packet, with whatever acknowledgement. -/
def SamePacket (packet packet' : RdpPacket) : Prop :=
  packet'.flags = packet.flags ∧ packet'.seqNr = packet.seqNr ∧ packet'.data = packet.data

/-- What a function other than `csp_rdp_send` does to the sending end, where `input` is the
packet that it is given. -/
structure SendSide (input : Option RdpPacket) (conn : RdpConn)
    (result : RdpConn × List RdpPacket) : Prop where
  sndNxt : result.1.sndNxt = conn.sndNxt
  sndIss : result.1.sndIss = conn.sndIss
  submitted : result.1.submitted = conn.submitted
  options : result.1.options = conn.options
  state : result.1.state = conn.state ∨ result.1.state = .rdpOpen ∨
    result.1.state = .rdpCloseWait
  sndUna : result.1.sndUna = conn.sndUna ∨ ∃ packet ∈ input, packet.flags.ack = true ∧
    result.1.sndUna = packet.ackNr + 1
  /-- Nothing else is queued but what has been, and messages with SYN. -/
  queued : ∀ element' ∈ result.1.txQueue, element'.packet.flags = rdpAckSyn ∨
    ∃ element ∈ conn.txQueue, SamePacket element.packet element'.packet
  /-- Nothing is taken out but what has been acknowledged. -/
  kept : ∀ element ∈ conn.txQueue,
    (∃ element' ∈ result.1.txQueue, SamePacket element.packet element'.packet) ∨
      cspRdpSeqBefore element.packet.seqNr conn.sndUna = true ∨
      ∃ packet ∈ input, packet.flags.ack = true ∧ packet.flags.eak = true ∧
        element.packet.seqNr ∈ eackNumbers packet.data
  /-- Data on the line are those of a packet that is queued. -/
  data : ∀ q ∈ result.2, q.IsData → ∃ element ∈ result.1.txQueue, element.packet = q

theorem SamePacket.refl (packet : RdpPacket) : SamePacket packet packet := ⟨rfl, rfl, rfl⟩

variable {input : Option RdpPacket} {result : RdpConn × List RdpPacket}

theorem SameSender.sendSide (hSame : SameSender conn result.1)
    (hData : ∀ q ∈ result.2, ¬ q.IsData) : SendSide input conn result where
  sndNxt := hSame.sndNxt
  sndIss := hSame.sndIss
  submitted := hSame.submitted
  options := hSame.options
  state := hSame.state
  sndUna := .inl hSame.sndUna
  queued := by
    rw [hSame.txQueue]
    exact fun element hMem => .inr ⟨element, hMem, SamePacket.refl _⟩
  kept := by
    rw [hSame.txQueue]
    exact fun element hMem => .inl ⟨element, hMem, SamePacket.refl _⟩
  data := fun q hMem hIsData => absurd hIsData (hData q hMem)

theorem Quiet.sendSide (hQuiet : Quiet conn result) (hState : result.1.state ≠ .rdpClosed) :
    SendSide input conn result :=
  (hQuiet.unmoved hState).toSameSender.sendSide fun q hMem => (hQuiet.control q hMem).noData

/-- With an acknowledgement that the packet carries. -/
theorem Acknowledged.sendSide {packet : RdpPacket} (hAck : Acknowledged packet conn conn')
    (hSame : SameSender conn' result.1) (hData : ∀ q ∈ result.2, ¬ q.IsData) :
    SendSide (some packet) conn result := by
  have hMoved := hAck.unmoved.toSameSender.trans hSame
  have hSide : SendSide (some packet) { conn with sndUna := conn'.sndUna } result :=
    hMoved.sendSide hData
  refine ⟨hSide.sndNxt, hSide.sndIss, hSide.submitted, hSide.options, hSide.state, ?_,
    hSide.queued, ?_, hSide.data⟩
  · rw [hSame.sndUna]
    rcases hAck.sndUna with hUna | ⟨hFlag, hUna⟩
    · exact .inl hUna
    · exact .inr ⟨packet, rfl, hFlag, hUna⟩
  · intro element hMem
    refine .inl ?_
    rw [hMoved.txQueue]
    exact ⟨element, hMem, SamePacket.refl _⟩

theorem sameSender_cspRdpReceiveData (data : List UInt8) :
    SameSender conn (cspRdpReceiveData conf conn data).2 := by
  unfold cspRdpReceiveData
  split
  · exact ⟨rfl, rfl, rfl, rfl, rfl, rfl, .inl rfl⟩
  · exact SameSender.refl conn

theorem sameSender_cspRdpRxQueueFlush (fuel : Nat) :
    SameSender conn (cspRdpRxQueueFlush conf fuel conn) := by
  induction fuel generalizing conn with
  | zero => exact SameSender.refl conn
  | succ fuel ih =>
      unfold cspRdpRxQueueFlush
      split
      · exact ⟨rfl, rfl, rfl, rfl, rfl, rfl, .inl rfl⟩
      · next packet queue _ =>
        let waiting : RdpConn := { conn with rxQueue := queue }
        have hWaiting : SameSender conn waiting := ⟨rfl, rfl, rfl, rfl, rfl, rfl, .inl rfl⟩
        have hReceive := hWaiting.trans (sameSender_cspRdpReceiveData conf packet.data)
        refine SameSender.trans ?_ ih
        exact ⟨hReceive.sndNxt, hReceive.sndUna, hReceive.sndIss, hReceive.txQueue,
          hReceive.submitted, hReceive.options, hReceive.state⟩

theorem sameSender_cspRdpRxQueueAdd (packet : RdpPacket) :
    SameSender conn (cspRdpRxQueueAdd conf conn packet).2 := by
  unfold cspRdpRxQueueAdd
  dsimp only
  split
  · exact ⟨rfl, rfl, rfl, rfl, rfl, rfl, .inl rfl⟩
  · split <;> exact ⟨rfl, rfl, rfl, rfl, rfl, rfl, .inl rfl⟩

theorem unmoved_cspRdpSendEack : Unmoved conn (cspRdpSendEack conf env conn).1 := by
  unfold cspRdpSendEack
  split
  · exact Unmoved.refl conn
  · exact cspRdpSendCmp_unmoved conf env rfl

/-- An EACK tells the numbers of all packets that have come out of their order. -/
theorem eq_of_mem_cspRdpSendEack {q : RdpPacket} (hMem : q ∈ (cspRdpSendEack conf env conn).2) :
    q = ⟨rdpAckEak, conn.sndNxt, conn.rcvCur, eackData (conn.rxQueue.map (·.seqNr))⟩ := by
  unfold cspRdpSendEack at hMem
  split at hMem
  · cases hMem
  · exact eq_of_mem_cspRdpSendCmp conf env hMem

theorem noData_of_mem_cspRdpSendEack {q : RdpPacket}
    (hMem : q ∈ (cspRdpSendEack conf env conn).2) : ¬ q.IsData := by
  rw [eq_of_mem_cspRdpSendEack conf env hMem]
  exact fun hData => absurd hData.2.1 (by simp [rdpAckEak])

theorem sendSide_synAck :
    SendSide input conn
      (cspRdpSendCmp conf env conn none rdpAckSyn conn.sndIss conn.rcvIrs) := by
  obtain ⟨txQueue, hUnmoved, hQueue⟩ :=
    @cspRdpSendCmp_queue conf env conn none rdpAckSyn conn.sndIss conn.rcvIrs
  refine ⟨hUnmoved.sndNxt, hUnmoved.sndIss, hUnmoved.submitted, hUnmoved.options,
    hUnmoved.state, .inl hUnmoved.sndUna, ?_, ?_, ?_⟩
  · rw [hUnmoved.txQueue]
    intro element' hMem
    rcases hQueue with rfl | ⟨element, hFlags, rfl⟩
    · exact .inr ⟨element', hMem, SamePacket.refl _⟩
    · rcases List.mem_append.mp hMem with hOld | hNew
      · exact .inr ⟨element', hOld, SamePacket.refl _⟩
      · rw [List.mem_singleton.mp hNew, hFlags]
        exact .inl rfl
  · rw [hUnmoved.txQueue]
    intro element hMem
    refine .inl ⟨element, ?_, SamePacket.refl _⟩
    rcases hQueue with rfl | ⟨element', -, rfl⟩
    · exact hMem
    · exact List.mem_append_left _ hMem
  · intro q hMem hData
    rw [eq_of_mem_cspRdpSendCmp conf env hMem] at hData
    exact absurd hData.1 (by simp [rdpAckSyn])

theorem packet_foldl_eackRetransmit (numbers : List (BitVec 16)) (element : TxElement) :
    (numbers.foldl (eackRetransmit env conn) element).packet = element.packet := by
  induction numbers generalizing element with
  | nil => rfl
  | cons number numbers ih =>
      rw [List.foldl_cons, ih, eackRetransmit]
      split
      · split <;> rfl
      · rfl

/-- An EACK takes out what it tells, and may have the rest retransmitted. -/
theorem sendSide_flushEack {packet : RdpPacket} (hAck : Acknowledged packet conn conn')
    (hFlag : packet.flags.ack = true) (hEak : packet.flags.eak = true) :
    SendSide (some packet) conn (cspRdpFlushEack env conn' packet.data, []) := by
  have hMoved := hAck.unmoved
  have hTx : conn'.txQueue = conn.txQueue := hMoved.txQueue
  refine ⟨hMoved.sndNxt, hMoved.sndIss, hMoved.submitted, hMoved.options, hMoved.state, ?_, ?_,
    ?_, by simp⟩
  · rcases hAck.sndUna with hUna | ⟨hFlag, hUna⟩
    · exact .inl hUna
    · exact .inr ⟨packet, rfl, hFlag, hUna⟩
  · intro element' hMem
    obtain ⟨element, hElement, rfl⟩ := List.mem_map.mp hMem
    rw [packet_foldl_eackRetransmit]
    exact .inr ⟨element, hTx ▸ List.mem_of_mem_filter hElement, SamePacket.refl _⟩
  · intro element hMem
    by_cases hTold : element.packet.seqNr ∈ eackNumbers packet.data
    · exact .inr (.inr ⟨packet, rfl, hFlag, hEak, hTold⟩)
    · refine .inl ⟨_, List.mem_map.mpr ⟨element, ?_, rfl⟩, ?_⟩
      · rw [hTx, List.mem_filter]
        exact ⟨hMem, by simpa using hTold⟩
      · rw [packet_foldl_eackRetransmit]
        exact SamePacket.refl _

theorem sendSide_routeRdp (packet : RdpPacket) (hLive : conn.Live)
    (hState : (routeRdp conf env conn packet).1.state ≠ .rdpClosed) :
    SendSide (some packet) conn (routeRdp conf env conn packet) := by
  have hEffect := routeRdp_effect conf env packet hLive
  generalize routeRdp conf env conn packet = result at hEffect hState
  cases hEffect with
  | quiet hAck hQuiet =>
      exact hAck.sendSide (hQuiet.unmoved hState).toSameSender
        fun q hMem => (hQuiet.control q hMem).noData
  | synAck hSynRcvd => exact sendSide_synAck conf env
  | duplicate =>
      exact (unmoved_cspRdpSendEack conf env).toSameSender.sendSide
        fun q hMem => noData_of_mem_cspRdpSendEack conf env hMem
  | eack hAck hFlag hEak => exact sendSide_flushEack env hAck hFlag hEak
  | @inOrder conn' hAck hOpen hData hSeq =>
      have hReceive : SameSender conn' _ := sameSender_cspRdpReceiveData conf packet.data
      unfold newInOrder
      dsimp only
      split
      · let taken : RdpConn :=
          { (cspRdpReceiveData conf conn' packet.data).2 with
            rcvCur := packet.seqNr
            accepted := (cspRdpReceiveData conf conn' packet.data).2.accepted ++
              [⟨packet.data, true⟩] }
        have hTaken : SameSender conn' taken :=
          ⟨hReceive.sndNxt, hReceive.sndUna, hReceive.sndIss, hReceive.txQueue,
            hReceive.submitted, hReceive.options, hReceive.state⟩
        have hCheck : Unmoved taken (cspRdpCheckAck conf env taken).1 :=
          unmoved_cspRdpCheckAck conf env
        have hFlush : SameSender (cspRdpCheckAck conf env taken).1 _ :=
          sameSender_cspRdpRxQueueFlush conf (cspRdpCheckAck conf env taken).1.rxQueue.length
        exact hAck.sendSide (hTaken.trans (hCheck.toSameSender.trans hFlush)) fun q hMem =>
          ((quiet_cspRdpCheckAck conf env).control q hMem).noData
      · exact hAck.sendSide (SameSender.refl conn') (by simp)
  | @outOfOrder conn' hAck hData hBetween hSeq =>
      have hAdd : SameSender conn' _ := sameSender_cspRdpRxQueueAdd conf packet
      unfold newOutOfOrder
      dsimp only
      split
      · exact hAck.sendSide (hAdd.trans (unmoved_cspRdpSendEack conf env).toSameSender)
          fun q hMem => noData_of_mem_cspRdpSendEack conf env hMem
      · exact hAck.sendSide (hAdd.trans (unmoved_cspRdpCheckAck conf env).toSameSender)
          fun q hMem => ((quiet_cspRdpCheckAck conf env).control q hMem).noData

/-! ## Timeouts and the user's calls -/

/-- What stays in the queue, and what is retransmitted. -/
theorem checkTxQueue_spec (queue : List TxElement) (i : Nat) :
    (∀ element' ∈ (checkTxQueue env conn i queue).1, ∃ element ∈ queue,
      SamePacket element.packet element'.packet) ∧
    (∀ element ∈ queue,
      (∃ element' ∈ (checkTxQueue env conn i queue).1,
        SamePacket element.packet element'.packet) ∨
      cspRdpSeqBefore element.packet.seqNr conn.sndUna = true) ∧
    ∀ q ∈ (checkTxQueue env conn i queue).2, q.ackNr = conn.rcvCur ∧
      ∃ element ∈ (checkTxQueue env conn i queue).1, element.packet = q := by
  induction queue generalizing i with
  | nil => exact ⟨by simp [checkTxQueue], by simp, by simp [checkTxQueue]⟩
  | cons element queue ih =>
      obtain ⟨hQueued, hKept, hSent⟩ := ih (i + 1)
      have hQueued' : ∀ element' ∈ (checkTxQueue env conn (i + 1) queue).1,
          ∃ e ∈ element :: queue, SamePacket e.packet element'.packet := by
        intro element' hMem
        obtain ⟨e, he, hSame⟩ := hQueued element' hMem
        exact ⟨e, List.mem_cons_of_mem _ he, hSame⟩
      -- an element that stays, in front of the rest
      have hStay : ∀ element' : TxElement, SamePacket element.packet element'.packet →
          (∀ e' ∈ element' :: (checkTxQueue env conn (i + 1) queue).1,
            ∃ e ∈ element :: queue, SamePacket e.packet e'.packet) ∧
          ∀ e ∈ element :: queue,
            (∃ e' ∈ element' :: (checkTxQueue env conn (i + 1) queue).1,
              SamePacket e.packet e'.packet) ∨
            cspRdpSeqBefore e.packet.seqNr conn.sndUna = true := by
        intro element' hSame
        refine ⟨List.forall_mem_cons.mpr ⟨⟨element, List.mem_cons_self, hSame⟩, hQueued'⟩,
          List.forall_mem_cons.mpr ⟨.inl ⟨element', List.mem_cons_self, hSame⟩, ?_⟩⟩
        intro e he
        rcases hKept e he with ⟨e', he', hSame'⟩ | hBefore
        · exact .inl ⟨e', List.mem_cons_of_mem _ he', hSame'⟩
        · exact .inr hBefore
      unfold checkTxQueue
      dsimp only
      split
      · next hBefore =>
        exact ⟨hQueued', List.forall_mem_cons.mpr ⟨.inr hBefore, hKept⟩, hSent⟩
      · split
        · have hSame : SamePacket element.packet (element.retransmission conn) := ⟨rfl, rfl, rfl⟩
          obtain ⟨hQueue, hKeep⟩ := hStay
            { element with packet := element.retransmission conn, timestamp := env.now } hSame
          refine ⟨hQueue, hKeep, ?_⟩
          have hOld : ∀ q ∈ (checkTxQueue env conn (i + 1) queue).2, q.ackNr = conn.rcvCur ∧
              ∃ e ∈ { element with
                  packet := element.retransmission conn, timestamp := env.now } ::
                (checkTxQueue env conn (i + 1) queue).1, e.packet = q := by
            intro q hMem
            obtain ⟨hAck, e, he, hEq⟩ := hSent q hMem
            exact ⟨hAck, e, List.mem_cons_of_mem _ he, hEq⟩
          split
          · exact List.forall_mem_cons.mpr ⟨⟨rfl, _, List.mem_cons_self, rfl⟩, hOld⟩
          · exact hOld
        · obtain ⟨hQueue, hKeep⟩ := hStay element (SamePacket.refl _)
          refine ⟨hQueue, hKeep, ?_⟩
          intro q hMem
          obtain ⟨hAck, e, he, hEq⟩ := hSent q hMem
          exact ⟨hAck, e, List.mem_cons_of_mem _ he, hEq⟩

/-- What `csp_rdp_check_timeouts` can do: close the connection, or go through the queue and
acknowledge what has been received. -/
theorem cspRdpCheckTimeouts_cases :
    Quiet conn (cspRdpCheckTimeouts conf env conn) ∨
      ∃ last : RdpConn × List RdpPacket,
        Quiet { conn with txQueue := (checkTxQueue env conn 0 conn.txQueue).1 } last ∧
        Unmoved { conn with txQueue := (checkTxQueue env conn 0 conn.txQueue).1 } last.1 ∧
        cspRdpCheckTimeouts conf env conn =
          (last.1, (checkTxQueue env conn 0 conn.txQueue).2 ++ last.2) := by
  unfold cspRdpCheckTimeouts
  split
  · exact .inl (quiet_cspConnClose conf env _)
  · split
    · split
      · exact .inl (quiet_cspConnClose conf env _)
      · exact .inl (Quiet.refl conn)
    · refine .inr ?_
      dsimp only
      split
      · exact ⟨_, quiet_cspRdpCheckAck conf env, unmoved_cspRdpCheckAck conf env, rfl⟩
      · exact ⟨_, Quiet.refl _, Unmoved.refl _, by simp⟩

theorem sendSide_cspRdpCheckTimeouts
    (hState : (cspRdpCheckTimeouts conf env conn).1.state ≠ .rdpClosed) :
    SendSide input conn (cspRdpCheckTimeouts conf env conn) := by
  rcases @cspRdpCheckTimeouts_cases conf env conn with
    hQuiet | ⟨last, hQuiet, hUnmoved, hEq⟩
  · exact hQuiet.sendSide hState
  · obtain ⟨hQueued, hKept, hSent⟩ := @checkTxQueue_spec env conn conn.txQueue 0
    rw [hEq]
    refine ⟨hUnmoved.sndNxt, hUnmoved.sndIss, hUnmoved.submitted, hUnmoved.options,
      hUnmoved.state, .inl hUnmoved.sndUna, ?_, ?_, ?_⟩
    · rw [hUnmoved.txQueue]
      exact fun element' hMem => .inr (hQueued element' hMem)
    · rw [hUnmoved.txQueue]
      exact fun element hMem => (hKept element hMem).imp_right .inl
    · rw [hUnmoved.txQueue]
      intro q hMem hData
      rcases List.mem_append.mp hMem with hMem | hMem
      · exact (hSent q hMem).2
      · exact absurd hData (hQuiet.control q hMem).noData

/-- Reading takes a packet from the queue of the connection. -/
theorem cspRead_unmoved : Unmoved conn (cspRead conf env conn).1 ∧
    ∀ q ∈ (cspRead conf env conn).2, IsControl conn q := by
  have hSame : Unmoved conn conn ∧ ∀ q ∈ ([] : List RdpPacket), IsControl conn q :=
    ⟨Unmoved.refl conn, by simp⟩
  unfold cspRead
  split
  · exact hSame
  · split
    · exact hSame
    · next item rest hQueue =>
      let taken : RdpConn := { conn with connQueue := rest, read := conn.read ++ item.toList }
      have hTaken : Unmoved conn taken := by
        refine ⟨⟨rfl, rfl, rfl, rfl, rfl, rfl, .inl rfl⟩, ⟨rfl, rfl, rfl, rfl, ?_⟩⟩
        show conn.read ++ item.toList ++ rest.filterMap id = conn.arrived
        rw [RdpConn.arrived, hQueue]
        cases item <;> simp
      have hCheck : Quiet conn (cspRdpCheckAck conf env taken) :=
        Quiet.of_unmoved hTaken (quiet_cspRdpCheckAck conf env)
      dsimp only
      split
      · exact ⟨hTaken.trans (unmoved_cspRdpCheckAck conf env), hCheck.control⟩
      · exact ⟨hTaken, by simp⟩

end Rdp
end Csp
end CubeSatComm
