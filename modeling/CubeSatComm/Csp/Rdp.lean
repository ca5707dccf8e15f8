import CubeSatComm.Csp.DataPacket
import CubeSatComm.Lib.SerialNumber

/-!
# The reliable datagram protocol

`csp_rdp.c`: packets with sequence numbers, a queue of those that have not been
acknowledged, and a queue of those that have come out of their order.

A function of the source that waits, or asks the clock, the buffer pool or an interface,
has the answer as an argument (`RdpEnv`); the clock stands still during one call.  The
result is the connection and what has been put on the line.  The last three fields of a
connection are not in the source: they record what has been done with it.
-/

namespace CubeSatComm
namespace Csp
namespace Rdp

open Lib

/-- `CSP_ERR_RESET` -/
def cspErrReset : Int := -8

/-- `CSP_ERR_NOBUFS` -/
def cspErrNobufs : Int := -9

/-- `sizeof(rdp_header_t)` -/
def rdpHeaderSize : Nat := 5

/-- `CSP_RDP_CLOSED_BY_USERSPACE` -/
def closedByUserspace : BitVec 8 := 0x01

/-- `CSP_RDP_CLOSED_BY_PROTOCOL` -/
def closedByProtocol : BitVec 8 := 0x02

/-- `CSP_RDP_CLOSED_BY_TIMEOUT` -/
def closedByTimeout : BitVec 8 := 0x04

/-- `CSP_RDP_CLOSED_BY_ALL` -/
def closedByAll : BitVec 8 := closedByUserspace ||| closedByProtocol ||| closedByTimeout

/-- `csp_rdp_state_t` -/
inductive RdpState where
  | rdpClosed
  | rdpSynSent
  | rdpSynRcvd
  | rdpOpen
  | rdpCloseWait
  deriving DecidableEq, Repr

/-- The flags of `rdp_header_t`. -/
structure RdpFlags where
  syn : Bool
  ack : Bool
  eak : Bool
  rst : Bool
  deriving DecidableEq, Repr

/-- A packet: the fields of `rdp_header_t`, and the data in front of it. -/
structure RdpPacket where
  flags : RdpFlags
  seqNr : BitVec 16
  ackNr : BitVec 16
  data : List UInt8
  deriving DecidableEq, Repr

/-- An element of `rdp.tx_queue`. -/
structure TxElement where
  packet : RdpPacket
  timestamp : BitVec 32
  quarantine : BitVec 32
  deriving DecidableEq, Repr

/-- A packet that has been taken in its order, and whether the queue of the connection had
room for it. -/
structure Accepted where
  data : List UInt8
  queued : Bool
  deriving DecidableEq, Repr

/-- The options of a connection, as a SYN carries them. -/
structure RdpOptions where
  windowSize : BitVec 32
  connTimeout : BitVec 32
  packetTimeout : BitVec 32
  delayedAcks : BitVec 32
  ackTimeout : BitVec 32
  ackDelayCount : BitVec 32
  deriving DecidableEq, Repr

/-- What is looked at in `csp_conf`, and `CSP_USE_RDP_FAST_CLOSE`. -/
structure RdpConf where
  connQueueLength : Nat
  rdpMaxWindow : Nat
  bufferDataSize : Nat
  fastClose : Bool

/-- `csp_conn_t` with its `csp_rdp_t`. -/
structure RdpConn where
  /-- `state == CONN_OPEN` -/
  isOpen : Bool
  /-- `socket != NULL` -/
  hasSocket : Bool
  timestamp : BitVec 32
  /-- `rx_queue[0]` -/
  connQueue : List (Option (List UInt8))
  state : RdpState
  closedBy : BitVec 8
  sndNxt : BitVec 16
  sndUna : BitVec 16
  sndIss : BitVec 16
  rcvCur : BitVec 16
  rcvIrs : BitVec 16
  rcvLsa : BitVec 16
  options : RdpOptions
  ackTimestamp : BitVec 32
  /-- `rdp.tx_queue` -/
  txQueue : List TxElement
  /-- `rdp.rx_queue` -/
  rxQueue : List RdpPacket
  /-- What `csp_rdp_send` has taken. -/
  submitted : List (List UInt8)
  /-- What has been taken in its order. -/
  accepted : List Accepted
  /-- What `csp_read` has returned. -/
  read : List (List UInt8)
  deriving DecidableEq, Repr

/-- What a call finds outside of the connection. -/
structure RdpEnv where
  /-- `csp_get_ms` -/
  now : BitVec 32
  /-- Whether `csp_buffer_get` has a buffer for a control message. -/
  buffer : Bool
  /-- Whether `csp_buffer_clone` has one for a copy. -/
  clone : Bool
  /-- What the buffer of a control message has in the place of `quarantine`. -/
  quarantine : BitVec 32
  /-- Whether `csp_send_direct` puts a control message on the line. -/
  sent : Bool
  /-- Whether the `i`-th packet of `tx_queue` is copied and put on the line, if it is to be
  retransmitted. -/
  retransmitted : Nat → Bool
  /-- Whether the queue of the socket is full. -/
  socketFull : Bool
  /-- `rand` -/
  rand : BitVec 16

/-! ## Sequence numbers and times -/

/-- `csp_rdp_seq_between` -/
def cspRdpSeqBetween (seq start stop : BitVec 16) : Bool := serialBetween seq start stop

/-- `csp_rdp_seq_before` -/
def cspRdpSeqBefore (seq cmp : BitVec 16) : Bool := serialBefore seq cmp

/-- `csp_rdp_seq_after` -/
def cspRdpSeqAfter (seq cmp : BitVec 16) : Bool := cspRdpSeqBefore cmp seq

/-- `csp_rdp_time_before` -/
def cspRdpTimeBefore (time cmp : BitVec 32) : Bool := serialBefore time cmp

/-- `csp_rdp_time_after` -/
def cspRdpTimeAfter (time cmp : BitVec 32) : Bool := cspRdpTimeBefore cmp time

/-! ## Control messages -/

/-- `csp_queue_enqueue` on `rdp.tx_queue`: what does not fit is dropped. -/
def RdpConn.enqueueTx (conf : RdpConf) (conn : RdpConn) (element : TxElement) : RdpConn :=
  if conn.txQueue.length < conf.rdpMaxWindow then
    { conn with txQueue := conn.txQueue ++ [element] }
  else
    conn

/-- `csp_rdp_send_cmp`; without a packet a buffer is got.  Nothing is on the line exactly if
the result is an error. -/
def cspRdpSendCmp (conf : RdpConf) (env : RdpEnv) (conn : RdpConn)
    (packet : Option (List UInt8)) (flags : RdpFlags) (seqNr ackNr : BitVec 16) :
    RdpConn × List RdpPacket :=
  let packet := packet <|> if env.buffer then some [] else none
  match packet with
  | none => (conn, [])
  | some data =>
      let packet : RdpPacket := ⟨flags, seqNr, ackNr, data⟩
      if data.length + rdpHeaderSize > conf.bufferDataSize then
        (conn, [])
      else if flags.syn && !env.clone then
        (conn, [])
      else
        let conn :=
          if flags.syn then conn.enqueueTx conf ⟨packet, env.now, env.quarantine⟩ else conn
        if !env.sent then
          (conn, [])
        else
          (if flags.ack then { conn with rcvLsa := ackNr, ackTimestamp := env.now } else conn,
            [packet])

/-- `RDP_ACK` -/
def rdpAck : RdpFlags := ⟨false, true, false, false⟩

/-- `RDP_SYN` -/
def rdpSyn : RdpFlags := ⟨true, false, false, false⟩

/-- `RDP_RST` -/
def rdpRst : RdpFlags := ⟨false, false, false, true⟩

/-- `RDP_ACK | RDP_EAK` -/
def rdpAckEak : RdpFlags := ⟨false, true, true, false⟩

/-- `RDP_ACK | RDP_SYN` -/
def rdpAckSyn : RdpFlags := ⟨true, true, false, false⟩

/-- `RDP_ACK | RDP_RST` -/
def rdpAckRst : RdpFlags := ⟨false, true, false, true⟩

/-- The data of an EACK: the numbers of the packets that have come out of their order. -/
def eackData (numbers : List (BitVec 16)) : List UInt8 :=
  numbers.flatMap fun number => toBigEndian 2 number.toNat

/-- The numbers in the data of an EACK. -/
def eackNumbers : List UInt8 → List (BitVec 16)
  | high :: low :: rest => BitVec.ofNat 16 (ofBigEndian [high, low]) :: eackNumbers rest
  | _ => []

/-- `csp_rdp_send_eack`; the elements of `rdp.rx_queue` are taken out and put back again one
by one. -/
def cspRdpSendEack (conf : RdpConf) (env : RdpEnv) (conn : RdpConn) :
    RdpConn × List RdpPacket :=
  if !env.buffer then
    (conn, [])
  else
    let data := eackData (conn.rxQueue.map (·.seqNr))
    cspRdpSendCmp conf env conn (some data) rdpAckEak conn.sndNxt conn.rcvCur

/-- The data of a SYN. -/
def synData (options : RdpOptions) : List UInt8 :=
  [options.windowSize, options.connTimeout, options.packetTimeout, options.delayedAcks,
    options.ackTimeout, options.ackDelayCount].flatMap fun value => toBigEndian 4 value.toNat

/-- `csp_ntoh32(packet->data32[i])` -/
def data32 (data : List UInt8) (i : Nat) : BitVec 32 :=
  BitVec.ofNat 32 (ofBigEndian ((data.drop (4 * i)).take 4))

/-- The options that are read from the data of a SYN. -/
def synOptions (data : List UInt8) : RdpOptions :=
  ⟨data32 data 0, data32 data 1, data32 data 2, data32 data 3, data32 data 4, data32 data 5⟩

/-- `csp_rdp_send_syn` -/
def cspRdpSendSyn (conf : RdpConf) (env : RdpEnv) (conn : RdpConn) :
    RdpConn × List RdpPacket :=
  if !env.buffer then
    (conn, [])
  else
    cspRdpSendCmp conf env conn (some (synData conn.options)) rdpSyn conn.sndIss 0

/-! ## Received data -/

/-- `csp_rdp_receive_data`, and with it `csp_conn_enqueue_packet`. -/
def cspRdpReceiveData (conf : RdpConf) (conn : RdpConn) (data : List UInt8) :
    Bool × RdpConn :=
  if conn.connQueue.length < conf.connQueueLength then
    (true, { conn with connQueue := conn.connQueue ++ [some data] })
  else
    (false, conn)

/-- One pass of `csp_rdp_rx_queue_flush` over the first `count` packets of the queue: the
packet with the number, and the queue behind it. -/
def rxQueueScan (number : BitVec 16) : Nat → List RdpPacket → Option RdpPacket × List RdpPacket
  | 0, queue => (none, queue)
  | _ + 1, [] => (none, [])
  | count + 1, packet :: queue =>
      if packet.seqNr = number then
        (some packet, queue)
      else
        rxQueueScan number count (queue ++ [packet])

/-- `csp_rdp_rx_queue_flush`, for a queue of at most `fuel` packets.  It is not looked at
whether the packet could be received. -/
def cspRdpRxQueueFlush (conf : RdpConf) : Nat → RdpConn → RdpConn
  | 0, conn => conn
  | fuel + 1, conn =>
      match rxQueueScan (conn.rcvCur + 1) conn.rxQueue.length conn.rxQueue with
      | (none, queue) => { conn with rxQueue := queue }
      | (some packet, queue) =>
          let receiving := cspRdpReceiveData conf { conn with rxQueue := queue } packet.data
          cspRdpRxQueueFlush conf fuel
            { receiving.2 with
              rcvCur := receiving.2.rcvCur + 1
              accepted := receiving.2.accepted ++ [⟨packet.data, receiving.1⟩] }

/-- `csp_rdp_seq_in_rx_queue` for the first `count` packets of the queue, and how it leaves
the queue. -/
def seqInRxQueue (seqNr : BitVec 16) : Nat → List RdpPacket → Bool × List RdpPacket
  | 0, queue => (false, queue)
  | _ + 1, [] => (false, [])
  | count + 1, packet :: queue =>
      if packet.seqNr = seqNr then
        (true, queue ++ [packet])
      else
        seqInRxQueue seqNr count (queue ++ [packet])

/-- `csp_rdp_rx_queue_add` -/
def cspRdpRxQueueAdd (conf : RdpConf) (conn : RdpConn) (packet : RdpPacket) :
    Bool × RdpConn :=
  let search := seqInRxQueue packet.seqNr conn.rxQueue.length conn.rxQueue
  if search.1 then
    (false, { conn with rxQueue := search.2 })
  else if search.2.length < conf.rdpMaxWindow * 2 then
    (true, { conn with rxQueue := search.2 ++ [packet] })
  else
    (false, { conn with rxQueue := search.2 })

/-! ## Acknowledgements -/

/-- What a number in an EACK does to a packet of `tx_queue` with a smaller one. -/
def eackRetransmit (env : RdpEnv) (conn : RdpConn) (element : TxElement) (number : BitVec 16) :
    TxElement :=
  if number > element.packet.seqNr then
    if cspRdpTimeAfter env.now element.quarantine then
      { element with
        timestamp := env.now - conn.options.packetTimeout - 1
        quarantine := env.now + conn.options.packetTimeout / 2 }
    else
      element
  else
    element

/-- `csp_rdp_flush_eack` -/
def cspRdpFlushEack (env : RdpEnv) (conn : RdpConn) (data : List UInt8) : RdpConn :=
  let numbers := eackNumbers data
  { conn with
    txQueue := (conn.txQueue.filter fun element => element.packet.seqNr ∉ numbers).map
      fun element => numbers.foldl (eackRetransmit env conn) element }

/-- `csp_rdp_should_ack` -/
def cspRdpShouldAck (env : RdpEnv) (conn : RdpConn) : Bool :=
  conn.options.delayedAcks = 0 ||
    cspRdpTimeAfter env.now (conn.ackTimestamp + conn.options.ackTimeout) ||
    cspRdpSeqAfter conn.rcvCur (conn.rcvLsa + conn.options.ackDelayCount.setWidth 16)

/-- `csp_rdp_check_ack` -/
def cspRdpCheckAck (conf : RdpConf) (env : RdpEnv) (conn : RdpConn) :
    RdpConn × List RdpPacket :=
  let avail : Bool := ¬ (conf.connQueueLength : Int) - conn.connQueue.length ≤
    2 * conn.options.windowSize.toInt
  if avail && cspRdpShouldAck env conn then
    cspRdpSendCmp conf env conn none rdpAck conn.sndNxt conn.rcvCur
  else
    (conn, [])

/-- `csp_rdp_is_conn_ready_for_tx` -/
def cspRdpIsConnReadyForTx (conn : RdpConn) : Bool :=
  !cspRdpSeqAfter conn.sndNxt (conn.sndUna + conn.options.windowSize.setWidth 16 - 1)

/-! ## Closing -/

/-- `csp_rdp_flush_all` and `csp_conn_flush_rx_queue` -/
def RdpConn.flushed (conn : RdpConn) : RdpConn :=
  { conn with connQueue := [], txQueue := [], rxQueue := [] }

/-- What `csp_rdp_close_internal` does with a connection that has not been stopped before. -/
def stopConn (conf : RdpConf) (env : RdpEnv) (conn : RdpConn) (sendRst : Bool) :
    RdpConn × List RdpPacket :=
  if conn.state = .rdpCloseWait then
    (conn, [])
  else
    let conn := { conn with state := .rdpCloseWait, timestamp := env.now }
    if sendRst then
      cspRdpSendCmp conf env conn none rdpAckRst conn.sndNxt conn.rcvCur
    else
      (conn, [])

/-- `csp_rdp_close_internal`, and whether it returns `CSP_ERR_NONE`. -/
def cspRdpCloseInternal (conf : RdpConf) (env : RdpEnv) (conn : RdpConn)
    (closedBy : BitVec 8) (sendRst : Bool) : Bool × RdpConn × List RdpPacket :=
  if conn.state = .rdpClosed then
    (true, conn, [])
  else
    let stopped := stopConn conf env { conn with closedBy := conn.closedBy ||| closedBy } sendRst
    if stopped.1.closedBy ≠ closedByAll then
      (false, stopped)
    else
      (true, { stopped.1 with state := .rdpClosed, closedBy := 0 }, stopped.2)

/-- `csp_conn_close` -/
def cspConnClose (conf : RdpConf) (env : RdpEnv) (conn : RdpConn) (closedBy : BitVec 8) :
    RdpConn × List RdpPacket :=
  if !conn.isOpen then
    (conn, [])
  else
    let closing := cspRdpCloseInternal conf env conn closedBy true
    if closing.1 then
      ({ closing.2.1.flushed with isOpen := false }, closing.2.2)
    else
      closing.2

/-- `csp_conn_enqueue_packet` with `NULL` -/
def RdpConn.enqueueNull (conf : RdpConf) (conn : RdpConn) : RdpConn :=
  if conn.connQueue.length < conf.connQueueLength then
    { conn with connQueue := conn.connQueue ++ [none] }
  else
    conn

/-- `discard_close` -/
def discardClose (conf : RdpConf) (env : RdpEnv) (conn : RdpConn) (closedBy : BitVec 8) :
    RdpConn × List RdpPacket :=
  if !conn.hasSocket then
    let closing := cspConnClose conf env conn closedBy
    (closing.1.enqueueNull conf, closing.2)
  else
    cspConnClose conf env conn (closedBy ||| closedByUserspace)

/-! ## Receiving -/

/-- The connection with the acknowledgement of a packet, if it carries one. -/
def RdpConn.storeAck (conn : RdpConn) (packet : RdpPacket) : RdpConn :=
  if packet.flags.ack then { conn with sndUna := packet.ackNr + 1 } else conn

/-- `csp_rdp_new_packet` for a packet with `rst`: the connection and what is put on the line,
and whether the connection is to be closed. -/
def newReset (conf : RdpConf) (env : RdpEnv) (conn : RdpConn) (packet : RdpPacket) :
    (RdpConn × List RdpPacket) × Bool :=
  let conn := conn.storeAck packet
  if conn.state = .rdpClosed then
    ((conn, []), conn.hasSocket)
  else if conn.state = .rdpCloseWait then
    (discardClose conf env conn
      (if packet.flags.ack && conf.fastClose then closedByProtocol ||| closedByTimeout
        else closedByProtocol), false)
  -- the sum is not cut to 16 bits
  else if packet.seqNr.toNat = conn.rcvCur.toNat + 1 then
    let conn := { conn with state := .rdpCloseWait, timestamp := env.now }
    let reply := cspRdpSendCmp conf env conn none rdpAckRst conn.sndNxt conn.rcvCur
    let closing := discardClose conf env reply.1
      (if conf.fastClose then closedByProtocol ||| closedByTimeout else closedByProtocol)
    ((closing.1, reply.2 ++ closing.2), false)
  else
    ((conn, []), false)

/-- The case `RDP_CLOSED` of `csp_rdp_new_packet`. -/
def newClosed (conf : RdpConf) (env : RdpEnv) (conn : RdpConn) (packet : RdpPacket) :
    RdpConn × List RdpPacket :=
  if !packet.flags.syn then
    let reply := cspRdpSendCmp conf env conn none rdpRst conn.sndNxt conn.rcvCur
    let closing := discardClose conf env reply.1 closedByProtocol
    (closing.1, reply.2 ++ closing.2)
  else
    let conn := { conn with
      sndIss := env.rand
      sndNxt := env.rand + 1
      sndUna := env.rand
      rcvCur := packet.seqNr
      rcvIrs := packet.seqNr
      rcvLsa := packet.seqNr
      options := synOptions packet.data
      state := .rdpSynRcvd }
    cspRdpSendCmp conf env conn none rdpAckSyn conn.sndIss conn.rcvIrs

/-- The case `RDP_SYN_SENT` of `csp_rdp_new_packet`. -/
def newSynSent (conf : RdpConf) (env : RdpEnv) (conn : RdpConn) (packet : RdpPacket) :
    RdpConn × List RdpPacket :=
  if packet.flags.syn && packet.flags.ack then
    let conn := { conn with
      rcvCur := packet.seqNr
      rcvIrs := packet.seqNr
      rcvLsa := packet.seqNr - 1
      sndUna := packet.ackNr + 1
      ackTimestamp := env.now
      state := .rdpOpen }
    cspRdpSendCmp conf env conn none rdpAck conn.sndNxt conn.rcvCur
  else if packet.flags.ack then
    cspRdpSendCmp conf env conn none rdpRst conn.sndNxt conn.rcvCur
  else
    discardClose conf env conn closedByProtocol

/-- The acknowledgement number of a packet is one of those that are looked for. -/
def ackBetween (conn : RdpConn) (ackNr : BitVec 16) : Bool :=
  cspRdpSeqBetween ackNr (conn.sndUna - 1 - (conn.options.windowSize * 2).setWidth 16)
    (conn.sndNxt - 1)

/-- What is done with data that have not come in their order. -/
def newOutOfOrder (conf : RdpConf) (env : RdpEnv) (conn : RdpConn) (packet : RdpPacket) :
    RdpConn × List RdpPacket :=
  let adding := cspRdpRxQueueAdd conf conn packet
  if adding.1 then
    cspRdpSendEack conf env adding.2
  else
    cspRdpCheckAck conf env adding.2

/-- What is done with data that have come in their order. -/
def newInOrder (conf : RdpConf) (env : RdpEnv) (conn : RdpConn) (packet : RdpPacket) :
    RdpConn × List RdpPacket :=
  let receiving := cspRdpReceiveData conf conn packet.data
  if receiving.1 then
    let checking := cspRdpCheckAck conf env
      { receiving.2 with
        rcvCur := packet.seqNr
        accepted := receiving.2.accepted ++ [⟨packet.data, true⟩] }
    (cspRdpRxQueueFlush conf checking.1.rxQueue.length checking.1, checking.2)
  else
    (conn, [])

/-- What is done with a packet whose numbers are right. -/
def newAcceptable (conf : RdpConf) (env : RdpEnv) (conn : RdpConn) (packet : RdpPacket) :
    RdpConn × List RdpPacket :=
  if packet.flags.eak then
    (if packet.data = [] then conn else cspRdpFlushEack env conn packet.data, [])
  else if packet.data = [] then
    (conn, [])
  else if packet.seqNr = conn.rcvCur + 1 then
    newInOrder conf env conn packet
  else
    newOutOfOrder conf env conn packet

/-- The cases `RDP_SYN_RCVD` and `RDP_OPEN` of `csp_rdp_new_packet`. -/
def newOpen (conf : RdpConf) (env : RdpEnv) (conn : RdpConn) (packet : RdpPacket) :
    RdpConn × List RdpPacket :=
  if packet.flags.syn || !packet.flags.ack then
    if packet.seqNr ≠ conn.rcvIrs then
      discardClose conf env conn closedByProtocol
    else
      (conn, [])
  else if !cspRdpSeqBetween packet.seqNr (conn.rcvCur + 1)
      (conn.rcvCur + (conn.options.windowSize * 2).setWidth 16) then
    if conn.state = .rdpSynRcvd then
      cspRdpSendCmp conf env conn none rdpAckSyn conn.sndIss conn.rcvIrs
    else
      cspRdpSendEack conf env conn
  else if !ackBetween conn packet.ackNr then
    (conn, [])
  else if conn.state = .rdpSynRcvd && packet.ackNr ≠ conn.sndIss then
    discardClose conf env conn closedByProtocol
  else if conn.state = .rdpSynRcvd && conn.hasSocket && env.socketFull then
    discardClose conf env { conn with state := .rdpOpen } closedByProtocol
  else
    newAcceptable conf env
      { conn with
        state := .rdpOpen
        hasSocket := if conn.state = .rdpSynRcvd then false else conn.hasSocket
        sndUna := packet.ackNr + 1 }
      packet

/-- The case `RDP_CLOSE_WAIT` of `csp_rdp_new_packet`. -/
def newCloseWait (conf : RdpConf) (env : RdpEnv) (conn : RdpConn) (packet : RdpPacket) :
    RdpConn × List RdpPacket :=
  if packet.flags.syn || !packet.flags.ack then
    (conn, [])
  else if !ackBetween conn packet.ackNr then
    (conn, [])
  else
    let conn := { conn with sndUna := packet.ackNr + 1 }
    cspRdpSendCmp conf env conn none rdpAckRst conn.sndNxt conn.rcvCur

/-- `csp_rdp_new_packet` -/
def cspRdpNewPacket (conf : RdpConf) (env : RdpEnv) (conn : RdpConn) (packet : RdpPacket) :
    (RdpConn × List RdpPacket) × Bool :=
  if packet.flags.rst then
    newReset conf env conn packet
  else
    match conn.state with
    | .rdpClosed => (newClosed conf env conn packet, false)
    | .rdpSynSent => (newSynSent conf env conn packet, false)
    | .rdpSynRcvd => (newOpen conf env conn packet, false)
    | .rdpOpen => (newOpen conf env conn packet, false)
    | .rdpCloseWait => (newCloseWait conf env conn packet, false)

/-- The part of `csp_route_work` that follows the security check. -/
def routeRdp (conf : RdpConf) (env : RdpEnv) (conn : RdpConn) (packet : RdpPacket) :
    RdpConn × List RdpPacket :=
  let result := cspRdpNewPacket conf env conn packet
  if result.2 then
    let closing := cspConnClose conf env result.1.1 closedByUserspace
    (closing.1, result.1.2 ++ closing.2)
  else
    result.1

/-! ## Timeouts -/

/-- What is retransmitted of an element of `tx_queue`. -/
def TxElement.retransmission (conn : RdpConn) (element : TxElement) : RdpPacket :=
  { element.packet with ackNr := conn.rcvCur }

/-- What `csp_rdp_check_timeouts` does with the elements of `tx_queue` from the `i`-th on:
what stays, and what is retransmitted. -/
def checkTxQueue (env : RdpEnv) (conn : RdpConn) :
    Nat → List TxElement → List TxElement × List RdpPacket
  | _, [] => ([], [])
  | i, element :: rest =>
      let checked := checkTxQueue env conn (i + 1) rest
      if cspRdpSeqBefore element.packet.seqNr conn.sndUna then
        checked
      else if cspRdpTimeAfter env.now (element.timestamp + conn.options.packetTimeout) then
        let packet := element.retransmission conn
        ({ element with packet := packet, timestamp := env.now } :: checked.1,
          if env.retransmitted i then packet :: checked.2 else checked.2)
      else
        (element :: checked.1, checked.2)

/-- `csp_rdp_check_timeouts` -/
def cspRdpCheckTimeouts (conf : RdpConf) (env : RdpEnv) (conn : RdpConn) :
    RdpConn × List RdpPacket :=
  if conn.hasSocket &&
      cspRdpTimeAfter env.now (conn.timestamp + conn.options.connTimeout) then
    cspConnClose conf env conn closedByAll
  else if conn.state = .rdpCloseWait then
    if cspRdpTimeAfter env.now (conn.timestamp + conn.options.connTimeout) then
      cspConnClose conf env conn (closedByProtocol ||| closedByTimeout)
    else
      (conn, [])
  else
    let checked := checkTxQueue env conn 0 conn.txQueue
    let conn := { conn with txQueue := checked.1 }
    if conn.state = .rdpOpen && conn.options.delayedAcks ≠ 0 then
      let acking := cspRdpCheckAck conf env conn
      (acking.1, checked.2 ++ acking.2)
    else
      (conn, checked.2)

/-! ## The user's calls -/

/-- `csp_rdp_send` when it does not wait any more; `csp_send` puts the packet on the line. -/
def cspRdpSend (conf : RdpConf) (env : RdpEnv) (conn : RdpConn) (data : List UInt8) :
    Int × RdpConn × List RdpPacket :=
  if conn.state ≠ .rdpOpen then
    (cspErrReset, conn, [])
  else if !cspRdpIsConnReadyForTx conn then
    (cspErrTimedout, conn, [])
  else if data.length + rdpHeaderSize > conf.bufferDataSize then
    (cspErrNomem, conn, [])
  else if !env.clone then
    (cspErrNomem, conn, [])
  else if conn.txQueue.length ≥ conf.rdpMaxWindow then
    (cspErrNobufs, conn, [])
  else
    let packet : RdpPacket := ⟨rdpAck, conn.sndNxt, conn.rcvCur, data⟩
    (cspErrNone,
      { conn with
        txQueue := conn.txQueue ++ [⟨packet, env.now, 0⟩]
        sndNxt := conn.sndNxt + 1
        submitted := conn.submitted ++ [data] },
      if env.sent then [packet] else [])

/-- `csp_read` when it does not wait any more: what is read is a packet, or the `NULL` that
tells of the end of the connection. -/
def cspRead (conf : RdpConf) (env : RdpEnv) (conn : RdpConn) : RdpConn × List RdpPacket :=
  if !conn.isOpen then
    (conn, [])
  else
    match conn.connQueue with
    | [] => (conn, [])
    | item :: rest =>
        let conn := { conn with connQueue := rest, read := conn.read ++ item.toList }
        if conn.options.delayedAcks ≠ 0 then
          cspRdpCheckAck conf env conn
        else
          (conn, [])

/-- `csp_rdp_connect` up to the point where it waits for the answer to the SYN. -/
def cspRdpConnect (conf : RdpConf) (env : RdpEnv) (conn : RdpConn) (options : RdpOptions) :
    RdpConn × List RdpPacket :=
  cspRdpSendSyn conf env
    { conn with
      options := options
      ackTimestamp := env.now
      sndIss := env.rand
      sndNxt := env.rand + 1
      sndUna := env.rand
      state := .rdpSynSent }

end Rdp
end Csp
end CubeSatComm
