import CubeSatComm.Csp.RdpSteps

/-!
# The receiving end of RDP

Packets are counted from the first number behind that of the SYN.  The receiving end has
taken the first so many packets of a stream, in their order, and stores some of those that
follow, but not the next one.  Every function of the source keeps it that way, as long as
no packet that arrives has a number that could be mistaken for that of another one.
-/

namespace CubeSatComm
namespace Csp
namespace Rdp

open Lib

/-- The packet carries the `k`-th data of the stream. -/
structure Numbered (iss : BitVec 16) (stream : List (List UInt8)) (k : Nat)
    (packet : RdpPacket) : Prop where
  seqNr : packet.seqNr = serial iss k
  pos : 1 ≤ k
  data : stream[k - 1]? = some packet.data

/-- The receiving end has taken the front of the stream, and what it stores is behind it by
`low` at least. -/
structure Holding (iss : BitVec 16) (window : Nat) (stream : List (List UInt8)) (low : Nat)
    (conn : RdpConn) : Prop where
  rcvCur : conn.rcvCur = serial iss conn.accepted.length
  rcvIrs : conn.rcvIrs = iss
  accepted : conn.accepted.map (·.data) <+: stream
  nonempty : ∀ taken ∈ conn.accepted, taken.data ≠ []
  stored : ∀ packet ∈ conn.rxQueue, packet.data ≠ [] ∧
    ∃ k, conn.accepted.length + low ≤ k ∧ Numbered iss stream k packet
  distinct : (conn.rxQueue.map (·.seqNr)).Nodup
  near : stream.length ≤ conn.accepted.length + window
  arrived : conn.arrived = (conn.accepted.filter (·.queued)).map (·.data)
  opening : conn.state = .rdpSynRcvd → conn.accepted = []

variable (conf : RdpConf) (env : RdpEnv) {conn conn' : RdpConn} {iss : BitVec 16}
  {window low : Nat} {stream : List (List UInt8)} {packet : RdpPacket}

theorem Numbered.le_length {k : Nat} (hNumbered : Numbered iss stream k packet) :
    k ≤ stream.length := by
  have hPos := hNumbered.pos
  obtain ⟨hLt, -⟩ := List.getElem?_eq_some_iff.mp hNumbered.data
  omega

theorem Holding.length_le (hHolding : Holding iss window stream low conn) :
    conn.accepted.length ≤ stream.length := by
  have hLength := hHolding.accepted.length_le
  rwa [List.length_map] at hLength

/-! ## The queue of packets out of order -/

/-- The packet that is found, and the queue behind it. -/
theorem rxQueueScan_some {number : BitVec 16} {count : Nat} {queue rest : List RdpPacket}
    (hScan : rxQueueScan number count queue = (some packet, rest)) :
    packet.seqNr = number ∧ queue.Perm (packet :: rest) := by
  induction count generalizing queue with
  | zero => cases hScan
  | succ count ih =>
      cases queue with
      | nil => cases hScan
      | cons head queue =>
          rw [rxQueueScan] at hScan
          split at hScan
          · next hFound =>
            cases hScan
            exact ⟨hFound, List.Perm.refl _⟩
          · obtain ⟨hSeq, hPerm⟩ := ih hScan
            exact ⟨hSeq, (List.perm_append_singleton head queue).symm.trans hPerm⟩

theorem rxQueueScan_none {number : BitVec 16} {count : Nat} {queue rest : List RdpPacket}
    (hCount : count ≤ queue.length) (hScan : rxQueueScan number count queue = (none, rest)) :
    queue.Perm rest ∧ ∀ packet ∈ queue.take count, packet.seqNr ≠ number := by
  induction count generalizing queue with
  | zero =>
      cases hScan
      exact ⟨List.Perm.refl _, by simp⟩
  | succ count ih =>
      cases queue with
      | nil => simp at hCount
      | cons head queue =>
          rw [rxQueueScan] at hScan
          split at hScan
          · cases hScan
          · next hOther =>
            have hCount : count ≤ queue.length := by simpa using hCount
            obtain ⟨hPerm, hNone⟩ := ih (by simp; omega) hScan
            refine ⟨(List.perm_append_singleton head queue).symm.trans hPerm, ?_⟩
            rw [List.take_append_of_le_length hCount] at hNone
            rw [List.take_succ_cons]
            exact List.forall_mem_cons.mpr ⟨hOther, hNone⟩

/-- Looking for a number leaves the same packets in the queue. -/
theorem seqInRxQueue_spec {seqNr : BitVec 16} {count : Nat} {queue : List RdpPacket}
    (hCount : count ≤ queue.length) :
    queue.Perm (seqInRxQueue seqNr count queue).2 ∧
      ((seqInRxQueue seqNr count queue).1 = false →
        ∀ packet ∈ queue.take count, packet.seqNr ≠ seqNr) := by
  induction count generalizing queue with
  | zero => exact ⟨List.Perm.refl _, by simp⟩
  | succ count ih =>
      cases queue with
      | nil => simp at hCount
      | cons head queue =>
          have hCount : count ≤ queue.length := by simpa using hCount
          have hRotate := (List.perm_append_singleton head queue).symm
          rw [seqInRxQueue]
          split
          · exact ⟨hRotate, by simp⟩
          · next hOther =>
            have hRest : count ≤ (queue ++ [head]).length := by simp; omega
            obtain ⟨hPerm, hNone⟩ := ih hRest
            refine ⟨hRotate.trans hPerm, fun hFalse => ?_⟩
            have hNone := hNone hFalse
            rw [List.take_append_of_le_length hCount] at hNone
            rw [List.take_succ_cons]
            exact List.forall_mem_cons.mpr ⟨hOther, hNone⟩

/-! ## What keeps the receiving end -/

theorem Unmoved.synRcvd (hUnmoved : Unmoved conn conn') (hState : conn'.state = .rdpSynRcvd) :
    conn.state = .rdpSynRcvd := by
  rcases hUnmoved.state with h | h | h
  · rwa [h] at hState
  · rw [h] at hState
    cases hState
  · rw [h] at hState
    cases hState

theorem Holding.of_same (hHolding : Holding iss window stream low conn)
    (hSame : SameReceiver conn conn')
    (hState : conn'.state = .rdpSynRcvd → conn.state = .rdpSynRcvd) :
    Holding iss window stream low conn' := by
  obtain ⟨hCur, hIrs, hQueue, hAccepted, hArrived⟩ := hSame
  refine ⟨?_, ?_, ?_, ?_, ?_, ?_, ?_, ?_, ?_⟩
  · rw [hCur, hAccepted]
    exact hHolding.rcvCur
  · rw [hIrs]
    exact hHolding.rcvIrs
  · rw [hAccepted]
    exact hHolding.accepted
  · rw [hAccepted]
    exact hHolding.nonempty
  · rw [hQueue, hAccepted]
    exact hHolding.stored
  · rw [hQueue]
    exact hHolding.distinct
  · rw [hAccepted]
    exact hHolding.near
  · rw [hArrived, hAccepted]
    exact hHolding.arrived
  · rw [hAccepted]
    exact fun hSyn => hHolding.opening (hState hSyn)

theorem Holding.of_unmoved (hHolding : Holding iss window stream low conn)
    (hUnmoved : Unmoved conn conn') : Holding iss window stream low conn' :=
  hHolding.of_same hUnmoved.toSameReceiver hUnmoved.synRcvd

/-- The order of the stored packets does not matter. -/
theorem Holding.perm (hHolding : Holding iss window stream low conn) {queue : List RdpPacket}
    (hPerm : conn.rxQueue.Perm queue) :
    Holding iss window stream low { conn with rxQueue := queue } where
  rcvCur := hHolding.rcvCur
  rcvIrs := hHolding.rcvIrs
  accepted := hHolding.accepted
  nonempty := hHolding.nonempty
  stored := fun packet hMem => hHolding.stored packet (hPerm.mem_iff.mpr hMem)
  distinct := (hPerm.map _).nodup_iff.mp hHolding.distinct
  near := hHolding.near
  arrived := hHolding.arrived
  opening := hHolding.opening

theorem Holding.sublist (hHolding : Holding iss window stream low conn)
    {queue : List RdpPacket} (hSublist : queue.Sublist conn.rxQueue) :
    Holding iss window stream low { conn with rxQueue := queue } where
  rcvCur := hHolding.rcvCur
  rcvIrs := hHolding.rcvIrs
  accepted := hHolding.accepted
  nonempty := hHolding.nonempty
  stored := fun packet hMem => hHolding.stored packet (hSublist.subset hMem)
  distinct := (hSublist.map _).nodup hHolding.distinct
  near := hHolding.near
  arrived := hHolding.arrived
  opening := hHolding.opening

/-- The next data of the stream are taken. -/
theorem Holding.take (hHolding : Holding iss window stream low conn)
    (hOpen : conn.state ≠ .rdpSynRcvd) (hData : packet.data ≠ [])
    (hNext : Numbered iss stream (conn.accepted.length + 1) packet)
    (hStored : ∀ other ∈ conn.rxQueue, packet.seqNr ≠ other.seqNr) (hLow : 1 ≤ low)
    (queued : Bool) {connQueue : List (Option (List UInt8))}
    (hArrived : conn.read ++ connQueue.filterMap id =
      conn.arrived ++ if queued then [packet.data] else []) :
    Holding iss window stream 1
      { conn with
        connQueue := connQueue
        rcvCur := conn.rcvCur + 1
        accepted := conn.accepted ++ [⟨packet.data, queued⟩] } := by
  have hLength : (conn.accepted ++ [(⟨packet.data, queued⟩ : Accepted)]).length =
      conn.accepted.length + 1 := by simp
  refine ⟨?_, hHolding.rcvIrs, ?_, ?_, ?_, hHolding.distinct, ?_, ?_, ?_⟩
  · show conn.rcvCur + 1 = serial iss (conn.accepted ++ [_]).length
    rw [hLength, hHolding.rcvCur, serial_succ]
  · show (conn.accepted ++ [_]).map Accepted.data <+: stream
    obtain ⟨rest, hRest⟩ := hHolding.accepted
    have hNext' := hNext.data
    rw [Nat.add_sub_cancel, ← hRest, List.getElem?_append_right (by simp)] at hNext'
    simp only [List.length_map, Nat.sub_self] at hNext'
    obtain ⟨rest', rfl⟩ : ∃ rest', rest = packet.data :: rest' := by
      cases rest with
      | nil => simp at hNext'
      | cons head rest' => exact ⟨rest', by simpa using hNext'⟩
    exact ⟨rest', by simpa using hRest⟩
  · show ∀ taken ∈ conn.accepted ++ [_], taken.data ≠ []
    rw [List.forall_mem_append]
    exact ⟨hHolding.nonempty, by simpa using hData⟩
  · intro other hMem
    obtain ⟨hOther, k, hk, hNumbered⟩ := hHolding.stored other hMem
    refine ⟨hOther, k, ?_, hNumbered⟩
    show (conn.accepted ++ [_]).length + 1 ≤ k
    rw [hLength]
    have hNe : k ≠ conn.accepted.length + 1 := by
      rintro rfl
      exact hStored other hMem (hNext.seqNr.trans hNumbered.seqNr.symm)
    omega
  · show stream.length ≤ (conn.accepted ++ [_]).length + window
    rw [hLength]
    have hNear := hHolding.near
    omega
  · show conn.read ++ connQueue.filterMap id = _
    rw [hArrived, hHolding.arrived, List.filter_append, List.map_append]
    cases queued <;> simp
  · exact fun hSyn => absurd hSyn hOpen

/-- The connection once `csp_rdp_receive_data` has been called for the next data. -/
def RdpConn.taken (conf : RdpConf) (conn : RdpConn) (data : List UInt8) : RdpConn :=
  { (cspRdpReceiveData conf conn data).2 with
    rcvCur := (cspRdpReceiveData conf conn data).2.rcvCur + 1
    accepted := (cspRdpReceiveData conf conn data).2.accepted ++
      [⟨data, (cspRdpReceiveData conf conn data).1⟩] }

theorem Holding.taken (hHolding : Holding iss window stream low conn)
    (hOpen : conn.state ≠ .rdpSynRcvd) (hData : packet.data ≠ [])
    (hNext : Numbered iss stream (conn.accepted.length + 1) packet)
    (hStored : ∀ other ∈ conn.rxQueue, packet.seqNr ≠ other.seqNr) (hLow : 1 ≤ low) :
    Holding iss window stream 1 (conn.taken conf packet.data) := by
  unfold RdpConn.taken cspRdpReceiveData
  split
  · exact hHolding.take hOpen hData hNext hStored hLow true (by simp [RdpConn.arrived])
  · exact hHolding.take hOpen hData hNext hStored hLow false (by simp [RdpConn.arrived])

theorem taken_fields (conn : RdpConn) (data : List UInt8) :
    (conn.taken conf data).state = conn.state ∧ (conn.taken conf data).rxQueue = conn.rxQueue ∧
      (conn.taken conf data).accepted.length = conn.accepted.length + 1 := by
  unfold RdpConn.taken cspRdpReceiveData
  split <;> simp

/-- What a function does to the receiving end, and what it tells about it. -/
structure RecvSide (iss : BitVec 16) (window : Nat) (stream : List (List UInt8))
    (conn : RdpConn) (result : RdpConn × List RdpPacket) : Prop where
  holding : Holding iss window stream 2 result.1
  grown : conn.accepted.length ≤ result.1.accepted.length
  /-- What is stored stays so until it is taken. -/
  kept : ∀ packet ∈ conn.rxQueue, packet ∈ result.1.rxQueue ∨
    ∃ k, conn.accepted.length < k ∧ k ≤ result.1.accepted.length ∧ packet.seqNr = serial iss k
  /-- Only what has been taken is acknowledged. -/
  ack : ∀ q ∈ result.2, q.flags.ack = true → ∃ a, conn.accepted.length ≤ a ∧
    a ≤ result.1.accepted.length ∧ q.ackNr = serial iss a
  /-- Only what is stored is told in an EACK. -/
  eak : ∀ q ∈ result.2, q.flags.eak = true →
    q.data = eackData (result.1.rxQueue.map (·.seqNr))

variable {result : RdpConn × List RdpPacket}

theorem Holding.recvSide (hHolding : Holding iss window stream 2 conn)
    (hUnmoved : Unmoved conn result.1) (hControl : ∀ q ∈ result.2, IsControl conn q) :
    RecvSide iss window stream conn result where
  holding := hHolding.of_unmoved hUnmoved
  grown := by rw [hUnmoved.accepted]
  kept := by
    rw [hUnmoved.rxQueue]
    exact fun packet hMem => .inl hMem
  ack := by
    intro q hMem hAck
    refine ⟨conn.accepted.length, le_rfl, by rw [hUnmoved.accepted], ?_⟩
    rw [(hControl q hMem).ackNr hAck, hHolding.rcvCur]
  eak := by
    intro q hMem hEak
    rw [(hControl q hMem).noEak] at hEak
    cases hEak

/-! ## Taking what is stored -/

/-- The stored packets that have come to be the next ones are taken. -/
theorem Holding.flush (hWindow : window < 2 ^ 15) {fuel : Nat}
    (hHolding : Holding iss window stream 1 conn) (hOpen : conn.state ≠ .rdpSynRcvd)
    (hFuel : conn.rxQueue.length ≤ fuel) :
    Holding iss window stream 2 (cspRdpRxQueueFlush conf fuel conn) ∧
      conn.accepted.length ≤ (cspRdpRxQueueFlush conf fuel conn).accepted.length ∧
      ∀ packet ∈ conn.rxQueue, packet ∈ (cspRdpRxQueueFlush conf fuel conn).rxQueue ∨
        ∃ k, conn.accepted.length < k ∧
          k ≤ (cspRdpRxQueueFlush conf fuel conn).accepted.length ∧
          packet.seqNr = serial iss k := by
  -- nothing that is stored is the next one
  have hDone : ∀ conn : RdpConn, Holding iss window stream 1 conn →
      (∀ packet ∈ conn.rxQueue, packet.seqNr ≠ serial iss (conn.accepted.length + 1)) →
      Holding iss window stream 2 conn := by
    intro conn hHolding hNone
    refine ⟨hHolding.rcvCur, hHolding.rcvIrs, hHolding.accepted, hHolding.nonempty, ?_,
      hHolding.distinct, hHolding.near, hHolding.arrived, hHolding.opening⟩
    intro packet hMem
    obtain ⟨hData, k, hk, hNumbered⟩ := hHolding.stored packet hMem
    refine ⟨hData, k, ?_, hNumbered⟩
    have hNe : k ≠ conn.accepted.length + 1 := by
      rintro rfl
      exact hNone packet hMem hNumbered.seqNr
    omega
  induction fuel generalizing conn with
  | zero =>
      have hNil : conn.rxQueue = [] := List.length_eq_zero_iff.mp (Nat.le_zero.mp hFuel)
      refine ⟨hDone conn hHolding (by simp [hNil]), le_rfl, fun packet hMem => .inl hMem⟩
  | succ fuel ih =>
      have hNext : conn.rcvCur + 1 = serial iss (conn.accepted.length + 1) := by
        rw [hHolding.rcvCur, serial_succ]
      unfold cspRdpRxQueueFlush
      split
      · next queue hScan =>
        obtain ⟨hPerm, hNone⟩ := rxQueueScan_none (le_refl _) hScan
        rw [List.take_length, hNext] at hNone
        refine ⟨hDone _ (hHolding.perm hPerm) ?_, le_rfl, fun packet hMem => .inl ?_⟩
        · exact fun packet hMem => hNone packet (hPerm.mem_iff.mpr hMem)
        · exact hPerm.mem_iff.mp hMem
      · next packet queue hScan =>
        obtain ⟨hSeq, hPerm⟩ := rxQueueScan_some hScan
        rw [hNext] at hSeq
        have hMem : packet ∈ conn.rxQueue := hPerm.mem_iff.mpr List.mem_cons_self
        obtain ⟨hData, k, hk, hNumbered⟩ := hHolding.stored packet hMem
        -- the number is that of the next packet of the stream
        have hk' : k = conn.accepted.length + 1 := by
          have hLe := hNumbered.le_length
          have hNear := hHolding.near
          exact (serial_inj_of_lt (by omega) (by omega)).mp (hNumbered.seqNr.symm.trans hSeq)
        subst hk'
        have hNotIn : ∀ other ∈ queue, packet.seqNr ≠ other.seqNr := by
          have hNodup := (hPerm.map (·.seqNr)).nodup_iff.mp hHolding.distinct
          rw [List.map_cons, List.nodup_cons] at hNodup
          exact fun other hOther hEq => hNodup.1 (List.mem_map.mpr ⟨other, hOther, hEq.symm⟩)
        have hWaiting : Holding iss window stream 1 { conn with rxQueue := queue } :=
          (hHolding.perm hPerm).sublist (List.sublist_cons_self packet queue)
        have hTaken := hWaiting.taken conf hOpen hData hNumbered hNotIn le_rfl
        obtain ⟨hState, hQueue, hLength⟩ :=
          taken_fields conf { conn with rxQueue := queue } packet.data
        have hShorter : queue.length ≤ fuel := by
          have hTotal := hPerm.length_eq
          rw [List.length_cons] at hTotal
          omega
        obtain ⟨hEnd, hGrown, hKept⟩ :=
          ih hTaken (by rwa [hState]) (by rwa [hQueue])
        rw [hLength] at hGrown
        refine ⟨hEnd, Nat.le_of_succ_le hGrown, ?_⟩
        intro other hOther
        · rcases List.mem_cons.mp (hPerm.mem_iff.mp hOther) with rfl | hOther
          · exact .inr ⟨_, Nat.lt_succ_self _, hGrown, hSeq⟩
          · refine (hKept other (hQueue ▸ hOther)).imp_right ?_
            rintro ⟨k, hLow, hHigh, hSeq⟩
            rw [hLength] at hLow
            exact ⟨k, Nat.lt_of_succ_lt hLow, hHigh, hSeq⟩

/-! ## What a packet does to the receiving end -/

/-- The end of the window that is looked at. -/
theorem windowEnd_eq (hSize : conn.options.windowSize = BitVec.ofNat 32 window)
    (hHolding : Holding iss window stream low conn) :
    conn.rcvCur + (conn.options.windowSize * 2).setWidth 16 =
      serial iss (conn.accepted.length + 2 * window) := by
  have hDouble : (conn.options.windowSize * 2).setWidth 16 = BitVec.ofNat 16 (2 * window) := by
    rw [hSize, ← BitVec.toNat_inj, BitVec.toNat_setWidth, BitVec.toNat_mul, BitVec.toNat_ofNat,
      BitVec.toNat_ofNat]
    show window % 2 ^ 32 * 2 % 2 ^ 32 % 2 ^ 16 = 2 * window % 2 ^ 16
    omega
  rw [hDouble, hHolding.rcvCur, serial_add]

/-- The data of a packet are those of the stream, and there have not been too many since. -/
def Fresh (iss : BitVec 16) (window : Nat) (stream : List (List UInt8)) (conn : RdpConn)
    (packet : RdpPacket) : Prop :=
  packet.IsData → ∃ k, Numbered iss stream k packet ∧
    conn.accepted.length + 2 * window < k + 2 ^ 16

theorem recvSide_inOrder (hPos : 0 < window) (hWindow : window < 2 ^ 15)
    (hHolding : Holding iss window stream 2 conn) (hOpen : conn.state = .rdpOpen)
    (hData : packet.IsData) (hSeq : packet.seqNr = conn.rcvCur + 1)
    (hFresh : Fresh iss window stream conn packet) :
    RecvSide iss window stream conn (newInOrder conf env conn packet) := by
  obtain ⟨k, hNumbered, hYoung⟩ := hFresh hData
  rw [hHolding.rcvCur, serial_succ] at hSeq
  have hk : k = conn.accepted.length + 1 := by
    have hLe := hNumbered.le_length
    have hNear := hHolding.near
    exact (serial_inj_of_lt (by omega) (by omega)).mp (hNumbered.seqNr.symm.trans hSeq)
  subst hk
  have hState : conn.state ≠ .rdpSynRcvd := by simp [hOpen]
  have hNotIn : ∀ other ∈ conn.rxQueue, packet.seqNr ≠ other.seqNr := by
    intro other hMem hEq
    obtain ⟨-, j, hj, hOther⟩ := hHolding.stored other hMem
    have hLe := hOther.le_length
    have hNear := hHolding.near
    rw [hSeq, hOther.seqNr, serial_inj_of_lt (by omega) (by omega)] at hEq
    omega
  have hTaken := hHolding.taken conf hState hData.2.2.2 hNumbered hNotIn (by decide)
  obtain ⟨hTakenState, hQueue, hLength⟩ := taken_fields conf conn packet.data
  unfold newInOrder
  dsimp only
  split
  · next hQueued =>
    have hEq : ({ (cspRdpReceiveData conf conn packet.data).2 with
        rcvCur := packet.seqNr
        accepted := (cspRdpReceiveData conf conn packet.data).2.accepted ++
          [⟨packet.data, true⟩] } : RdpConn) = conn.taken conf packet.data := by
      have hCur : (cspRdpReceiveData conf conn packet.data).2.rcvCur = conn.rcvCur := by
        unfold cspRdpReceiveData
        split <;> rfl
      rw [RdpConn.taken, hQueued, hCur, hHolding.rcvCur, serial_succ, hSeq]
    rw [hEq]
    have hCheck : Unmoved (conn.taken conf packet.data) _ := unmoved_cspRdpCheckAck conf env
    have hControl : ∀ q ∈ (cspRdpCheckAck conf env (conn.taken conf packet.data)).2,
        IsControl (conn.taken conf packet.data) q := (quiet_cspRdpCheckAck conf env).control
    have hChecked := hTaken.of_unmoved hCheck
    obtain ⟨hEnd, hGrown, hKept⟩ := hChecked.flush conf hWindow
      (fun hSyn => hState (hTakenState ▸ hCheck.synRcvd hSyn)) le_rfl
    rw [hCheck.accepted, hLength] at hGrown
    have hQueue := hCheck.rxQueue.trans hQueue
    rw [hCheck.accepted, hLength] at hKept
    refine ⟨hEnd, Nat.le_of_succ_le hGrown, ?_, ?_, ?_⟩
    · intro other hMem
      refine (hKept other (hQueue ▸ hMem)).imp_right ?_
      rintro ⟨k, hLow, hHigh, hSeq⟩
      exact ⟨k, Nat.lt_of_succ_lt hLow, hHigh, hSeq⟩
    · intro q hMem hAck
      refine ⟨conn.accepted.length + 1, Nat.le_succ _, hGrown, ?_⟩
      rw [(hControl q hMem).ackNr hAck, hTaken.rcvCur, hLength]
    · intro q hMem hEak
      rw [(hControl q hMem).noEak] at hEak
      cases hEak
  · exact hHolding.recvSide (Unmoved.refl conn) (by simp)

/-- A packet behind the next one is stored, if it is not already. -/
theorem Holding.rxQueueAdd (hHolding : Holding iss window stream 2 conn)
    (hData : packet.data ≠ []) {k : Nat} (hk : conn.accepted.length + 2 ≤ k)
    (hNumbered : Numbered iss stream k packet) :
    Holding iss window stream 2 (cspRdpRxQueueAdd conf conn packet).2 ∧
      (cspRdpRxQueueAdd conf conn packet).2.accepted = conn.accepted ∧
      ∀ other ∈ conn.rxQueue, other ∈ (cspRdpRxQueueAdd conf conn packet).2.rxQueue := by
  obtain ⟨hPerm, hNone⟩ := @seqInRxQueue_spec packet.seqNr _ conn.rxQueue le_rfl
  have hRotated := hHolding.perm hPerm
  have hMem : ∀ other ∈ conn.rxQueue,
      other ∈ (seqInRxQueue packet.seqNr conn.rxQueue.length conn.rxQueue).2 :=
    fun other hOther => hPerm.mem_iff.mp hOther
  unfold cspRdpRxQueueAdd
  dsimp only
  split
  · exact ⟨hRotated, rfl, hMem⟩
  · next hMissing =>
    have hMissing := hNone (by simpa using hMissing)
    rw [List.take_length] at hMissing
    split
    · refine ⟨⟨hHolding.rcvCur, hHolding.rcvIrs, hHolding.accepted, hHolding.nonempty, ?_, ?_,
        hHolding.near, hHolding.arrived, hHolding.opening⟩, rfl,
        fun other hOther => List.mem_append_left _ (hMem other hOther)⟩
      · intro other hOther
        rcases List.mem_append.mp hOther with hOld | hNew
        · exact hRotated.stored other hOld
        · rw [List.mem_singleton.mp hNew]
          exact ⟨hData, k, hk, hNumbered⟩
      · show ((seqInRxQueue packet.seqNr conn.rxQueue.length conn.rxQueue).2 ++ [packet]).map
          RdpPacket.seqNr |>.Nodup
        rw [List.map_append, List.nodup_append]
        refine ⟨hRotated.distinct, by simp, ?_⟩
        intro seqNr hOld seqNr' hNew
        obtain ⟨other, hOther, rfl⟩ := List.mem_map.mp hOld
        obtain rfl : seqNr' = packet.seqNr := by simpa using hNew
        exact hMissing other (hPerm.mem_iff.mpr hOther)
    · exact ⟨hRotated, rfl, hMem⟩

/-- An EACK tells what is stored, and acknowledges what has been taken. -/
theorem Holding.recvSide_eack (hHolding : Holding iss window stream 2 conn) :
    RecvSide iss window stream conn (cspRdpSendEack conf env conn) := by
  have hUnmoved : Unmoved conn _ := unmoved_cspRdpSendEack conf env
  refine ⟨hHolding.of_unmoved hUnmoved, by rw [hUnmoved.accepted], ?_, ?_, ?_⟩
  · rw [hUnmoved.rxQueue]
    exact fun packet hMem => .inl hMem
  · intro q hMem hAck
    rw [eq_of_mem_cspRdpSendEack conf env hMem]
    exact ⟨conn.accepted.length, le_rfl, by rw [hUnmoved.accepted], hHolding.rcvCur⟩
  · intro q hMem hEak
    rw [eq_of_mem_cspRdpSendEack conf env hMem, hUnmoved.rxQueue]

/-- From a connection with the same packets taken, and at least the same stored. -/
theorem RecvSide.of_start (hSide : RecvSide iss window stream conn' result)
    (hAccepted : conn'.accepted = conn.accepted)
    (hStored : ∀ packet ∈ conn.rxQueue, packet ∈ conn'.rxQueue) :
    RecvSide iss window stream conn result where
  holding := hSide.holding
  grown := hAccepted ▸ hSide.grown
  kept := fun packet hMem => hAccepted ▸ hSide.kept packet (hStored packet hMem)
  ack := hAccepted ▸ hSide.ack
  eak := hSide.eak

theorem recvSide_outOfOrder (hPos : 0 < window) (hWindow : window < 2 ^ 15)
    (hHolding : Holding iss window stream 2 conn)
    (hSize : conn.options.windowSize = BitVec.ofNat 32 window) (hData : packet.IsData)
    (hBetween : cspRdpSeqBetween packet.seqNr (conn.rcvCur + 1)
      (conn.rcvCur + (conn.options.windowSize * 2).setWidth 16) = true)
    (hSeq : packet.seqNr ≠ conn.rcvCur + 1) (hFresh : Fresh iss window stream conn packet) :
    RecvSide iss window stream conn (newOutOfOrder conf env conn packet) := by
  obtain ⟨k, hNumbered, hYoung⟩ := hFresh hData
  have hLe := hNumbered.le_length
  have hNear := hHolding.near
  rw [cspRdpSeqBetween, windowEnd_eq hSize hHolding, hHolding.rcvCur, serial_succ,
    hNumbered.seqNr, serialBetween_iff (by omega) (by omega) (by omega) (by omega)] at hBetween
  have hk : conn.accepted.length + 2 ≤ k := by
    have hNe : k ≠ conn.accepted.length + 1 := by
      rintro rfl
      rw [hHolding.rcvCur, serial_succ] at hSeq
      exact hSeq hNumbered.seqNr
    omega
  obtain ⟨hAdded, hAccepted, hStored⟩ := hHolding.rxQueueAdd conf hData.2.2.2 hk hNumbered
  unfold newOutOfOrder
  dsimp only
  split
  · exact (hAdded.recvSide_eack conf env).of_start hAccepted hStored
  · exact (hAdded.recvSide (unmoved_cspRdpCheckAck conf env)
      (quiet_cspRdpCheckAck conf env).control).of_start hAccepted hStored

/-- The answer to a SYN acknowledges it, and nothing has been taken then. -/
theorem Holding.recvSide_synAck (hHolding : Holding iss window stream 2 conn)
    (hState : conn.state = .rdpSynRcvd) :
    RecvSide iss window stream conn
      (cspRdpSendCmp conf env conn none rdpAckSyn conn.sndIss conn.rcvIrs) := by
  obtain ⟨txQueue, hUnmoved, -⟩ :=
    @cspRdpSendCmp_queue conf env conn none rdpAckSyn conn.sndIss conn.rcvIrs
  have hStart : Holding iss window stream 2 { conn with txQueue := txQueue } :=
    hHolding.of_same ⟨rfl, rfl, rfl, rfl, rfl⟩ id
  have hNone := hHolding.opening hState
  refine ⟨hStart.of_unmoved hUnmoved, by rw [hUnmoved.accepted], ?_, ?_, ?_⟩
  · rw [hUnmoved.rxQueue]
    exact fun packet hMem => .inl hMem
  · intro q hMem hAck
    refine ⟨0, by simp [hNone], Nat.zero_le _, ?_⟩
    rw [eq_of_mem_cspRdpSendCmp conf env hMem, serial_zero]
    exact hHolding.rcvIrs
  · intro q hMem hEak
    rw [eq_of_mem_cspRdpSendCmp conf env hMem] at hEak
    cases hEak

/-- Whatever the packet, the receiving end is kept. -/
theorem recvSide_routeRdp (hPos : 0 < window) (hWindow : window < 2 ^ 15)
    (hHolding : Holding iss window stream 2 conn)
    (hSize : conn.options.windowSize = BitVec.ofNat 32 window) (hLive : conn.Live)
    (hFresh : Fresh iss window stream conn packet)
    (hState : (routeRdp conf env conn packet).1.state ≠ .rdpClosed) :
    RecvSide iss window stream conn (routeRdp conf env conn packet) := by
  have hEffect := routeRdp_effect conf env packet hLive
  generalize routeRdp conf env conn packet = result at hEffect hState
  -- the acknowledgement does not concern the receiving end
  have hAcked : ∀ conn' : RdpConn, Acknowledged packet conn conn' →
      Holding iss window stream 2 conn' ∧ conn'.accepted = conn.accepted ∧
        (∀ packet ∈ conn.rxQueue, packet ∈ conn'.rxQueue) ∧ conn'.rcvCur = conn.rcvCur ∧
        conn'.options = conn.options := by
    intro conn' hAck
    have hStart : Holding iss window stream 2 { conn with sndUna := conn'.sndUna } :=
      hHolding.of_same ⟨rfl, rfl, rfl, rfl, rfl⟩ id
    have hQueue : conn'.rxQueue = conn.rxQueue := hAck.unmoved.rxQueue
    exact ⟨hStart.of_unmoved hAck.unmoved, hAck.unmoved.accepted,
      fun packet hMem => hQueue ▸ hMem, hAck.unmoved.rcvCur, hAck.unmoved.options⟩
  cases hEffect with
  | quiet hAck hQuiet =>
      obtain ⟨hStart, hAccepted, hStored, -, -⟩ := hAcked _ hAck
      exact (hStart.recvSide (hQuiet.unmoved hState) hQuiet.control).of_start hAccepted hStored
  | synAck hSynRcvd => exact hHolding.recvSide_synAck conf env hSynRcvd
  | duplicate => exact hHolding.recvSide_eack conf env
  | @eack conn' hAck hFlag hEak =>
      obtain ⟨hStart, hAccepted, hStored, -, -⟩ := hAcked _ hAck
      have hSame : Holding iss window stream 2 (cspRdpFlushEack env conn' packet.data) :=
        hStart.of_same ⟨rfl, rfl, rfl, rfl, rfl⟩ id
      have hSide : RecvSide iss window stream conn' (cspRdpFlushEack env conn' packet.data, []) :=
        ⟨hSame, le_rfl, fun packet hMem => .inl hMem, by simp, by simp⟩
      exact hSide.of_start hAccepted hStored
  | inOrder hAck hOpen hData hSeq =>
      obtain ⟨hStart, hAccepted, hStored, hCur, -⟩ := hAcked _ hAck
      refine (recvSide_inOrder conf env hPos hWindow hStart hOpen hData (by rwa [hCur])
        ?_).of_start hAccepted hStored
      rw [Fresh, hAccepted]
      exact hFresh
  | outOfOrder hAck hData hBetween hSeq =>
      obtain ⟨hStart, hAccepted, hStored, hCur, hOptions⟩ := hAcked _ hAck
      refine (recvSide_outOfOrder conf env hPos hWindow hStart (by rw [hOptions, hSize]) hData
        (by rwa [hCur, hOptions]) (by rwa [hCur]) ?_).of_start hAccepted hStored
      rw [Fresh, hAccepted]
      exact hFresh

/-! ## Timeouts and the user's calls -/

theorem recvSide_cspRdpCheckTimeouts (hHolding : Holding iss window stream 2 conn)
    (hTx : ∀ element ∈ conn.txQueue, element.packet.flags.eak = false)
    (hState : (cspRdpCheckTimeouts conf env conn).1.state ≠ .rdpClosed) :
    RecvSide iss window stream conn (cspRdpCheckTimeouts conf env conn) := by
  rcases @cspRdpCheckTimeouts_cases conf env conn with hQuiet | ⟨last, hQuiet, hUnmoved, hEq⟩
  · exact hHolding.recvSide (hQuiet.unmoved hState) hQuiet.control
  · obtain ⟨hQueued, -, hSent⟩ := @checkTxQueue_spec env conn conn.txQueue 0
    have hStart : Holding iss window stream 2
        { conn with txQueue := (checkTxQueue env conn 0 conn.txQueue).1 } :=
      hHolding.of_same ⟨rfl, rfl, rfl, rfl, rfl⟩ id
    have hLast := hStart.recvSide hUnmoved hQuiet.control
    rw [hEq]
    refine ⟨hLast.holding, hLast.grown, hLast.kept, ?_, ?_⟩
    · intro q hMem hAck
      rcases List.mem_append.mp hMem with hMem | hMem
      · refine ⟨conn.accepted.length, le_rfl, hLast.grown, ?_⟩
        rw [(hSent q hMem).1, hHolding.rcvCur]
      · exact hLast.ack q hMem hAck
    · intro q hMem hEak
      rcases List.mem_append.mp hMem with hMem | hMem
      · obtain ⟨-, element', hElement', rfl⟩ := hSent q hMem
        obtain ⟨element, hElement, hFlags, -, -⟩ := hQueued element' hElement'
        rw [hFlags, hTx element hElement] at hEak
        cases hEak
      · exact hLast.eak q hMem hEak

end Rdp
end Csp
end CubeSatComm
