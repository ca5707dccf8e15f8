import CubeSatComm.Csp.SecurityLayers
import CubeSatComm.Csp.SfpReceiver

/-!
# Messages over a connection

What `csp_sfp_send_own_memcpy` gives to `csp_send` are the first fragments of the message,
all of them unless it returns an error (`cspSfpSendOwnMemcpy_sent`).  When all that a
receiver reads are packets of one message, lost, repeated and exchanged in any way, then it
returns this message if it reads all of them in their order, and no message otherwise
(`transfer_iff`).

A header does not say which message it is of.  Packets of two messages of the same length
can therefore be put together (`transfer_mixed`).
-/

namespace CubeSatComm
namespace Csp
namespace Sfp

open Lib Lib.CInteger Security

variable {size : Nat}

/-- What is sent for a fragment. -/
def sfpDatagram (idout : Nat) (fragment : Fragment UInt8) : Datagram :=
  ⟨idout ||| cspFfrag,
    fragment.content ++ (⟨fragment.offset, fragment.total⟩ : SfpHeader).bytes⟩

theorem hasFlag_or_cspFfrag (idout : Nat) : hasFlag (idout ||| cspFfrag) cspFfrag = true := by
  have hBit : (idFlags (idout ||| cspFfrag) &&& cspFfrag).testBit 4 = true := by
    have hSet : cspFfrag.testBit 4 = true := by decide
    rw [Nat.testBit_and, idFlags, Nat.testBit_mod_two_pow, Nat.testBit_or, hSet]
    simp
  rw [hasFlag, bne_iff_ne]
  intro hZero
  rw [hZero, Nat.zero_testBit] at hBit
  cases hBit

theorem SfpHeader.ofBytes_bytes {header : SfpHeader} (hOffset : header.offset < 2 ^ 32)
    (hTotalsize : header.totalsize < 2 ^ 32) (tail : List UInt8) :
    SfpHeader.ofBytes (header.bytes ++ tail) = header := by
  have hFirst : (header.bytes ++ tail).take 4 = toBigEndian 4 header.offset := by
    rw [bytes, List.append_assoc, List.take_left' (length_toBigEndian ..)]
  have hSecond : ((header.bytes ++ tail).drop 4).take 4 = toBigEndian 4 header.totalsize := by
    rw [bytes, List.append_assoc, List.drop_left' (length_toBigEndian ..),
      List.take_left' (length_toBigEndian ..)]
  rw [ofBytes, hFirst, hSecond, ofBigEndian_toBigEndian_of_lt hOffset,
    ofBigEndian_toBigEndian_of_lt hTotalsize]

/-- What has been sent for a fragment carries it. -/
theorem fragmentOf_of_datagram {packet : FittingPacket size} {idout : Nat}
    {fragment : Fragment UInt8} (hOffset : fragment.offset ≤ fragment.total)
    (hTotal : fragment.total < 2 ^ 32)
    (hDatagram : packet.val.datagram = sfpDatagram idout fragment) :
    fragmentOf packet.val = some fragment := by
  obtain ⟨hId, hPayload⟩ := Datagram.mk.inj hDatagram
  let header : SfpHeader := ⟨fragment.offset, fragment.total⟩
  have hLength : packet.val.length = fragment.content.length + sfpHeaderSize := by
    rw [← packet.val.length_payload packet.property, hPayload, List.length_append,
      SfpHeader.length_bytes]
  have hData : packet.val.data.drop fragment.content.length =
      header.bytes ++ packet.val.data.drop packet.val.length := by
    have hSplit : packet.val.data =
        fragment.content ++ (header.bytes ++ packet.val.data.drop packet.val.length) := by
      rw [← List.append_assoc, ← hPayload]
      exact (List.take_append_drop _ _).symm
    rw [hSplit, List.drop_left' rfl, ← hSplit]
  have hHeader : SfpHeader.ofBytes
      (packet.val.data.drop (packet.val.length - sfpHeaderSize)) = header := by
    rw [hLength, Nat.add_sub_cancel, hData]
    exact SfpHeader.ofBytes_bytes (Nat.lt_of_le_of_lt hOffset hTotal) hTotal _
  have hBody := packet.val.payload_strip_of_eq packet.property hPayload
  rw [SfpHeader.length_bytes] at hBody
  have hFlag : ¬ ¬ hasFlag packet.val.id cspFfrag = true := by
    rw [hId]
    exact not_not_intro (hasFlag_or_cspFfrag idout)
  have hLong : ¬ packet.val.length < sfpHeaderSize := by omega
  have hInside : ¬ header.offset > header.totalsize := Nat.not_lt.mpr hOffset
  rw [fragmentOf, cspSfpHeaderRemove, if_neg hFlag, if_neg hLong]
  simp only [hHeader, if_neg hInside, Option.map_some, hBody]
  rfl

/-! ## The sender -/

section Sender

variable {env : SfpEnv size} {message : List UInt8} {mtu : Nat}

theorem sfpPacket_datagram {buffer : AreaPacket size} {k : Nat}
    (hRoom : mtu + sfpHeaderSize ≤ size) (idout : Nat) :
    AreaPacket.datagram { sfpPacket buffer message mtu (k * mtu) hRoom with
      id := idout ||| cspFfrag } = sfpDatagram idout (fragmentAt mtu message k) := by
  let bytes := (message.drop (k * mtu)).take mtu
  have hBytes : 0 + bytes.length ≤ size := by
    have hLe : bytes.length ≤ mtu := List.length_take_le _ _
    omega
  have hPayload := AreaPacket.payload_put_zero { buffer with length := bytes.length } hBytes rfl
  have hAll := AreaPacket.payload_append
    ({ buffer with length := bytes.length }.put 0 bytes hBytes : AreaPacket size)
    (⟨k * mtu, message.length⟩ : SfpHeader).bytes (by
      rw [SfpHeader.length_bytes]
      have hLe : bytes.length ≤ mtu := List.length_take_le _ _
      exact Nat.le_trans (Nat.add_le_add_right hLe _) hRoom)
  rw [hPayload] at hAll
  exact congrArg (Datagram.mk (idout ||| cspFfrag)) hAll

theorem length_sfpPacket_le {buffer : AreaPacket size} {count : Nat}
    (hRoom : mtu + sfpHeaderSize ≤ size) :
    (sfpPacket buffer message mtu count hRoom).length ≤ size := by
  have hLe : ((message.drop count).take mtu).length ≤ mtu := List.length_take_le _ _
  show ((message.drop count).take mtu).length + (SfpHeader.bytes _).length ≤ size
  rw [SfpHeader.length_bytes]
  omega

/-- What has been sent from a fragment on. -/
structure Sent (message : List UInt8) (mtu idout k : Nat) (tx : SfpTx size) : Prop where
  /-- The packets are those of the next fragments. -/
  prefix_cut : ∃ n, n ≤ ((cut mtu message).drop k).length ∧
    tx.sent.map AreaPacket.datagram =
      (((cut mtu message).drop k).take n).map (sfpDatagram idout) ∧
    (tx.ret = cspErrNone ↔ n = ((cut mtu message).drop k).length)
  fits : ∀ packet ∈ tx.sent, packet.length ≤ size
  /-- No buffer is lost or freed twice. -/
  balance : tx.gets = tx.sent.length + tx.freed

theorem min_succ_mul (k : Nat) (hMore : k * mtu < message.length) :
    k * mtu + min mtu (message.length - k * mtu) = min ((k + 1) * mtu) message.length := by
  have hSucc : (k + 1) * mtu = k * mtu + mtu := Nat.succ_mul k mtu
  omega

/-- A call has failed before there was anything to send. -/
theorem sent_stopped {idout k : Nat} {tx : SfpTx size} (hMore : (cut mtu message).drop k ≠ [])
    (hRet : tx.ret ≠ cspErrNone) (hSent : tx.sent = []) (hBalance : tx.gets = tx.freed) :
    Sent message mtu idout k tx := by
  refine ⟨⟨0, Nat.zero_le _, ?_, ?_⟩, ?_, ?_⟩
  · simp [hSent]
  · exact iff_of_false hRet fun hEq => hMore (List.length_eq_zero_iff.mp hEq.symm)
  · simp [hSent]
  · simp [hSent, hBalance]

/-- One more packet has been sent before. -/
theorem Sent.cons {idout k : Nat} {packet : AreaPacket size} {tx : SfpTx size}
    (hLt : k < fragmentCount mtu message)
    (hSent : Sent message mtu (idout ||| cspFfrag) (k + 1) tx)
    (hDatagram : packet.datagram = sfpDatagram idout (fragmentAt mtu message k))
    (hFits : packet.length ≤ size) :
    Sent message mtu idout k
      { tx with sent := packet :: tx.sent, gets := tx.gets + 1 } := by
  obtain ⟨⟨n, hLe, hMap, hRet⟩, hAllFit, hBalance⟩ := hSent
  have hSame : sfpDatagram (idout ||| cspFfrag) = sfpDatagram idout := by
    funext fragment
    rw [sfpDatagram, sfpDatagram, Nat.or_assoc, Nat.or_self]
  refine ⟨⟨n + 1, ?_, ?_, ?_⟩, ?_, ?_⟩
  · rw [cut_drop_cons hLt]
    exact Nat.succ_le_succ hLe
  · rw [cut_drop_cons hLt, List.take_succ_cons, List.map_cons, List.map_cons, hDatagram, hMap,
      hSame]
  · rw [cut_drop_cons hLt, List.length_cons]
    exact hRet.trans (Nat.add_right_cancel_iff).symm
  · intro other hMem
    rcases List.mem_cons.mp hMem with rfl | hMem
    · exact hFits
    · exact hAllFit other hMem
  · show tx.gets + 1 = (packet :: tx.sent).length + tx.freed
    rw [hBalance, List.length_cons]
    omega

/-- The loop sends the fragments from one on until a call fails. -/
theorem sent_sfpSendLoop (env : SfpEnv size) (message : List UInt8) (hMtu : 0 < mtu)
    (i k idout : Nat) :
    Sent message mtu idout k
      (sfpSendLoop env message hMtu i (min (k * mtu) message.length) idout) := by
  -- on the fragments that are still to be sent
  induction hLeft : (cut mtu message).drop k generalizing i k idout with
  | nil =>
    have hEnd : ¬ k * mtu < message.length := by
      intro hMore
      rw [cut_drop_cons ((lt_fragmentCount hMtu).mpr hMore)] at hLeft
      cases hLeft
    rw [Nat.min_eq_right (Nat.le_of_not_lt hEnd), sfpSendLoop, dif_neg (Nat.lt_irrefl _)]
    refine ⟨⟨0, Nat.zero_le _, ?_, ?_⟩, ?_, rfl⟩
    · simp
    · simp [hLeft]
    · simp
  | cons fragment rest ih =>
    have hLt : k < fragmentCount mtu message := by
      by_contra hGe
      have hNil : (cut mtu message).drop k = [] :=
        List.drop_eq_nil_of_le (by simpa [cut] using hGe)
      rw [hNil] at hLeft
      cases hLeft
    have hMore := (lt_fragmentCount hMtu).mp hLt
    have hSome : (cut mtu message).drop k ≠ [] := by
      rw [hLeft]
      exact List.cons_ne_nil _ _
    have hNomem : cspErrNomem ≠ cspErrNone := by decide
    have hTx : cspErrTx ≠ cspErrNone := by decide
    have hRest : (cut mtu message).drop (k + 1) = rest := by
      rw [cut_drop_cons hLt] at hLeft
      exact (List.cons.inj hLeft).2
    rw [Nat.min_eq_left (Nat.le_of_lt hMore), sfpSendLoop, dif_pos hMore]
    by_cases hRoom : mtu + sfpHeaderSize ≤ size
    · rw [dif_pos hRoom]
      cases hSupply : env.supply i with
      | none => exact sent_stopped hSome hNomem rfl rfl
      | some buffer =>
        by_cases hAccepts : env.accepts i = true
        · simp only [hAccepts, if_true]
          rw [min_succ_mul k hMore]
          exact Sent.cons hLt (ih (i + 1) (k + 1) (idout ||| cspFfrag) hRest)
            (sfpPacket_datagram hRoom idout) (length_sfpPacket_le hRoom)
        · simp only [hAccepts]
          exact sent_stopped hSome hTx rfl rfl
    · rw [dif_neg hRoom]
      exact sent_stopped hSome hNomem rfl rfl

/-- What `csp_sfp_send_own_memcpy` sends are the first fragments of the message, and all of
them if it returns no error. -/
theorem sent_cspSfpSendOwnMemcpy (env : SfpEnv size) (message : List UInt8) (hMtu : 0 < mtu)
    (idout : Nat) :
    Sent message mtu idout 0 (cspSfpSendOwnMemcpy env idout message mtu) := by
  have hSent := sent_sfpSendLoop env message hMtu 0 0 idout
  rw [Nat.zero_mul, Nat.zero_min] at hSent
  rw [cspSfpSendOwnMemcpy, dif_neg (Nat.ne_of_gt hMtu)]
  exact hSent

/-- Nothing fails when every call succeeds. -/
theorem ret_cspSfpSendOwnMemcpy (hMtu : 0 < mtu) (hRoom : mtu + sfpHeaderSize ≤ size)
    (hSupply : ∀ i, env.supply i ≠ none) (hAccepts : ∀ i, env.accepts i = true) (idout : Nat) :
    (cspSfpSendOwnMemcpy env idout message mtu).ret = cspErrNone := by
  have hLoop : ∀ left i count idout, message.length - count ≤ left →
      (sfpSendLoop env message hMtu i count idout).ret = cspErrNone := by
    intro left
    induction left with
    | zero =>
      intro i count idout hLeft
      rw [sfpSendLoop, dif_neg (by omega)]
    | succ left ih =>
      intro i count idout hLeft
      rw [sfpSendLoop]
      split
      · obtain ⟨buffer, hBuffer⟩ := Option.ne_none_iff_exists'.mp (hSupply i)
        simp only [hBuffer, hAccepts i, if_true]
        exact ih (i + 1) _ _ (by omega)
      · rfl
  rw [cspSfpSendOwnMemcpy, dif_neg (Nat.ne_of_gt hMtu)]
  exact hLoop _ 0 0 idout (Nat.le_refl _)

end Sender

/-! ## From the sender to the receiver -/

section Transfer

variable {read unread packets : List (FittingPacket size)} {message : List UInt8}
  {mtu idout : Nat}

/-- The header of a fragment has room for what it says, and its reader accepts it. -/
structure Headed (fragment : Fragment UInt8) : Prop where
  offset_le : fragment.offset ≤ fragment.total
  total_lt : fragment.total < 2 ^ 32

theorem headed_of_mem_cut (hPos : 0 < mtu) (hMessage : message.length < 2 ^ 32) :
    ∀ fragment ∈ cut mtu message, Headed fragment := by
  intro fragment hMem
  obtain ⟨k, hLt, rfl⟩ := mem_cut.mp hMem
  exact ⟨Nat.le_of_lt ((lt_fragmentCount hPos).mp hLt), hMessage⟩

theorem partOf_of_mem_cut {fragment : Fragment UInt8} (hMem : fragment ∈ cut mtu message) :
    fragment.PartOf message := by
  obtain ⟨k, -, rfl⟩ := mem_cut.mp hMem
  exact partOf_fragmentAt k

/-- Packets that have been sent for these fragments carry them. -/
theorem carry_of_datagrams {fragments : List (Fragment UInt8)}
    (hHeaded : ∀ fragment ∈ fragments, Headed fragment)
    (hDatagrams : read.map (fun packet => packet.val.datagram) =
      fragments.map (sfpDatagram idout)) : Carry read fragments := by
  induction read generalizing fragments with
  | nil => exact carry_nil.mpr (List.map_eq_nil_iff.mp hDatagrams.symm)
  | cons packet read ih =>
    cases fragments with
    | nil => cases hDatagrams
    | cons fragment fragments =>
      obtain ⟨hFirst, hOthers⟩ := List.cons.inj hDatagrams
      obtain ⟨hOffset, hTotal⟩ := hHeaded fragment List.mem_cons_self
      have hFragment := fragmentOf_of_datagram hOffset hTotal hFirst
      have hRest := ih (fun other hMem => hHeaded other (List.mem_cons_of_mem _ hMem)) hOthers
      exact carry_cons.mpr ⟨fragment, fragments, rfl, hFragment, hRest⟩

/-- Packets that have all been sent for some fragments have been sent for those they
carry. -/
theorem datagrams_of_carry {fragments sent : List (Fragment UInt8)}
    (hHeaded : ∀ fragment ∈ sent, Headed fragment)
    (hFrom : ∀ packet ∈ read, ∃ fragment ∈ sent,
      packet.val.datagram = sfpDatagram idout fragment)
    (hCarry : Carry read fragments) :
    read.map (fun packet => packet.val.datagram) = fragments.map (sfpDatagram idout) ∧
      ∀ fragment ∈ fragments, fragment ∈ sent := by
  induction read generalizing fragments with
  | nil =>
    rw [carry_nil.mp hCarry]
    simp
  | cons packet read ih =>
    obtain ⟨fragment, others, rfl, hFragment, hOthers⟩ := carry_cons.mp hCarry
    obtain ⟨fragment', hMem, hDatagram⟩ := hFrom packet List.mem_cons_self
    obtain ⟨hOffset, hTotal⟩ := hHeaded fragment' hMem
    have hSame := (fragmentOf_of_datagram hOffset hTotal hDatagram).symm.trans hFragment
    obtain rfl := Option.some.inj hSame
    obtain ⟨hMap, hAll⟩ := ih (fun other hMem => hFrom other (List.mem_cons_of_mem _ hMem)) hOthers
    constructor
    · rw [List.map_cons, List.map_cons, hDatagram, hMap]
    · intro other hOther
      rcases List.mem_cons.mp hOther with rfl | hOther
      · exact hMem
      · exact hAll other hOther

/-- What has been sent is sent for fragments of the message. -/
theorem Sent.datagrams {sendSize : Nat} {tx : SfpTx sendSize}
    (hSent : Sent message mtu idout 0 tx) :
    ∃ n, tx.sent.map AreaPacket.datagram =
        ((cut mtu message).take n).map (sfpDatagram idout) ∧
      (tx.ret = cspErrNone ↔ fragmentCount mtu message ≤ n) := by
  obtain ⟨n, hLe, hMap, hRet⟩ := hSent.prefix_cut
  rw [List.drop_zero] at hLe hMap hRet
  have hLength : (cut mtu message).length = fragmentCount mtu message := by simp [cut]
  exact ⟨n, hMap, by omega⟩

/-- The last fragment is among the first `n` only if these are all. -/
theorem le_of_cut_subset_take {n : Nat} (hPos : 0 < mtu)
    (hAll : ∀ fragment ∈ cut mtu message, fragment ∈ (cut mtu message).take n) :
    fragmentCount mtu message ≤ n := by
  by_contra hLt
  have hIn : n < fragmentCount mtu message := Nat.lt_of_not_le hLt
  have hMem := hAll _ (mem_cut.mpr ⟨n, hIn, rfl⟩)
  rw [cut, ← List.map_take, List.take_range, List.mem_map] at hMem
  obtain ⟨j, hJ, hSame⟩ := hMem
  have hOffset : j * mtu = n * mtu := congrArg Fragment.offset hSame
  have hEq := Nat.eq_of_mul_eq_mul_right hPos hOffset
  rw [List.mem_range] at hJ
  omega

variable {sendSize : Nat} {env env' : SfpEnv sendSize} {message' data : List UInt8}
  {idout' k : Nat} {firstPacket : Option (FittingPacket size)}
  {connection : List (FittingPacket size)}

/-- What is received from the first `n` fragments of a message. -/
theorem complete_iff_of_take {n : Nat} (hPos : 0 < mtu) (hSize : size < 2 ^ 16)
    (hMessage : message.length < 2 ^ 32) (malloc : Malloc)
    (hFrom : ∀ packet ∈ firstPacket.toList ++ connection,
      ∃ fragment ∈ (cut mtu message).take n, packet.val.datagram = sfpDatagram idout fragment) :
    cspSfpRecvFp malloc firstPacket connection = .complete data read unread ↔
      data = message ∧ message ≠ [] ∧ (malloc.area message.length).isSome ∧
        fragmentCount mtu message ≤ n ∧ firstPacket.toList ++ connection = read ++ unread ∧
        read.map (fun packet => packet.val.datagram) =
          (cut mtu message).map (sfpDatagram idout) := by
  have hHeaded := headed_of_mem_cut hPos hMessage
  rw [cspSfpRecvFp_complete_iff malloc hSize]
  constructor
  · rintro ⟨hPackets, hArea, fragments, hCarry, hAssembles⟩
    rw [hPackets] at hFrom
    obtain ⟨hMap, hAll⟩ := datagrams_of_carry
      (fun fragment hMem => hHeaded fragment (List.mem_of_mem_take hMem))
      (fun packet hMem => hFrom packet (List.mem_append_left _ hMem)) hCarry
    have hCut : ∀ fragment ∈ fragments, fragment ∈ cut mtu message :=
      fun fragment hMem => List.mem_of_mem_take (hAll fragment hMem)
    obtain rfl := hAssembles.eq_of_parts
      (fun fragment hMem => partOf_of_mem_cut (hCut fragment hMem)) List.nil_prefix
    have hSame : fragments = (cut mtu data).drop 0 :=
      hAssembles.eq_cut hPos (Nat.zero_mul mtu).symm hCut
    rw [List.drop_zero] at hSame
    subst hSame
    have hSome : data ≠ [] := by
      rintro rfl
      exact hAssembles.ne_nil (cut_nil hPos)
    exact ⟨rfl, hSome, hArea, le_of_cut_subset_take hPos hAll, hPackets, hMap⟩
  · rintro ⟨rfl, hSome, hArea, -, hPackets, hMap⟩
    exact ⟨hPackets, hArea, cut mtu data, carry_of_datagrams hHeaded hMap,
      assembles_cut hPos hSome⟩

/-- No fragment of a message ends behind it. -/
theorem ne_outside_of_cut (hPos : 0 < mtu) (hSize : size < 2 ^ 16)
    (hMessage : message.length < 2 ^ 32) (malloc : Malloc) (idout : Nat)
    (hFrom : ∀ packet ∈ firstPacket.toList ++ connection,
      ∃ fragment ∈ cut mtu message, packet.val.datagram = sfpDatagram idout fragment) :
    cspSfpRecvFp malloc firstPacket connection ≠ .outside := by
  rw [Ne, cspSfpRecvFp_outside_iff malloc hSize]
  rintro ⟨read, packet, unread, fragments, fragment, xs, hPackets, -, -, -, hFragment, hOverruns⟩
  rw [hPackets] at hFrom
  obtain ⟨fragment', hMem, hDatagram⟩ := hFrom packet (by simp)
  obtain ⟨hOffset, hTotal⟩ := headed_of_mem_cut hPos hMessage fragment' hMem
  have hSame := (fragmentOf_of_datagram hOffset hTotal hDatagram).symm.trans hFragment
  obtain rfl := Option.some.inj hSame
  have hPart := partOf_of_mem_cut hMem
  have hContent := hPart.isPrefix.length_le
  have hEnd := hOverruns.overruns
  rw [← hOverruns.offset_eq] at hEnd
  rw [List.length_drop] at hContent
  rw [hPart.total_eq] at hOffset hTotal
  omega

/-- All fragments have been sent when no error has been returned. -/
theorem datagrams_of_ret (hPos : 0 < mtu)
    (hRet : (cspSfpSendOwnMemcpy env idout message mtu).ret = cspErrNone) :
    (cspSfpSendOwnMemcpy env idout message mtu).sent.map AreaPacket.datagram =
      (cut mtu message).map (sfpDatagram idout) := by
  obtain ⟨n, hMap, hIff⟩ := (sent_cspSfpSendOwnMemcpy env message hPos idout).datagrams
  rw [hMap, List.take_of_length_le (by simpa [cut] using hIff.mp hRet)]

theorem mtu_pos_of_ret (hRet : (cspSfpSendOwnMemcpy env idout message mtu).ret = cspErrNone) :
    0 < mtu := by
  refine Nat.pos_of_ne_zero ?_
  rintro rfl
  have hInval : cspErrInval ≠ cspErrNone := by decide
  exact hInval hRet

/-- Nothing is sent in packets without room for data. -/
theorem read_nothing_of_zero (hFrom : ∀ packet ∈ firstPacket.toList ++ connection,
    packet.val.datagram ∈
      (cspSfpSendOwnMemcpy env idout message 0).sent.map AreaPacket.datagram)
    (malloc : Malloc) :
    cspSfpRecvFp malloc firstPacket connection =
      .returns ⟨cspErrTimedout, none, 0, none, [], []⟩ := by
  have hNothing : firstPacket.toList ++ connection = [] := by
    refine List.eq_nil_iff_forall_not_mem.mpr fun packet hMem => ?_
    exact absurd (hFrom packet hMem) List.not_mem_nil
  rw [cspSfpRecvFp, hNothing, sfpRecvLoop]

/-- What has been sent has been sent for the first fragments. -/
theorem fragment_of_mem_sent {n : Nat}
    (hMap : (cspSfpSendOwnMemcpy env idout message mtu).sent.map AreaPacket.datagram =
      ((cut mtu message).take n).map (sfpDatagram idout))
    (hFrom : ∀ packet ∈ firstPacket.toList ++ connection, packet.val.datagram ∈
      (cspSfpSendOwnMemcpy env idout message mtu).sent.map AreaPacket.datagram) :
    ∀ packet ∈ firstPacket.toList ++ connection, ∃ fragment ∈ (cut mtu message).take n,
      packet.val.datagram = sfpDatagram idout fragment := by
  intro packet hMem
  have hIn := hFrom packet hMem
  rw [hMap] at hIn
  obtain ⟨fragment, hFragment, hSame⟩ := List.mem_map.mp hIn
  exact ⟨fragment, hFragment, hSame.symm⟩

theorem complete_iff_of_sent (hSize : size < 2 ^ 16) (hMessage : message.length < 2 ^ 32)
    (malloc : Malloc) (hFrom : ∀ packet ∈ firstPacket.toList ++ connection,
      packet.val.datagram ∈
        (cspSfpSendOwnMemcpy env idout message mtu).sent.map AreaPacket.datagram) :
    cspSfpRecvFp malloc firstPacket connection = .complete data read unread ↔
      data = message ∧ message ≠ [] ∧ (malloc.area message.length).isSome ∧
        (cspSfpSendOwnMemcpy env idout message mtu).ret = cspErrNone ∧
        firstPacket.toList ++ connection = read ++ unread ∧
        read.map (fun packet => packet.val.datagram) =
          (cspSfpSendOwnMemcpy env idout message mtu).sent.map AreaPacket.datagram := by
  rcases Nat.eq_zero_or_pos mtu with rfl | hPos
  · rw [read_nothing_of_zero hFrom malloc]
    refine iff_of_false (SfpOutcome.complete_ne_error (by decide)) ?_
    rintro ⟨-, -, -, hRet, -⟩
    exact absurd (mtu_pos_of_ret hRet) (Nat.lt_irrefl 0)
  · obtain ⟨n, hMap, hRet⟩ := (sent_cspSfpSendOwnMemcpy env message hPos idout).datagrams
    rw [complete_iff_of_take hPos hSize hMessage malloc (fragment_of_mem_sent hMap hFrom), hRet,
      hMap]
    -- with all fragments sent, what has been sent is the whole of `cut`
    have hAll : fragmentCount mtu message ≤ n → (cut mtu message).take n = cut mtu message :=
      fun hLe => List.take_of_length_le (by simpa [cut] using hLe)
    constructor
    · rintro ⟨hData, hSome, hArea, hLe, hPackets, hRead⟩
      exact ⟨hData, hSome, hArea, hLe, hPackets, by rw [hAll hLe, hRead]⟩
    · rintro ⟨hData, hSome, hArea, hLe, hPackets, hRead⟩
      exact ⟨hData, hSome, hArea, hLe, hPackets, by rw [hRead, hAll hLe]⟩

theorem ne_outside_of_sent (hSize : size < 2 ^ 16) (hMessage : message.length < 2 ^ 32)
    (malloc : Malloc) (hFrom : ∀ packet ∈ firstPacket.toList ++ connection,
      packet.val.datagram ∈
        (cspSfpSendOwnMemcpy env idout message mtu).sent.map AreaPacket.datagram) :
    cspSfpRecvFp malloc firstPacket connection ≠ .outside := by
  rcases Nat.eq_zero_or_pos mtu with rfl | hPos
  · rw [read_nothing_of_zero hFrom malloc]
    simp
  · obtain ⟨n, hMap, -⟩ := (sent_cspSfpSendOwnMemcpy env message hPos idout).datagrams
    refine ne_outside_of_cut hPos hSize hMessage malloc idout fun packet hMem => ?_
    obtain ⟨fragment, hFragment, hDatagram⟩ := fragment_of_mem_sent hMap hFrom packet hMem
    exact ⟨fragment, List.mem_of_mem_take hFragment, hDatagram⟩

/-- When the connection has nothing but packets that have been sent for one message, in
whatever order and however often, the message is received if and only if all its packets are
read in their order.  Nothing else is received, and nothing is written behind the area. -/
theorem transfer_iff (hSize : size < 2 ^ 16) (hMessage : message.length < 2 ^ 32)
    (malloc : Malloc) (hFrom : ∀ packet ∈ firstPacket.toList ++ connection,
      packet.val.datagram ∈
        (cspSfpSendOwnMemcpy env idout message mtu).sent.map AreaPacket.datagram) :
    (cspSfpRecvFp malloc firstPacket connection = .complete data read unread ↔
      data = message ∧ message ≠ [] ∧ (malloc.area message.length).isSome ∧
        (cspSfpSendOwnMemcpy env idout message mtu).ret = cspErrNone ∧
        firstPacket.toList ++ connection = read ++ unread ∧
        read.map (fun packet => packet.val.datagram) =
          (cspSfpSendOwnMemcpy env idout message mtu).sent.map AreaPacket.datagram) ∧
    cspSfpRecvFp malloc firstPacket connection ≠ .outside :=
  ⟨complete_iff_of_sent hSize hMessage malloc hFrom,
    ne_outside_of_sent hSize hMessage malloc hFrom⟩

/-- Two bytes in two packets, the first of which comes once more. -/
theorem transfer_iff_two_bytes :
    let malloc : Malloc := .zeroed
    let first : FittingPacket 9 := ⟨⟨9, 21, [1, 0, 0, 0, 0, 0, 0, 0, 2], rfl⟩, by decide⟩
    let second : FittingPacket 9 := ⟨⟨9, 21, [2, 0, 0, 0, 1, 0, 0, 0, 2], rfl⟩, by decide⟩
    cspSfpRecvFp malloc none [first, second, first] =
      .complete [1, 2] [first, second] [first] := by
  intro malloc first second
  let env : SfpEnv 9 := ⟨fun _ => some ⟨0, 0, List.replicate 9 0, rfl⟩, fun _ => true⟩
  have hRet : (cspSfpSendOwnMemcpy env 5 [1, 2] 1).ret = cspErrNone :=
    ret_cspSfpSendOwnMemcpy (by decide) (by decide) (by simp [env]) (fun _ => rfl) 5
  have hSent := datagrams_of_ret (by decide) hRet
  have hFrom : ∀ packet ∈ (none : Option (FittingPacket 9)).toList ++ [first, second, first],
      packet.val.datagram ∈ (cspSfpSendOwnMemcpy env 5 [1, 2] 1).sent.map AreaPacket.datagram := by
    rw [hSent]
    decide
  refine (transfer_iff (by decide) (by decide) malloc hFrom).1.mpr
    ⟨rfl, by decide, rfl, hRet, rfl, ?_⟩
  rw [hSent]
  decide

theorem datagrams_mixed
    (hRet : (cspSfpSendOwnMemcpy env idout message mtu).ret = cspErrNone)
    (hRet' : (cspSfpSendOwnMemcpy env' idout message' mtu).ret = cspErrNone) (k : Nat) :
    ((cspSfpSendOwnMemcpy env idout message mtu).sent.take k ++
      (cspSfpSendOwnMemcpy env' idout message' mtu).sent.drop k).map AreaPacket.datagram =
        ((cut mtu message).take k ++ (cut mtu message').drop k).map (sfpDatagram idout) := by
  have hPos := mtu_pos_of_ret hRet
  rw [List.map_append, List.map_take, List.map_drop, datagrams_of_ret hPos hRet,
    datagrams_of_ret hPos hRet', ← List.map_take, ← List.map_drop, ← List.map_append]

/-- The first packets of one message and the others of another one of the same length are
received as a message that nobody has sent. -/
theorem transfer_mixed (hSize : size < 2 ^ 16) (hMessage : message.length < 2 ^ 32)
    {malloc : Malloc} (hArea : (malloc.area message.length).isSome)
    (hRet : (cspSfpSendOwnMemcpy env idout message mtu).ret = cspErrNone)
    (hRet' : (cspSfpSendOwnMemcpy env' idout message' mtu).ret = cspErrNone)
    (hLength : message'.length = message.length) (hMore : k * mtu < message.length)
    (hPackets : (firstPacket.toList ++ connection).map (fun packet => packet.val.datagram) =
      ((cspSfpSendOwnMemcpy env idout message mtu).sent.take k ++
        (cspSfpSendOwnMemcpy env' idout message' mtu).sent.drop k).map AreaPacket.datagram) :
    cspSfpRecvFp malloc firstPacket connection =
      .complete (message.take (k * mtu) ++ message'.drop (k * mtu))
        (firstPacket.toList ++ connection) [] := by
  have hPos := mtu_pos_of_ret hRet
  have hSent := datagrams_mixed hRet hRet' k
  have hMixed := assembles_mixed hPos hLength hMore
  have hHeaded : ∀ fragment ∈ (cut mtu message).take k ++ (cut mtu message').drop k,
      Headed fragment := by
    intro fragment hMem
    rcases List.mem_append.mp hMem with hFirst | hOther
    · exact headed_of_mem_cut hPos hMessage fragment (List.mem_of_mem_take hFirst)
    · exact headed_of_mem_cut hPos (hLength ▸ hMessage) fragment (List.mem_of_mem_drop hOther)
  refine (cspSfpRecvFp_complete_iff malloc hSize).mpr ⟨(List.append_nil _).symm, ?_, _,
    carry_of_datagrams hHeaded (hPackets.trans hSent), ?_⟩
  · rwa [hMixed.length_eq]
  · rwa [hMixed.length_eq]

/-- One byte of each of two messages. -/
theorem transfer_mixed_two_bytes :
    let malloc : Malloc := .zeroed
    let first : FittingPacket 9 := ⟨⟨9, 21, [1, 0, 0, 0, 0, 0, 0, 0, 2], rfl⟩, by decide⟩
    let second : FittingPacket 9 := ⟨⟨9, 21, [4, 0, 0, 0, 1, 0, 0, 0, 2], rfl⟩, by decide⟩
    cspSfpRecvFp malloc (some first) [second] = .complete [1, 4] [first, second] [] := by
  intro malloc first second
  let env : SfpEnv 9 := ⟨fun _ => some ⟨0, 0, List.replicate 9 0, rfl⟩, fun _ => true⟩
  have hRet : ∀ message, (cspSfpSendOwnMemcpy env 5 message 1).ret = cspErrNone :=
    fun _ => ret_cspSfpSendOwnMemcpy (by decide) (by decide) (by simp [env]) (fun _ => rfl) 5
  have hSent := datagrams_mixed (hRet [1, 2]) (hRet [3, 4]) 1
  have hPackets : ((some first).toList ++ [second]).map (fun packet => packet.val.datagram) =
      ((cspSfpSendOwnMemcpy env 5 [1, 2] 1).sent.take 1 ++
        (cspSfpSendOwnMemcpy env 5 [3, 4] 1).sent.drop 1).map AreaPacket.datagram := by
    rw [hSent]
    decide
  exact transfer_mixed (by decide) (by decide) rfl (hRet [1, 2]) (hRet [3, 4]) rfl (by decide)
    hPackets

/-! ## With the security layers -/

/-- A packet that a socket gives to its reader: it has been sent with the layers that its
flags ask for, forwarded, and accepted. -/
def Crossed (keys : Keys) (securityOpts : Nat) (original : AreaPacket sendSize)
    (accepted : AreaPacket size) : Prop :=
  ∃ (nonce : BitVec 32) (ifroute : Option (CspRoute sendSize)) (sent : AreaPacket sendSize)
    (received : AreaPacket size) (counters counters' : IfaceCounters),
    (Security.cspSendDirect (idSrc original.id) keys nonce original.id original ifroute
      counters).handed = some sent ∧
    Relation.ReflTransGen Forwarded sent.datagram received.datagram ∧
    received.length ≤ size ∧
    accepted = (cspRouteSecurityCheck keys securityOpts received counters').packet

theorem Crossed.datagram_eq {keys : Keys} {securityOpts : Nat} {original : AreaPacket sendSize}
    {accepted : AreaPacket size} (hSendSize : sendSize < 2 ^ 16) (hSize : size < 2 ^ 16)
    (hFits : original.length ≤ sendSize) (hAdmits : Admits securityOpts original.id)
    (hCrossed : Crossed keys securityOpts original accepted) :
    accepted.datagram = original.datagram := by
  obtain ⟨nonce, ifroute, sent, received, counters, counters', hSent, hForwarded, hReceived, rfl⟩ :=
    hCrossed
  obtain ⟨hReceivedId, hSealed⟩ := sealed_of_handed hSendSize hFits hSent hForwarded
  obtain ⟨-, hPayload, hId, -⟩ := (undoes_cspRouteSecurityCheck hSize).opens counters'
    hReceivedId hReceived hAdmits hSealed
  rw [AreaPacket.datagram, hPayload, hId]
  rfl

theorem id_of_mem_sent {original : AreaPacket sendSize}
    (hMem : original ∈ (cspSfpSendOwnMemcpy env idout message mtu).sent) :
    original.id = idout ||| cspFfrag ∧ original.length ≤ sendSize := by
  rcases Nat.eq_zero_or_pos mtu with rfl | hPos
  · exact absurd hMem List.not_mem_nil
  · have hSent := sent_cspSfpSendOwnMemcpy env message hPos idout
    obtain ⟨n, hMap, -⟩ := hSent.datagrams
    have hIn : original.datagram ∈
        (cspSfpSendOwnMemcpy env idout message mtu).sent.map AreaPacket.datagram :=
      List.mem_map_of_mem hMem
    rw [hMap] at hIn
    obtain ⟨fragment, -, hSame⟩ := List.mem_map.mp hIn
    exact ⟨congrArg Datagram.id hSame.symm, hSent.fits original hMem⟩

/-- The same over a connection with any of the security layers, whose packets routers have
forwarded. -/
theorem transfer_secured {keys : Keys} {securityOpts : Nat} (hSendSize : sendSize < 2 ^ 16)
    (hSize : size < 2 ^ 16) (hMessage : message.length < 2 ^ 32) (malloc : Malloc)
    (hAdmits : Admits securityOpts (idout ||| cspFfrag))
    (hFrom : ∀ packet ∈ firstPacket.toList ++ connection,
      ∃ original ∈ (cspSfpSendOwnMemcpy env idout message mtu).sent,
        Crossed keys securityOpts original packet.val) :
    (cspSfpRecvFp malloc firstPacket connection = .complete data read unread ↔
      data = message ∧ message ≠ [] ∧ (malloc.area message.length).isSome ∧
        (cspSfpSendOwnMemcpy env idout message mtu).ret = cspErrNone ∧
        firstPacket.toList ++ connection = read ++ unread ∧
        read.map (fun packet => packet.val.datagram) =
          (cspSfpSendOwnMemcpy env idout message mtu).sent.map AreaPacket.datagram) ∧
    cspSfpRecvFp malloc firstPacket connection ≠ .outside := by
  have hDatagrams : ∀ packet ∈ firstPacket.toList ++ connection, packet.val.datagram ∈
      (cspSfpSendOwnMemcpy env idout message mtu).sent.map AreaPacket.datagram := by
    intro packet hMem
    obtain ⟨original, hIn, hCrossed⟩ := hFrom packet hMem
    obtain ⟨hId, hFits⟩ := id_of_mem_sent hIn
    rw [hCrossed.datagram_eq hSendSize hSize hFits (hId ▸ hAdmits)]
    exact List.mem_map_of_mem hIn
  exact ⟨complete_iff_of_sent hSize hMessage malloc hDatagrams,
    ne_outside_of_sent hSize hMessage malloc hDatagrams⟩

/-- A packet that its layers let through crosses a router with another address. -/
theorem crossed_of_secure {keys : Keys} {address : Nat} {nonce : BitVec 32}
    {original sent : AreaPacket size}
    (hSecure : secure (idSrc original.id) keys nonce original.id original = (cspErrNone, sent))
    (hRouter : idSrc sent.id ≠ address) (hFits : sent.length ≤ size) (securityOpts : Nat)
    (counters : IfaceCounters) :
    Crossed keys securityOpts original
      (cspRouteSecurityCheck keys securityOpts sent counters).packet := by
  -- an interface without a limit
  let ifroute : CspRoute size := ⟨0, fun _ => 0⟩
  have hMtu : PassesMtu ifroute.mtu sent.length := fun hOver => Nat.lt_irrefl 0 hOver.1
  have hSent : (Security.cspSendDirect (idSrc original.id) keys nonce original.id original
      (some ifroute) counters).handed = some sent := cspSendDirect_of_secure hSecure hMtu
  have hForwarded : Forwarded sent.datagram sent.datagram :=
    ⟨size, address, keys, nonce, sent, sent, some ifroute, counters, rfl, hRouter,
      cspSendDirect_of_secure (if_neg hRouter) hMtu, rfl⟩
  exact ⟨nonce, some ifroute, sent, sent, counters, counters, hSent, .single hForwarded, hFits,
    rfl⟩

/-- Two bytes in two packets, checked and encrypted, over a router; the first packet comes once
more. -/
theorem transfer_secured_two_bytes :
    let malloc : Malloc := .zeroed
    let first : FittingPacket 17 := ⟨⟨9, 21, [1, 0, 0, 0, 0, 0, 0, 0, 2,
      174, 224, 206, 28, 153, 57, 79, 33], rfl⟩, by decide⟩
    let second : FittingPacket 17 := ⟨⟨9, 21, [2, 0, 0, 0, 1, 0, 0, 0, 2,
      143, 94, 173, 153, 109, 83, 168, 227], rfl⟩, by decide⟩
    cspSfpRecvFp malloc none [first, second, first] =
      .complete [1, 2] [first, second] [first] := by
  intro malloc first second
  let env : SfpEnv 17 := ⟨fun _ => some ⟨0, 0, List.replicate 17 0, rfl⟩, fun _ => true⟩
  let keys : Keys := ⟨⟨List.replicate 16 1, rfl⟩, ⟨List.replicate 16 2, rfl⟩⟩
  let original : AreaPacket 17 :=
    ⟨9, 21, [1, 0, 0, 0, 0, 0, 0, 0, 2] ++ List.replicate 8 0, rfl⟩
  let original' : AreaPacket 17 :=
    ⟨9, 21, [2, 0, 0, 0, 1, 0, 0, 0, 2] ++ List.replicate 8 0, rfl⟩
  let sent : AreaPacket 17 := ⟨17, 21, [98, 100, 200, 237, 88, 153, 57, 79, 97,
    202, 40, 35, 68, 0, 0, 0, 7], rfl⟩
  let sent' : AreaPacket 17 := ⟨17, 21, [123, 196, 209, 209, 116, 109, 83, 168, 123,
    75, 143, 124, 236, 0, 0, 0, 8], rfl⟩
  have hRet : (cspSfpSendOwnMemcpy env 5 [1, 2] 1).ret = cspErrNone :=
    ret_cspSfpSendOwnMemcpy (by decide) (by decide) (by simp [env]) (fun _ => rfl) 5
  have hSent := datagrams_of_ret (by decide) hRet
  have hOriginals : (cspSfpSendOwnMemcpy env 5 [1, 2] 1).sent = [original, original'] := by
    rw [cspSfpSendOwnMemcpy, dif_neg (by decide), sfpSendLoop, dif_pos (by decide),
      dif_pos (by decide)]
    show _ :: (sfpSendLoop env [1, 2] _ 1 1 21).sent = _
    rw [sfpSendLoop, dif_pos (by decide), dif_pos (by decide)]
    show _ :: _ :: (sfpSendLoop env [1, 2] _ 2 2 21).sent = _
    rw [sfpSendLoop]
    decide
  have hSecure : secure (idSrc original.id) keys 7#32 original.id original =
      (cspErrNone, sent) := by decide +kernel
  have hSecure' : secure (idSrc original'.id) keys 8#32 original'.id original' =
      (cspErrNone, sent') := by decide +kernel
  have hFirst : first.val =
      (cspRouteSecurityCheck keys 0x50 sent ⟨0, 0, 0, 0, 0⟩).packet := by decide +kernel
  have hSecond : second.val =
      (cspRouteSecurityCheck keys 0x50 sent' ⟨0, 0, 0, 0, 0⟩).packet := by decide +kernel
  have hRouter : idSrc sent.id ≠ 9 := by decide
  have hRouter' : idSrc sent'.id ≠ 9 := by decide
  have hCrossed : Crossed keys 0x50 original first.val := by
    rw [hFirst]
    exact crossed_of_secure hSecure hRouter (by decide) 0x50 ⟨0, 0, 0, 0, 0⟩
  have hCrossed' : Crossed keys 0x50 original' second.val := by
    rw [hSecond]
    exact crossed_of_secure hSecure' hRouter' (by decide) 0x50 ⟨0, 0, 0, 0, 0⟩
  have hFrom : ∀ packet ∈ (none : Option (FittingPacket 17)).toList ++ [first, second, first],
      ∃ original ∈ (cspSfpSendOwnMemcpy env 5 [1, 2] 1).sent,
        Crossed keys 0x50 original packet.val := by
    rw [hOriginals]
    have hOnce : ∃ packet ∈ [original, original'], Crossed keys 0x50 packet first.val :=
      ⟨original, List.mem_cons_self, hCrossed⟩
    have hOther : ∃ packet ∈ [original, original'], Crossed keys 0x50 packet second.val :=
      ⟨original', List.mem_cons_of_mem _ List.mem_cons_self, hCrossed'⟩
    exact List.forall_mem_cons.mpr ⟨hOnce, List.forall_mem_cons.mpr ⟨hOther,
      List.forall_mem_singleton.mpr hOnce⟩⟩
  refine (transfer_secured (by decide) (by decide) (by decide) malloc (by decide) hFrom).1.mpr
    ⟨rfl, by decide, rfl, hRet, rfl, ?_⟩
  rw [hSent]
  decide

end Transfer

end Sfp
end Csp
end CubeSatComm
