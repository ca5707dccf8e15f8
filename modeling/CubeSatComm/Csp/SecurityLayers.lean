import Mathlib.Logic.Relation
import CubeSatComm.Csp.Security

/-!
# What the security layers guarantee

The packets that `csp_route_security_check` accepts, and the way of a packet from the node
that secures it, over routers, to the node that checks it.
-/

namespace CubeSatComm
namespace Csp
namespace Security

open Lib

variable {size : Nat} {keys : Keys} {ext securityOpts : Nat}

/-! ## Checks undo layers -/

/-- The check accepts the packets with this header that are admitted and sealed, no others,
and gives what has been sealed. -/
structure LayerCheck.Undoes (check : LayerCheck size) (ext : Nat) (admitted : Prop)
    (sealed : List UInt8 → List UInt8 → Prop) : Prop where
  opens : ∀ {packet : AreaPacket size} {body : List UInt8} (counters : IfaceCounters),
    packet.id = ext → packet.length ≤ size → admitted → sealed body packet.payload →
      (check packet counters).ret = cspErrNone ∧
        (check packet counters).packet.payload = body ∧
          (check packet counters).packet.id = ext ∧
            (check packet counters).packet.length ≤ size
  sound : ∀ {packet : AreaPacket size} {counters : IfaceCounters},
    packet.id = ext → packet.length ≤ size → (check packet counters).ret = cspErrNone →
      admitted ∧ ∃ body, sealed body packet.payload

namespace LayerCheck

/-- The check of one layer undoes it. -/
theorem undoes_ofFlag {flag : Nat} {required : Bool}
    {verify : AreaPacket size → Int × AreaPacket size} {err : Int}
    {count : IfaceCounters → IfaceCounters} {sealed : List UInt8 → List UInt8 → Prop}
    (hErr : err ≠ cspErrNone)
    (hOpens : ∀ (packet : AreaPacket size) (body : List UInt8), packet.length ≤ size →
      sealed body packet.payload → ∃ packet', verify packet = (cspErrNone, packet') ∧
        packet'.length ≤ size ∧ packet'.id = packet.id ∧ packet'.payload = body)
    (hSound : ∀ packet : AreaPacket size, packet.length ≤ size →
      (verify packet).1 = cspErrNone → ∃ body, sealed body packet.payload) :
    (ofFlag flag required verify err count).Undoes ext (required → hasFlag ext flag)
      (Layer ext flag sealed) := by
  constructor
  · rintro packet body counters rfl hFits hAdmitted hSealed
    unfold Layer at hSealed
    unfold ofFlag
    by_cases hFlag : hasFlag packet.id flag = true
    · rw [if_pos hFlag] at hSealed ⊢
      obtain ⟨packet', hVerify, hFits', hId, hBody⟩ := hOpens packet body hFits hSealed
      simp [hVerify, hFits', hId, hBody]
    · rw [if_neg hFlag] at hSealed ⊢
      have hRequired : ¬ required = true := fun hRequired => hFlag (hAdmitted hRequired)
      simp [hRequired, hFits, hSealed]
  · rintro packet counters rfl hFits hOk
    unfold ofFlag at hOk
    unfold Layer
    by_cases hFlag : hasFlag packet.id flag = true
    · rw [if_pos hFlag] at hOk
      simp only [if_pos hFlag]
      refine ⟨fun _ => hFlag, hSound packet hFits ?_⟩
      by_contra hFailed
      simp only [if_pos hFailed] at hOk
      exact hErr hOk
    · rw [if_neg hFlag] at hOk
      simp only [if_neg hFlag]
      refine ⟨fun hRequired => ?_, packet.payload, rfl⟩
      rw [if_pos hRequired] at hOk
      exact absurd hOk hErr

/-- Two checks one after the other undo both layers. -/
theorem Undoes.andThen {check next : LayerCheck size} {admitted admitted' : Prop}
    {outer inner : List UInt8 → List UInt8 → Prop}
    (hCheck : check.Undoes ext admitted outer) (hNext : next.Undoes ext admitted' inner) :
    (check.andThen next).Undoes ext (admitted ∧ admitted')
      fun body data => ∃ middle, inner body middle ∧ outer middle data := by
  constructor
  · rintro packet body counters hId hFits ⟨hAdmitted, hAdmitted'⟩ ⟨middle, hInner, hOuter⟩
    obtain ⟨hOk, hPayload, hId', hFits'⟩ :=
      hCheck.opens counters hId hFits hAdmitted hOuter
    unfold LayerCheck.andThen
    simp only [hOk, ne_eq, not_true_eq_false, if_false]
    exact hNext.opens _ hId' hFits' hAdmitted' (by rwa [hPayload])
  · intro packet counters hId hFits hOk
    unfold LayerCheck.andThen at hOk
    by_cases hFailed : (check packet counters).ret ≠ cspErrNone
    · simp only [if_pos hFailed] at hOk
      exact absurd hOk hFailed
    · simp only [if_neg hFailed] at hOk
      obtain ⟨hAdmitted, middle, hOuter⟩ := hCheck.sound hId hFits (not_not.mp hFailed)
      obtain ⟨-, hPayload, hId', hFits'⟩ :=
        hCheck.opens counters hId hFits hAdmitted hOuter
      obtain ⟨hAdmitted', body, hInner⟩ := hNext.sound hId' hFits' hOk
      rw [hPayload] at hInner
      exact ⟨⟨hAdmitted, hAdmitted'⟩, body, middle, hInner, hOuter⟩

/-- What a check that undoes a layer accepts, and with which data. -/
theorem Undoes.iff {check : LayerCheck size} {admitted : Prop}
    {sealed : List UInt8 → List UInt8 → Prop} (hCheck : check.Undoes ext admitted sealed)
    {packet : AreaPacket size} (hId : packet.id = ext) (hFits : packet.length ≤ size)
    (counters : IfaceCounters) (body : List UInt8) :
    ((check packet counters).ret = cspErrNone ∧
        (check packet counters).packet.payload = body) ↔
      admitted ∧ sealed body packet.payload := by
  constructor
  · rintro ⟨hOk, rfl⟩
    obtain ⟨hAdmitted, body, hSealed⟩ := hCheck.sound hId hFits hOk
    obtain ⟨-, hPayload, -⟩ := hCheck.opens counters hId hFits hAdmitted hSealed
    rw [hPayload]
    exact ⟨hAdmitted, hSealed⟩
  · rintro ⟨hAdmitted, hSealed⟩
    obtain ⟨hOk, hPayload, -⟩ := hCheck.opens counters hId hFits hAdmitted hSealed
    exact ⟨hOk, hPayload⟩

theorem Undoes.congr {check : LayerCheck size} {admitted admitted' : Prop}
    {sealed sealed' : List UInt8 → List UInt8 → Prop} (hCheck : check.Undoes ext admitted sealed)
    (hAdmitted : admitted ↔ admitted')
    (hSealed : ∀ body data, sealed body data ↔ sealed' body data) :
    check.Undoes ext admitted' sealed' := by
  obtain rfl : admitted = admitted' := propext hAdmitted
  obtain rfl : sealed = sealed' := by
    funext body data
    exact propext (hSealed body data)
  exact hCheck

end LayerCheck

/-- The check of a trailer that leaves the header out. -/
theorem undoes_trailer (trailer : Trailer) {flag : Nat} {required : Bool}
    {count : IfaceCounters → IfaceCounters} :
    (LayerCheck.ofFlag flag required (trailer.verify · false) trailer.error count :
      LayerCheck size).Undoes ext (required → hasFlag ext flag)
        (Layer ext flag fun body data => data = body ++ trailer.bytes body) := by
  refine LayerCheck.undoes_ofFlag trailer.error_ne ?_ ?_
  · intro packet body hFits hSealed
    have hEnds : trailer.Ends packet false body := hSealed
    obtain ⟨hVerify, hBody⟩ := Trailer.verify_of_ends hFits hEnds
    refine ⟨_, hVerify, ?_, rfl, hBody⟩
    rw [AreaPacket.length_strip]
    omega
  · intro packet hFits hOk
    exact Trailer.ends_of_verify hFits hOk

theorem undoes_xteaCheck (hSize : size < 2 ^ 16) :
    (xteaCheck keys securityOpts : LayerCheck size).Undoes ext
      (hasOption securityOpts cspSoXteareq → hasFlag ext cspFxtea)
      (Layer ext cspFxtea fun body data => ∃ nonce, data = xteaSealed keys.xtea nonce body) := by
  refine LayerCheck.undoes_ofFlag (by decide) ?_ ?_
  · rintro packet body hFits ⟨nonce, hSealed⟩
    exact cspXteaDecryptPacket_spec hSize hFits hSealed
  · intro packet hFits hOk
    have hLength : nonceSize ≤ packet.payload.length := by
      by_contra hShort
      rw [packet.length_payload hFits] at hShort
      rw [cspXteaDecryptPacket_of_lt (Nat.lt_of_not_le hShort)] at hOk
      have hErr : cspErrXtea = cspErrNone := hOk
      exact absurd hErr (by decide)
    obtain ⟨nonce, body, hSealed⟩ := exists_xteaSealed keys.xtea hLength
    exact ⟨body, nonce, hSealed⟩

theorem undoes_crcCheck : (crcCheck : LayerCheck size).Undoes ext True
    (Layer ext cspFcrc32 fun body data => data = body ++ crcBytes body) :=
  (undoes_trailer crcTrailer).congr (by simp) fun _ _ => Iff.rfl

theorem undoes_hmacCheck : (hmacCheck keys securityOpts : LayerCheck size).Undoes ext
    (hasOption securityOpts cspSoHmacreq → hasFlag ext cspFhmac)
    (Layer ext cspFhmac fun body data => data = body ++ hmacBytes keys.hmac body) :=
  undoes_trailer (hmacTrailer keys.hmac)

theorem undoes_rdpCheck :
    (rdpCheck securityOpts : LayerCheck size).Undoes ext
      (hasOption securityOpts cspSoRdpreq → hasFlag ext cspFrdp)
      (Layer ext cspFrdp fun body data => data = body) := by
  refine LayerCheck.undoes_ofFlag (by decide) ?_ ?_
  · rintro packet body hFits rfl
    exact ⟨packet, rfl, hFits, rfl, rfl⟩
  · intro packet _ _
    exact ⟨packet.payload, rfl⟩

/-! ## The check -/

theorem layer_eq_iff (flag : Nat) (wrap : List UInt8 → List UInt8) (body data : List UInt8) :
    Layer ext flag (fun body data => data = wrap body) body data ↔
      data = if hasFlag ext flag then wrap body else body := by
  unfold Layer
  split
  · rfl
  · rfl

theorem layer_exists_iff {α : Type} [Inhabited α] (flag : Nat)
    (wrap : α → List UInt8 → List UInt8) (body data : List UInt8) :
    Layer ext flag (fun body data => ∃ nonce, data = wrap nonce body) body data ↔
      ∃ nonce, data = if hasFlag ext flag then wrap nonce body else body := by
  unfold Layer
  split
  · rfl
  · exact ⟨fun hData => ⟨default, hData⟩, fun ⟨_, hData⟩ => hData⟩

/-- `csp_route_security_check` undoes the layers of a sender. -/
theorem undoes_cspRouteSecurityCheck (hSize : size < 2 ^ 16) :
    (cspRouteSecurityCheck keys securityOpts : LayerCheck size).Undoes ext
      (Admits securityOpts ext) (Sealed keys ext) := by
  have hXtea : (xteaCheck keys securityOpts : LayerCheck size).Undoes ext _ _ :=
    undoes_xteaCheck hSize
  have hHmac : (hmacCheck keys securityOpts : LayerCheck size).Undoes ext _ _ := undoes_hmacCheck
  have hRdp : (rdpCheck securityOpts : LayerCheck size).Undoes ext _ _ := undoes_rdpCheck
  refine (((hXtea.andThen undoes_crcCheck).andThen hHmac).andThen hRdp).congr ?_ ?_
  · simp [Admits, and_assoc]
  · intro body data
    simp only [layer_eq_iff, layer_exists_iff, ite_self, exists_eq_left]
    rfl

/-- Accepted are exactly the packets whose header has what the socket requires and whose
data a node with the same keys has sealed; and the data that it has sealed come out. -/
theorem cspRouteSecurityCheck_iff (hSize : size < 2 ^ 16) {packet : AreaPacket size}
    (hFits : packet.length ≤ size) (counters : IfaceCounters) (body : List UInt8) :
    ((cspRouteSecurityCheck keys securityOpts packet counters).ret = cspErrNone ∧
        (cspRouteSecurityCheck keys securityOpts packet counters).packet.payload = body) ↔
      Admits securityOpts packet.id ∧ Sealed keys packet.id body packet.payload :=
  (undoes_cspRouteSecurityCheck hSize).iff rfl hFits counters body

/-- A packet with all three layers, which are required: two bytes of data, their code, the
checksum, and the nonce. -/
theorem cspRouteSecurityCheck_iff_all :
    let keys : Keys := ⟨⟨List.replicate 16 1, rfl⟩, ⟨List.replicate 16 2, rfl⟩⟩
    let packet : AreaPacket 16 :=
      ⟨14, 13, [98, 102, 135, 241, 59, 239, 128, 250, 246, 75, 0, 0, 0, 7, 0, 0], rfl⟩
    let checked := cspRouteSecurityCheck keys 0x14 packet ⟨0, 0, 0, 0, 0⟩
    checked.ret = cspErrNone ∧ checked.packet.payload = [1, 2] := by
  intro keys packet checked
  have hSealed : Sealed keys packet.id [1, 2] packet.payload := by
    refine ⟨7#32, ?_⟩
    decide +kernel
  exact (cspRouteSecurityCheck_iff (by decide) (by decide) _ _).mpr ⟨by decide, hSealed⟩

/-! ## The sender -/

section Sender

variable {packet packet' : AreaPacket size} {nonce : BitVec 32}

/-- A layer that succeeds changes the data, and nothing else of the packet. -/
def Wraps (layer : AreaPacket size → Int × AreaPacket size)
    (wrap : List UInt8 → List UInt8) : Prop :=
  ∀ packet packet', packet.length ≤ size → layer packet = (cspErrNone, packet') →
    packet'.length ≤ size ∧ packet'.id = packet.id ∧ packet'.payload = wrap packet.payload

theorem Wraps.onFlag {layer : AreaPacket size → Int × AreaPacket size}
    {wrap : List UInt8 → List UInt8} (hLayer : Wraps layer wrap) (ext flag : Nat) :
    Wraps (onFlag ext flag layer) fun body => if hasFlag ext flag then wrap body else body := by
  intro packet packet' hFits hOk
  unfold Security.onFlag at hOk
  split at hOk
  · next hFlag =>
    simp only [if_pos hFlag]
    exact hLayer packet packet' hFits hOk
  · next hFlag =>
    simp only [if_neg hFlag]
    obtain rfl := (Prod.mk.inj hOk).2
    exact ⟨hFits, rfl, rfl⟩

theorem wraps_append (trailer : Trailer) :
    Wraps (trailer.append · false : AreaPacket size → Int × AreaPacket size)
      fun body => body ++ trailer.bytes body := by
  intro packet packet' _ hAppend
  obtain ⟨-, hFits, hId, hEnds⟩ := Trailer.append_ends hAppend
  exact ⟨hFits, hId, hEnds⟩

theorem wraps_encrypt (hSize : size < 2 ^ 16) (key : CspXteaKey) (nonce : BitVec 32) :
    Wraps (cspXteaEncryptPacket key nonce : AreaPacket size → Int × AreaPacket size)
      (xteaSealed key nonce) :=
  fun _ _ _ hEncrypt => (cspXteaEncryptPacket_spec hSize hEncrypt).2

theorem andThen_eq {done : Int × AreaPacket size}
    {next : AreaPacket size → Int × AreaPacket size}
    (hOk : andThen done next = (cspErrNone, packet')) :
    ∃ middle, done = (cspErrNone, middle) ∧ next middle = (cspErrNone, packet') := by
  unfold andThen at hOk
  split at hOk
  · next hFailed =>
    rw [hOk] at hFailed
    exact absurd rfl hFailed
  · next hDone => exact ⟨done.2, Prod.ext (not_not.mp hDone) rfl, hOk⟩

/-- The layers of a sender seal the data. -/
theorem protect_spec (hSize : size < 2 ^ 16) (hFits : packet.length ≤ size)
    (hOk : protect keys nonce ext packet = (cspErrNone, packet')) :
    packet'.length ≤ size ∧ packet'.id = packet.id ∧
      Sealed keys ext packet.payload packet'.payload := by
  obtain ⟨coded, hCoded, hOk⟩ := andThen_eq hOk
  obtain ⟨summed, hSummed, hOk⟩ := andThen_eq hOk
  have hHmac : @Wraps size (cspHmacAppend keys.hmac · false) _ := wraps_append _
  have hCrc : @Wraps size (cspCrc32Append · false) _ := wraps_append _
  obtain ⟨hFits₁, hId₁, hPayload₁⟩ := hHmac.onFlag _ _ _ _ hFits hCoded
  obtain ⟨hFits₂, hId₂, hPayload₂⟩ := hCrc.onFlag _ _ _ _ hFits₁ hSummed
  obtain ⟨hFits₃, hId₃, hPayload₃⟩ :=
    (wraps_encrypt hSize keys.xtea nonce).onFlag _ _ _ _ hFits₂ hOk
  refine ⟨hFits₃, hId₃.trans (hId₂.trans hId₁), nonce, ?_⟩
  rw [hPayload₃, hPayload₂, hPayload₁]
  rfl

variable {address idout : Nat} {ifroute : Option (CspRoute size)} {counters : IfaceCounters}

/-- What is given to `nexthop` has been through the layers, on the node of its source. -/
theorem cspSendDirect_handed
    (hHanded : (cspSendDirect address keys nonce idout packet ifroute counters).handed =
      some packet') :
    secure address keys nonce idout { packet with id := idout } = (cspErrNone, packet') := by
  cases ifroute with
  | none => cases hHanded
  | some ifout =>
      unfold cspSendDirect at hHanded
      simp only at hHanded
      split at hHanded
      · cases hHanded
      · next hOk =>
        refine Prod.ext (not_not.mp hOk) ?_
        split at hHanded
        · cases hHanded
        · split at hHanded
          · exact Option.some.inj hHanded
          · exact Option.some.inj hHanded

/-- A packet that its layers and the limit of the interface let through gets to `nexthop`. -/
theorem cspSendDirect_of_secure {ifout : CspRoute size}
    (hSecure : secure address keys nonce idout { packet with id := idout } =
      (cspErrNone, packet')) (hMtu : PassesMtu ifout.mtu packet'.length) :
    (cspSendDirect address keys nonce idout packet (some ifout) counters).handed =
      some packet' := by
  unfold cspSendDirect
  simp only [hSecure, ne_eq, not_true_eq_false, if_false, hMtu]
  split
  · rfl
  · rfl

end Sender

/-! ## The way of a packet -/

/-- A router forwards a packet that is not its own. -/
def Forwarded (before after : Datagram) : Prop :=
  ∃ (size address : Nat) (keys : Keys) (nonce : BitVec 32) (packet handed : AreaPacket size)
    (ifroute : Option (CspRoute size)) (counters : IfaceCounters),
    packet.datagram = before ∧ idSrc packet.id ≠ address ∧
      (cspSendDirect address keys nonce packet.id packet ifroute counters).handed =
        some handed ∧
      handed.datagram = after

/-- Routers leave packets as they are. -/
theorem Forwarded.eq {before after : Datagram} (hForwarded : Forwarded before after) :
    after = before := by
  obtain ⟨size, address, keys, nonce, packet, handed, ifroute, counters, rfl, hSrc, hHanded,
    rfl⟩ := hForwarded
  have hSame := cspSendDirect_handed hHanded
  rw [secure, if_neg hSrc] at hSame
  rw [← (Prod.mk.inj hSame).2]

theorem forwarded_eq {before after : Datagram}
    (hForwarded : Relation.ReflTransGen Forwarded before after) : after = before := by
  induction hForwarded with
  | refl => rfl
  | tail _ hStep ih => rw [hStep.eq, ih]

/-- What a source has sent arrives under its identifier, and sealed. -/
theorem sealed_of_handed {sendSize receiveSize : Nat} (hSendSize : sendSize < 2 ^ 16)
    {original sent : AreaPacket sendSize} {received : AreaPacket receiveSize} {idout : Nat}
    {nonce : BitVec 32} {ifroute : Option (CspRoute sendSize)} {counters : IfaceCounters}
    (hFits : original.length ≤ sendSize)
    (hSent : (cspSendDirect (idSrc idout) keys nonce idout original ifroute counters).handed =
      some sent)
    (hForwarded : Relation.ReflTransGen Forwarded sent.datagram received.datagram) :
    received.id = idout ∧ Sealed keys idout original.payload received.payload := by
  have hProtect := cspSendDirect_handed hSent
  rw [secure, if_pos rfl] at hProtect
  let addressed : AreaPacket sendSize := { original with id := idout }
  have hAddressed : addressed.length ≤ sendSize := hFits
  obtain ⟨-, hId, hSealed⟩ := protect_spec hSendSize hAddressed hProtect
  obtain ⟨hSameId, hSamePayload⟩ := Datagram.mk.inj (forwarded_eq hForwarded)
  refine ⟨hSameId.trans hId, ?_⟩
  rw [hSamePayload]
  exact hSealed

/-- A packet that its source has sent, with whatever layers its flags ask for, and that any
number of routers have forwarded, is accepted by a node with the same keys whose socket does
not require more; and the data are those that the source had. -/
theorem secured_delivered {sendSize receiveSize : Nat} (hSendSize : sendSize < 2 ^ 16)
    (hReceiveSize : receiveSize < 2 ^ 16) {original sent : AreaPacket sendSize}
    {received : AreaPacket receiveSize} {idout : Nat} {nonce : BitVec 32}
    {ifroute : Option (CspRoute sendSize)} {counters : IfaceCounters}
    (hFits : original.length ≤ sendSize)
    (hSent : (cspSendDirect (idSrc idout) keys nonce idout original ifroute counters).handed =
      some sent)
    (hForwarded : Relation.ReflTransGen Forwarded sent.datagram received.datagram)
    (hReceived : received.length ≤ receiveSize) (hAdmits : Admits securityOpts idout)
    (counters' : IfaceCounters) :
    (cspRouteSecurityCheck keys securityOpts received counters').ret = cspErrNone ∧
      (cspRouteSecurityCheck keys securityOpts received counters').packet.datagram =
        ⟨idout, original.payload⟩ := by
  obtain ⟨hReceivedId, hSealed⟩ := sealed_of_handed hSendSize hFits hSent hForwarded
  obtain ⟨hOk, hPayload, hId, -⟩ := (undoes_cspRouteSecurityCheck hReceiveSize).opens
    counters' hReceivedId hReceived hAdmits hSealed
  refine ⟨hOk, ?_⟩
  rw [AreaPacket.datagram, hPayload, hId]

/-- Two bytes of data, checked and encrypted, over one router. -/
theorem secured_delivered_router :
    let keys : Keys := ⟨⟨List.replicate 16 1, rfl⟩, ⟨List.replicate 16 2, rfl⟩⟩
    let original : AreaPacket 10 := ⟨2, 0, [1, 2, 0, 0, 0, 0, 0, 0, 0, 0], rfl⟩
    let received : AreaPacket 12 :=
      ⟨10, 5, [98, 102, 203, 21, 199, 203, 0, 0, 0, 7, 0, 0], rfl⟩
    let checked := cspRouteSecurityCheck keys 0x10 received ⟨0, 0, 0, 0, 0⟩
    checked.ret = cspErrNone ∧ checked.packet.datagram = ⟨5, original.payload⟩ := by
  intro keys original received checked
  let sent : AreaPacket 10 := ⟨10, 5, [98, 102, 203, 21, 199, 203, 0, 0, 0, 7], rfl⟩
  have hSecure : secure 0 keys 7#32 5 { original with id := 5 } = (cspErrNone, sent) := by
    decide +kernel
  have hSent : (cspSendDirect (idSrc 5) keys 7#32 5 original (some ⟨0, fun _ => 0⟩)
      ⟨0, 0, 0, 0, 0⟩).handed = some sent :=
    cspSendDirect_of_secure hSecure (by decide)
  have hRouter : Forwarded sent.datagram received.datagram := by
    refine ⟨10, 9, keys, 0#32, sent, sent, some ⟨0, fun _ => 0⟩, ⟨0, 0, 0, 0, 0⟩, rfl,
      by decide, cspSendDirect_of_secure (if_neg (by decide)) (by decide), rfl⟩
  exact secured_delivered (by decide) (by decide) (by decide) hSent (.single hRouter)
    (by decide) (by decide) _

end Security
end Csp
end CubeSatComm
