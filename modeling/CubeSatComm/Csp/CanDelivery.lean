import CubeSatComm.Csp.CanReassembly

/-!
# What the CAN interface delivers

The frames of several packets may be mixed on the bus.  As long as they are not more than
there are elements, and none of them stops for too long, each of the packets is put together
in an element of its own, and is handed on once.
-/

namespace CubeSatComm
namespace Csp
namespace Can

open Lib

variable {size : Nat}

/-! ## Calls of `csp_can_tx` -/

/-- A call of `csp_can_tx`. -/
structure CanCall (size : Nat) where
  packet : AreaPacket size
  via : Option Nat
  cfpFrameId : BitVec 32
  accepts : Nat → Bool
  fits : packet.length ≤ size
  id_lt : packet.id < 2 ^ 32

/-- The frames that the call sends. -/
def CanCall.frames (call : CanCall size) : List CanFrame :=
  (cspCanTx call.packet call.via call.cfpFrameId call.accepts).frames

/-- From whom and to whom it sends them. -/
def CanCall.address (call : CanCall size) : Address :=
  ⟨BitVec.ofNat 32 (idSrc call.packet.id),
    BitVec.ofNat 32 (call.via.getD (idDst call.packet.id)), call.cfpFrameId⟩

theorem CanCall.frames_of_long {call : CanCall size} (hLong : maxCanDataSize < call.packet.length) :
    call.frames = [] := by
  rw [CanCall.frames, cspCanTx]
  dsimp only
  rw [if_pos hLong]

theorem CanCall.sendable {call : CanCall size} (hShort : call.packet.length ≤ maxCanDataSize) :
    Sendable call.packet.datagram :=
  ⟨call.id_lt, by rwa [show call.packet.datagram.payload.length = call.packet.length from
    call.packet.length_payload call.fits]⟩

theorem CanCall.frames_prefix {call : CanCall size} (hShort : call.packet.length ≤ maxCanDataSize) :
    call.frames <+: cfpFramesFrom call.address call.packet.datagram 0 :=
  (cspCanTx_spec call.fits call.accepts call.via call.cfpFrameId hShort).1

/-- A packet of ten bytes. -/
def tenBytes (src : Fin 32) (first : UInt8) (cfpFrameId : BitVec 32) : CanCall 16 where
  packet :=
    ⟨10, src.val * 2 ^ 25, (List.range 16).map fun k => UInt8.ofNat k + first, rfl⟩
  via := none
  cfpFrameId := cfpFrameId
  accepts := fun _ => true
  fits := Nat.le_of_ble_eq_true rfl
  id_lt := by
    have hLt := src.isLt
    show src.val * 2 ^ 25 < 2 ^ 32
    omega

/-- Whatever is lost, repeated, delayed or exchanged on the bus, as long as no two packets have
the same source, destination and identification, only packets that have been sent are handed
on. -/
theorem cspCanRx_sound {size' : Nat} (supply : Nat → Option (AreaPacket size'))
    {calls : List (CanCall size)}
    (hDistinct : ∀ call ∈ calls, ∀ call' ∈ calls,
      call.address.conn = call'.address.conn → call = call')
    {events : List (BitVec 32 × CanFrame)}
    (hEvents : ∀ event ∈ events, ∃ call ∈ calls, event.2 ∈ call.frames) :
    ∀ d ∈ (canRun supply CanRx.added events).injected, ∃ call ∈ calls,
      d = call.packet.datagram := by
  -- the calls that send anything
  let sent := (calls.filter fun call => call.packet.length ≤ maxCanDataSize).map fun call =>
    (call.address, call.packet.datagram)
  have hSent : ∀ t ∈ sent, ∃ call ∈ calls, call.packet.length ≤ maxCanDataSize ∧
      t = (call.address, call.packet.datagram) := by
    intro t hMem
    obtain ⟨call, hCall, rfl⟩ := List.mem_map.mp hMem
    rw [List.mem_filter, decide_eq_true_iff] at hCall
    exact ⟨call, hCall.1, hCall.2, rfl⟩
  have hSentDistinct : Distinct sent := by
    constructor
    · intro t hMem t' hMem' hConn
      obtain ⟨call, hCall, -, rfl⟩ := hSent t hMem
      obtain ⟨call', hCall', -, rfl⟩ := hSent t' hMem'
      rw [hDistinct call hCall call' hCall' hConn]
    · intro t hMem
      obtain ⟨call, hCall, hShort, rfl⟩ := hSent t hMem
      exact call.sendable hShort
  have hFrames : ∀ event ∈ events, ∃ t ∈ sent, event.2 ∈ cfpFramesFrom t.1 t.2 0 := by
    intro event hEvent
    obtain ⟨call, hCall, hFrame⟩ := hEvents event hEvent
    by_cases hShort : call.packet.length ≤ maxCanDataSize
    · refine ⟨(call.address, call.packet.datagram), List.mem_map.mpr ⟨call, ?_, rfl⟩, ?_⟩
      · rw [List.mem_filter, decide_eq_true_iff]
        exact ⟨hCall, hShort⟩
      · exact (call.frames_prefix hShort).subset hFrame
    · rw [call.frames_of_long (by omega)] at hFrame
      cases hFrame
  intro d hMem
  obtain ⟨t, hT, rfl⟩ := (canRun_sound supply hSentDistinct hFrames).2 d hMem
  obtain ⟨call, hCall, -, rfl⟩ := hSent t hT
  exact ⟨call, hCall, rfl⟩

/-- The second frame comes before the first one, and the first one comes again. -/
theorem cspCanRx_sound_again :
    let call := tenBytes 1 0 0
    let events := (call.frames.reverse ++ call.frames).map fun frame => ((0 : BitVec 32), frame)
    ∀ d ∈ (canRun (fun _ => some call.packet) CanRx.added events).injected,
      ∃ call' ∈ [call], d = call'.packet.datagram := by
  intro call events
  refine cspCanRx_sound (fun _ => some call.packet) ?_ ?_
  · intro call' hCall' call'' hCall'' _
    rw [List.mem_singleton.mp hCall', List.mem_singleton.mp hCall'']
  · intro event hEvent
    obtain ⟨frame, hFrame, rfl⟩ := List.mem_map.mp hEvent
    exact ⟨call, List.mem_singleton_self call, by simpa using hFrame⟩

/-- Identifications are counted modulo `2 ^ 10`.  If one comes again while a packet with it has
not been completed, the two are mixed up. -/
example :
    let call := tenBytes 1 0 0
    let later := tenBytes 1 7 1024
    let events := (call.frames.take 1 ++ later.frames.drop 1).map fun frame =>
      ((0 : BitVec 32), frame)
    (canRun (fun _ => some call.packet) CanRx.added events).injected =
      [⟨2 ^ 25, [0, 1, 9, 10, 11, 12, 13, 14, 15, 16]⟩] := by decide

/-! ## Packets under way -/

/-- A packet, and the number of its frame that is to arrive next. -/
structure Transfer where
  address : Address
  d : Datagram
  next : Nat

/-- The frames of a packet that has been begun are in an element. -/
def Transfer.In (transfer : Transfer) (element : PbufElement size) : Prop :=
  0 < transfer.next ∧
    Collecting transfer.address.conn transfer.d (transfer.next - 1) element

/-- The elements hold what has arrived of the packets, each of them in an element of its own. -/
structure Table (transfers : List Transfer) (pbufs : List (PbufElement size)) : Prop where
  conns : (transfers.map (·.address.conn)).Nodup
  elements : ∀ e ∈ pbufs, e.used = false ∧ e.packet = none ∨ ∃ u ∈ transfers, u.In e
  begun : ∀ u ∈ transfers, 0 < u.next → ∃ e ∈ pbufs, u.In e
  distinct : ∀ (i j : Nat) (e e' : PbufElement size), pbufs[i]? = some e →
    pbufs[j]? = some e' → e.used = true → e'.used = true →
      connOf e.cfpid = connOf e'.cfpid → i = j

section Tables

variable {transfers : List Transfer} {pbufs : List (PbufElement size)} {u : Transfer}

theorem Transfer.In.used {element : PbufElement size} (hIn : u.In element) :
    element.used = true := hIn.2.used

theorem Transfer.In.conn {element : PbufElement size} (hIn : u.In element) :
    connOf element.cfpid = u.address.conn := hIn.2.conn

theorem Table.perm {transfers' : List Transfer} (hTable : Table transfers pbufs)
    (hPerm : transfers.Perm transfers') : Table transfers' pbufs where
  conns := (hPerm.map _).nodup_iff.mp hTable.conns
  elements := fun e hMem => (hTable.elements e hMem).imp_right fun ⟨u, hU, hIn⟩ =>
    ⟨u, hPerm.mem_iff.mp hU, hIn⟩
  begun := fun u hU => hTable.begun u (hPerm.mem_iff.mpr hU)
  distinct := hTable.distinct

/-- The element in the place `i` is the one of a packet, or is free. -/
def PlaceOf (pbufs : List (PbufElement size)) (u : Transfer) (i : Nat) : Prop :=
  i < pbufs.length ∧
    ∀ j e, pbufs[j]? = some e → e.used = true → (connOf e.cfpid = u.address.conn ↔ j = i)

theorem Table.eq_of_conn (hTable : Table transfers pbufs) {u' : Transfer} (hMem : u ∈ transfers)
    (hMem' : u' ∈ transfers) (hConn : u.address.conn = u'.address.conn) : u = u' :=
  List.inj_on_of_nodup_map hTable.conns hMem hMem' hConn

/-- A packet that has been begun has a place. -/
theorem Table.placeOf_begun (hTable : Table transfers pbufs) (hMem : u ∈ transfers)
    (hBegun : 0 < u.next) :
    ∃ i e, PlaceOf pbufs u i ∧ pbufs[i]? = some e ∧ u.In e := by
  obtain ⟨e, hE, hIn⟩ := hTable.begun u hMem hBegun
  obtain ⟨i, hi⟩ := List.mem_iff_getElem?.mp hE
  refine ⟨i, e, ⟨(List.getElem?_eq_some_iff.mp hi).1, ?_⟩, hi, hIn⟩
  intro j e' hj hUsed
  constructor
  · intro hConn
    exact hTable.distinct j i e' e hj hi hUsed hIn.used (hConn.trans hIn.conn.symm)
  · rintro rfl
    obtain rfl := Option.some.inj (hj.symm.trans hi)
    exact hIn.conn

/-- No element belongs to a packet that has not been begun. -/
theorem Table.not_begun (hTable : Table transfers pbufs) (hMem : u ∈ transfers)
    (hNext : u.next = 0) {e : PbufElement size} (hE : e ∈ pbufs) (hUsed : e.used = true) :
    connOf e.cfpid ≠ u.address.conn := by
  intro hConn
  rcases hTable.elements e hE with ⟨hFree, -⟩ | ⟨u', hU', hIn⟩
  · rw [hFree] at hUsed
    cases hUsed
  · obtain rfl := hTable.eq_of_conn hU' hMem (hIn.conn.symm.trans hConn)
    have hPos := hIn.1
    omega

/-- Any free element may become its place. -/
theorem Table.placeOf_free (hTable : Table transfers pbufs) (hMem : u ∈ transfers)
    (hNext : u.next = 0) {i : Nat} (hLt : i < pbufs.length) (hFree : pbufs[i].used = false) :
    PlaceOf pbufs u i := by
  refine ⟨hLt, fun j e hj hUsed => ?_⟩
  have hNe := hTable.not_begun hMem hNext (List.mem_of_getElem? hj) hUsed
  refine ⟨fun hConn => absurd hConn hNe, ?_⟩
  rintro rfl
  obtain ⟨_, rfl⟩ := List.getElem?_eq_some_iff.mp hj
  rw [hFree] at hUsed
  cases hUsed

/-- There is a free element, as long as there are not too many packets. -/
theorem Table.exists_free (hTable : Table transfers pbufs)
    (hCount : transfers.length ≤ pbufs.length) (hMem : u ∈ transfers) (hNext : u.next = 0) :
    ∃ e ∈ pbufs, e.used = false := by
  by_contra hNone
  have hAll : ∀ e ∈ pbufs, e.used = true := by
    intro e hE
    by_contra hFree
    exact hNone ⟨e, hE, by simpa using hFree⟩
  -- the elements have different packets, none of which is this one
  have hNodup : (pbufs.map fun e => connOf e.cfpid).Nodup := by
    rw [List.nodup_iff_getElem?_ne_getElem?]
    intro i j hij hj hEq
    rw [List.length_map] at hj
    have hi : i < pbufs.length := by omega
    rw [List.getElem?_map, List.getElem?_map, List.getElem?_eq_getElem hi,
      List.getElem?_eq_getElem hj] at hEq
    have hSame := hTable.distinct i j _ _ (List.getElem?_eq_getElem hi)
      (List.getElem?_eq_getElem hj) (hAll _ (List.getElem_mem hi)) (hAll _ (List.getElem_mem hj))
      (Option.some.inj hEq)
    omega
  have hSubset : (u.address.conn :: pbufs.map fun e => connOf e.cfpid) ⊆
      transfers.map (·.address.conn) := by
    intro conn hConn
    rcases List.mem_cons.mp hConn with rfl | hConn
    · exact List.mem_map_of_mem hMem
    · obtain ⟨e, hE, rfl⟩ := List.mem_map.mp hConn
      rcases hTable.elements e hE with ⟨hFree, -⟩ | ⟨u', hU', hIn⟩
      · rw [hAll e hE] at hFree
        cases hFree
      · rw [hIn.conn]
        exact List.mem_map_of_mem hU'
  have hCons : (u.address.conn :: pbufs.map fun e => connOf e.cfpid).Nodup := by
    refine List.nodup_cons.mpr ⟨fun hConn => ?_, hNodup⟩
    obtain ⟨e, hE, hEq⟩ := List.mem_map.mp hConn
    exact hTable.not_begun hMem hNext hE (hAll e hE) hEq
  have hLe := (List.subperm_of_subset hCons hSubset).length_le
  simp at hLe
  omega

section Set

variable {rest : List Transfer} {i : Nat} {element : PbufElement size}

theorem mem_set_cases {e : PbufElement size} (hE : e ∈ pbufs.set i element) :
    e = element ∨ ∃ j ≠ i, pbufs[j]? = some e := by
  obtain ⟨j, hj⟩ := List.mem_iff_getElem?.mp hE
  rw [List.getElem?_set] at hj
  split at hj
  · split at hj
    · exact .inl (Option.some.inj hj).symm
    · cases hj
  · next hNe => exact .inr ⟨j, fun h => hNe h.symm, hj⟩

/-- What happens in the place of a packet does not concern the others. -/
theorem Table.set (hTable : Table (u :: rest) pbufs) (hPlace : PlaceOf pbufs u i)
    {now : List Transfer} (hNow : ∀ u' ∈ now, u'.address.conn = u.address.conn)
    (hConns : ((now ++ rest).map (·.address.conn)).Nodup)
    (hElement : element.used = false ∧ element.packet = none ∨ ∃ u' ∈ now, u'.In element)
    (hBegun : ∀ u' ∈ now, u'.In element) : Table (now ++ rest) (pbufs.set i element) := by
  obtain ⟨hLt, hPlace⟩ := hPlace
  have hNew : (pbufs.set i element)[i]? = some element := by simp [hLt]
  have hUsed : element.used = true → connOf element.cfpid = u.address.conn := by
    intro hUsed
    rcases hElement with ⟨hFree, -⟩ | ⟨u', hU', hIn⟩
    · rw [hFree] at hUsed
      cases hUsed
    · rw [hIn.conn, hNow u' hU']
  have hOld : ∀ j e, (pbufs.set i element)[j]? = some e → j ≠ i → pbufs[j]? = some e := by
    intro j e hj hNe
    rwa [List.getElem?_set_ne (fun h => hNe h.symm)] at hj
  refine ⟨hConns, ?_, ?_, ?_⟩
  · intro e hE
    rcases mem_set_cases hE with rfl | ⟨j, hNe, hj⟩
    · exact hElement.imp_right fun ⟨u', hU', hIn⟩ => ⟨u', List.mem_append_left _ hU', hIn⟩
    · rcases hTable.elements e (List.mem_of_getElem? hj) with hFree | ⟨u', hU', hIn⟩
      · exact .inl hFree
      · rcases List.mem_cons.mp hU' with rfl | hU'
        · exact absurd ((hPlace j e hj hIn.used).mp hIn.conn) hNe
        · exact .inr ⟨u', List.mem_append_right _ hU', hIn⟩
  · intro u' hU' hPos
    rcases List.mem_append.mp hU' with hU' | hU'
    · exact ⟨element, List.mem_of_getElem? hNew, hBegun u' hU'⟩
    · obtain ⟨e, hE, hIn⟩ := hTable.begun u' (List.mem_cons_of_mem _ hU') hPos
      obtain ⟨j, hj⟩ := List.mem_iff_getElem?.mp hE
      refine ⟨e, List.mem_of_getElem? (i := j) ?_, hIn⟩
      rw [List.getElem?_set_ne, hj]
      rintro rfl
      -- the place is that of the other packet
      have hConn := (hPlace i e hj hIn.used).mpr rfl
      rw [hIn.conn] at hConn
      have hNodup := hTable.conns
      rw [List.map_cons, List.nodup_cons, ← hConn] at hNodup
      exact hNodup.1 (List.mem_map_of_mem hU')
  · intro j k e e' hj hk hE hE' hConn
    by_cases hJ : j = i
    · subst hJ
      obtain rfl := Option.some.inj (hNew.symm.trans hj)
      by_cases hK : k = j
      · exact hK.symm
      · have hAt := (hPlace k e' (hOld k e' hk hK) hE').mp (hConn.symm.trans (hUsed hE))
        exact hAt.symm
    · by_cases hK : k = i
      · subst hK
        obtain rfl := Option.some.inj (hNew.symm.trans hk)
        exact (hPlace j e (hOld j e hj hJ) hE).mp (hConn.trans (hUsed hE'))
      · exact hTable.distinct j k e e' (hOld j e hj hJ) (hOld k e' hk hK) hE hE' hConn

end Set

/-! ## One frame -/

theorem matches_iff {e : PbufElement size} {id : BitVec 32} :
    e.matches id = true ↔ e.used = true ∧ connOf e.cfpid = connOf id := by
  rw [PbufElement.matches, Bool.and_eq_true, beq_iff_eq]
  rfl

/-- `csp_can_pbuf_find` finds the place of a packet that has been begun. -/
theorem PlaceOf.find {i : Nat} (hPlace : PlaceOf pbufs u i) {e : PbufElement size}
    (hAt : pbufs[i]? = some e) (hUsed : e.used = true) {id : BitVec 32}
    (hId : connOf id = u.address.conn) : cspCanPbufFind pbufs id = some i := by
  obtain ⟨hLt, hPlace⟩ := hPlace
  obtain ⟨_, rfl⟩ := List.getElem?_eq_some_iff.mp hAt
  rw [cspCanPbufFind, List.findIdx?_eq_some_iff_getElem]
  refine ⟨hLt, matches_iff.mpr ⟨hUsed, ?_⟩, ?_⟩
  · rw [hId]
    exact (hPlace i _ hAt hUsed).mpr rfl
  · intro j hj hMatches
    obtain ⟨hUsed', hConn⟩ := matches_iff.mp hMatches
    have hSame := (hPlace j _ (List.getElem?_eq_getElem (by omega)) hUsed').mp (hConn.trans hId)
    omega

/-- Without elements that have timed out, `csp_can_pbuf_new` opens the first one that is
free. -/
theorem cspCanPbufNew_of_fresh {id now : BitVec 32}
    (hFresh : ∀ e ∈ pbufs, e.timedOut now = false) (hFree : ∃ e ∈ pbufs, e.used = false) :
    ∃ i, ∃ e : PbufElement size, pbufs[i]? = some e ∧ e.used = false ∧
      cspCanPbufNew id now pbufs = (some i, pbufs.set i (e.opened id now), 0) := by
  induction pbufs with
  | nil => simp at hFree
  | cons element pbufs ih =>
      have hHead := hFresh element List.mem_cons_self
      unfold cspCanPbufNew
      dsimp only
      rw [hHead]
      simp only [Bool.false_eq_true, if_false]
      by_cases hUsed : element.used = true
      · rw [if_pos hUsed]
        have hRest : ∃ e ∈ pbufs, e.used = false := by
          obtain ⟨e, hMem, hE⟩ := hFree
          rcases List.mem_cons.mp hMem with rfl | hMem
          · rw [hUsed] at hE
            cases hE
          · exact ⟨e, hMem, hE⟩
        obtain ⟨i, e, hAt, hE, hNew⟩ :=
          ih (fun e hMem => hFresh e (List.mem_cons_of_mem _ hMem)) hRest
        refine ⟨i + 1, e, hAt, hE, ?_⟩
        rw [hNew]
        rfl
      · rw [if_neg hUsed]
        exact ⟨0, element, rfl, by simpa using hUsed, rfl⟩

variable {supply : Nat → Option (AreaPacket size)} {s : CanRx size} {rest : List Transfer}
  {now : BitVec 32}

/-- What the next frame of a packet leads to. -/
structure Advanced (u : Transfer) (now : BitVec 32) (s s' : CanRx size) (i : Nat)
    (element : PbufElement size) : Prop where
  pbufs : s'.pbufs = s.pbufs.set i element
  rxError : s'.rxError = s.rxError
  frame : s'.frame = s.frame
  freed : s'.freed = s.freed
  result : u.next = lastFrame u.d ∧ element = PbufElement.cleared ∧
      s'.injected = s.injected ++ [u.d] ∨
    u.next < lastFrame u.d ∧ Collecting u.address.conn u.d u.next element ∧
      element.lastUsed = now ∧ s'.injected = s.injected

theorem advanced_begin (hTable : Table (u :: rest) s.pbufs) (hNext : u.next = 0)
    (hSendable : Sendable u.d) (hSize : u.d.payload.length ≤ size)
    (hCount : (u :: rest).length ≤ s.pbufs.length)
    (hFresh : ∀ e ∈ s.pbufs, e.timedOut now = false) (hSupply : (supply s.gets).isSome = true) :
    ∃ i element, PlaceOf s.pbufs u i ∧
      Advanced u now s (cspCanRx supply s now (cfpFrame u.address u.d u.next)) i element := by
  have hMem : u ∈ u :: rest := List.mem_cons_self
  have hConn : connOf (cfpFrame u.address u.d u.next).id = u.address.conn := connOf_cfpFrame _
  have hNone : cspCanPbufFind s.pbufs (cfpFrame u.address u.d u.next).id = none := by
    rw [cspCanPbufFind, List.findIdx?_eq_none_iff]
    intro e hE
    rw [Bool.eq_false_iff]
    intro hMatches
    obtain ⟨hUsed, hSame⟩ := matches_iff.mp hMatches
    exact hTable.not_begun hMem hNext hE hUsed (hSame.trans hConn)
  obtain ⟨i, e, hAt, hFree, hNew⟩ :=
    @cspCanPbufNew_of_fresh _ s.pbufs (cfpFrame u.address u.d u.next).id now hFresh
      (hTable.exists_free hCount hMem hNext)
  obtain ⟨hLt, hEq⟩ := List.getElem?_eq_some_iff.mp hAt
  have hPlace : PlaceOf s.pbufs u i := hTable.placeOf_free hMem hNext hLt (hEq ▸ hFree)
  obtain ⟨buffer, hBuffer⟩ := Option.isSome_iff_exists.mp hSupply
  have hNoPacket : e.packet = none := by
    rcases hTable.elements e (List.mem_of_getElem? hAt) with ⟨-, hNo⟩ | ⟨u', -, hIn⟩
    · exact hNo
    · rw [hIn.used] at hFree
      cases hFree
  -- the frame comes to the element that has been opened
  set x := e.opened (cfpFrame u.address u.d u.next).id now with hX
  have hXAt : (s.pbufs.set i x)[i]? = some x := by simp [hLt]
  have hRx : cspCanRx supply s now (cfpFrame u.address u.d u.next) =
      { s with pbufs := s.pbufs.set i x, freed := s.freed + 0 }.receive supply i
        (cfpFrame u.address u.d u.next) := by
    have hType : cfpType (cfpFrame u.address u.d u.next).id = cfpBegin := by simp [hNext]
    rw [cspCanRx, hNone]
    dsimp only
    rw [if_pos hType, hNew]
  have hElement : rxElement (supply s.gets) x (cfpFrame u.address u.d u.next) =
      rxBegin x buffer (cfpFrame u.address u.d 0) 0 1 := by
    have hXPacket : x.packet = none := hNoPacket
    rw [hNext, rxElement_first, hXPacket, hBuffer]
  have hBegin := @rxBegin_frame size u.d x u.address hSendable rfl hConn buffer 0 1
  rw [if_neg (by omega), ← hElement] at hBegin
  rw [hRx, receive_eq supply hXAt]
  split at hBegin
  · next hSingle =>
    refine ⟨i, PbufElement.cleared, hPlace, ?_⟩
    dsimp only
    rw [hBegin, List.set_set]
    exact ⟨rfl, rfl, rfl, rfl, .inl ⟨hNext.trans hSingle.symm, rfl, rfl⟩⟩
  · next hMore =>
    obtain ⟨element, hCollecting, hLast, hEffect⟩ := hBegin
    refine ⟨i, element, hPlace, ?_⟩
    dsimp only
    rw [hEffect, List.set_set]
    exact ⟨rfl, rfl, rfl, rfl, .inr ⟨by omega, hNext ▸ hCollecting, hLast, List.append_nil _⟩⟩

theorem advanced_more (hTable : Table (u :: rest) s.pbufs) (hNext : 0 < u.next)
    (hSendable : Sendable u.d) :
    ∃ i element, PlaceOf s.pbufs u i ∧
      Advanced u now s (cspCanRx supply s now (cfpFrame u.address u.d u.next)) i element := by
  have hConn : connOf (cfpFrame u.address u.d u.next).id = u.address.conn := connOf_cfpFrame _
  obtain ⟨i, e, hPlace, hAt, hIn⟩ := hTable.placeOf_begun List.mem_cons_self hNext
  have hFind := hPlace.find hAt hIn.used hConn
  let x : PbufElement size := { e with lastUsed := now }
  have hXAt : (s.pbufs.set i x)[i]? = some x := by simp [hPlace.1]
  have hModify : s.pbufs.modify i (fun e => { e with lastUsed := now }) = s.pbufs.set i x := by
    rw [List.modify_eq_set_getElem?, hAt]
    rfl
  have hRx : cspCanRx supply s now (cfpFrame u.address u.d u.next) =
      { s with pbufs := s.pbufs.set i x }.receive supply i (cfpFrame u.address u.d u.next) := by
    rw [cspCanRx, hFind]
    dsimp only
    rw [hModify]
  obtain ⟨k, hk⟩ : ∃ k, u.next = k + 1 := ⟨u.next - 1, by omega⟩
  obtain ⟨hUsed, hXConn, hMore, hCount, hRemain, hHeld⟩ := hIn.2
  rw [hk, Nat.add_sub_cancel] at hMore hCount hRemain hHeld
  have hNextFrame := rxMore_frame hSendable
    (⟨hUsed, hXConn, hMore, hCount, hRemain, hHeld⟩ : Collecting u.address.conn u.d k x)
    (supply s.gets)
  rw [← hk] at hNextFrame
  rw [hRx, receive_eq supply hXAt]
  split at hNextFrame
  · next hEnd =>
    refine ⟨i, PbufElement.cleared, hPlace, ?_⟩
    dsimp only
    rw [hNextFrame, List.set_set]
    exact ⟨rfl, rfl, rfl, rfl, .inl ⟨hEnd.symm, rfl, rfl⟩⟩
  · next hNotEnd =>
    obtain ⟨element, hCollecting, hLast, hEffect⟩ := hNextFrame
    refine ⟨i, element, hPlace, ?_⟩
    dsimp only
    rw [hEffect, List.set_set]
    exact ⟨rfl, rfl, rfl, rfl, .inr ⟨by omega, hCollecting, hLast, List.append_nil _⟩⟩

/-- The frames that are still to arrive of a packet. -/
structure Awaited (size : Nat) (u : Transfer) (events : List (BitVec 32 × CanFrame)) : Prop where
  sendable : Sendable u.d
  fits : u.d.payload.length ≤ size
  next : u.next ≤ lastFrame u.d
  frames : (events.map (·.2)).filter (fun frame => connOf frame.id = u.address.conn) =
    cfpFramesFrom u.address u.d u.next

/-- Each packet is handed on once, whatever the order of the frames of different packets. -/
theorem canRun_delivers (hSupply : ∀ k, (supply k).isSome = true)
    {events : List (BitVec 32 × CanFrame)} {transfers : List Transfer}
    (hTable : Table transfers s.pbufs) (hCount : transfers.length ≤ s.pbufs.length)
    (hAwaited : ∀ u ∈ transfers, Awaited size u events)
    (hEvents : ∀ event ∈ events, ∃ u ∈ transfers, connOf event.2.id = u.address.conn)
    (hTime : ∀ e ∈ s.pbufs, e.used = true → ∀ event ∈ events,
      event.1 - e.lastUsed ≤ pbufTimeoutMs)
    (hPrompt : events.Pairwise fun first second => second.1 - first.1 ≤ pbufTimeoutMs) :
    let t := canRun supply s events
    t.injected.Perm (s.injected ++ transfers.map (·.d)) ∧ t.rxError = s.rxError ∧
      t.frame = s.frame ∧ t.freed = s.freed ∧ ∀ e ∈ t.pbufs, e.used = false := by
  induction events generalizing s transfers with
  | nil =>
      -- every packet that is left has a frame to come
      have hNone : transfers = [] := by
        rw [List.eq_nil_iff_forall_not_mem]
        intro u hMem
        have hFrames := (hAwaited u hMem).frames
        rw [cfpFramesFrom_cons (hAwaited u hMem).next] at hFrames
        cases hFrames
      subst hNone
      refine ⟨by simp [canRun], rfl, rfl, rfl, fun e hE => ?_⟩
      rcases hTable.elements e hE with ⟨hFree, -⟩ | ⟨u, hMem, -⟩
      · exact hFree
      · cases hMem
  | cons event events ih =>
      obtain ⟨now, frame⟩ := event
      obtain ⟨u, hMem, hConn⟩ := hEvents (now, frame) List.mem_cons_self
      obtain ⟨rest, hPerm⟩ : ∃ rest, transfers.Perm (u :: rest) := by
        obtain ⟨front, back, rfl⟩ := List.append_of_mem hMem
        exact ⟨front ++ back, List.perm_middle⟩
      have hTable := hTable.perm hPerm
      have hLength := hPerm.length_eq
      obtain ⟨hSendable, hFits, hNext, hFrames⟩ := hAwaited u hMem
      -- it is the next frame of its packet
      rw [cfpFramesFrom_cons hNext, List.map_cons, List.filter_cons, if_pos (by simpa using hConn),
        List.cons.injEq] at hFrames
      obtain ⟨hFrame, hLater⟩ := hFrames
      have hFrame : frame = cfpFrame u.address u.d u.next := hFrame
      subst hFrame
      have hFresh : ∀ e ∈ s.pbufs, e.timedOut now = false := by
        intro e hE
        rw [PbufElement.timedOut, Bool.and_eq_false_iff]
        by_cases hUsed : e.used = true
        · have hNear := hTime e hE hUsed (now, cfpFrame u.address u.d u.next) List.mem_cons_self
          exact .inr (decide_eq_false (BitVec.not_lt.mpr hNear))
        · exact .inl (by simpa using hUsed)
      have hStep : ∃ i element, PlaceOf s.pbufs u i ∧
          Advanced u now s (cspCanRx supply s now (cfpFrame u.address u.d u.next)) i element := by
        rcases Nat.eq_zero_or_pos u.next with hZero | hPos
        · exact advanced_begin hTable hZero hSendable hFits (by omega) hFresh (hSupply _)
        · exact advanced_more hTable hPos hSendable
      obtain ⟨i, element, hPlace, hPbufs, hRxError, hFrameCount, hFreed, hResult⟩ := hStep
      set s' := cspCanRx supply s now (cfpFrame u.address u.d u.next) with hS'
      have hRun : canRun supply s ((now, cfpFrame u.address u.d u.next) :: events) =
          canRun supply s' events := rfl
      obtain ⟨hPromptNow, hPromptLater⟩ := List.pairwise_cons.mp hPrompt
      have hOthers : ∀ u' ∈ rest, Awaited size u' events := by
        intro u' hU'
        obtain ⟨hSendable', hFits', hNext', hFrames'⟩ :=
          hAwaited u' (hPerm.mem_iff.mpr (List.mem_cons_of_mem _ hU'))
        have hNe : ¬ connOf (cfpFrame u.address u.d u.next).id = u'.address.conn := by
          rw [connOf_cfpFrame]
          intro hSame
          have hNodup := hTable.conns
          rw [List.map_cons, List.nodup_cons, hSame] at hNodup
          exact hNodup.1 (List.mem_map_of_mem hU')
        rw [List.map_cons, List.filter_cons, if_neg (by simpa using hNe)] at hFrames'
        exact ⟨hSendable', hFits', hNext', hFrames'⟩
      have hTimeLater : (element.used = true → element.lastUsed = now) → ∀ e ∈ s'.pbufs,
          e.used = true → ∀ event ∈ events, event.1 - e.lastUsed ≤ pbufTimeoutMs := by
        intro hElement e hE hUsed event hEvent
        rw [hPbufs] at hE
        rcases mem_set_cases hE with rfl | ⟨j, -, hj⟩
        · rw [hElement hUsed]
          exact hPromptNow event hEvent
        · exact hTime e (List.mem_of_getElem? hj) hUsed event (List.mem_cons_of_mem _ hEvent)
      have hLengthLater : s'.pbufs.length = s.pbufs.length := by rw [hPbufs, List.length_set]
      have hSum : (s.injected ++ u.d :: rest.map (·.d)).Perm
          (s.injected ++ transfers.map (·.d)) := (hPerm.map (·.d)).symm.append_left _
      rw [hRun]
      rcases hResult with ⟨hEnd, hCleared, hInjected⟩ | ⟨hMore, hCollecting, hLast, hInjected⟩
      · -- the packet is complete
        have hTableLater : Table rest s'.pbufs := by
          rw [hPbufs]
          refine @Table.set _ s.pbufs u rest i element hTable hPlace [] (by simp) ?_
            (.inl ?_) (by simp)
          · exact (List.nodup_cons.mp hTable.conns).2
          · rw [hCleared]
            exact ⟨rfl, rfl⟩
        have hEventsLater : ∀ event ∈ events, ∃ u' ∈ rest,
            connOf event.2.id = u'.address.conn := by
          intro event hEvent
          obtain ⟨u', hU', hConn'⟩ := hEvents event (List.mem_cons_of_mem _ hEvent)
          rcases List.mem_cons.mp (hPerm.mem_iff.mp hU') with rfl | hRest
          · rw [cfpFramesFrom_nil (by omega), List.filter_eq_nil_iff] at hLater
            exact absurd (by simpa using hConn') (hLater event.2 (List.mem_map_of_mem hEvent))
          · exact ⟨u', hRest, hConn'⟩
        have hNotUsed : element.used = true → element.lastUsed = now := by
          rw [hCleared]
          intro hUsed
          cases hUsed
        obtain ⟨hDone, hRest⟩ := ih hTableLater (by simp at hLength; omega) hOthers hEventsLater
          (hTimeLater hNotUsed) hPromptLater
        rw [hInjected, List.append_assoc] at hDone
        rw [hRxError, hFrameCount, hFreed] at hRest
        exact ⟨hDone.trans hSum, hRest⟩
      · -- there are more frames
        let u' : Transfer := { u with next := u.next + 1 }
        have hTableLater : Table (u' :: rest) s'.pbufs := by
          rw [hPbufs]
          have hIn : u'.In element := ⟨Nat.succ_pos _, hCollecting⟩
          refine @Table.set _ s.pbufs u rest i element hTable hPlace [u'] ?_ hTable.conns
            (.inr ⟨u', List.mem_singleton_self _, hIn⟩) ?_
          · intro v hV
            rw [List.mem_singleton.mp hV]
          · intro v hV
            rw [List.mem_singleton.mp hV]
            exact hIn
        have hAwaitedLater : ∀ v ∈ u' :: rest, Awaited size v events := by
          intro v hV
          rcases List.mem_cons.mp hV with rfl | hRest
          · exact ⟨hSendable, hFits, hMore, hLater⟩
          · exact hOthers v hRest
        have hEventsLater : ∀ event ∈ events, ∃ v ∈ u' :: rest,
            connOf event.2.id = v.address.conn := by
          intro event hEvent
          obtain ⟨v, hV, hConn'⟩ := hEvents event (List.mem_cons_of_mem _ hEvent)
          rcases List.mem_cons.mp (hPerm.mem_iff.mp hV) with rfl | hRest
          · exact ⟨u', List.mem_cons_self, hConn'⟩
          · exact ⟨v, List.mem_cons_of_mem _ hRest, hConn'⟩
        obtain ⟨hDone, hRest⟩ := ih hTableLater (by simp at hLength ⊢; omega) hAwaitedLater
          hEventsLater (hTimeLater fun _ => hLast) hPromptLater
        rw [hInjected] at hDone
        rw [hRxError, hFrameCount, hFreed] at hRest
        exact ⟨hDone.trans hSum, hRest⟩

end Tables


/-- If the frames of no more packets than there are elements are mixed on the bus, within the
time that an element is kept, each of the packets is handed on once. -/
theorem cspCanRx_delivers {size' : Nat} {supply : Nat → Option (AreaPacket size')}
    (hSupply : ∀ k, (supply k).isSome = true) {calls : List (CanCall size)}
    (hConns : (calls.map (·.address.conn)).Nodup) (hCount : calls.length ≤ pbufElements)
    (hShort : ∀ call ∈ calls, call.packet.length ≤ maxCanDataSize ∧ call.packet.length ≤ size')
    (hAccepts : ∀ call ∈ calls, ∀ k, call.accepts k = true)
    {events : List (BitVec 32 × CanFrame)}
    (hEvents : ∀ event ∈ events, ∃ call ∈ calls, event.2 ∈ call.frames)
    (hFrames : ∀ call ∈ calls,
      (events.map (·.2)).filter (fun frame => connOf frame.id = call.address.conn) = call.frames)
    (hPrompt : events.Pairwise fun first second => second.1 - first.1 ≤ pbufTimeoutMs) :
    let t := canRun supply CanRx.added events
    t.injected.Perm (calls.map (·.packet.datagram)) ∧ t.rxError = 0 ∧ t.frame = 0 ∧
      t.freed = 0 ∧ ∀ e ∈ t.pbufs, e.used = false := by
  let transfers := calls.map fun call => (⟨call.address, call.packet.datagram, 0⟩ : Transfer)
  have hAll : ∀ call ∈ calls, call.frames = cfpFramesFrom call.address call.packet.datagram 0 := by
    intro call hCall
    have hSent := (cspCanTx_spec call.fits call.accepts call.via call.cfpFrameId
      (hShort call hCall).1).2 (hAccepts call hCall)
    rw [CanCall.frames, hSent]
    rfl
  have hElements : ∀ e ∈ (CanRx.added : CanRx size').pbufs, e = PbufElement.cleared :=
    fun e hE => List.eq_of_mem_replicate hE
  have hTable : Table transfers (CanRx.added : CanRx size').pbufs := by
    refine ⟨?_, ?_, ?_, ?_⟩
    · simpa [transfers, Function.comp_def] using hConns
    · intro e hE
      rw [hElements e hE]
      exact .inl ⟨rfl, rfl⟩
    · intro u hU hPos
      obtain ⟨call, -, rfl⟩ := List.mem_map.mp hU
      exact absurd hPos (Nat.lt_irrefl 0)
    · intro i j e e' hi hj hUsed
      rw [hElements e (List.mem_of_getElem? hi)] at hUsed
      cases hUsed
  have hAwaited : ∀ u ∈ transfers, Awaited size' u events := by
    intro u hU
    obtain ⟨call, hCall, rfl⟩ := List.mem_map.mp hU
    refine ⟨call.sendable (hShort call hCall).1, ?_, Nat.zero_le _, ?_⟩
    · rw [show call.packet.datagram.payload.length = call.packet.length from
        call.packet.length_payload call.fits]
      exact (hShort call hCall).2
    · rw [← hAll call hCall]
      exact hFrames call hCall
  have hKnown : ∀ event ∈ events, ∃ u ∈ transfers, connOf event.2.id = u.address.conn := by
    intro event hEvent
    obtain ⟨call, hCall, hFrame⟩ := hEvents event hEvent
    refine ⟨_, List.mem_map_of_mem hCall, ?_⟩
    rw [hAll call hCall] at hFrame
    obtain ⟨k, -, hEq⟩ := mem_cfpFramesFrom.mp hFrame
    rw [hEq]
    exact connOf_cfpFrame k
  have hFree : ∀ e ∈ (CanRx.added : CanRx size').pbufs, e.used = true → ∀ event ∈ events,
      event.1 - e.lastUsed ≤ pbufTimeoutMs := by
    intro e hE hUsed
    rw [hElements e hE] at hUsed
    cases hUsed
  obtain ⟨hDone, hRest⟩ := canRun_delivers hSupply hTable
    (by simpa [transfers, CanRx.added] using hCount) hAwaited hKnown hFree hPrompt
  refine ⟨?_, hRest⟩
  simpa [transfers, Function.comp_def, CanRx.added] using hDone

/-- Two packets, of which the second arrives between the frames of the first one. -/
theorem cspCanRx_delivers_two :
    let outer := tenBytes 1 0 0
    let inner := tenBytes 2 0 0
    let events := (outer.frames.take 1 ++ inner.frames ++ outer.frames.drop 1).map fun frame =>
      ((0 : BitVec 32), frame)
    let t := canRun (fun _ => some outer.packet) CanRx.added events
    t.injected.Perm ([outer, inner].map (·.packet.datagram)) ∧ t.rxError = 0 ∧ t.frame = 0 ∧
      t.freed = 0 ∧ ∀ e ∈ t.pbufs, e.used = false := by
  intro outer inner events
  refine cspCanRx_delivers (fun _ => rfl) (by decide) (by decide) (by decide) ?_ (by decide)
    (by decide) (by decide)
  intro call hCall k
  simp only [List.mem_cons, List.not_mem_nil, or_false] at hCall
  rcases hCall with rfl | rfl <;> rfl

end Can
end Csp
end CubeSatComm
