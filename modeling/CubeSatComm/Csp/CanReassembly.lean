import CubeSatComm.Csp.CanFrames

/-!
# Putting packets together

An element of the receiver either has nothing to do with a packet, or holds the first bytes
of one and knows which frame has to come next.  No other frame of the packet is taken, so
that whatever is lost, repeated or exchanged on the bus, what is handed on is a packet that
has been sent.
-/

namespace CubeSatComm
namespace Csp
namespace Can

open Lib

variable {size : Nat}

/-- The frames of the packet up to the `k`-th have been taken, and there are more. -/
structure Collecting (conn : BitVec 32) (d : Datagram) (k : Nat) (element : PbufElement size) :
    Prop where
  used : element.used = true
  conn : connOf element.cfpid = conn
  more : k < lastFrame d
  rxCount : element.rxCount = 8 * k + 2
  remain : element.remain = BitVec.ofNat 32 (lastFrame d - k)
  held : ∃ packet, element.packet = some packet ∧ packet.val.id = d.id ∧
    packet.val.length = d.payload.length ∧
    packet.val.data.take (8 * k + 2) = d.payload.take (8 * k + 2)

/-- What `csp_can_tx` sends. -/
structure Sendable (d : Datagram) : Prop where
  id : d.id < 2 ^ 32
  length : d.payload.length ≤ maxCanDataSize

section Frames

variable {d : Datagram} {element : PbufElement size} {frame : CanFrame} {address : Address}

theorem lastFrame_lt (hSendable : Sendable d) : lastFrame d < 256 := by
  have hLength := hSendable.length
  rw [maxCanDataSize, cfpRemainSize, maxBytesInCanFrame, cfpOverhead] at hLength
  rw [lastFrame]
  omega

@[simp] theorem cfpType_cfpFrame (k : Nat) :
    cfpType (cfpFrame address d k).id = if k = 0 then cfpBegin else cfpMore := by
  rw [cfpFrame, cfpType_cfpIdentifier]
  split <;> decide

@[simp] theorem cfpRemain_cfpFrame (hSendable : Sendable d) (k : Nat) :
    cfpRemain (cfpFrame address d k).id = BitVec.ofNat 32 (lastFrame d - k) := by
  have hLast := lastFrame_lt hSendable
  rw [cfpFrame, cfpRemain_cfpIdentifier, ofNat_and_bitMask (by omega)]

@[simp] theorem connOf_cfpFrame (k : Nat) :
    connOf (cfpFrame address d k).id = address.conn := connOf_cfpIdentifier ..

/-- The next bytes of a packet are stored behind those that are there. -/
theorem rxMore_stored {packet : FittingPacket size} {offset gets n : Nat}
    (hRemain : cfpRemain frame.id = element.remain - 1) (hId : packet.val.id = d.id)
    (hLength : packet.val.length = d.payload.length)
    (hTake : packet.val.data.take element.rxCount = d.payload.take element.rxCount)
    (hCount : element.rxCount ≤ d.payload.length)
    (hBytes : frame.data.drop offset = (d.payload.drop element.rxCount).take n) :
    if d.payload.length ≤ element.rxCount + n then
      rxMore element packet frame offset gets = ⟨PbufElement.cleared, 0, 0, gets, 0, [d]⟩
    else
      ∃ stored : FittingPacket size, stored.val.id = d.id ∧
        stored.val.length = d.payload.length ∧
        stored.val.data.take (element.rxCount + n) = d.payload.take (element.rxCount + n) ∧
        rxMore element packet frame offset gets =
          ⟨{ element with
              rxCount := element.rxCount + n
              remain := element.remain - 1
              packet := some stored }, 0, 0, gets, 0, []⟩ := by
  have hFits := packet.property
  have hSize : (frame.data.drop offset).length = min n (d.payload.length - element.rxCount) := by
    rw [hBytes, List.length_take, List.length_drop]
  have hNotOver : ¬ packet.val.length < element.rxCount + (frame.data.drop offset).length := by
    omega
  let stored : FittingPacket size :=
    ⟨packet.val.put element.rxCount (frame.data.drop offset) (by omega), packet.property⟩
  have hStored : stored.val.data.take (element.rxCount + (frame.data.drop offset).length) =
      d.payload.take (element.rxCount + n) := by
    show (store packet.val.data element.rxCount (frame.data.drop offset)).take _ = _
    rw [take_add_store (by rw [packet.val.length_data]; omega), hTake, hBytes, ← List.take_add]
  have hMore : rxMore element packet frame offset gets =
      if element.rxCount + (frame.data.drop offset).length = packet.val.length then
        ⟨PbufElement.cleared, 0, 0, gets, 0, [stored.val.datagram]⟩
      else
        ⟨{ element with
            rxCount := element.rxCount + (frame.data.drop offset).length
            remain := element.remain - 1
            packet := some stored }, 0, 0, gets, 0, []⟩ := by
    have hSame : ¬ cfpRemain frame.id ≠ element.remain - 1 := not_not.mpr hRemain
    unfold rxMore
    rw [if_neg hSame]
    dsimp only
    rw [dif_neg hNotOver]
  by_cases hEnd : d.payload.length ≤ element.rxCount + n
  · have hDatagram : stored.val.datagram = d := by
      have hPayload : stored.val.payload = d.payload := by
        show stored.val.data.take packet.val.length = d.payload
        rw [← show element.rxCount + (frame.data.drop offset).length = packet.val.length by omega,
          hStored, List.take_of_length_le hEnd]
      show Datagram.mk packet.val.id stored.val.payload = d
      rw [hPayload, hId]
    rw [if_pos hEnd, hMore, if_pos (by omega), hDatagram]
  · have hCounted : (frame.data.drop offset).length = n := by omega
    rw [hCounted] at hStored hMore
    rw [if_neg hEnd, hMore, if_neg (by omega)]
    exact ⟨stored, hId, hLength, hStored, rfl⟩

/-- The first frame begins a packet, whatever its element has been used for. -/
theorem rxBegin_frame (hSendable : Sendable d) (hUsed : element.used = true)
    (hConn : connOf element.cfpid = address.conn) (buffer : AreaPacket size) (frames gets : Nat) :
    if size < d.payload.length then
      rxBegin element buffer (cfpFrame address d 0) frames gets =
        ⟨PbufElement.cleared, 1, frames, gets, 1, []⟩
    else if lastFrame d = 0 then
      rxBegin element buffer (cfpFrame address d 0) frames gets =
        ⟨PbufElement.cleared, 0, frames, gets, 0, [d]⟩
    else
      ∃ element', Collecting address.conn d 0 element' ∧
        element'.lastUsed = element.lastUsed ∧
        rxBegin element buffer (cfpFrame address d 0) frames gets =
          ⟨element', 0, frames, gets, 0, []⟩ := by
  have hMax : d.payload.length ≤ 2042 := hSendable.length
  have hData : (cfpFrame address d 0).data =
      toBigEndian 4 d.id ++ (toBigEndian 2 d.payload.length ++ d.payload.take 2) := by
    rw [← List.append_assoc, ← wireContent_take]
    rfl
  have hFour : (toBigEndian 4 d.id).length = 4 := length_toBigEndian _ _
  have hTwo : (toBigEndian 2 d.payload.length).length = 2 := length_toBigEndian _ _
  have hId : ofBigEndian ((cfpFrame address d 0).data.take 4) = d.id := by
    rw [hData, List.take_left' hFour]
    exact ofBigEndian_toBigEndian_of_lt hSendable.id
  have hDrop : (cfpFrame address d 0).data.drop 4 =
      toBigEndian 2 d.payload.length ++ d.payload.take 2 := by
    rw [hData, List.drop_left' hFour]
  have hLength : ofBigEndian (((cfpFrame address d 0).data.drop 4).take 2) = d.payload.length := by
    rw [hDrop, List.take_left' hTwo]
    exact ofBigEndian_toBigEndian_of_lt (by omega)
  have hBytes : (cfpFrame address d 0).data.drop cfpOverhead = (d.payload.drop 0).take 2 := by
    rw [cfpOverhead, show 6 = 4 + 2 by rfl, ← List.drop_drop, hDrop, List.drop_left' hTwo,
      List.drop_zero]
  let packet : AreaPacket size := { buffer with id := d.id, length := d.payload.length }
  have hBegin : rxBegin element buffer (cfpFrame address d 0) frames gets =
      rxLength element packet (cfpFrame address d 0) frames gets := by
    rw [rxBegin, hId, hLength]
  by_cases hLong : size < d.payload.length
  · have hRefused : packet.length > maxCanDataSize ∨ packet.length > size := .inr hLong
    rw [if_pos hLong, hBegin, rxLength, dif_pos hRefused]
  · have hShort : ¬ (packet.length > maxCanDataSize ∨ packet.length > size) := by
      have hLe := hSendable.length
      exact not_or.mpr ⟨Nat.not_lt.mpr hLe, hLong⟩
    let held : FittingPacket size := ⟨packet, Nat.not_lt.mp hLong⟩
    let begun : PbufElement size :=
      { element with
        rxCount := 0
        remain := cfpRemain (cfpFrame address d 0).id + 1
        packet := some held }
    have hLengthened : rxLength element packet (cfpFrame address d 0) frames gets =
        { rxMore begun held (cfpFrame address d 0) cfpOverhead gets with
          frame :=
            frames + (rxMore begun held (cfpFrame address d 0) cfpOverhead gets).frame } := by
      rw [rxLength, dif_neg hShort]
    have hStored := @rxMore_stored size d begun (cfpFrame address d 0) held cfpOverhead gets 2
      (by simp [begun]) rfl rfl rfl (Nat.zero_le _) hBytes
    have hCount : begun.rxCount + 2 = 2 := rfl
    rw [hCount] at hStored
    rw [if_neg hLong, hBegin, hLengthened]
    by_cases hSingle : d.payload.length ≤ 2
    · rw [if_pos hSingle] at hStored
      rw [if_pos (by rw [lastFrame]; omega), hStored]
      rfl
    · rw [if_neg hSingle] at hStored
      rw [if_neg (by rw [lastFrame]; omega)]
      obtain ⟨stored, hStoredId, hStoredLength, hTake, hEq⟩ := hStored
      rw [hEq]
      refine ⟨{ begun with rxCount := 2, remain := begun.remain - 1, packet := some stored },
        ⟨hUsed, hConn, by rw [lastFrame]; omega, rfl, ?_, stored, rfl, hStoredId,
          hStoredLength, hTake⟩, rfl, rfl⟩
      show cfpRemain (cfpFrame address d 0).id + 1 - 1 = _
      rw [BitVec.add_sub_cancel, cfpRemain_cfpFrame hSendable]

/-- The next frame continues it. -/
theorem rxMore_frame (hSendable : Sendable d) {k : Nat}
    (hCollecting : Collecting address.conn d k element) (supply : Option (AreaPacket size)) :
    if lastFrame d = k + 1 then
      rxElement supply element (cfpFrame address d (k + 1)) =
        ⟨PbufElement.cleared, 0, 0, 0, 0, [d]⟩
    else
      ∃ element', Collecting address.conn d (k + 1) element' ∧
        element'.lastUsed = element.lastUsed ∧
        rxElement supply element (cfpFrame address d (k + 1)) = ⟨element', 0, 0, 0, 0, []⟩ := by
  have hLast := lastFrame_lt hSendable
  obtain ⟨hUsed, hConn, hMore, hCount, hRemain, packet, hPacket, hId, hLength, hTake⟩ :=
    hCollecting
  have hReceived : rxElement supply element (cfpFrame address d (k + 1)) =
      rxMore element packet (cfpFrame address d (k + 1)) 0 0 := by
    have hType : ¬ cfpMore = cfpBegin := by decide
    simp [rxElement, hType, hPacket]
  have hNext : cfpRemain (cfpFrame address d (k + 1)).id = element.remain - 1 := by
    rw [cfpRemain_cfpFrame hSendable, hRemain,
      show lastFrame d - k = lastFrame d - (k + 1) + 1 by omega, BitVec.ofNat_add]
    exact (BitVec.add_sub_cancel _ _).symm
  have hBytes : (cfpFrame address d (k + 1)).data.drop 0 =
      (d.payload.drop element.rxCount).take 8 := by
    show ((wireContent d).drop (8 * (k + 1))).take 8 = _
    rw [wireContent_drop d (by omega), hCount, show 8 * (k + 1) - 6 = 8 * k + 2 by omega]
  have hShort : 8 * k + 2 ≤ d.payload.length := by
    rw [lastFrame] at hMore
    omega
  rw [← hCount] at hTake hShort
  have hStored := @rxMore_stored size d element _ packet 0 0 8 hNext hId hLength hTake hShort hBytes
  rw [hReceived]
  by_cases hEnd : d.payload.length ≤ element.rxCount + 8
  · rw [if_pos hEnd] at hStored
    rw [if_pos (by rw [lastFrame]; rw [lastFrame] at hMore; omega), hStored]
  · rw [if_neg hEnd] at hStored
    rw [if_neg (by rw [lastFrame]; omega)]
    obtain ⟨stored, hStoredId, hStoredLength, hStoredTake, hEq⟩ := hStored
    have hSum : element.rxCount + 8 = 8 * (k + 1) + 2 := by omega
    rw [hSum] at hStoredTake hEq
    refine ⟨{ element with
        rxCount := 8 * (k + 1) + 2
        remain := element.remain - 1
        packet := some stored },
      ⟨hUsed, hConn, by rw [lastFrame]; omega, rfl, ?_, stored, rfl, hStoredId, hStoredLength,
        hStoredTake⟩, rfl, hEq⟩
    show element.remain - 1 = _
    rw [← hNext, cfpRemain_cfpFrame hSendable]

end Frames

/-! ## Which element a frame comes to -/

/-- A new element for a packet, in the place of one that is free. -/
def PbufElement.opened (element : PbufElement size) (id now : BitVec 32) : PbufElement size :=
  { element with used := true, cfpid := id, remain := 0, lastUsed := now }

section Elements

variable {pbufs : List (PbufElement size)} {id now : BitVec 32}

/-- `csp_can_pbuf_new` cleans elements up until it finds one that is free, and opens it. -/
theorem cspCanPbufNew_spec (id now : BitVec 32) (pbufs : List (PbufElement size)) :
    let new := cspCanPbufNew id now pbufs
    new.2.1.length = pbufs.length ∧
    (new.2.1.map (·.held)).sum + new.2.2 = (pbufs.map (·.held)).sum ∧
    (new.1 = none → ∀ e ∈ new.2.1, e ∈ pbufs ∨ e = PbufElement.cleared) ∧
    ∀ i, new.1 = some i →
      (∃ e, (e ∈ pbufs ∨ e = PbufElement.cleared) ∧ e.used = false ∧
        new.2.1[i]? = some (e.opened id now)) ∧
      ∀ j e, j ≠ i → new.2.1[j]? = some e → e ∈ pbufs ∨ e = PbufElement.cleared := by
  induction pbufs with
  | nil => simp [cspCanPbufNew]
  | cons element rest ih =>
      obtain ⟨hLength, hSum, hNone, hSome⟩ := ih
      unfold cspCanPbufNew
      dsimp only
      -- the element, cleaned up if it has timed out
      set cleaned := if element.timedOut now = true then PbufElement.cleared else element
        with hCleaned
      have hKept : cleaned ∈ element :: rest ∨ cleaned = PbufElement.cleared := by
        rw [hCleaned]
        split
        · exact .inr rfl
        · exact .inl List.mem_cons_self
      have hHeld : cleaned.held + (if element.timedOut now = true then element.held else 0) =
          element.held := by
        rw [hCleaned]
        split
        · exact Nat.zero_add _
        · rfl
      have hMore : ∀ e, e ∈ rest ∨ e = PbufElement.cleared →
          e ∈ element :: rest ∨ e = PbufElement.cleared := fun e h =>
        h.imp_left (List.mem_cons_of_mem _)
      split
      · refine ⟨by simp [hLength], ?_, ?_, ?_⟩
        · simp only [List.map_cons, List.sum_cons]
          omega
        · intro hNew e hMem
          rcases List.mem_cons.mp hMem with rfl | hMem
          · exact hKept
          · exact hMore e (hNone (by simpa using hNew) e hMem)
        · intro i hNew
          obtain ⟨j, hj, rfl⟩ := Option.map_eq_some_iff.mp hNew
          obtain ⟨⟨e, hMem, hFree, hAt⟩, hOthers⟩ := hSome j hj
          refine ⟨⟨e, hMore e hMem, hFree, hAt⟩, ?_⟩
          rintro (_ | k) e' hNe hAt'
          · cases hAt'
            exact hKept
          · exact hMore e' (hOthers k e' (by omega) hAt')
      · next hFree =>
        refine ⟨rfl, ?_, by simp, ?_⟩
        · simp only [List.map_cons, List.sum_cons]
          show cleaned.held + _ + _ = _
          omega
        · intro i hNew
          cases hNew
          refine ⟨⟨cleaned, hKept, by simpa using hFree, rfl⟩, ?_⟩
          rintro (_ | k) e' hNe hAt'
          · exact absurd rfl hNe
          · exact .inl (List.mem_cons_of_mem _ (List.mem_of_getElem? hAt'))

/-- A frame is dealt with in its element. -/
theorem receive_eq (supply : Nat → Option (AreaPacket size)) {s : CanRx size} {i : Nat}
    {x : PbufElement size} (hAt : s.pbufs[i]? = some x) (frame : CanFrame) :
    s.receive supply i frame =
      { pbufs := s.pbufs.set i (rxElement (supply s.gets) x frame).element
        rxError := s.rxError + (rxElement (supply s.gets) x frame).rxError
        frame := s.frame + (rxElement (supply s.gets) x frame).frame
        gets := s.gets + (rxElement (supply s.gets) x frame).gets
        freed := s.freed + (rxElement (supply s.gets) x frame).freed
        injected := s.injected ++ (rxElement (supply s.gets) x frame).injected } := by
  rw [CanRx.receive, hAt]

/-- The element that a frame comes to: one that it belongs to, or a new one if it is the first
of a packet. -/
def Comes (pbufs : List (PbufElement size)) (now : BitVec 32) (frame : CanFrame)
    (x : PbufElement size) : Prop :=
  (∃ e ∈ pbufs, e.matches frame.id = true ∧ x = { e with lastUsed := now }) ∨
    cfpType frame.id = cfpBegin ∧ ∃ e, (e ∈ pbufs ∨ e = PbufElement.cleared) ∧ e.used = false ∧
      x = e.opened frame.id now

variable (supply : Nat → Option (AreaPacket size))

/-- What `csp_can_rx` does with a frame: it is dropped, or dealt with in an element. -/
theorem cspCanRx_cases (s : CanRx size) (now : BitVec 32) (frame : CanFrame) :
    let s' := cspCanRx supply s now frame
    s'.pbufs.length = s.pbufs.length ∧
    (s'.gets = s.gets ∧ s'.injected = s.injected ∧
        (s'.pbufs.map (·.held)).sum + s'.freed = (s.pbufs.map (·.held)).sum + s.freed ∧
        (∀ e ∈ s'.pbufs, e ∈ s.pbufs ∨ e = PbufElement.cleared) ∨
      ∃ x, Comes s.pbufs now frame x ∧
        let effect := rxElement (supply s.gets) x frame
        s'.gets = s.gets + effect.gets ∧ s'.injected = s.injected ++ effect.injected ∧
        (s'.pbufs.map (·.held)).sum + s'.freed + x.held =
          (s.pbufs.map (·.held)).sum + s.freed + effect.freed + effect.element.held ∧
        ∀ e ∈ s'.pbufs, e = effect.element ∨ e ∈ s.pbufs ∨ e = PbufElement.cleared) := by
  have hSet : ∀ (xs : List (PbufElement size)) i y, ∀ e ∈ xs.set i y,
      e = y ∨ ∃ j ≠ i, xs[j]? = some e := by
    intro xs i y e hMem
    obtain ⟨j, hj⟩ := List.mem_iff_getElem?.mp hMem
    rw [List.getElem?_set] at hj
    split at hj
    · split at hj
      · exact .inl (Option.some.inj hj).symm
      · cases hj
    · next hNe => exact .inr ⟨j, fun h => hNe h.symm, hj⟩
  unfold cspCanRx
  dsimp only
  split
  · next i hFind =>
    rw [cspCanPbufFind, List.findIdx?_eq_some_iff_getElem] at hFind
    obtain ⟨hLt, hMatches, -⟩ := hFind
    have hOld : s.pbufs[i]? = some s.pbufs[i] := List.getElem?_eq_getElem hLt
    let x : PbufElement size := { s.pbufs[i] with lastUsed := now }
    have hModify : s.pbufs.modify i (fun e => { e with lastUsed := now }) = s.pbufs.set i x := by
      rw [List.modify_eq_set_getElem?, hOld]
      rfl
    have hAt : (s.pbufs.set i x)[i]? = some x := by simp [hLt]
    rw [hModify, receive_eq supply hAt]
    dsimp only
    rw [List.set_set]
    refine ⟨List.length_set, .inr ⟨x, .inl ⟨_, List.getElem_mem hLt, hMatches, rfl⟩, rfl, rfl,
      ?_, ?_⟩⟩
    · have hSum := sum_map_set (fun e : PbufElement size => e.held) hOld
        (rxElement (supply s.gets) x frame).element
      have hHeld : x.held = s.pbufs[i].held := rfl
      omega
    · intro e hMem
      rcases hSet _ _ _ e hMem with hNew | ⟨j, -, hj⟩
      · exact .inl hNew
      · exact .inr (.inl (List.mem_of_getElem? hj))
  · split
    · next hType =>
      obtain ⟨hLength, hSum, hNone, hSome⟩ := cspCanPbufNew_spec frame.id now s.pbufs
      split
      · next i hNew =>
        obtain ⟨⟨e, hMem, hFree, hAt⟩, hOthers⟩ := hSome i hNew
        rw [receive_eq supply (s := { s with
          pbufs := (cspCanPbufNew frame.id now s.pbufs).2.1
          freed := s.freed + (cspCanPbufNew frame.id now s.pbufs).2.2 }) hAt]
        dsimp only
        refine ⟨List.length_set.trans hLength, .inr ⟨e.opened frame.id now,
          .inr ⟨hType, e, hMem, hFree, rfl⟩, rfl, rfl, ?_, ?_⟩⟩
        · have hChange := sum_map_set (fun e : PbufElement size => e.held) hAt
            (rxElement (supply s.gets) (e.opened frame.id now) frame).element
          omega
        · intro e' hMem'
          rcases hSet _ _ _ e' hMem' with hNew' | ⟨j, hNe, hj⟩
          · exact .inl hNew'
          · exact .inr (hOthers j e' hNe hj)
      · next hNew => exact ⟨hLength, .inl ⟨rfl, rfl, by dsimp only; omega, hNone hNew⟩⟩
    · exact ⟨rfl, .inl ⟨rfl, rfl, rfl, fun e hMem => .inl hMem⟩⟩

/-- What every frame keeps is kept by a run. -/
theorem canRun_keeps {motive : CanRx size → Prop} {events : List (BitVec 32 × CanFrame)}
    {s : CanRx size} (hStart : motive s)
    (hStep : ∀ s, ∀ event ∈ events, motive s → motive (cspCanRx supply s event.1 event.2)) :
    motive (canRun supply s events) := by
  unfold canRun
  induction events generalizing s with
  | nil => exact hStart
  | cons event events ih =>
      exact ih (hStep s event List.mem_cons_self hStart)
        fun s event hMem => hStep s event (List.mem_cons_of_mem _ hMem)

/-! ## Buffers -/

/-- An element that is used holds a packet, and one that is not holds none. -/
def PbufElement.Whole (element : PbufElement size) : Prop :=
  element.used = element.packet.isSome

/-- The number of buffers that `csp_buffer_get` has returned. -/
def buffersGot (gets : Nat) : Nat := (List.range gets).countP fun k => (supply k).isSome

theorem rxMore_balance {element : PbufElement size} {packet : FittingPacket size}
    (hUsed : element.used = true) (hPacket : element.packet = some packet) (frame : CanFrame)
    (offset gets : Nat) :
    let effect := rxMore element packet frame offset gets
    effect.element.Whole ∧ effect.gets = gets ∧
      effect.freed + effect.injected.length + effect.element.held = 1 := by
  have hHeld : element.held = 1 := by simp [PbufElement.held, hPacket]
  have hCleared : (PbufElement.cleared : PbufElement size).Whole := rfl
  unfold rxMore
  split
  · exact ⟨hCleared, rfl, hHeld⟩
  · dsimp only
    split
    · exact ⟨hCleared, rfl, hHeld⟩
    · split
      · exact ⟨hCleared, rfl, rfl⟩
      · exact ⟨hUsed, rfl, rfl⟩

theorem rxBegin_balance {element : PbufElement size} (hUsed : element.used = true)
    (buffer : AreaPacket size) (frame : CanFrame) (frames gets : Nat) :
    let effect := rxBegin element buffer frame frames gets
    effect.element.Whole ∧ effect.gets = gets ∧
      effect.freed + effect.injected.length + effect.element.held = 1 := by
  unfold rxBegin rxLength
  split
  · exact ⟨rfl, rfl, rfl⟩
  · let begun : PbufElement size :=
      { element with
        rxCount := 0
        remain := cfpRemain frame.id + 1
        packet := some ⟨_, Nat.not_lt.mp (not_or.mp ‹_›).2⟩ }
    have hBegun : begun.used = true := hUsed
    exact rxMore_balance hBegun rfl frame cfpOverhead gets

/-- A frame neither loses a buffer nor frees one twice. -/
theorem rxElement_balance {pbufs : List (PbufElement size)} (hWhole : ∀ e ∈ pbufs, e.Whole)
    {now : BitVec 32} {frame : CanFrame} {x : PbufElement size} (hComes : Comes pbufs now frame x)
    (got : Option (AreaPacket size)) :
    let effect := rxElement got x frame
    effect.element.Whole ∧
      (effect.gets = 0 ∧
          effect.freed + effect.injected.length + effect.element.held = x.held ∨
        effect.gets = 1 ∧ effect.freed + effect.injected.length + effect.element.held =
          x.held + if got.isSome then 1 else 0) := by
  have hUsed : x.used = true := by
    rcases hComes with ⟨e, -, hMatches, rfl⟩ | ⟨-, e, -, -, rfl⟩
    · rw [PbufElement.matches, Bool.and_eq_true] at hMatches
      exact hMatches.1
    · rfl
  have hCleared : (PbufElement.cleared : PbufElement size).Whole := rfl
  unfold rxElement
  split
  · split
    · exact ⟨hCleared, .inl ⟨rfl, Nat.add_zero _⟩⟩
    · split
      · next packet hPacket =>
        have hHeld : x.held = 1 := by simp [PbufElement.held, hPacket]
        obtain ⟨hResult, hGets, hSum⟩ := rxBegin_balance hUsed packet.val frame 1 0
        exact ⟨hResult, .inl ⟨hGets, hSum.trans hHeld.symm⟩⟩
      · next hPacket =>
        have hHeld : x.held = 0 := by simp [PbufElement.held, hPacket]
        cases got with
        | some buffer =>
            obtain ⟨hResult, hGets, hSum⟩ := rxBegin_balance hUsed buffer frame 0 1
            exact ⟨hResult, .inr ⟨hGets, by rw [hHeld]; exact hSum⟩⟩
        | none => exact ⟨hCleared, .inr ⟨rfl, rfl⟩⟩
  · next hType =>
    split
    · next packet hPacket =>
      have hHeld : x.held = 1 := by simp [PbufElement.held, hPacket]
      obtain ⟨hResult, hGets, hSum⟩ := rxMore_balance hUsed hPacket frame 0 0
      exact ⟨hResult, .inl ⟨hGets, hSum.trans hHeld.symm⟩⟩
    · next hPacket =>
      -- a frame that is not the first one comes to an element with a packet
      rcases hComes with ⟨e, hMem, -, rfl⟩ | ⟨hBegin, -⟩
      · have hNone : e.used = e.packet.isSome := hWhole e hMem
        have hNo : e.packet = none := hPacket
        rw [hNo] at hNone
        rw [hNone] at hUsed
        cases hUsed
      · exact absurd hBegin hType

/-- Whatever frames arrive, a buffer is in an element, or has been freed, or has been handed on
with a packet. -/
theorem canRun_buffers (events : List (BitVec 32 × CanFrame)) :
    let s := canRun supply CanRx.added events
    (s.pbufs.map (·.held)).sum + s.freed + s.injected.length = buffersGot supply s.gets ∧
      s.pbufs.length = pbufElements ∧ ∀ e ∈ s.pbufs, e.Whole := by
  refine canRun_keeps supply (motive := fun s =>
    (s.pbufs.map (·.held)).sum + s.freed + s.injected.length = buffersGot supply s.gets ∧
      s.pbufs.length = pbufElements ∧ ∀ e ∈ s.pbufs, e.Whole) ?_ ?_
  · refine ⟨rfl, rfl, fun e hMem => ?_⟩
    rw [List.eq_of_mem_replicate hMem]
    rfl
  rintro s ⟨now, frame⟩ - ⟨hSum, hCount, hWhole⟩
  dsimp only
  obtain ⟨hLength, ⟨hGets, hInjected, hBalance, hMem⟩ | ⟨x, hComes, hGets, hInjected, hBalance,
    hMem⟩⟩ := cspCanRx_cases supply s now frame
  · refine ⟨?_, hLength.trans hCount, fun e hIn => ?_⟩
    · rw [hGets, hInjected]
      omega
    · rcases hMem e hIn with hOld | rfl
      · exact hWhole e hOld
      · rfl
  · obtain ⟨hResult, hEffect⟩ := rxElement_balance hWhole hComes (supply s.gets)
    refine ⟨?_, hLength.trans hCount, fun e hIn => ?_⟩
    · rw [hInjected, List.length_append, hGets]
      rcases hEffect with ⟨hNone, hEffect⟩ | ⟨hOne, hEffect⟩
      · rw [hNone, Nat.add_zero]
        omega
      · rw [hOne, buffersGot, List.range_succ, List.countP_append, List.countP_singleton]
        rw [buffersGot] at hSum
        omega
    · rcases hMem e hIn with rfl | hOld | rfl
      · exact hResult
      · exact hWhole e hOld
      · rfl

/-! ## What is handed on -/

/-- The element has nothing to do with a packet, or holds the first bytes of one that has been
sent. -/
def PbufElement.Sound (sent : List (Address × Datagram)) (element : PbufElement size) : Prop :=
  element.used = false ∧ element.packet = none ∨
    ∃ t ∈ sent, ∃ k, Collecting t.1.conn t.2 k element

/-- The first frame is long enough. -/
theorem rxElement_first (got : Option (AreaPacket size)) (x : PbufElement size)
    (address : Address) (d : Datagram) :
    rxElement got x (cfpFrame address d 0) =
      match x.packet with
      | some packet => rxBegin x packet.val (cfpFrame address d 0) 1 0
      | none =>
          match got with
          | some buffer => rxBegin x buffer (cfpFrame address d 0) 0 1
          | none => x.giveUp 0 1 1 := by
  have hType : cfpType (cfpFrame address d 0).id = cfpBegin := by simp
  have hLong : ¬ (cfpFrame address d 0).data.length < cfpOverhead := by
    show ¬ ((wireContent d).take 8).length < 6
    rw [wireContent_take]
    simp only [List.length_append, length_toBigEndian]
    omega
  cases hPacket : x.packet with
  | some packet => simp [rxElement, hType, hLong, hPacket]
  | none =>
      cases got with
      | some buffer => simp [rxElement, hType, hLong, hPacket]
      | none => simp [rxElement, hType, hLong, hPacket]

/-- A frame of a packet leaves the element of the packet so. -/
theorem rxElement_sound {address : Address} {d : Datagram} (hSendable : Sendable d)
    {x : PbufElement size} (hUsed : x.used = true) (hConn : connOf x.cfpid = address.conn) {j : Nat}
    (hLe : j ≤ lastFrame d) (hHeld : x.packet = none ∧ j = 0 ∨ ∃ k, Collecting address.conn d k x)
    (got : Option (AreaPacket size)) :
    let effect := rxElement got x (cfpFrame address d j)
    (effect.element = PbufElement.cleared ∧ (effect.injected = [] ∨ effect.injected = [d])) ∨
      (∃ k, Collecting address.conn d k effect.element) ∧ effect.injected = [] := by
  have hBegun : ∀ (buffer : AreaPacket size) frames gets,
      let effect := rxBegin x buffer (cfpFrame address d 0) frames gets
      (effect.element = PbufElement.cleared ∧ (effect.injected = [] ∨ effect.injected = [d])) ∨
        (∃ k, Collecting address.conn d k effect.element) ∧ effect.injected = [] := by
    intro buffer frames gets
    have hBegin := rxBegin_frame hSendable hUsed hConn buffer frames gets
    split at hBegin
    · rw [hBegin]
      exact .inl ⟨rfl, .inl rfl⟩
    · split at hBegin
      · rw [hBegin]
        exact .inl ⟨rfl, .inr rfl⟩
      · obtain ⟨element', hCollecting, -, hEq⟩ := hBegin
        rw [hEq]
        exact .inr ⟨⟨0, hCollecting⟩, rfl⟩
  rcases Nat.eq_zero_or_pos j with rfl | hPos
  · rw [rxElement_first]
    split
    · exact hBegun _ 1 0
    · split
      · exact hBegun _ 0 1
      · exact .inl ⟨rfl, .inl rfl⟩
  · obtain ⟨-, rfl⟩ | ⟨k, hCollecting⟩ := hHeld
    · exact absurd hPos (Nat.lt_irrefl 0)
    · by_cases hNext : j = k + 1
      · subst hNext
        have hMore := rxMore_frame hSendable hCollecting got
        split at hMore
        · rw [hMore]
          exact .inl ⟨rfl, .inr rfl⟩
        · obtain ⟨element', hCollecting', -, hEq⟩ := hMore
          rw [hEq]
          exact .inr ⟨⟨k + 1, hCollecting'⟩, rfl⟩
      · -- another frame than the next one is told by what it says to remain
        have hLast := lastFrame_lt hSendable
        have hMore := hCollecting.more
        obtain ⟨packet, hPacket, -⟩ := hCollecting.held
        have hOther : cfpRemain (cfpFrame address d j).id ≠ x.remain - 1 := by
          rw [cfpRemain_cfpFrame hSendable, hCollecting.remain,
            show lastFrame d - k = lastFrame d - (k + 1) + 1 by omega, BitVec.ofNat_add]
          intro hEq
          have hSame :
              BitVec.ofNat 32 (lastFrame d - j) = BitVec.ofNat 32 (lastFrame d - (k + 1)) :=
            hEq.trans (BitVec.add_sub_cancel _ _)
          rw [← BitVec.toNat_inj, BitVec.toNat_ofNat, BitVec.toNat_ofNat] at hSame
          omega
        have hType : ¬ cfpType (cfpFrame address d j).id = cfpBegin := by
          rw [cfpType_cfpFrame, if_neg (by omega)]
          decide
        unfold rxElement
        rw [if_neg hType]
        simp only [hPacket, rxMore, if_pos hOther]
        exact .inl ⟨rfl, .inl rfl⟩

/-- The identification of a frame tells its packet. -/
structure Distinct (sent : List (Address × Datagram)) : Prop where
  conn : ∀ t ∈ sent, ∀ t' ∈ sent, t.1.conn = t'.1.conn → t = t'
  sendable : ∀ t ∈ sent, Sendable t.2

/-- Whatever happens to the frames of the packets that have been sent, only packets that have
been sent are handed on. -/
theorem canRun_sound {sent : List (Address × Datagram)} (hDistinct : Distinct sent)
    {events : List (BitVec 32 × CanFrame)}
    (hEvents : ∀ event ∈ events, ∃ t ∈ sent, event.2 ∈ cfpFramesFrom t.1 t.2 0) :
    let s := canRun supply CanRx.added events
    (∀ e ∈ s.pbufs, e.Sound sent) ∧ ∀ d ∈ s.injected, ∃ t ∈ sent, d = t.2 := by
  refine canRun_keeps supply (motive := fun s => (∀ e ∈ s.pbufs, e.Sound sent) ∧
    ∀ d ∈ s.injected, ∃ t ∈ sent, d = t.2) ?_ ?_
  · refine ⟨fun e hMem => ?_, fun d hMem => by cases hMem⟩
    rw [List.eq_of_mem_replicate hMem]
    exact .inl ⟨rfl, rfl⟩
  rintro s ⟨now, frame⟩ hEvent ⟨hSound, hInjected⟩
  dsimp only
  obtain ⟨t, hSent, hFrame⟩ := hEvents _ hEvent
  obtain ⟨j, hj, hEq⟩ := mem_cfpFramesFrom.mp hFrame
  obtain rfl : frame = cfpFrame t.1 t.2 j := hEq
  obtain ⟨-, ⟨-, hSame, -, hMem⟩ | ⟨x, hComes, -, hHanded, -, hMem⟩⟩ :=
    cspCanRx_cases supply s now (cfpFrame t.1 t.2 j)
  · rw [hSame]
    refine ⟨fun e hIn => ?_, hInjected⟩
    rcases hMem e hIn with hOld | rfl
    · exact hSound e hOld
    · exact .inl ⟨rfl, rfl⟩
  · have hElement : x.used = true ∧ connOf x.cfpid = t.1.conn ∧
        (x.packet = none ∧ j = 0 ∨ ∃ k, Collecting t.1.conn t.2 k x) := by
      rcases hComes with ⟨e, hIn, hMatches, rfl⟩ | ⟨hType, e, hIn, hFree, rfl⟩
      · rw [PbufElement.matches, Bool.and_eq_true, beq_iff_eq] at hMatches
        obtain ⟨hUsed, hConn⟩ := hMatches
        have hFrame : connOf (cfpFrame t.1 t.2 j).id = t.1.conn := connOf_cfpFrame j
        have hConn : connOf e.cfpid = t.1.conn := Eq.trans hConn hFrame
        refine ⟨hUsed, hConn, .inr ?_⟩
        rcases hSound e hIn with ⟨hFree, -⟩ | ⟨t', hSent', k, hCollecting⟩
        · rw [hFree] at hUsed
          cases hUsed
        · -- a packet is recognised by its identification
          obtain rfl := hDistinct.conn t' hSent' t hSent (hCollecting.conn.symm.trans hConn)
          exact ⟨k, hCollecting.used, hCollecting.conn, hCollecting.more, hCollecting.rxCount,
            hCollecting.remain, hCollecting.held⟩
      · refine ⟨rfl, connOf_cfpFrame j, .inl ⟨?_, ?_⟩⟩
        · rcases hIn with hOld | rfl
          · rcases hSound e hOld with ⟨-, hNone⟩ | ⟨t', -, k, hCollecting⟩
            · exact hNone
            · rw [hCollecting.used] at hFree
              cases hFree
          · rfl
        · by_contra hNe
          rw [cfpType_cfpFrame, if_neg hNe] at hType
          exact absurd hType (by decide)
    obtain ⟨hUsed, hConn, hHeld⟩ := hElement
    have hResult := rxElement_sound (hDistinct.sendable t hSent) hUsed hConn hj hHeld
      (supply s.gets)
    rw [hHanded]
    constructor
    · intro e hIn
      rcases hMem e hIn with rfl | hOld | rfl
      · rcases hResult with ⟨hCleared, -⟩ | ⟨⟨k, hCollecting⟩, -⟩
        · rw [hCleared]
          exact .inl ⟨rfl, rfl⟩
        · exact .inr ⟨t, hSent, k, hCollecting⟩
      · exact hSound e hOld
      · exact .inl ⟨rfl, rfl⟩
    · intro d hIn
      rcases List.mem_append.mp hIn with hOld | hNew
      · exact hInjected d hOld
      · rcases hResult with ⟨-, hNone | hOne⟩ | ⟨-, hNone⟩
        · rw [hNone] at hNew
          cases hNew
        · rw [hOne] at hNew
          exact ⟨t, hSent, List.mem_singleton.mp hNew⟩
        · rw [hNone] at hNew
          cases hNew

end Elements

end Can
end Csp
end CubeSatComm
