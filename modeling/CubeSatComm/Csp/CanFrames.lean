import CubeSatComm.Csp.Can

/-!
# The frames of a packet

`csp_can_tx` cuts the header, the length and the data of a packet into pieces of 8 bytes,
and sends each of them in a frame that tells how many others are behind it.
-/

namespace CubeSatComm
namespace Csp
namespace Can

open Lib

/-! ## Identifiers -/

section Identifiers

variable (src dest ident type : BitVec 32) (remain : Nat)

/-- What identifies the packet of a frame. -/
def connOf (id : BitVec 32) : BitVec 32 := id &&& cfpIdConnMask

/-- The frames of a packet have the same identification. -/
theorem connOf_cfpIdentifier :
    connOf (cfpIdentifier src dest ident type remain) =
      cfpMakeSrc src ||| cfpMakeDst dest ||| cfpMakeId ident := by
  have hMask : cfpIdConnMask =
      bitPlace (1 <<< 5 - 1) 5 24 ||| bitPlace (1 <<< 5 - 1) 5 19 |||
        bitPlace (1 <<< 10 - 1) 10 0 := rfl
  have hSrc : bitPlace src 5 24 &&& cfpIdConnMask = bitPlace src 5 24 := by
    rw [hMask, BitVec.and_or_distrib_left, BitVec.and_or_distrib_left,
      bitPlace_and_self _ _ (by decide), bitPlace_and_of_disjoint _ _ (by omega),
      bitPlace_and_of_disjoint _ _ (by omega)]
    simp
  have hDst : bitPlace dest 5 19 &&& cfpIdConnMask = bitPlace dest 5 19 := by
    rw [hMask, BitVec.and_or_distrib_left, BitVec.and_or_distrib_left,
      bitPlace_and_of_disjoint _ _ (by omega), bitPlace_and_self _ _ (by decide),
      bitPlace_and_of_disjoint _ _ (by omega)]
    simp
  have hIdent : bitPlace ident 10 0 &&& cfpIdConnMask = bitPlace ident 10 0 := by
    rw [hMask, BitVec.and_or_distrib_left, BitVec.and_or_distrib_left,
      bitPlace_and_of_disjoint _ _ (by omega), bitPlace_and_of_disjoint _ _ (by omega),
      bitPlace_and_self _ _ (by decide)]
    simp
  have hOther : ∀ (value : BitVec 32) (size low : Nat), 10 ≤ low → low + size ≤ 19 →
      bitPlace value size low &&& cfpIdConnMask = 0#32 := by
    intro value size low hLow hHigh
    rw [hMask, BitVec.and_or_distrib_left, BitVec.and_or_distrib_left,
      bitPlace_and_of_disjoint _ _ (by omega), bitPlace_and_of_disjoint _ _ (by omega),
      bitPlace_and_of_disjoint _ _ (by omega)]
    simp
  show (bitPlace src 5 24 ||| bitPlace dest 5 19 ||| bitPlace ident 10 0 |||
      bitPlace type 1 18 ||| bitPlace (BitVec.ofNat 32 remain) 8 10) &&& cfpIdConnMask = _
  simp only [BitVec.and_or_distrib_right, hSrc, hDst, hIdent, hOther _ 1 18 (by omega) (by omega),
    hOther _ 8 10 (by omega) (by omega)]
  rw [BitVec.or_zero, BitVec.or_zero]
  rfl

@[simp] theorem cfpType_cfpIdentifier :
    cfpType (cfpIdentifier src dest ident type remain) = type &&& bitMask 32 1 := by
  simp [cfpIdentifier, cfpType, bitField_or, cfpMakeSrc, cfpMakeDst, cfpMakeId, cfpMakeType,
    cfpMakeRemain, cfpHostSize, cfpTypeSize, cfpRemainSize, cfpIdSize,
    bitField_bitPlace_of_disjoint, bitField_bitPlace]

@[simp] theorem cfpRemain_cfpIdentifier :
    cfpRemain (cfpIdentifier src dest ident type remain) =
      BitVec.ofNat 32 remain &&& bitMask 32 8 := by
  simp [cfpIdentifier, cfpRemain, bitField_or, cfpMakeSrc, cfpMakeDst, cfpMakeId, cfpMakeType,
    cfpMakeRemain, cfpHostSize, cfpTypeSize, cfpRemainSize, cfpIdSize,
    bitField_bitPlace_of_disjoint, bitField_bitPlace]

end Identifiers

theorem ofNat_and_bitMask {remain : Nat} (hLt : remain < 256) :
    BitVec.ofNat 32 remain &&& bitMask 32 8 = BitVec.ofNat 32 remain := by
  rw [bitMask, ← BitVec.ofNat_and, Nat.and_two_pow_sub_one_eq_mod, Nat.mod_eq_of_lt (by omega)]

/-! ## The frames -/

/-- From whom and to whom a packet is sent, and under which identification. -/
structure Address where
  src : BitVec 32
  dest : BitVec 32
  ident : BitVec 32

/-- What the frames of a packet are recognised by. -/
def Address.conn (address : Address) : BitVec 32 :=
  cfpMakeSrc address.src ||| cfpMakeDst address.dest ||| cfpMakeId address.ident

/-- What the frames of a packet carry. -/
def wireContent (d : Datagram) : List UInt8 :=
  toBigEndian 4 d.id ++ toBigEndian 2 d.payload.length ++ d.payload

/-- The number of the last frame. -/
def lastFrame (d : Datagram) : Nat := (d.payload.length + 5) / 8

/-- The `k`-th frame of a packet. -/
def cfpFrame (address : Address) (d : Datagram) (k : Nat) : CanFrame :=
  ⟨cfpIdentifier address.src address.dest address.ident (if k = 0 then cfpBegin else cfpMore)
      (lastFrame d - k), ((wireContent d).drop (8 * k)).take 8⟩

/-- All frames of a packet, from the `k`-th on. -/
def cfpFramesFrom (address : Address) (d : Datagram) (k : Nat) : List CanFrame :=
  (List.range' k (lastFrame d + 1 - k)).map (cfpFrame address d)

theorem cfpFramesFrom_cons {address : Address} {d : Datagram} {k : Nat} (hLe : k ≤ lastFrame d) :
    cfpFramesFrom address d k = cfpFrame address d k :: cfpFramesFrom address d (k + 1) := by
  rw [cfpFramesFrom, show lastFrame d + 1 - k = lastFrame d - k + 1 by omega, List.range'_succ,
    List.map_cons, cfpFramesFrom, show lastFrame d + 1 - (k + 1) = lastFrame d - k by omega]

theorem cfpFramesFrom_nil {address : Address} {d : Datagram} {k : Nat} (hLt : lastFrame d < k) :
    cfpFramesFrom address d k = [] := by
  rw [cfpFramesFrom, show lastFrame d + 1 - k = 0 by omega]
  rfl

theorem mem_cfpFramesFrom {address : Address} {d : Datagram} {frame : CanFrame} :
    frame ∈ cfpFramesFrom address d 0 ↔ ∃ k ≤ lastFrame d, frame = cfpFrame address d k := by
  simp only [cfpFramesFrom, List.mem_map, List.mem_range'_1]
  constructor
  · rintro ⟨k, hk, rfl⟩
    exact ⟨k, by omega, rfl⟩
  · rintro ⟨k, hk, rfl⟩
    exact ⟨k, by omega, rfl⟩

theorem wireContent_drop (d : Datagram) {k : Nat} (hPos : 0 < k) :
    (wireContent d).drop (8 * k) = d.payload.drop (8 * k - 6) := by
  have hLength : (toBigEndian 4 d.id ++ toBigEndian 2 d.payload.length).length = 6 := by simp
  rw [wireContent, List.drop_append, List.drop_eq_nil_of_le (by omega), List.nil_append, hLength]

theorem wireContent_take (d : Datagram) :
    (wireContent d).take 8 =
      toBigEndian 4 d.id ++ toBigEndian 2 d.payload.length ++ d.payload.take 2 := by
  have hLength : (toBigEndian 4 d.id ++ toBigEndian 2 d.payload.length).length = 6 := by simp
  rw [wireContent, List.take_append, List.take_of_length_le (by omega), hLength]

/-! ## Sending them -/

section Sending

variable {size : Nat} {packet : AreaPacket size} (hFits : packet.length ≤ size)
  (address : Address) (accepts : Nat → Bool)

include hFits

omit hFits in
theorem canTxLoop_end (fuel k : Nat) {txCount : Nat} (hEnd : packet.length ≤ txCount) :
    canTxLoop packet address.src address.dest address.ident accepts fuel k txCount =
      (true, []) := by
  cases fuel with
  | zero => rfl
  | succ fuel => rw [canTxLoop, if_neg (by omega)]

/-- What a pass of the loop sends. -/
theorem frame_eq {k : Nat} (hPos : 0 < k) (hMore : 8 * k - 6 < packet.length) :
    (⟨cfpIdentifier address.src address.dest address.ident cfpMore
        ((packet.length - (8 * k - 6) - min 8 (packet.length - (8 * k - 6)) + 8 - 1) / 8),
      (packet.data.drop (8 * k - 6)).take (min 8 (packet.length - (8 * k - 6)))⟩ : CanFrame) =
      cfpFrame address packet.datagram k := by
  have hLength : packet.datagram.payload.length = packet.length := packet.length_payload hFits
  have hRemain : (packet.length - (8 * k - 6) - min 8 (packet.length - (8 * k - 6)) + 8 - 1) / 8 =
      lastFrame packet.datagram - k := by
    rw [lastFrame, hLength]
    omega
  rw [cfpFrame, hRemain, if_neg (by omega), wireContent_drop _ hPos]
  congr 1
  show _ = ((packet.data.take packet.length).drop (8 * k - 6)).take 8
  rw [List.drop_take, List.take_take]

/-- The loop sends the frames from the `k`-th on, up to the one that the driver refuses. -/
theorem canTxLoop_spec {fuel k : Nat} (hPos : 0 < k)
    (hFuel : packet.length ≤ fuel + (8 * k - 6)) :
    let sent := canTxLoop packet address.src address.dest address.ident accepts fuel k (8 * k - 6)
    sent.2 <+: cfpFramesFrom address packet.datagram k ∧
      (sent.1 = true → sent.2 = cfpFramesFrom address packet.datagram k) ∧
      ((∀ j, accepts j = true) → sent.1 = true) := by
  have hLength : packet.datagram.payload.length = packet.length := packet.length_payload hFits
  have hLast : lastFrame packet.datagram = (packet.length + 5) / 8 := by rw [lastFrame, hLength]
  have hEnd : ∀ k, 0 < k → packet.length ≤ 8 * k - 6 →
      cfpFramesFrom address packet.datagram k = [] := by
    intro k hPos hLe
    exact cfpFramesFrom_nil (by omega)
  induction fuel generalizing k with
  | zero =>
      rw [hEnd k hPos (by omega)]
      simp [canTxLoop]
  | succ fuel ih =>
      unfold canTxLoop
      dsimp only
      by_cases hMore : 8 * k - 6 < packet.length
      · rw [if_pos hMore]
        have hk : k ≤ lastFrame packet.datagram := by omega
        have hBytes : (if packet.length - (8 * k - 6) ≥ maxBytesInCanFrame then maxBytesInCanFrame
            else packet.length - (8 * k - 6)) = min 8 (packet.length - (8 * k - 6)) := by
          rw [maxBytesInCanFrame]
          split <;> omega
        rw [hBytes]
        simp only [maxBytesInCanFrame]
        rw [frame_eq hFits address hPos hMore, cfpFramesFrom_cons hk]
        -- behind a short frame there is none
        have hRest : canTxLoop packet address.src address.dest address.ident accepts fuel (k + 1)
            (8 * k - 6 + min 8 (packet.length - (8 * k - 6))) =
            canTxLoop packet address.src address.dest address.ident accepts fuel (k + 1)
              (8 * (k + 1) - 6) := by
          by_cases hFull : 8 ≤ packet.length - (8 * k - 6)
          · rw [Nat.min_eq_left hFull, show 8 * k - 6 + 8 = 8 * (k + 1) - 6 by omega]
          · rw [canTxLoop_end address accepts _ _ (by omega),
              canTxLoop_end address accepts _ _ (by omega)]
        rw [hRest]
        obtain ⟨hPrefix, hAll, hTaken⟩ := @ih (k + 1) (by omega) (by omega)
        split
        · refine ⟨(List.prefix_cons_inj _).mpr hPrefix, fun hSent => ?_, hTaken⟩
          rw [hAll hSent]
        · next hRefused =>
          exact ⟨List.nil_prefix, by simp, fun h => absurd (h k) hRefused⟩
      · rw [if_neg hMore, hEnd k hPos (by omega)]
        simp

/-- `csp_can_tx` sends the frames of the packet, up to the one that the driver refuses. -/
theorem cspCanTx_spec (via : Option Nat) (frameId : BitVec 32)
    (hShort : packet.length ≤ maxCanDataSize) :
    let address : Address := ⟨BitVec.ofNat 32 (idSrc packet.id),
      BitVec.ofNat 32 (via.getD (idDst packet.id)), frameId⟩
    (cspCanTx packet via frameId accepts).frames <+: cfpFramesFrom address packet.datagram 0 ∧
      ((∀ j, accepts j = true) →
        cspCanTx packet via frameId accepts =
          ⟨cspErrNone, cfpFramesFrom address packet.datagram 0, true, frameId + 1, 0⟩) := by
  intro address
  have hLength : packet.datagram.payload.length = packet.length := packet.length_payload hFits
  have hFirst : (⟨cfpIdentifier address.src address.dest address.ident cfpBegin
        ((packet.length + cfpOverhead - 1) / maxBytesInCanFrame),
      toBigEndian 4 packet.id ++ toBigEndian 2 packet.length ++
        packet.data.take (min 2 packet.length)⟩ : CanFrame) =
      cfpFrame address packet.datagram 0 := by
    rw [cfpFrame, if_pos rfl, Nat.mul_zero, List.drop_zero, wireContent_take, hLength, lastFrame,
      hLength]
    congr 2
    show _ = (packet.data.take packet.length).take 2
    rw [List.take_take]
  have hBytes : (if packet.length ≤ maxBytesInCanFrame - cfpOverhead then packet.length
      else maxBytesInCanFrame - cfpOverhead) = min 2 packet.length := by
    rw [maxBytesInCanFrame, cfpOverhead]
    split <;> omega
  have hRest : canTxLoop packet address.src address.dest address.ident accepts packet.length 1
        (min 2 packet.length) =
      canTxLoop packet address.src address.dest address.ident accepts packet.length 1
        (8 * 1 - 6) := by
    by_cases hFull : 2 ≤ packet.length
    · rw [Nat.min_eq_left hFull]
    · rw [canTxLoop_end address accepts _ _ (by omega),
        canTxLoop_end address accepts _ _ (by omega)]
  obtain ⟨hPrefix, hAll, hTaken⟩ :=
    canTxLoop_spec hFits address accepts Nat.one_pos (Nat.le_add_right packet.length (8 * 1 - 6))
  unfold cspCanTx
  dsimp only
  rw [if_neg (by omega), hBytes, hRest, hFirst, cfpFramesFrom_cons (Nat.zero_le _)]
  split
  · split
    · next hSent =>
      rw [hAll hSent]
      exact ⟨List.prefix_refl _, fun _ => rfl⟩
    · next hRefused =>
      exact ⟨(List.prefix_cons_inj _).mpr hPrefix, fun h => absurd (hTaken h) hRefused⟩
  · next hRefused => exact ⟨List.nil_prefix, fun h => absurd (h 0) hRefused⟩

end Sending

end Can
end Csp
end CubeSatComm
