import CubeSatComm.Csp.DataPacket

/-!
# Trailers

The checksum and the authentication code of CSP are put behind the data of a packet, and
compared and taken off again, in the same way: four bytes that depend on the data in front
of them and, if the caller wants it so, on the header.
-/

namespace CubeSatComm
namespace Csp

open Lib

/-- What a layer puts behind the data, and what it refuses a packet with. -/
structure Trailer where
  size : Nat
  bytes : List UInt8 → List UInt8
  length_bytes : ∀ data, (bytes data).length = size
  error : Int
  error_ne : error ≠ cspErrNone

/-- What a trailer covers in front of the data. -/
def AreaPacket.coveredHeader {size : Nat} (packet : AreaPacket size)
    (includeHeader : Bool) : List UInt8 :=
  if includeHeader then toLittleEndian idSize packet.id else []

/-- What a trailer covers, with the first `count` bytes of the data. -/
def AreaPacket.covered {size : Nat} (packet : AreaPacket size) (includeHeader : Bool)
    (count : Nat) : List UInt8 :=
  packet.coveredHeader includeHeader ++ packet.data.take count

namespace Trailer

variable (trailer : Trailer) {size : Nat}

/-- Append the trailer if there is room for it. -/
def append (packet : AreaPacket size) (includeHeader : Bool) : Int × AreaPacket size :=
  if hFull : packet.length + trailer.size > size then
    (cspErrNomem, packet)
  else
    let bytes := trailer.bytes (packet.covered includeHeader packet.length)
    (cspErrNone, packet.append bytes (by rw [trailer.length_bytes]; omega))

/-- Compare the trailer and take it off. -/
def verify (packet : AreaPacket size) (includeHeader : Bool) : Int × AreaPacket size :=
  if packet.length < trailer.size then
    (trailer.error, packet)
  else
    let count := packet.length - trailer.size
    let bytes := trailer.bytes (packet.covered includeHeader count)
    if (packet.data.drop count).take trailer.size ≠ bytes then
      (trailer.error, packet)
    else
      (cspErrNone, packet.strip trailer.size)

/-- The data end with the trailer of what is in front of it. -/
def Ends (packet : AreaPacket size) (includeHeader : Bool) (body : List UInt8) : Prop :=
  packet.payload = body ++ trailer.bytes (packet.coveredHeader includeHeader ++ body)

variable {trailer} {packet packet' : AreaPacket size} {includeHeader : Bool}
  {body : List UInt8}

theorem Ends.length_eq (hEnds : trailer.Ends packet includeHeader body)
    (hFits : packet.length ≤ size) : packet.length = body.length + trailer.size := by
  have hTotal := packet.length_payload hFits
  rw [hEnds, List.length_append, trailer.length_bytes] at hTotal
  exact hTotal.symm

/-- Where `verify` finds what it compares. -/
theorem ends_iff (hFits : packet.length ≤ size) (hLength : trailer.size ≤ packet.length)
    (body : List UInt8) :
    trailer.Ends packet includeHeader body ↔
      body = packet.data.take (packet.length - trailer.size) ∧
        (packet.data.drop (packet.length - trailer.size)).take trailer.size =
          trailer.bytes (packet.covered includeHeader (packet.length - trailer.size)) := by
  have hSplit : packet.payload = packet.data.take (packet.length - trailer.size) ++
      (packet.data.drop (packet.length - trailer.size)).take trailer.size := by
    rw [AreaPacket.payload, ← List.take_add, Nat.sub_add_cancel hLength]
  have hFront : (packet.data.take (packet.length - trailer.size)).length =
      packet.length - trailer.size := by
    rw [List.length_take, packet.length_data]
    omega
  rw [Ends, AreaPacket.covered]
  constructor
  · intro hEnds
    have hTotal : packet.length = body.length + trailer.size :=
      Ends.length_eq hEnds hFits
    obtain ⟨hBody, hBytes⟩ := List.append_inj (hEnds.symm.trans hSplit) (by omega)
    rw [← hBody]
    exact ⟨rfl, hBytes.symm⟩
  · rintro ⟨rfl, hBytes⟩
    rw [hSplit, hBytes]

/-- A packet is accepted if its data end with their trailer, which is then taken off. -/
theorem verify_of_ends (hFits : packet.length ≤ size)
    (hEnds : trailer.Ends packet includeHeader body) :
    trailer.verify packet includeHeader = (cspErrNone, packet.strip trailer.size) ∧
      (packet.strip trailer.size).payload = body := by
  have hLength : trailer.size ≤ packet.length := by
    rw [hEnds.length_eq hFits]
    exact Nat.le_add_left _ _
  obtain ⟨-, hBytes⟩ := (ends_iff hFits hLength body).mp hEnds
  constructor
  · rw [verify, if_neg (Nat.not_lt.mpr hLength)]
    exact if_neg (not_not_intro hBytes)
  · have hBody := packet.payload_strip_of_eq hFits hEnds
    rwa [trailer.length_bytes] at hBody

theorem verify_of_not_ends (hFits : packet.length ≤ size)
    (hNot : ∀ body, ¬ trailer.Ends packet includeHeader body) :
    trailer.verify packet includeHeader = (trailer.error, packet) := by
  rw [verify]
  by_cases hShort : packet.length < trailer.size
  · rw [if_pos hShort]
  · rw [if_neg hShort]
    refine if_pos ?_
    intro hBytes
    exact hNot _ ((ends_iff hFits (Nat.le_of_not_lt hShort) _).mpr ⟨rfl, hBytes⟩)

/-- What has been accepted is the packet without its trailer. -/
theorem verify_ok (hOk : (trailer.verify packet includeHeader).1 = cspErrNone) :
    trailer.size ≤ packet.length ∧
      trailer.verify packet includeHeader = (cspErrNone, packet.strip trailer.size) := by
  unfold verify at hOk ⊢
  by_cases hShort : packet.length < trailer.size
  · rw [if_pos hShort] at hOk
    exact absurd hOk trailer.error_ne
  · rw [if_neg hShort] at hOk ⊢
    refine ⟨Nat.le_of_not_lt hShort, if_neg fun hBytes => ?_⟩
    have hOk := (congrArg Prod.fst (if_pos hBytes)).symm.trans hOk
    exact absurd hOk trailer.error_ne

/-- What has been accepted ended with its trailer. -/
theorem ends_of_verify (hFits : packet.length ≤ size)
    (hOk : (trailer.verify packet includeHeader).1 = cspErrNone) :
    ∃ body, trailer.Ends packet includeHeader body := by
  by_contra hNot
  rw [verify_of_not_ends hFits (not_exists.mp hNot)] at hOk
  exact trailer.error_ne hOk

/-- What `append` leaves is accepted. -/
theorem append_ends
    (hAppend : trailer.append packet includeHeader = (cspErrNone, packet')) :
    packet'.length = packet.length + trailer.size ∧ packet'.length ≤ size ∧
      packet'.id = packet.id ∧ trailer.Ends packet' includeHeader packet.payload := by
  unfold append at hAppend
  split at hAppend
  · have hErr : cspErrNomem = cspErrNone := congrArg Prod.fst hAppend
    exact absurd hErr (by decide)
  · next hRoom =>
    obtain rfl := (Prod.mk.inj hAppend).2
    refine ⟨by simp [trailer.length_bytes], ?_, rfl, ?_⟩
    · simp [trailer.length_bytes]
      omega
    · rw [Ends, AreaPacket.payload_append]
      rfl

theorem append_eq (hRoom : packet.length + trailer.size ≤ size) :
    ∃ packet', trailer.append packet includeHeader = (cspErrNone, packet') := by
  rw [append, dif_neg (Nat.not_lt.mpr hRoom)]
  exact ⟨_, rfl⟩

end Trailer

end Csp
end CubeSatComm
