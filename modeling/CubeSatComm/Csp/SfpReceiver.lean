import CubeSatComm.Csp.Sfp

/-!
# What the receiver of fragments accepts

A packet carries a fragment (`fragmentOf`), unless `csp_sfp_header_remove` refuses it.  What
`csp_sfp_recv_fp` has copied is continued by a fragment or the call ends, so that it returns
`CSP_ERR_NONE` for exactly those packets whose fragments assemble to a message
(`cspSfpRecvFp_complete_iff`), and writes behind its area only if a fragment ends at
`2 ^ 32` or behind it (`cspSfpRecvFp_outside_iff`).
-/

namespace CubeSatComm
namespace Csp
namespace Sfp

open Lib Lib.CInteger Security

variable {size : Nat}

/-- The fragment that a packet carries. -/
def fragmentOf (packet : AreaPacket size) : Option (Fragment UInt8) :=
  (cspSfpHeaderRemove packet).map fun removed =>
    ⟨removed.1.offset, removed.1.totalsize, removed.2.payload⟩

/-- The packets carry these fragments. -/
def Carry (packets : List (FittingPacket size)) (fragments : List (Fragment UInt8)) : Prop :=
  packets.map (fun packet => fragmentOf packet.val) = fragments.map some

/-- What has been copied into the area. -/
def SfpArea.copied (area : SfpArea) : List UInt8 := area.data.take area.dataOffset

@[simp] theorem SfpArea.length_copied (area : SfpArea) :
    area.copied.length = area.dataOffset := by
  rw [copied, List.length_take, area.length_data, Nat.min_eq_left area.offset_le]

/-- What `memcpy` has stored is behind what has been copied before. -/
theorem SfpArea.copied_copy {area : SfpArea} {packet : AreaPacket size}
    (hPacket : packet.length ≤ size) (hFits : area.dataOffset + packet.length ≤ area.datasize) :
    (area.copy packet hFits).copied = area.copied ++ packet.payload := by
  have hOffset : area.dataOffset ≤ area.data.length := by
    rw [area.length_data]
    exact area.offset_le
  have hStored := @take_add_store _ area.data packet.payload area.dataOffset hOffset
  rwa [packet.length_payload hPacket] at hStored

/-- An area that is full has nothing but what has been copied. -/
theorem SfpArea.copied_of_full {area : SfpArea} (hFull : area.dataOffset = area.datasize) :
    area.copied = area.data := by
  rw [copied, hFull, ← area.length_data, List.take_length]

@[simp] theorem carry_nil {fragments : List (Fragment UInt8)} :
    Carry ([] : List (FittingPacket size)) fragments ↔ fragments = [] := by
  cases fragments <;> simp [Carry]

theorem carry_cons {packet : FittingPacket size} {packets : List (FittingPacket size)}
    {fragments : List (Fragment UInt8)} :
    Carry (packet :: packets) fragments ↔ ∃ fragment rest,
      fragments = fragment :: rest ∧ fragmentOf packet.val = some fragment ∧
        Carry packets rest := by
  cases fragments with
  | nil => simp [Carry]
  | cons fragment rest => simp [Carry]

/-! ## One pass -/

section Pass

variable {area : SfpArea} {packet : FittingPacket size}
  {fragment : Fragment UInt8}

/-- What is left of a packet when the header has been taken off. -/
theorem fragmentOf_eq_some (hFragment : fragmentOf packet.val = some fragment) :
    ∃ header rest, cspSfpHeaderRemove packet.val = some (header, rest) ∧
      header.offset = fragment.offset ∧ header.totalsize = fragment.total ∧
        rest.payload = fragment.content ∧ rest.length = fragment.content.length ∧
          rest.length ≤ size := by
  obtain ⟨⟨header, rest⟩, hRemove, rfl⟩ := Option.map_eq_some_iff.mp hFragment
  have hRest : rest.length ≤ size := by
    unfold cspSfpHeaderRemove at hRemove
    split at hRemove
    · cases hRemove
    · split at hRemove
      · cases hRemove
      · dsimp only at hRemove
        split at hRemove
        · cases hRemove
        · obtain rfl := (Prod.mk.inj (Option.some.inj hRemove)).2
          exact Nat.le_trans (Nat.sub_le _ _) packet.property
  exact ⟨header, rest, hRemove, rfl, rfl, rfl, (rest.length_payload hRest).symm, hRest⟩

theorem sfpPass_of_none (malloc : Malloc) (hNone : fragmentOf packet.val = none) :
    sfpPass malloc (some area) packet.val = .error cspErrSfp (some area) := by
  rw [fragmentOf, Option.map_eq_none_iff] at hNone
  rw [sfpPass, hNone]

/-- A fragment that continues what has been copied is copied behind it. -/
theorem sfpPass_of_continues (malloc : Malloc) (hFragment : fragmentOf packet.val = some fragment)
    (hDatasize : area.datasize < 2 ^ 32)
    (hContinues : fragment.Continues area.datasize area.copied) :
    ∃ area' : SfpArea, area'.datasize = area.datasize ∧
      area'.copied = area.copied ++ fragment.content ∧
      sfpPass malloc (some area) packet.val =
        if area'.dataOffset ≥ area'.datasize then .complete area'
        else if fragment.content.length = 0 then .error cspErrSfp (some area')
        else .goOn area' := by
  obtain ⟨header, rest, hRemove, hOffset, hTotal, hContent, hLength, hRest⟩ :=
    fragmentOf_eq_some hFragment
  have hFits := hContinues.fits
  rw [SfpArea.length_copied, ← hLength] at hFits
  have hSame : ¬ header.offset ≠ dataOffset (some area) := by
    rw [hOffset, hContinues.offset_eq, SfpArea.length_copied]
    exact not_not_intro rfl
  have hCheck : ¬ ((area.dataOffset + rest.length) % 2 ^ 32 > area.datasize ∨
      area.datasize ≠ header.totalsize) := by
    rw [Nat.mod_eq_of_lt (by omega), hTotal, hContinues.total_eq]
    omega
  have hPass : sfpPass malloc (some area) packet.val = sfpCopy area header rest := by
    simp [sfpPass, hRemove, hSame, allocated]
  rw [hPass, sfpCopy, if_neg hCheck, dif_pos hFits, ← hLength]
  refine ⟨area.copy rest hFits, rfl, ?_, rfl⟩
  rw [SfpArea.copied_copy hRest, hContent]

/-- No other fragment is copied, and only one that ends at `2 ^ 32` or behind it is not
refused. -/
theorem sfpPass_of_not_continues (malloc : Malloc)
    (hFragment : fragmentOf packet.val = some fragment) (hSize : size < 2 ^ 16)
    (hDatasize : area.datasize < 2 ^ 32)
    (hNot : ¬ fragment.Continues area.datasize area.copied) :
    sfpPass malloc (some area) packet.val =
      if fragment.offset = area.dataOffset ∧ fragment.total = area.datasize ∧
        2 ^ 32 ≤ area.dataOffset + fragment.content.length then .outside
      else .error cspErrSfp (some area) := by
  obtain ⟨header, rest, hRemove, hOffset, hTotal, -, hLength, hRest⟩ :=
    fragmentOf_eq_some hFragment
  by_cases hPlace : fragment.offset = area.dataOffset
  · have hSame : ¬ header.offset ≠ dataOffset (some area) :=
      not_not_intro (hOffset.trans hPlace)
    have hPass : sfpPass malloc (some area) packet.val = sfpCopy area header rest := by
      simp [sfpPass, hRemove, hSame, allocated]
    rw [hPass, sfpCopy, hTotal, ← hLength]
    have hLe := area.offset_le
    by_cases hTotals : fragment.total = area.datasize
    · -- the fragment does not fit, so `outside` or not is a matter of the 32 bits
      have hOver : area.datasize < area.dataOffset + rest.length := by
        by_contra hFits
        refine hNot ⟨?_, hTotals, ?_⟩
        · rw [SfpArea.length_copied, hPlace]
        · rw [SfpArea.length_copied, ← hLength]
          exact Nat.le_of_not_lt hFits
      by_cases hWraps : 2 ^ 32 ≤ area.dataOffset + rest.length
      · have hCheck : ¬ ((area.dataOffset + rest.length) % 2 ^ 32 > area.datasize ∨
            area.datasize ≠ fragment.total) := by omega
        rw [if_neg hCheck, dif_neg (Nat.not_le.mpr hOver), if_pos ⟨hPlace, hTotals, hWraps⟩]
      · have hCheck : (area.dataOffset + rest.length) % 2 ^ 32 > area.datasize := by omega
        rw [if_pos (.inl hCheck), if_neg fun h => hWraps h.2.2]
    · rw [if_pos (.inr fun h => hTotals h.symm), if_neg fun h => hTotals h.2.1]
  · have hOther : header.offset ≠ dataOffset (some area) := by
      rw [hOffset]
      exact hPlace
    rw [if_neg fun h => hPlace h.1]
    simp [sfpPass, hRemove, hOther]

end Pass

/-! ## The loop -/

/-- `csp_sfp_recv_fp` returns a message, has freed the packets it has read, and leaves the
others. -/
def SfpOutcome.complete (message : List UInt8) (read unread : List (FittingPacket size)) :
    SfpOutcome size :=
  .returns ⟨cspErrNone, some message, int32 message.length, none, read, unread⟩

/-- The fragment is in its place, and ends at `2 ^ 32` or behind it. -/
structure Overruns (fragment : Fragment UInt8) (total : Nat) (xs : List UInt8) : Prop where
  offset_eq : fragment.offset = xs.length
  total_eq : fragment.total = total
  overruns : 2 ^ 32 ≤ xs.length + fragment.content.length

/-- The fragment continues what has been copied, and is empty only if it is the last. -/
def Taken (fragment : Fragment UInt8) (total : Nat) (xs : List UInt8) : Prop :=
  fragment.Continues total xs ∧
    (xs.length + fragment.content.length < total → fragment.content ≠ [])

section Loop

variable {area : SfpArea} {packet : FittingPacket size}
  {packets read unread : List (FittingPacket size)} {message : List UInt8}

theorem sfpRecvLoop_of_last (malloc : Malloc) {fragment : Fragment UInt8}
    (packets : List (FittingPacket size)) (hDatasize : area.datasize < 2 ^ 32)
    (hFragment : fragmentOf packet.val = some fragment)
    (hContinues : fragment.Continues area.datasize area.copied)
    (hLast : area.copied.length + fragment.content.length = area.datasize) :
    sfpRecvLoop malloc (some area) (packet :: packets) =
      .complete (area.copied ++ fragment.content) [packet] packets := by
  obtain ⟨area', hSame, hCopied, hPass⟩ :=
    sfpPass_of_continues malloc hFragment hDatasize hContinues
  have hFull : area'.dataOffset = area'.datasize := by
    rw [← SfpArea.length_copied, hCopied, List.length_append, hLast, hSame]
  rw [if_pos (Nat.le_of_eq hFull.symm)] at hPass
  rw [sfpRecvLoop, hPass, ← hCopied, SfpArea.copied_of_full hFull, SfpOutcome.complete,
    area'.length_data]

theorem sfpRecvLoop_of_more (malloc : Malloc) {fragment : Fragment UInt8}
    (packets : List (FittingPacket size)) (hDatasize : area.datasize < 2 ^ 32)
    (hFragment : fragmentOf packet.val = some fragment)
    (hContinues : fragment.Continues area.datasize area.copied)
    (hContent : fragment.content ≠ [])
    (hMore : area.copied.length + fragment.content.length < area.datasize) :
    ∃ area' : SfpArea, area'.datasize = area.datasize ∧
      area'.copied = area.copied ++ fragment.content ∧
      sfpRecvLoop malloc (some area) (packet :: packets) =
        (sfpRecvLoop malloc (some area') packets).freeing packet := by
  obtain ⟨area', hSame, hCopied, hPass⟩ :=
    sfpPass_of_continues malloc hFragment hDatasize hContinues
  have hNotFull : ¬ area'.dataOffset ≥ area'.datasize := by
    rw [← SfpArea.length_copied, hCopied, List.length_append, hSame]
    exact Nat.not_le.mpr hMore
  have hNotEmpty : ¬ fragment.content.length = 0 := mt List.length_eq_zero_iff.mp hContent
  rw [if_neg hNotFull, if_neg hNotEmpty] at hPass
  refine ⟨area', hSame, hCopied, ?_⟩
  rw [sfpRecvLoop, hPass]

theorem sfpRecvLoop_of_overruns (malloc : Malloc) {fragment : Fragment UInt8}
    (packets : List (FittingPacket size)) (hSize : size < 2 ^ 16)
    (hDatasize : area.datasize < 2 ^ 32)
    (hFragment : fragmentOf packet.val = some fragment)
    (hOverruns : Overruns fragment area.datasize area.copied) :
    sfpRecvLoop malloc (some area) (packet :: packets) = .outside := by
  have hNot : ¬ fragment.Continues area.datasize area.copied := by
    intro hContinues
    have hFits := hContinues.fits
    have hEnd := hOverruns.overruns
    omega
  obtain ⟨hOffset, hTotal, hEnd⟩ := hOverruns
  rw [SfpArea.length_copied] at hOffset hEnd
  have hPass := sfpPass_of_not_continues malloc hFragment hSize hDatasize hNot
  rw [if_pos ⟨hOffset, hTotal, hEnd⟩] at hPass
  rw [sfpRecvLoop, hPass]

theorem sfpRecvLoop_of_refused (malloc : Malloc) (packets : List (FittingPacket size))
    (hSize : size < 2 ^ 16) (hDatasize : area.datasize < 2 ^ 32)
    (hNot : ∀ fragment, fragmentOf packet.val = some fragment →
      ¬ Taken fragment area.datasize area.copied ∧
        ¬ Overruns fragment area.datasize area.copied) :
    ∃ area', sfpRecvLoop malloc (some area) (packet :: packets) =
      .returns ⟨cspErrSfp, none, 0, some area', [packet], packets⟩ := by
  cases hFragment : fragmentOf packet.val with
  | none =>
    refine ⟨area, ?_⟩
    rw [sfpRecvLoop, sfpPass_of_none malloc hFragment]
  | some fragment =>
    obtain ⟨hNotTaken, hNotOver⟩ := hNot fragment hFragment
    by_cases hContinues : fragment.Continues area.datasize area.copied
    · -- an empty fragment that is not the last
      obtain ⟨area', hSame, hCopied, hPass⟩ :=
        sfpPass_of_continues malloc hFragment hDatasize hContinues
      have hMore : area.copied.length + fragment.content.length < area.datasize ∧
          fragment.content = [] := by
        by_contra hOther
        refine hNotTaken ⟨hContinues, fun hMore hEmpty => hOther ⟨hMore, hEmpty⟩⟩
      have hNotFull : ¬ area'.dataOffset ≥ area'.datasize := by
        rw [← SfpArea.length_copied, hCopied, List.length_append, hSame]
        exact Nat.not_le.mpr hMore.1
      rw [if_neg hNotFull, if_pos (List.length_eq_zero_iff.mpr hMore.2)] at hPass
      refine ⟨area', ?_⟩
      rw [sfpRecvLoop, hPass]
    · have hPass := sfpPass_of_not_continues malloc hFragment hSize hDatasize
        hContinues
      have hCond : ¬ (fragment.offset = area.dataOffset ∧ fragment.total = area.datasize ∧
          2 ^ 32 ≤ area.dataOffset + fragment.content.length) := by
        rintro ⟨hOffset, hTotal, hEnd⟩
        rw [← SfpArea.length_copied] at hOffset hEnd
        exact hNotOver ⟨hOffset, hTotal, hEnd⟩
      rw [if_neg hCond] at hPass
      refine ⟨area, ?_⟩
      rw [sfpRecvLoop, hPass]

/-- A packet is taken, or overruns the area, or is refused. -/
theorem taken_or_overruns_or_refused (packet : FittingPacket size) (total : Nat)
    (xs : List UInt8) :
    (∃ fragment, fragmentOf packet.val = some fragment ∧ Taken fragment total xs) ∨
      (∃ fragment, fragmentOf packet.val = some fragment ∧ Overruns fragment total xs) ∨
        ∀ fragment, fragmentOf packet.val = some fragment →
          ¬ Taken fragment total xs ∧ ¬ Overruns fragment total xs := by
  cases hFragment : fragmentOf packet.val with
  | none => simp
  | some fragment =>
    simp only [Option.some.injEq, exists_eq_left', forall_eq']
    tauto

theorem SfpOutcome.freeing_eq_complete {outcome : SfpOutcome size} :
    outcome.freeing packet = .complete message read unread ↔
      ∃ others, read = packet :: others ∧ outcome = .complete message others unread := by
  cases outcome with
  | outside => simp [freeing, complete]
  | returns left =>
    cases left
    simp only [freeing, complete, SfpOutcome.returns.injEq, SfpEnd.mk.injEq]
    constructor
    · rintro ⟨hRet, hData, hDatasize, hReleased, rfl, hUnread⟩
      exact ⟨_, rfl, hRet, hData, hDatasize, hReleased, rfl, hUnread⟩
    · rintro ⟨others, rfl, hRet, hData, hDatasize, hReleased, rfl, hUnread⟩
      exact ⟨hRet, hData, hDatasize, hReleased, rfl, hUnread⟩

theorem SfpOutcome.freeing_eq_outside {outcome : SfpOutcome size} :
    outcome.freeing packet = .outside ↔ outcome = .outside := by
  cases outcome <;> simp [freeing]

theorem SfpOutcome.complete_inj {message' : List UInt8}
    {read' unread' : List (FittingPacket size)}
    (hEq : (complete message read unread : SfpOutcome size) = complete message' read' unread') :
    message = message' ∧ read = read' ∧ unread = unread' := by
  simp only [complete, SfpOutcome.returns.injEq, SfpEnd.mk.injEq] at hEq
  exact ⟨Option.some.inj hEq.2.1, hEq.2.2.2.2⟩

theorem SfpOutcome.complete_ne_error {code : Int} (hCode : code ≠ cspErrNone)
    {data : Option (List UInt8)} {datasize : Int} {released : Option SfpArea}
    {freed : List (FittingPacket size)} {rest : List (FittingPacket size)} :
    (returns ⟨code, data, datasize, released, freed, rest⟩ : SfpOutcome size) ≠
      complete message read unread := by
  intro hEq
  simp only [complete, SfpOutcome.returns.injEq, SfpEnd.mk.injEq] at hEq
  exact hCode hEq.1

/-- What has been copied is completed by exactly those packets whose fragments assemble to a
message. -/
theorem sfpRecvLoop_complete_iff (malloc : Malloc) (hSize : size < 2 ^ 16)
    (hDatasize : area.datasize < 2 ^ 32) :
    sfpRecvLoop malloc (some area) packets = .complete message read unread ↔
      packets = read ++ unread ∧ ∃ fragments, Carry read fragments ∧
        Assembles area.datasize area.copied fragments message := by
  induction packets generalizing area read with
  | nil =>
    constructor
    · intro hComplete
      exact absurd hComplete (SfpOutcome.complete_ne_error (by decide))
    · rintro ⟨hPackets, fragments, hCarry, hAssembles⟩
      rw [(List.append_eq_nil_iff.mp hPackets.symm).1, carry_nil] at hCarry
      exact absurd hCarry hAssembles.ne_nil
  | cons packet packets ih =>
    constructor
    · intro hComplete
      rcases taken_or_overruns_or_refused packet area.datasize area.copied with
        ⟨fragment, hFragment, hContinues, hNotEmpty⟩ | ⟨fragment, hFragment, hOverruns⟩ | hNot
      · by_cases hMore : area.copied.length + fragment.content.length < area.datasize
        · obtain ⟨area', hSame, hCopied, hLoop⟩ := sfpRecvLoop_of_more malloc packets hDatasize
            hFragment hContinues (hNotEmpty hMore) hMore
          obtain ⟨others, rfl, hOthers⟩ :=
            SfpOutcome.freeing_eq_complete.mp (hLoop.symm.trans hComplete)
          obtain ⟨rfl, fragments, hCarry, hAssembles⟩ := (ih (hSame ▸ hDatasize)).mp hOthers
          rw [hSame, hCopied] at hAssembles
          exact ⟨rfl, fragment :: fragments,
            carry_cons.mpr ⟨_, _, rfl, hFragment, hCarry⟩,
            .more hContinues (hNotEmpty hMore) hMore hAssembles⟩
        · have hLast := Nat.le_antisymm hContinues.fits (Nat.le_of_not_lt hMore)
          have hLoop := sfpRecvLoop_of_last malloc packets hDatasize hFragment
            hContinues hLast
          obtain ⟨rfl, rfl, rfl⟩ := SfpOutcome.complete_inj (hLoop.symm.trans hComplete)
          exact ⟨rfl, [fragment], carry_cons.mpr ⟨_, _, rfl, hFragment, carry_nil.mpr rfl⟩,
            .last hContinues hLast⟩
      · rw [sfpRecvLoop_of_overruns malloc packets hSize hDatasize hFragment hOverruns] at hComplete
        cases hComplete
      · obtain ⟨area', hLoop⟩ := sfpRecvLoop_of_refused malloc packets hSize
          hDatasize hNot
        exact absurd (hLoop.symm.trans hComplete) (SfpOutcome.complete_ne_error (by decide))
    · rintro ⟨hPackets, fragments, hCarry, hAssembles⟩
      cases read with
      | nil => exact absurd (carry_nil.mp hCarry) hAssembles.ne_nil
      | cons first others =>
        simp only [List.cons_append, List.cons.injEq] at hPackets
        obtain ⟨rfl, rfl⟩ := hPackets
        obtain ⟨fragment, rest, rfl, hFragment, hRest⟩ := carry_cons.mp hCarry
        cases hAssembles with
        | last hContinues hLast =>
          have hNone : others = [] := List.map_eq_nil_iff.mp hRest
          rw [hNone]
          exact sfpRecvLoop_of_last malloc _ hDatasize hFragment hContinues hLast
        | more hContinues hContent hMore hAssembles =>
          obtain ⟨area', hSame, hCopied, hLoop⟩ := sfpRecvLoop_of_more malloc
            (others ++ unread) hDatasize hFragment hContinues hContent hMore
          rw [← hSame, ← hCopied] at hAssembles
          have hOthers := (ih (hSame ▸ hDatasize)).mpr ⟨rfl, rest, hRest, hAssembles⟩
          rw [hLoop, hOthers]
          rfl

/-- A copy is written behind the area after exactly those packets whose fragments have been
copied before one that ends at `2 ^ 32` or behind it. -/
theorem sfpRecvLoop_outside_iff (malloc : Malloc) (hSize : size < 2 ^ 16)
    (hDatasize : area.datasize < 2 ^ 32) :
    sfpRecvLoop malloc (some area) packets = .outside ↔
      ∃ read packet unread fragments fragment xs, packets = read ++ packet :: unread ∧
        Carry read fragments ∧ Gathers area.datasize area.copied fragments xs ∧
          fragmentOf packet.val = some fragment ∧ Overruns fragment area.datasize xs := by
  induction packets generalizing area with
  | nil =>
    constructor
    · intro hOutside
      cases hOutside
    · rintro ⟨read, packet, unread, -, -, -, hPackets, -⟩
      exact absurd hPackets.symm (by simp)
  | cons packet packets ih =>
    constructor
    · intro hOutside
      rcases taken_or_overruns_or_refused packet area.datasize area.copied with
        ⟨fragment, hFragment, hContinues, hNotEmpty⟩ | ⟨fragment, hFragment, hOverruns⟩ | hNot
      · by_cases hMore : area.copied.length + fragment.content.length < area.datasize
        · obtain ⟨area', hSame, hCopied, hLoop⟩ := sfpRecvLoop_of_more malloc packets hDatasize
            hFragment hContinues (hNotEmpty hMore) hMore
          have hRest := SfpOutcome.freeing_eq_outside.mp (hLoop.symm.trans hOutside)
          obtain ⟨read, last, unread, fragments, fragment', xs, rfl, hCarry, hGathers, hLast⟩ :=
            (ih (hSame ▸ hDatasize)).mp hRest
          rw [hSame, hCopied] at hGathers
          rw [hSame] at hLast
          exact ⟨packet :: read, last, unread, fragment :: fragments, fragment', xs, rfl,
            carry_cons.mpr ⟨_, _, rfl, hFragment, hCarry⟩,
            .cons hContinues (hNotEmpty hMore) hMore hGathers, hLast⟩
        · have hLast := Nat.le_antisymm hContinues.fits (Nat.le_of_not_lt hMore)
          rw [sfpRecvLoop_of_last malloc packets hDatasize hFragment hContinues hLast] at hOutside
          cases hOutside
      · exact ⟨[], packet, packets, [], fragment, _, rfl, carry_nil.mpr rfl, .nil, hFragment,
          hOverruns⟩
      · obtain ⟨area', hLoop⟩ := sfpRecvLoop_of_refused malloc packets hSize
          hDatasize hNot
        rw [hLoop] at hOutside
        cases hOutside
    · rintro ⟨read, last, unread, fragments, fragment', xs, hPackets, hCarry, hGathers, hLast,
        hOverruns⟩
      cases read with
      | nil =>
        obtain ⟨rfl, rfl⟩ := List.cons.inj hPackets
        obtain rfl := carry_nil.mp hCarry
        cases hGathers
        exact sfpRecvLoop_of_overruns malloc _ hSize hDatasize hLast hOverruns
      | cons first others =>
        simp only [List.cons_append, List.cons.injEq] at hPackets
        obtain ⟨rfl, rfl⟩ := hPackets
        obtain ⟨fragment, rest, rfl, hFragment, hRest⟩ := carry_cons.mp hCarry
        cases hGathers with
        | cons hContinues hContent hMore hGathers =>
          obtain ⟨area', hSame, hCopied, hLoop⟩ := sfpRecvLoop_of_more malloc
            (others ++ last :: unread) hDatasize hFragment hContinues hContent hMore
          rw [← hSame, ← hCopied] at hGathers
          rw [← hSame] at hOverruns
          have hOthers := (ih (hSame ▸ hDatasize)).mpr
            ⟨others, last, unread, rest, fragment', xs, rfl, hRest, hGathers, hLast, hOverruns⟩
          rw [hLoop, hOthers]
          rfl

/-! ## The whole call -/

theorem fragmentOf_total_lt {fragment : Fragment UInt8}
    (hFragment : fragmentOf packet.val = some fragment) : fragment.total < 2 ^ 32 := by
  obtain ⟨⟨header, rest⟩, hRemove, rfl⟩ := Option.map_eq_some_iff.mp hFragment
  unfold cspSfpHeaderRemove at hRemove
  split at hRemove
  · cases hRemove
  · split at hRemove
    · cases hRemove
    · dsimp only at hRemove
      split at hRemove
      · cases hRemove
      · obtain rfl := (Prod.mk.inj (Option.some.inj hRemove)).1
        refine Nat.lt_of_lt_of_le (ofBigEndian_lt _) ?_
        refine Nat.le_trans (Nat.pow_le_pow_right (by decide) (List.length_take_le _ _)) ?_
        decide

/-- The first packet is dealt with as if its area had been there before. -/
theorem sfpRecvLoop_none_of_some {malloc : Malloc} {fragment : Fragment UInt8}
    {bytes : List UInt8} (packets : List (FittingPacket size))
    (hFragment : fragmentOf packet.val = some fragment) (hOffset : fragment.offset = 0)
    (hArea : malloc.area fragment.total = some bytes) :
    ∃ area : SfpArea, area.datasize = fragment.total ∧ area.copied = [] ∧
      sfpRecvLoop malloc none (packet :: packets) =
        sfpRecvLoop malloc (some area) (packet :: packets) := by
  obtain ⟨header, rest, hRemove, hSameOffset, hSameTotal, -⟩ := fragmentOf_eq_some hFragment
  have hZero : header.offset = 0 := hSameOffset.trans hOffset
  let area : SfpArea :=
    ⟨fragment.total, bytes, malloc.length_area _ _ hArea, 0, Nat.zero_le _⟩
  have hNew : allocated malloc none header.totalsize = some area := by
    rw [hSameTotal, allocated]
    split
    · next other hOther =>
      obtain rfl := Option.some.inj (hOther.symm.trans hArea)
      rfl
    · next hNone => exact absurd (hNone.symm.trans hArea) (by simp)
  have hOld : allocated malloc (some area) header.totalsize = some area := rfl
  have hPass : sfpPass malloc none packet.val = sfpPass malloc (some area) packet.val := by
    have hStart : dataOffset (some area) = 0 := rfl
    simp only [sfpPass, hRemove, hZero, hNew, hOld, hStart]
    rfl
  refine ⟨area, rfl, rfl, ?_⟩
  rw [sfpRecvLoop, sfpRecvLoop, hPass]

/-- A first packet without a fragment, with one that is not the first, or with one that there
is no memory for ends the call. -/
theorem sfpRecvLoop_none_of_refused {malloc : Malloc} (packets : List (FittingPacket size))
    (hNot : ∀ fragment, fragmentOf packet.val = some fragment → fragment.offset = 0 →
      malloc.area fragment.total = none) :
    ∃ code, code ≠ cspErrNone ∧ sfpRecvLoop malloc none (packet :: packets) =
      .returns ⟨code, none, 0, none, [packet], packets⟩ := by
  rw [sfpRecvLoop]
  unfold sfpPass
  cases hRemove : cspSfpHeaderRemove packet.val with
  | none => exact ⟨cspErrSfp, by decide, rfl⟩
  | some removed =>
    obtain ⟨header, rest⟩ := removed
    by_cases hOffset : header.offset = 0
    · have hNone := hNot ⟨header.offset, header.totalsize, rest.payload⟩
        (by rw [fragmentOf, hRemove]; rfl) hOffset
      have hAllocated : allocated malloc none header.totalsize = none := by
        rw [allocated]
        split
        · next other hOther => exact absurd (hOther.symm.trans hNone) (by simp)
        · rfl
      refine ⟨cspErrNomem, by decide, ?_⟩
      simp [hOffset, dataOffset, hAllocated]
    · refine ⟨cspErrSfp, by decide, ?_⟩
      simp [hOffset, dataOffset]

variable {firstPacket : Option (FittingPacket size)} {connection : List (FittingPacket size)}

/-- The first packet of those that assemble to a message has the first fragment. -/
theorem first_of_assembles {fragments : List (Fragment UInt8)}
    (hPackets : packet :: packets = read ++ unread) (hCarry : Carry read fragments)
    (hAssembles : Assembles message.length [] fragments message) :
    ∃ first, fragmentOf packet.val = some first ∧ first.offset = 0 ∧
      first.total = message.length := by
  cases read with
  | nil => exact absurd (carry_nil.mp hCarry) hAssembles.ne_nil
  | cons head others =>
    obtain rfl := (List.cons.inj hPackets).1
    obtain ⟨fragment, rest, rfl, hFragment, -⟩ := carry_cons.mp hCarry
    exact ⟨fragment, hFragment, hAssembles.head.offset_eq, hAssembles.head.total_eq⟩

theorem first_of_gathers {last : FittingPacket size} {fragments : List (Fragment UInt8)}
    {fragment : Fragment UInt8} {xs : List UInt8}
    (hPackets : packet :: packets = read ++ last :: unread) (hCarry : Carry read fragments)
    (hGathers : Gathers fragment.total [] fragments xs)
    (hLast : fragmentOf last.val = some fragment)
    (hOverruns : Overruns fragment fragment.total xs) :
    ∃ first, fragmentOf packet.val = some first ∧ first.offset = 0 ∧
      first.total = fragment.total := by
  cases read with
  | nil =>
    obtain rfl := (List.cons.inj hPackets).1
    obtain rfl := carry_nil.mp hCarry
    cases hGathers
    exact ⟨fragment, hLast, hOverruns.offset_eq, rfl⟩
  | cons head others =>
    obtain rfl := (List.cons.inj hPackets).1
    obtain ⟨first, rest, rfl, hFragment, -⟩ := carry_cons.mp hCarry
    cases hGathers with
    | cons hContinues =>
      exact ⟨first, hFragment, hContinues.offset_eq, hContinues.total_eq⟩

/-- The first fragment and memory for its message, or what the call refuses. -/
theorem startable_or_refused (malloc : Malloc) (packet : FittingPacket size) :
    (∃ fragment bytes, fragmentOf packet.val = some fragment ∧ fragment.offset = 0 ∧
      malloc.area fragment.total = some bytes) ∨
    ∀ fragment, fragmentOf packet.val = some fragment → fragment.offset = 0 →
      malloc.area fragment.total = none := by
  refine or_iff_not_imp_left.mpr fun hNot fragment hFragment hOffset => ?_
  refine Option.eq_none_iff_forall_ne_some.mpr fun bytes hArea => ?_
  exact hNot ⟨fragment, bytes, hFragment, hOffset, hArea⟩

/-- `csp_sfp_recv_fp` returns a message for exactly those packets that assemble to it and that
there is memory for.  It has freed these, and leaves the others. -/
theorem cspSfpRecvFp_complete_iff (malloc : Malloc) (hSize : size < 2 ^ 16) :
    cspSfpRecvFp malloc firstPacket connection = .complete message read unread ↔
      firstPacket.toList ++ connection = read ++ unread ∧
        (malloc.area message.length).isSome ∧ ∃ fragments, Carry read fragments ∧
          Assembles message.length [] fragments message := by
  rw [cspSfpRecvFp]
  cases firstPacket.toList ++ connection with
  | nil =>
    constructor
    · intro hComplete
      exact absurd hComplete (SfpOutcome.complete_ne_error (by decide))
    · rintro ⟨hPackets, -, fragments, hCarry, hAssembles⟩
      rw [(List.append_eq_nil_iff.mp hPackets.symm).1, carry_nil] at hCarry
      exact absurd hCarry hAssembles.ne_nil
  | cons packet packets =>
    rcases startable_or_refused malloc packet with
      ⟨fragment, bytes, hFragment, hOffset, hArea⟩ | hNot
    · obtain ⟨area, hDatasize, hCopied, hLoop⟩ :=
        sfpRecvLoop_none_of_some packets hFragment hOffset hArea
      have hLt := fragmentOf_total_lt hFragment
      rw [← hDatasize] at hLt
      rw [hLoop, sfpRecvLoop_complete_iff malloc hSize hLt, hCopied, hDatasize]
      constructor
      · rintro ⟨hPackets, fragments, hCarry, hAssembles⟩
        have hTotal := hAssembles.length_eq
        rw [← hTotal] at hAssembles hArea
        exact ⟨hPackets, Option.isSome_of_eq_some hArea, fragments, hCarry, hAssembles⟩
      · rintro ⟨hPackets, -, fragments, hCarry, hAssembles⟩
        obtain ⟨fragment', hFragment', -, hTotal⟩ := first_of_assembles hPackets hCarry hAssembles
        obtain rfl := Option.some.inj (hFragment'.symm.trans hFragment)
        rw [← hTotal] at hAssembles
        exact ⟨hPackets, fragments, hCarry, hAssembles⟩
    · constructor
      · intro hComplete
        obtain ⟨code, hCode, hLoop⟩ := sfpRecvLoop_none_of_refused packets hNot
        exact absurd (hLoop.symm.trans hComplete) (SfpOutcome.complete_ne_error hCode)
      · rintro ⟨hPackets, hSome, fragments, hCarry, hAssembles⟩
        obtain ⟨fragment, hFragment, hOffset, hTotal⟩ :=
          first_of_assembles hPackets hCarry hAssembles
        rw [← hTotal, hNot fragment hFragment hOffset] at hSome
        cases hSome

/-- It writes behind the area that it has allocated for exactly those packets whose fragments
are copied up to one that ends at `2 ^ 32` or behind it. -/
theorem cspSfpRecvFp_outside_iff (malloc : Malloc) (hSize : size < 2 ^ 16) :
    cspSfpRecvFp malloc firstPacket connection = .outside ↔
      ∃ read packet unread fragments fragment xs,
        firstPacket.toList ++ connection = read ++ packet :: unread ∧ Carry read fragments ∧
          (malloc.area fragment.total).isSome ∧ Gathers fragment.total [] fragments xs ∧
            fragmentOf packet.val = some fragment ∧ Overruns fragment fragment.total xs := by
  rw [cspSfpRecvFp]
  cases firstPacket.toList ++ connection with
  | nil =>
    constructor
    · intro hOutside
      cases hOutside
    · rintro ⟨read, packet, unread, -, -, -, hPackets, -⟩
      exact absurd hPackets.symm (by simp)
  | cons packet packets =>
    rcases startable_or_refused malloc packet with
      ⟨first, bytes, hFragment, hOffset, hArea⟩ | hNot
    · obtain ⟨area, hDatasize, hCopied, hLoop⟩ :=
        sfpRecvLoop_none_of_some packets hFragment hOffset hArea
      have hLt := fragmentOf_total_lt hFragment
      rw [← hDatasize] at hLt
      rw [hLoop, sfpRecvLoop_outside_iff malloc hSize hLt, hCopied, hDatasize]
      constructor
      · rintro ⟨read, last, unread, fragments, fragment, xs, hPackets, hCarry, hGathers, hLast,
          hOverruns⟩
        have hTotal := hOverruns.total_eq
        rw [← hTotal] at hGathers hOverruns hArea
        exact ⟨read, last, unread, fragments, fragment, xs, hPackets, hCarry,
          Option.isSome_of_eq_some hArea, hGathers, hLast, hOverruns⟩
      · rintro ⟨read, last, unread, fragments, fragment, xs, hPackets, hCarry, -, hGathers,
          hLast, hOverruns⟩
        obtain ⟨first', hFirst', -, hTotal⟩ :=
          first_of_gathers hPackets hCarry hGathers hLast hOverruns
        obtain rfl := Option.some.inj (hFirst'.symm.trans hFragment)
        rw [← hTotal] at hGathers hOverruns
        exact ⟨read, last, unread, fragments, fragment, xs, hPackets, hCarry, hGathers, hLast,
          hOverruns⟩
    · constructor
      · intro hOutside
        obtain ⟨code, hCode, hLoop⟩ := sfpRecvLoop_none_of_refused packets hNot
        rw [hLoop] at hOutside
        cases hOutside
      · rintro ⟨read, last, unread, fragments, fragment, xs, hPackets, hCarry, hSome, hGathers,
          hLast, hOverruns⟩
        obtain ⟨first, hFragment, hOffset, hTotal⟩ :=
          first_of_gathers hPackets hCarry hGathers hLast hOverruns
        rw [← hTotal, hNot first hFragment hOffset] at hSome
        cases hSome

end Loop

end Sfp
end Csp
end CubeSatComm
