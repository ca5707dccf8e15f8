import CubeSatComm.Csp.Server
import CubeSatComm.Lib.Recycling

/-!
# What the server prints

The client does not send the NUL at the end of its text, and the server prints the data
area of the buffer up to the first NUL that is there.  So what is printed depends on
what the buffer held before.

All `n` buffers are recycled in FIFO order, and packet `i` is in the buffer of packets
`i - n`, `i - 2 * n` and so on.  A byte of that buffer is a NUL exactly if it has been one
from the start and no packet has covered it (`Contents.nul_iff`): packets have no NULs.
Hence the text is the packet's exactly if the byte behind it was a NUL at the start and no
earlier packet in that buffer was longer.
-/

namespace CubeSatComm
namespace Csp

open Lib Posix

/-! ## One packet in a buffer -/

theorem cells_load (buffer : PacketBuffer) (packet : TextPacket) :
    (buffer.load packet.bytes packet.length_bytes_le).cells =
      packet.bytes ++ buffer.cells.drop packet.bytes.length :=
  store_zero buffer.cells packet.bytes

/-- The data area behind a `read` of a packet. -/
theorem data_load (buffer : PacketBuffer) (packet : TextPacket) :
    (buffer.load packet.bytes packet.length_bytes_le).data =
      packet.data ++ buffer.data.drop packet.data.length := by
  have hHeader : (toLittleEndian lengthSize packet.data.length ++
      toLittleEndian idSize packet.id).length = packetHeaderSize := by
    simp [packetHeaderSize]
  rw [PacketBuffer.data, cells_load, packet.length_bytes, PacketBuffer.data, List.drop_drop,
    TextPacket.bytes, List.append_assoc]
  exact List.drop_left' hHeader

/-- The packet in the buffer is the one that was sent. -/
theorem packet_load (buffer : PacketBuffer) (packet : TextPacket) :
    (buffer.load packet.bytes packet.length_bytes_le).packet.data = packet.data := by
  have hLt := packet.length_data_lt
  have hLength : (buffer.load packet.bytes packet.length_bytes_le).length =
      packet.data.length := by
    rw [PacketBuffer.length, cells_load, TextPacket.bytes, List.append_assoc,
      List.append_assoc, List.take_left' (length_toLittleEndian _ _),
      ofLittleEndian_toLittleEndian]
    exact Nat.mod_eq_of_lt (Nat.lt_trans hLt (by decide))
  show ((buffer.load packet.bytes packet.length_bytes_le).data).take
    (buffer.load packet.bytes packet.length_bytes_le).length = packet.data
  rw [hLength, data_load, List.take_left' rfl]

theorem length_data (buffer : PacketBuffer) : buffer.data.length = bufSize := by
  rw [PacketBuffer.data, List.length_drop, buffer.length_cells]
  omega

/-- A NUL is left in the data area where there was one that the packet does not cover. -/
theorem nul_load_iff (buffer : PacketBuffer) (packet : TextPacket) (l : Nat) :
    (buffer.load packet.bytes packet.length_bytes_le).data[l]? = some 0 ↔
      buffer.data[l]? = some 0 ∧ packet.data.length ≤ l := by
  rw [data_load]
  by_cases hLt : l < packet.data.length
  · rw [List.getElem?_append_left hLt, List.getElem?_eq_getElem hLt]
    constructor
    · intro hNul
      exact absurd (Option.some.inj hNul) (packet.no_nul _ (List.getElem_mem hLt))
    · rintro ⟨-, hLe⟩
      omega
  · rw [List.getElem?_append_right (by omega), List.getElem?_drop,
      Nat.add_sub_cancel' (by omega)]
    constructor
    · intro hNul
      exact ⟨hNul, by omega⟩
    · rintro ⟨hNul, -⟩
      exact hNul

/-- A text at the front of the data area is what is printed exactly if the byte behind it
is a NUL. -/
theorem cString_data_iff {buffer : PacketBuffer} {packet : TextPacket}
    (hFront : buffer.data.take packet.data.length = packet.data)
    (behind : List UInt8) :
    cString (buffer.data ++ behind) = packet.data ↔
      buffer.data[packet.data.length]? = some 0 := by
  have hIn : packet.data.length < buffer.data.length := by
    rw [length_data]
    exact packet.length_data_lt
  have hSplit : buffer.data = packet.data ++
      (buffer.data[packet.data.length] :: buffer.data.drop (packet.data.length + 1)) := by
    rw [List.getElem_cons_drop]
    conv_lhs => rw [← List.take_append_drop packet.data.length buffer.data, hFront]
  conv_lhs => rw [hSplit, List.append_assoc, List.cons_append]
  rw [cString_append_eq_iff packet.no_nul, List.getElem?_eq_getElem hIn,
    Option.some.injEq]

/-! ## The buffers of a run -/

variable {n : Nat}

/-- What the recycling of the buffers keeps: the buffers in use, oldest packet first,
and then the free ones are the buffers of the beginning, rotated. -/
structure Recycled (queue : FreeQueue n) (s : Server n) : Prop where
  wellFormed : s.pool.WellFormed
  cycle : s.pending ++ (s.rx.buffers ++ s.pool.cspBuffers) =
    queue.buffers.rotate s.printed.length
  received_length : s.received.length = s.printed.length + s.pending.length

section Recycled

variable {queue : FreeQueue n} {memory : Fin n → PacketBuffer} {s s' : Server n}
  {event : ServerEvent} {buffer : Fin n} {rest : List (Fin n)}

theorem FreeQueue.mem_buffers (queue : FreeQueue n) (buffer : Fin n) :
    buffer ∈ queue.buffers := by
  by_contra hUsed
  have hCard := (List.nodup_cons.mpr ⟨hUsed, queue.nodup⟩).length_le_card
  rw [Fintype.card_fin, List.length_cons, queue.length_eq] at hCard
  omega

theorem ServerStart.recycled (hStart : ServerStart queue memory s) : Recycled queue s where
  wellFormed := by
    constructor
    · rw [hStart.cspBuffers]
      exact queue.nodup
    · intro buffer hUsed
      rw [hStart.cspBuffers] at hUsed
      exact absurd (queue.mem_buffers buffer) hUsed
  cycle := by
    rw [hStart.pending, hStart.rx, hStart.cspBuffers, hStart.printed, List.length_nil,
      List.rotate_zero]
    rfl
  received_length := by
    rw [hStart.received, hStart.printed, hStart.pending]
    rfl

theorem Recycled.length (hCycle : Recycled queue s) :
    s.pending.length + (s.rx.buffers.length + s.pool.cspBuffers.length) = n := by
  have hLength := congrArg List.length hCycle.cycle
  rw [List.length_rotate, queue.length_eq] at hLength
  simpa using hLength

/-- The next packet is read into its slot. -/
theorem Recycled.reading (hCycle : Recycled queue s) (hRx : s.rx = .reading buffer) :
    slot queue.buffers s.received.length = some buffer ∧
      s.received.length < s.printed.length + n := by
  have hLength := hCycle.length
  have hRotate := hCycle.cycle
  rw [hRx] at hLength hRotate
  rw [hCycle.received_length]
  refine ⟨slot_of_rotate hRotate, ?_⟩
  simp only [RxLoc.buffers, List.length_singleton] at hLength
  omega

/-- The oldest packet is printed from its slot. -/
theorem Recycled.printing (hCycle : Recycled queue s) (hPending : s.pending = buffer :: rest) :
    slot queue.buffers s.printed.length = some buffer ∧ buffer ∉ s.pool.cspBuffers := by
  have hRotate := hCycle.cycle
  rw [hPending] at hRotate
  constructor
  · exact @slot_of_rotate _ _ _ _ [] _ hRotate
  · intro hFree
    have hNodup : (buffer :: rest ++ (s.rx.buffers ++ s.pool.cspBuffers)).Nodup := by
      rw [hRotate]
      exact List.nodup_rotate.mpr queue.nodup
    rw [List.cons_append, List.nodup_cons] at hNodup
    exact hNodup.1 (by simp [hFree])

theorem Recycled.get (hCycle : Recycled queue s) (hRx : s.rx = .asking) :
    Recycled queue s.get := by
  have hRotate := hCycle.cycle
  rw [hRx, RxLoc.buffers, List.nil_append] at hRotate
  unfold Server.get
  split
  · next pool hGet =>
    obtain ⟨-, rfl⟩ := cspBufferGet_eq_none hGet
    exact ⟨hCycle.wellFormed, hRotate, hCycle.received_length⟩
  · next buffer pool hGet =>
    obtain ⟨-, hQueue, -, -⟩ := cspBufferGet_eq_some hGet
    refine ⟨(hCycle.wellFormed.get hGet).1, ?_, hCycle.received_length⟩
    rw [hQueue] at hRotate
    exact hRotate

theorem Recycled.receive (hCycle : Recycled queue s) (hRx : s.rx = .reading buffer)
    (packet : TextPacket) : Recycled queue (s.receive packet buffer) where
  wellFormed := hCycle.wellFormed
  cycle := by
    have hRotate := hCycle.cycle
    rw [hRx] at hRotate
    simpa [Server.receive, RxLoc.buffers] using hRotate
  received_length := by
    have hLength := hCycle.received_length
    simp only [Server.receive, List.length_append, List.length_singleton]
    omega

theorem Recycled.print (hCycle : Recycled queue s) (hPending : s.pending = buffer :: rest)
    (behind : List UInt8) : Recycled queue (s.print behind buffer rest) := by
  obtain ⟨-, hUsed⟩ := hCycle.printing hPending
  have hFree := cspBufferFree_used hCycle.wellFormed hUsed
  refine ⟨hCycle.wellFormed.free hUsed, ?_, ?_⟩
  · have hRotate := hCycle.cycle
    rw [hPending] at hRotate
    have hNext := rotate_succ hRotate
    simpa [Server.print, hFree] using hNext
  · have hLength := hCycle.received_length
    rw [hPending, List.length_cons] at hLength
    simp only [Server.print, List.length_append, List.length_singleton]
    omega

theorem Recycled.step (hCycle : Recycled queue s) (hStep : serverStep event s = some s') :
    Recycled queue s' := by
  obtain ⟨hRx, rfl⟩ | ⟨packet, buffer, hRx, rfl⟩ | ⟨behind, buffer, rest, hPending, rfl⟩ :=
    serverStep_cases hStep
  · exact hCycle.get hRx
  · exact hCycle.receive hRx packet
  · exact hCycle.print hPending behind

end Recycled

/-! ## Their contents -/

/-- The contents of the buffers: a packet that has not been printed is still in its
slot, and a NUL is in a buffer exactly where one was at the start and no packet has
covered it. -/
structure Contents (queue : FreeQueue n) (memory : Fin n → PacketBuffer) (s : Server n) :
    Prop where
  held : ∀ i packet buffer, s.printed.length ≤ i → s.received[i]? = some packet →
    slot queue.buffers i = some buffer →
    (s.memory buffer).data.take packet.data.length = packet.data
  nul_iff : ∀ buffer (l : Nat), (s.memory buffer).data[l]? = some 0 ↔
    (memory buffer).data[l]? = some 0 ∧
      ∀ j packet, s.received[j]? = some packet → slot queue.buffers j = some buffer →
        packet.data.length ≤ l

section Contents

variable {queue : FreeQueue n} {memory : Fin n → PacketBuffer} {s s' : Server n}
  {event : ServerEvent} {buffer : Fin n} {rest : List (Fin n)}

theorem ServerStart.contents (hStart : ServerStart queue memory s) :
    Contents queue memory s where
  held := by
    intro i packet buffer _ hReceived
    rw [hStart.received] at hReceived
    cases hReceived
  nul_iff := by
    intro buffer l
    rw [hStart.memory_eq, hStart.received]
    simp

/-- The packets that wait to be printed stay where they are: the next one is read into
another slot. -/
theorem Contents.held_receive (hContents : Contents queue memory s)
    (hCycle : Recycled queue s) (hRx : s.rx = .reading buffer) (packet : TextPacket)
    {i : Nat} {other : TextPacket} {buffer' : Fin n} (hPending : s.printed.length ≤ i)
    (hReceived : (s.received ++ [packet])[i]? = some other)
    (hSlot' : slot queue.buffers i = some buffer') :
    ((s.receive packet buffer).memory buffer').data.take other.data.length =
      other.data := by
  obtain ⟨hSlot, hNear⟩ := hCycle.reading hRx
  have hLength := queue.length_eq
  rcases getElem?_concat_eq_some.mp hReceived with hOld | ⟨rfl, rfl⟩
  · have hIn := (List.getElem?_eq_some_iff.mp hOld).1
    have hOther : buffer' ≠ buffer := by
      rintro rfl
      exact slot_ne_of_near queue.nodup hIn (by omega) hSlot' hSlot
    rw [Server.memory_receive_of_ne packet hOther]
    exact hContents.held i other buffer' hPending hOld hSlot'
  · obtain rfl : buffer = buffer' := Option.some.inj (hSlot.symm.trans hSlot')
    rw [Server.memory_receive_self, data_load, List.take_left' rfl]

/-- The packet that is read covers the NULs in front of its own end, in its buffer. -/
theorem Contents.nul_receive_iff (hContents : Contents queue memory s)
    (hCycle : Recycled queue s) (hRx : s.rx = .reading buffer) (packet : TextPacket)
    (buffer' : Fin n) (l : Nat) :
    ((s.receive packet buffer).memory buffer').data[l]? = some 0 ↔
      (memory buffer').data[l]? = some 0 ∧
        ∀ j other, (s.received ++ [packet])[j]? = some other →
          slot queue.buffers j = some buffer' → other.data.length ≤ l := by
  obtain ⟨hSlot, -⟩ := hCycle.reading hRx
  by_cases hSame : buffer' = buffer
  · subst hSame
    rw [Server.memory_receive_self, nul_load_iff, hContents.nul_iff]
    constructor
    · rintro ⟨⟨hNul, hOld⟩, hNew⟩
      refine ⟨hNul, ?_⟩
      intro j other hReceived hSlot'
      rcases getElem?_concat_eq_some.mp hReceived with hEarlier | ⟨-, rfl⟩
      · exact hOld j other hEarlier hSlot'
      · exact hNew
    · rintro ⟨hNul, hAll⟩
      refine ⟨⟨hNul, ?_⟩, ?_⟩
      · intro j other hEarlier
        exact hAll j other (getElem?_concat_eq_some.mpr (.inl hEarlier))
      · exact hAll _ packet (getElem?_concat_eq_some.mpr (.inr ⟨rfl, rfl⟩)) hSlot
  · rw [Server.memory_receive_of_ne packet hSame, hContents.nul_iff]
    refine and_congr_right fun _ => ?_
    constructor
    · intro hOld j other hReceived hSlot'
      rcases getElem?_concat_eq_some.mp hReceived with hEarlier | ⟨rfl, -⟩
      · exact hOld j other hEarlier hSlot'
      · exact absurd (Option.some.inj (hSlot'.symm.trans hSlot)) hSame
    · intro hAll j other hEarlier
      exact hAll j other (getElem?_concat_eq_some.mpr (.inl hEarlier))

theorem Contents.step (hContents : Contents queue memory s) (hCycle : Recycled queue s)
    (hStep : serverStep event s = some s') : Contents queue memory s' := by
  obtain ⟨hRx, rfl⟩ | ⟨packet, buffer, hRx, rfl⟩ | ⟨behind, buffer, rest, hPending, rfl⟩ :=
    serverStep_cases hStep
  · unfold Server.get
    split <;> exact ⟨hContents.held, hContents.nul_iff⟩
  · constructor
    · intro i other buffer'
      exact hContents.held_receive hCycle hRx packet
    · exact hContents.nul_receive_iff hCycle hRx packet
  · refine ⟨?_, hContents.nul_iff⟩
    intro i packet buffer' hLe
    refine hContents.held i packet buffer' ?_
    rw [Server.print, List.length_append] at hLe
    omega

end Contents

/-! ## The printed texts -/

/-- There is a NUL behind the data of a packet when it is printed: its buffer held one
there at the start, and none of the earlier packets in that buffer was longer. -/
structure Terminated (queue : FreeQueue n) (memory : Fin n → PacketBuffer)
    (earlier : List TextPacket) (packet : TextPacket) : Prop where
  nul : ∀ buffer, slot queue.buffers earlier.length = some buffer →
    (memory buffer).data[packet.data.length]? = some 0
  not_longer : ∀ (j : Nat) other, earlier[j]? = some other →
    j % n = earlier.length % n → other.data.length ≤ packet.data.length

/-- In some run the server prints `text` for the packet that comes behind the earlier
ones. -/
def Prints (queue : FreeQueue n) (memory : Fin n → PacketBuffer)
    (earlier : List TextPacket) (packet : TextPacket) (text : List UInt8) : Prop :=
  ∃ s, (serverSystem queue memory).Reachable s ∧ earlier ++ [packet] <+: s.received ∧
    s.printed[earlier.length]? = some text

/-- Every printed text is that of its packet exactly if there is a NUL behind it. -/
def TextsTerminated (queue : FreeQueue n) (memory : Fin n → PacketBuffer)
    (s : Server n) : Prop :=
  ∀ i packet text, s.received[i]? = some packet → s.printed[i]? = some text →
    (text = packet.data ↔ Terminated queue memory (s.received.take i) packet)

section Texts

variable {queue : FreeQueue n} {memory : Fin n → PacketBuffer} {s s' : Server n}
  {event : ServerEvent} {buffer : Fin n} {rest : List (Fin n)}

/-- The NUL behind the oldest packet that has not been printed. -/
theorem terminated_iff (hContents : Contents queue memory s) (hCycle : Recycled queue s)
    (hPending : s.pending = buffer :: rest) {packet : TextPacket}
    (hReceived : s.received[s.printed.length]? = some packet) :
    (s.memory buffer).data[packet.data.length]? = some 0 ↔
      Terminated queue memory (s.received.take s.printed.length) packet := by
  obtain ⟨hSlot, -⟩ := hCycle.printing hPending
  have hLength := queue.length_eq
  have hIn := (List.getElem?_eq_some_iff.mp hReceived).1
  have hTake : (s.received.take s.printed.length).length = s.printed.length := by
    rw [List.length_take]
    omega
  have hNear : s.received.length ≤ s.printed.length + n := by
    have hCount := hCycle.received_length
    have hBuffers := hCycle.length
    omega
  rw [hContents.nul_iff]
  constructor
  · rintro ⟨hNul, hAll⟩
    constructor
    · intro buffer' hSlot'
      rw [hTake] at hSlot'
      obtain rfl : buffer = buffer' := Option.some.inj (hSlot.symm.trans hSlot')
      exact hNul
    · intro j other hEarlier hMod
      rw [hTake] at hMod
      rw [List.getElem?_take] at hEarlier
      split at hEarlier
      · refine hAll j other hEarlier ?_
        rw [← hSlot, slot, slot, hLength, hMod]
      · cases hEarlier
  · rintro ⟨hNul, hNotLonger⟩
    refine ⟨hNul buffer (by rw [hTake]; exact hSlot), ?_⟩
    intro j other hOther hSlot'
    have hBelow := (List.getElem?_eq_some_iff.mp hOther).1
    rcases Nat.lt_trichotomy j s.printed.length with hLt | rfl | hGt
    · have hMod := mod_eq_of_slot_eq queue.nodup hSlot' hSlot
      rw [hLength] at hMod
      refine hNotLonger j other ?_ (by rw [hTake]; exact hMod)
      rw [List.getElem?_take, if_pos hLt]
      exact hOther
    · obtain rfl : packet = other := Option.some.inj (hReceived.symm.trans hOther)
      exact Nat.le_refl _
    · -- a packet behind it in the same buffer would have overwritten it
      exact absurd hSlot' (slot_ne_of_near queue.nodup hGt (by omega) hSlot)

theorem TextsTerminated.print (hTexts : TextsTerminated queue memory s)
    (hContents : Contents queue memory s) (hCycle : Recycled queue s)
    (hPending : s.pending = buffer :: rest) (behind : List UInt8) :
    TextsTerminated queue memory (s.print behind buffer rest) := by
  intro i packet text hReceived hPrinted
  rcases getElem?_concat_eq_some.mp hPrinted with hOld | ⟨rfl, rfl⟩
  · exact hTexts i packet text hReceived hOld
  · have hFront := hContents.held _ packet buffer (Nat.le_refl _) hReceived
      (hCycle.printing hPending).1
    rw [cString_data_iff hFront]
    exact terminated_iff hContents hCycle hPending hReceived

theorem TextsTerminated.receive (hTexts : TextsTerminated queue memory s)
    (hCycle : Recycled queue s) (packet : TextPacket) :
    TextsTerminated queue memory (s.receive packet buffer) := by
  intro i other text hReceived hPrinted
  have hIn : i < s.received.length := by
    have hBelow : i < s.printed.length := (List.getElem?_eq_some_iff.mp hPrinted).1
    have hCount := hCycle.received_length
    omega
  have hOld : s.received[i]? = some other := by
    rcases getElem?_concat_eq_some.mp hReceived with hOld | ⟨rfl, -⟩
    · exact hOld
    · omega
  have hTake : (s.receive packet buffer).received.take i = s.received.take i :=
    List.take_append_of_le_length (by omega)
  rw [hTake]
  exact hTexts i other text hOld hPrinted

theorem TextsTerminated.step (hTexts : TextsTerminated queue memory s)
    (hContents : Contents queue memory s) (hCycle : Recycled queue s)
    (hStep : serverStep event s = some s') : TextsTerminated queue memory s' := by
  obtain ⟨hRx, rfl⟩ | ⟨packet, buffer, hRx, rfl⟩ | ⟨behind, buffer, rest, hPending, rfl⟩ :=
    serverStep_cases hStep
  · unfold Server.get
    split <;> exact hTexts
  · exact hTexts.receive hCycle packet
  · exact hTexts.print hContents hCycle hPending behind

/-- What holds of every state that a run of the server reaches. -/
theorem reachable_texts (hReach : (serverSystem queue memory).Reachable s) :
    Recycled queue s ∧ Contents queue memory s ∧ TextsTerminated queue memory s := by
  refine hReach.invariant (motive := fun s =>
    Recycled queue s ∧ Contents queue memory s ∧ TextsTerminated queue memory s) ?_ ?_
  · intro s hStart
    refine ⟨hStart.recycled, hStart.contents, ?_⟩
    intro i packet text hReceived
    rw [hStart.received] at hReceived
    cases hReceived
  · rintro s s' ⟨hCycle, hContents, hTexts⟩ ⟨event, hStep⟩
    exact ⟨hCycle.step hStep, hContents.step hCycle hStep,
      hTexts.step hContents hCycle hStep⟩

/-- The text of a packet. -/
theorem Prints.text_iff {earlier : List TextPacket} {packet : TextPacket}
    {text : List UInt8} (hPrints : Prints queue memory earlier packet text) :
    text = packet.data ↔ Terminated queue memory earlier packet := by
  obtain ⟨s, hReach, ⟨later, hReceived⟩, hPrinted⟩ := hPrints
  obtain ⟨-, -, hTexts⟩ := reachable_texts hReach
  have hPacket : s.received[earlier.length]? = some packet := by
    rw [← hReceived]
    simp
  have hEarlier : s.received.take earlier.length = earlier := by
    rw [← hReceived, List.append_assoc, List.take_left' rfl]
  have hText := hTexts earlier.length packet text hPacket hPrinted
  rwa [hEarlier] at hText

/-- When the server prints what was received: the text that it prints for a packet is
the data of the packet exactly if there is a NUL behind it.  Where there is, two runs
print the same for a packet, whatever came before it and whatever the pool held. -/
theorem server_prints_iff {earlier : List TextPacket} {packet : TextPacket}
    {text : List UInt8} (hPrints : Prints queue memory earlier packet text) :
    (text = packet.data ↔ Terminated queue memory earlier packet) ∧
      (Terminated queue memory earlier packet →
        ∀ (queue' : FreeQueue n) (memory' : Fin n → PacketBuffer)
          (earlier' : List TextPacket) (text' : List UInt8),
          Prints queue' memory' earlier' packet text' →
          Terminated queue' memory' earlier' packet → text = text') := by
  refine ⟨hPrints.text_iff, ?_⟩
  intro hNul queue' memory' earlier' text' hPrints' hNul'
  rw [hPrints.text_iff.mpr hNul, hPrints'.text_iff.mpr hNul']

end Texts

/-! ## Runs that print -/

section Runs

variable {queue : FreeQueue n} {memory : Fin n → PacketBuffer} {s : Server n}

/-- When all packets have been printed, another one can be received and printed. -/
theorem exists_next (hPos : 0 < n) (hReach : (serverSystem queue memory).Reachable s)
    (hRx : s.rx = .asking) (hPending : s.pending = []) (packet : TextPacket) :
    ∃ s', (serverSystem queue memory).Reachable s' ∧ s'.rx = .asking ∧ s'.pending = [] ∧
      s'.received = s.received ++ [packet] := by
  have hLength := (reachable_texts hReach).1.length
  rw [hRx, hPending] at hLength
  have hFree : s.pool.cspBuffers ≠ [] := by
    apply List.ne_nil_of_length_pos
    simp only [RxLoc.buffers, List.length_nil] at hLength
    omega
  cases hGet : cspBufferGet cspPacketSize s.pool with
  | mk out pool =>
      cases out with
      | none =>
          exact absurd (congrArg Prod.fst hGet)
            (cspBufferGet_ne_none cspPacketSize_le_bufSize hFree)
      | some buffer =>
          let s₁ : Server n := { s with pool := pool, rx := .reading buffer }
          let s₂ := s₁.receive packet buffer
          have h₁ : serverStep .get s = some s₁ := by
            simp [serverStep, hRx, Server.get, hGet, s₁]
          have h₂ : serverStep (.receive packet) s₁ = some s₂ := rfl
          have hOne : s₂.pending = [buffer] := by
            simp [s₂, s₁, Server.receive, hPending]
          have h₃ : serverStep (.print []) s₂ = some (s₂.print [] buffer []) := by
            simp [serverStep, hOne]
          exact ⟨_, ((hReach.step ⟨_, h₁⟩).step ⟨_, h₂⟩).step ⟨_, h₃⟩, rfl, rfl, rfl⟩

/-- Every sequence of packets can be received and printed. -/
theorem exists_received (hPos : 0 < n) (queue : FreeQueue n)
    (memory : Fin n → PacketBuffer) (packets : List TextPacket) :
    ∃ s, (serverSystem queue memory).Reachable s ∧ s.rx = .asking ∧ s.pending = [] ∧
      s.received = packets := by
  induction packets using List.reverseRecOn with
  | nil =>
      let s : Server n := ⟨⟨queue.buffers, fun _ => 0, []⟩, memory, .asking, [], [], []⟩
      exact ⟨s, TransitionSystem.reachable_init ⟨rfl, rfl, rfl, rfl, rfl, rfl⟩, rfl, rfl,
        rfl⟩
  | append_singleton packets packet ih =>
      obtain ⟨s, hReach, hRx, hPending, rfl⟩ := ih
      exact exists_next hPos hReach hRx hPending packet

theorem exists_prints (hPos : 0 < n) (queue : FreeQueue n)
    (memory : Fin n → PacketBuffer) (earlier : List TextPacket) (packet : TextPacket) :
    ∃ text, Prints queue memory earlier packet text := by
  obtain ⟨s, hReach, -, hPending, hReceived⟩ :=
    exists_received hPos queue memory (earlier ++ [packet])
  have hCount := (reachable_texts hReach).1.received_length
  rw [hPending, hReceived, List.length_append, List.length_singleton] at hCount
  have hIn : earlier.length < s.printed.length := by
    simp only [List.length_nil] at hCount
    omega
  exact ⟨_, s, hReach, by rw [hReceived], List.getElem?_eq_getElem hIn⟩

end Runs

/-- `idout.ext` of a connection of the client: normal priority, from node 2 to node 1, to port
10 and from the ephemeral port 25, without flags. -/
def clientIdout : Nat := 2 * 2 ^ 30 + 2 * 2 ^ 25 + 1 * 2 ^ 20 + 10 * 2 ^ 14 + 25 * 2 ^ 8

/-- The packet of the text A. -/
def oneLetter : TextPacket := ⟨clientIdout, [65], by decide, by simp⟩

/-- The packet of the text AA. -/
def twoLetters : TextPacket := ⟨clientIdout, [65, 65], by decide, by simp⟩

/-- A pool of two buffers. -/
def twoBuffers : FreeQueue 2 := ⟨List.finRange 2, List.nodup_finRange 2, rfl⟩

theorem zero_data {l : Nat} (hLt : l < bufSize) : PacketBuffer.zero.data[l]? = some 0 := by
  rw [PacketBuffer.data, PacketBuffer.zero, List.getElem?_drop,
    List.getElem?_replicate_of_lt (by omega)]

theorem terminated_first (packet : TextPacket) :
    Terminated twoBuffers (fun _ => .zero) [] packet where
  nul := fun _ _ => zero_data packet.length_data_lt
  not_longer := nofun

/-- Behind packets that are not longer, a packet of one letter is printed as it is. -/
theorem terminated_letters :
    Terminated twoBuffers (fun _ => .zero) [oneLetter, oneLetter] oneLetter where
  nul := fun _ _ => zero_data oneLetter.length_data_lt
  not_longer := by
    intro j other hOther _
    have hMem := List.mem_of_getElem? hOther
    simp only [List.mem_cons, List.not_mem_nil, or_false, or_self] at hMem
    rw [hMem]

/-- The first packet of a server whose pool is all zeros is printed as it is, and so is
the same packet behind two others of its length. -/
theorem server_prints_letter :
    ∃ text text',
      Prints twoBuffers (fun _ => .zero) [] oneLetter text ∧
      Prints twoBuffers (fun _ => .zero) [oneLetter, oneLetter] oneLetter text' ∧
      text = oneLetter.data ∧ text = text' := by
  obtain ⟨text, hPrints⟩ :=
    exists_prints (by decide) twoBuffers (fun _ => .zero) [] oneLetter
  obtain ⟨text', hPrints'⟩ :=
    exists_prints (by decide) twoBuffers (fun _ => .zero) [oneLetter, oneLetter] oneLetter
  refine ⟨text, text', hPrints, hPrints', ?_, ?_⟩
  · exact (server_prints_iff hPrints).1.mpr (terminated_first _)
  · exact (server_prints_iff hPrints).2 (terminated_first _) _ _ _ _ hPrints'
      terminated_letters

/-- With two buffers, the third packet is printed with the end of a longer first one,
and otherwise with a first one of its own length; and the first packet with what the pool
held before. -/
theorem not_server_prints :
    (∃ text text',
      Prints twoBuffers (fun _ => .zero) [twoLetters, oneLetter] oneLetter text ∧
      Prints twoBuffers (fun _ => .zero) [oneLetter, oneLetter] oneLetter text' ∧
      text ≠ oneLetter.data ∧ text ≠ text') ∧
    ∃ text,
      Prints twoBuffers (fun _ => ⟨List.replicate _ 66, List.length_replicate⟩) []
        oneLetter text ∧
      text ≠ oneLetter.data := by
  constructor
  · obtain ⟨text, hPrints⟩ :=
      exists_prints (by decide) twoBuffers (fun _ => .zero) [twoLetters, oneLetter]
        oneLetter
    obtain ⟨text', hPrints'⟩ :=
      exists_prints (by decide) twoBuffers (fun _ => .zero) [oneLetter, oneLetter]
        oneLetter
    have hText : text ≠ oneLetter.data := by
      rw [ne_eq, hPrints.text_iff]
      intro hNul
      exact absurd (hNul.not_longer 0 _ rfl rfl) (by decide)
    refine ⟨text, text', hPrints, hPrints', hText, ?_⟩
    rw [hPrints'.text_iff.mpr terminated_letters]
    exact hText
  · obtain ⟨text, hPrints⟩ :=
      exists_prints (by decide) twoBuffers
        (fun _ => ⟨List.replicate _ 66, List.length_replicate⟩) [] oneLetter
    refine ⟨text, hPrints, ?_⟩
    rw [ne_eq, hPrints.text_iff]
    intro hNul
    have hByte := hNul.nul 0 rfl
    rw [PacketBuffer.data, List.getElem?_drop,
      List.getElem?_replicate_of_lt (by decide)] at hByte
    exact absurd hByte (by decide)

end Csp
end CubeSatComm
