import CubeSatComm.Csp.FifoReceiver

/-!
# How much data a received packet claims

`fifo_rx` takes whatever a `read` returns for a packet.  Its field `length` is then made
of the first two bytes of that read, and nothing compares it with the number of bytes
that have come: the rest of the data that it claims is what the buffer held before, or
lies behind the buffer.

A packet that claims no more than it has received is `Backed` by its read.  The packets
of a run are that exactly if every read brings a header and a length that fits.
-/

namespace CubeSatComm
namespace Csp

open Lib Posix

/-- A read that brings a whole header, and as much data behind it as `length` says. -/
def HonestRead (bytes : List UInt8) : Prop :=
  packetHeaderSize ≤ bytes.length ∧
    ofLittleEndian (bytes.take lengthSize) ≤ bytes.length - packetHeaderSize

instance (bytes : List UInt8) : Decidable (HonestRead bytes) :=
  inferInstanceAs (Decidable (_ ∧ _))

/-- A packet, given by the memory from its field `length` on, that a read of `bytes` has
filled and that claims no more data than was received. -/
structure Backed (bytes cells : List UInt8) : Prop where
  filled : cells.take bytes.length = bytes
  header : packetHeaderSize ≤ bytes.length
  length_le : ofLittleEndian (cells.take lengthSize) ≤ bytes.length - packetHeaderSize

theorem backed_iff {bytes cells : List UInt8} (hFilled : cells.take bytes.length = bytes) :
    Backed bytes cells ↔ HonestRead bytes := by
  have hField : packetHeaderSize ≤ bytes.length →
      cells.take lengthSize = bytes.take lengthSize := by
    intro hHeader
    have hLe : lengthSize ≤ bytes.length := Nat.le_trans (Nat.le_add_right _ _) hHeader
    rw [← hFilled, List.take_take, Nat.min_eq_left hLe]
  constructor
  · rintro ⟨-, hHeader, hLength⟩
    rw [hField hHeader] at hLength
    exact ⟨hHeader, hLength⟩
  · rintro ⟨hHeader, hLength⟩
    refine ⟨hFilled, hHeader, ?_⟩
    rw [hField hHeader]
    exact hLength

/-- A consumer of such a packet sees received bytes only. -/
theorem Backed.data_received {bytes cells : List UInt8} (hBacked : Backed bytes cells) :
    (cells.drop packetHeaderSize).take (ofLittleEndian (cells.take lengthSize)) =
      (bytes.drop packetHeaderSize).take (ofLittleEndian (cells.take lengthSize)) := by
  have hHeader := hBacked.header
  have hLength := hBacked.length_le
  rw [List.take_drop, List.take_drop]
  conv_rhs => rw [← hBacked.filled]
  rw [List.take_take, Nat.min_eq_left (by omega)]

/-- Each injected packet is backed by its read; the `i`-th read fills the `i`-th
packet. -/
def ClaimsNoMore (reads injected : List (List UInt8)) : Prop :=
  ∀ (i : Nat) (cells : List UInt8), injected[i]? = some cells →
    ∃ bytes, reads[i]? = some bytes ∧ Backed bytes cells

theorem claimsNoMore_cons_iff {bytes cells : List UInt8}
    {reads injected : List (List UInt8)} :
    ClaimsNoMore (bytes :: reads) (cells :: injected) ↔
      Backed bytes cells ∧ ClaimsNoMore reads injected := by
  constructor
  · intro hAll
    constructor
    · obtain ⟨bytes', hRead, hBacked⟩ := hAll 0 cells rfl
      obtain rfl : bytes = bytes' := Option.some.inj hRead
      exact hBacked
    · intro i cells' hAt
      exact hAll (i + 1) cells' hAt
  · rintro ⟨hFirst, hRest⟩ i cells' hAt
    cases i with
    | zero =>
        obtain rfl : cells = cells' := Option.some.inj hAt
        exact ⟨bytes, rfl, hFirst⟩
    | succ i => exact hRest i cells' hAt

/-- With one packet for each of the first reads, all are backed exactly if all these
reads are honest. -/
theorem claimsNoMore_iff {reads served injected : List (List UInt8)}
    (hPrefix : served <+: reads)
    (hFilled : List.Forall₂ (fun bytes cells => cells.take bytes.length = bytes)
      served injected) :
    ClaimsNoMore reads injected ↔ ∀ bytes ∈ served, HonestRead bytes := by
  obtain ⟨rest, rfl⟩ := hPrefix
  induction hFilled with
  | nil => simp [ClaimsNoMore]
  | cons hFirst _ ih =>
      rw [List.cons_append, claimsNoMore_cons_iff, backed_iff hFirst, ih,
        List.forall_mem_cons]

section Receivers

variable {δ β : Type} {reader : Reader δ UInt8 Errno} {fill : β → List UInt8 → β}
  {cells : β → List UInt8}
  (hFill : ∀ buffer bytes, bytes.length ≤ reader.count →
    cells (fill buffer bytes) = store (cells buffer) 0 bytes)

include hFill

/-- The lengths of a receiver that stores each read at the front of a buffer. -/
theorem receiver_claimsNoMore_iff (supply : Nat → Option β) (device : δ) :
    ClaimsNoMore ((reader.arrivals device).chunks reader.count)
        (((Receiver.handed (Receiver.run reader fill supply
          (Receiver.start supply device)).log).map Prod.snd).map cells) ↔
      ∀ bytes ∈ Receiver.served supply 0 ((reader.arrivals device).chunks reader.count),
        HonestRead bytes := by
  have hPrefix := Receiver.served_prefix supply 0
    ((reader.arrivals device).chunks reader.count)
  obtain ⟨buffers, hHanded, hFilled⟩ :=
    @Receiver.Owns.run_handed _ _ _ _ reader fill _ _ _ (Receiver.owns_start supply device)
  have hNone : Receiver.handed (Receiver.start supply device).log = [] :=
    Receiver.handed_answer supply 0
  rw [hHanded, hNone, List.map_nil, List.nil_append]
  refine claimsNoMore_iff hPrefix ?_
  rw [List.forall₂_map_right_iff]
  have hShort : ∀ bytes ∈ Receiver.served supply 0
      ((reader.arrivals device).chunks reader.count), bytes.length ≤ reader.count :=
    fun bytes hMem =>
      Feed.length_le_of_mem_chunks reader.count_pos (hPrefix.subset hMem)
  refine ((List.forall₂_and_left _ _).mpr ⟨hShort, hFilled⟩).imp ?_
  rintro bytes _ ⟨hLength, stale, rfl⟩
  rw [hFill stale bytes hLength, store_zero, List.take_left' rfl]

end Receivers

/-- Every packet that `fifo_rx` of the client and the server injects is backed by its
read. -/
def InjectsBacked (device : Device) (supply : Nat → Option PacketBuffer) (port : Port) :
    Prop :=
  ClaimsNoMore (port.rx.chunks cspPacketSize)
    ((fifoRx device supply port).injected.map PacketBuffer.cells)

/-- So is every packet of the `fifo_rx` of the named pipes. -/
def NamedPipe.InjectsBacked (rxChannel : RxChannel) (supply : Nat → Option PacketBuffer)
    (port : Port) : Prop :=
  ClaimsNoMore (port.rx.chunks bufSize)
    ((injected (fifoRx rxChannel supply port)).map PacketBuffer.cells)

theorem injectsBacked_iff (device : Device) (supply : Nat → Option PacketBuffer)
    (port : Port) :
    InjectsBacked device supply port ↔
      ∀ bytes ∈ Receiver.served supply 0 (port.rx.chunks cspPacketSize),
        HonestRead bytes := by
  rw [InjectsBacked, fifoRx_eq, fifoRxOwning]
  split
  · next hNone =>
    have hNothing : Receiver.handed (Receiver.start supply port).log = [] :=
      Receiver.handed_answer supply 0
    rw [FifoRxState.erase, hNothing, Receiver.served_refused hNone]
    exact claimsNoMore_iff List.nil_prefix .nil
  · have hFill : ∀ (buffer : PacketBuffer) (bytes : List UInt8),
        bytes.length ≤ device.reader.count →
          (buffer.fill bytes).cells = store buffer.cells 0 bytes := by
      intro buffer bytes hLength
      rw [PacketBuffer.fill_eq hLength]
      rfl
    exact receiver_claimsNoMore_iff hFill supply port

theorem NamedPipe.injectsBacked_iff (rxChannel : RxChannel)
    (supply : Nat → Option PacketBuffer) (port : Port) :
    InjectsBacked rxChannel supply port ↔
      ∀ bytes ∈ Receiver.served supply 0 (port.rx.chunks bufSize), HonestRead bytes := by
  have hFill : ∀ (buffer : PacketBuffer) (bytes : List UInt8),
      bytes.length ≤ rxChannel.reader.count →
        (buffer.fill bytes).cells = store buffer.cells 0 bytes :=
    fun _ _ hLength => PacketBuffer.cells_fill hLength
  exact receiver_claimsNoMore_iff hFill supply port

/-- When no packet that `fifo_rx` injects claims more data than was received, in the
client and the server and in the program of the named pipes: exactly if every read that
finds data, while no buffer has been refused, is honest. -/
theorem injected_lengths_iff (port : Port) :
    (∀ (device : Device) (supply : Nat → Option PacketBuffer),
      InjectsBacked device supply port ↔
        ∀ bytes ∈ Receiver.served supply 0 (port.rx.chunks cspPacketSize),
          HonestRead bytes) ∧
    (∀ (rxChannel : NamedPipe.RxChannel) (supply : Nat → Option NamedPipe.PacketBuffer),
      NamedPipe.InjectsBacked rxChannel supply port ↔
        ∀ bytes ∈ Receiver.served supply 0 (port.rx.chunks NamedPipe.bufSize),
          HonestRead bytes) :=
  ⟨fun device supply => injectsBacked_iff device supply port,
    fun rxChannel supply => NamedPipe.injectsBacked_iff rxChannel supply port⟩

theorem served_single {β : Type} (buffer : β) {count : Nat} {bytes : List UInt8}
    (hNe : bytes ≠ []) (hLe : bytes.length ≤ count) :
    bytes ∈ Receiver.served (fun _ => some buffer) 0
      (Feed.chunks count ([.piece bytes] : Feed UInt8 Errno)) := by
  have hPos : 0 < count := Nat.lt_of_lt_of_le (List.length_pos_iff.mpr hNe) hLe
  have hRead : Feed.read count ([.piece bytes] : Feed UInt8 Errno) =
      some (.ok bytes, []) := by
    rw [Feed.read, if_pos hLe]
  rw [Feed.chunks_of_read hPos hRead, Receiver.served, if_neg (by simp [hNe])]
  exact List.mem_cons_self

/-- A header without data whose length field says 65535, and a read that has brought
one byte only. -/
theorem not_injected_lengths :
    ¬ InjectsBacked uartDevice (fun _ => some .zero)
        (.fresh [.piece [255, 255, 0, 0, 0, 0]] []) ∧
      ¬ InjectsBacked uartDevice (fun _ => some .zero) (.fresh [.piece [1]] []) ∧
      ¬ NamedPipe.InjectsBacked ⟨3, by decide⟩ (fun _ => some .zero)
        (.fresh [.piece [255, 255, 0, 0, 0, 0]] []) := by
  rw [injectsBacked_iff, injectsBacked_iff, NamedPipe.injectsBacked_iff]
  refine ⟨?_, ?_, ?_⟩
  · intro hAll
    exact absurd (hAll _ (served_single _ (by decide) (by decide))) (by decide)
  · intro hAll
    exact absurd (hAll _ (served_single _ (by decide) (by decide))) (by decide)
  · intro hAll
    exact absurd (hAll _ (served_single _ (by decide) (by decide))) (by decide)

end Csp
end CubeSatComm
