import CubeSatComm.Csp.FifoReceiver

/-!
# Who owns the packet buffers

`fifo_rx` asks for its next buffer as soon as it has injected a packet.  Two things go
wrong there.  Only the first result of `csp_buffer_get` is compared with `NULL`, so that
after a refusal the next `read` is given an address that belongs to no buffer: it fails,
and the thread is gone although the device is not at its end.  And when the thread ends,
it returns without freeing the buffer it has asked for last.

So `fifo_rx` deals with its buffers as it should exactly as long as it never has to
deal with anything but data.
-/

namespace CubeSatComm
namespace Csp

open Lib Posix

/-- From the first request on, `fifo_rx` stores each read into a buffer that it owns and
hands no buffer on twice; it ends only when the device does, and then owns no buffer.
Where the first request is refused, it returns without entering its loop. -/
def OwnsBuffers (device : Device) (supply : Nat → Option PacketBuffer) (port : Port) :
    Prop :=
  supply 0 ≠ none →
    Receiver.OwnsWell device.reader PacketBuffer.fill supply (Receiver.start supply port)

/-- The same of the `fifo_rx` of the named pipes, which always enters its loop. -/
def NamedPipe.OwnsBuffers (rxChannel : RxChannel) (supply : Nat → Option PacketBuffer)
    (port : Port) : Prop :=
  Receiver.OwnsWell rxChannel.reader PacketBuffer.fill supply (Receiver.start supply port)

/-- What holds in any case: whenever `fifo_rx` reads, it has handed on each buffer at
most once, and owns none but the one it reads into. -/
theorem fifoRx_owns_one {device : Device} {supply : Nat → Option PacketBuffer}
    {port : Port} {k : Nat} {s : Receiver.State Port PacketBuffer}
    (hPasses : Loop.Passes (Receiver.pass device.reader PacketBuffer.fill supply) k
      (Receiver.start supply port) s) :
    ((Receiver.handed s.log).map Prod.fst).Nodup ∧
      ∀ j ∈ Receiver.owned s.log, s.current.map Prod.fst = some j := by
  have hOwns := Receiver.passes_owns hPasses
  constructor
  · rw [hOwns.handed_eq]
    exact List.nodup_range
  · intro j hOwned
    rw [hOwns.owned_eq] at hOwned
    rw [hOwns.current, Receiver.request]
    cases hSupply : supply k with
    | none => simp [hSupply] at hOwned
    | some buffer =>
        rw [hSupply] at hOwned
        obtain rfl : j = k := by simpa using hOwned
        rfl

theorem NamedPipe.ownsBuffers_iff (rxChannel : RxChannel)
    (supply : Nat → Option PacketBuffer) (port : Port) :
    OwnsBuffers rxChannel supply port ↔ Receiver.Sustained bufSize supply 0 port.rx :=
  Receiver.ownsWell_iff (Receiver.owns_start supply port)

theorem ownsBuffers_iff_sustained (device : Device) (supply : Nat → Option PacketBuffer)
    (port : Port) :
    OwnsBuffers device supply port ↔
      (supply 0 ≠ none → Receiver.Sustained cspPacketSize supply 0 port.rx) :=
  imp_congr_right fun _ => Receiver.ownsWell_iff (Receiver.owns_start supply port)

/-- When `fifo_rx` deals with its buffers as it should: exactly if the device reports
neither an error nor its end, and `csp_buffer_get` has a buffer for every read. -/
theorem fifoRx_owns_buffers_iff (device : Device) (supply : Nat → Option PacketBuffer)
    (port : Port) :
    OwnsBuffers device supply port ↔
      (supply 0 ≠ none →
        ¬ port.rx.Fails ∧ (∀ bytes ∈ port.rx.chunks cspPacketSize, bytes ≠ []) ∧
          ∀ k ≤ (port.rx.chunks cspPacketSize).length, supply k ≠ none) := by
  rw [ownsBuffers_iff_sustained]
  refine imp_congr_right fun _ => ?_
  constructor
  · rintro ⟨hFailure, hEnd, hSupplied⟩
    refine ⟨hFailure, hEnd, ?_⟩
    intro k hLe
    have hSome := hSupplied k hLe
    rwa [Nat.zero_add] at hSome
  · rintro ⟨hFailure, hEnd, hSupplied⟩
    refine ⟨hFailure, hEnd, ?_⟩
    intro k hLe
    rw [Nat.zero_add]
    exact hSupplied k hLe

/-- A device that is at its end when it is first read, and a pool that is empty for a
moment, behind the first packet. -/
theorem not_fifoRx_owns_buffers :
    ¬ OwnsBuffers uartDevice (fun _ => some .zero) (.fresh [.piece []] []) ∧
      ¬ OwnsBuffers uartDevice (fun k => if k = 1 then none else some .zero)
        (.fresh [.piece [1], .piece [2]] []) := by
  rw [ownsBuffers_iff_sustained, ownsBuffers_iff_sustained]
  constructor
  · intro hAll
    have hSustained := hAll nofun
    rw [Receiver.sustained_of_read cspPacketSize_pos rfl] at hSustained
    exact hSustained.2.1 rfl
  · intro hAll
    have hSustained := hAll nofun
    rw [Receiver.sustained_of_read cspPacketSize_pos rfl,
      Receiver.sustained_of_read cspPacketSize_pos rfl] at hSustained
    exact hSustained.2.2.1 rfl

end Csp
end CubeSatComm
