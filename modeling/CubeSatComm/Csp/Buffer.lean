import CubeSatComm.Csp.Packet
import Mathlib.Data.Fintype.Card
import Mathlib.Data.Fintype.Fin

/-!
# The buffer pool

`csp_buffer.c`: a queue of the free buffers, and in front of every buffer a count of
its users.  `csp_buffer_get` takes the oldest buffer of the queue, and
`csp_buffer_free` puts a buffer back when its last user frees it.  What `malloc` has
left in the counts before the first `csp_buffer_get` is not known.

The pool keeps a log of the buffers it gives away and of those that are freed.
-/

namespace CubeSatComm
namespace Csp

/-- A buffer that is given away, or a call that frees one. -/
inductive BufferCall (n : Nat) where
  | get (buffer : Fin n)
  | free (buffer : Fin n)
  deriving DecidableEq, Repr

/-- A pool of `n` buffers. -/
structure BufferPool (n : Nat) where
  /-- The queue `csp_buffers`, oldest buffer first. -/
  cspBuffers : List (Fin n)
  refcount : Fin n → Nat
  calls : List (BufferCall n)

variable {n : Nat}

/-- `csp_buffer_get` in a program whose buffers have room for `bufferDataSize` bytes of
data; `none` stands for `NULL`. -/
def cspBufferGetSized (bufferDataSize dataSize : Nat) (pool : BufferPool n) :
    Option (Fin n) × BufferPool n :=
  if dataSize > bufferDataSize then
    (none, pool)
  else
    match pool.cspBuffers with
    | [] => (none, pool)
    | buffer :: rest =>
        (some buffer,
          { cspBuffers := rest
            refcount := Function.update pool.refcount buffer 1
            calls := pool.calls ++ [.get buffer] })

/-- `csp_buffer_get` in the programs whose buffers have `BUF_SIZE` bytes. -/
def cspBufferGet (dataSize : Nat) (pool : BufferPool n) : Option (Fin n) × BufferPool n :=
  cspBufferGetSized bufSize dataSize pool

/-- `csp_queue_enqueue` on the queue of free buffers, which has room for all. -/
def enqueue (buffer : Fin n) (queue : List (Fin n)) : List (Fin n) :=
  if queue.length < n then queue ++ [buffer] else queue

/-- `csp_buffer_free` -/
def cspBufferFree (packet : Option (Fin n)) (pool : BufferPool n) :
    BufferPool n :=
  match packet with
  | none => pool
  | some buffer =>
      let pool := { pool with calls := pool.calls ++ [.free buffer] }
      if pool.refcount buffer = 0 then
        pool
      else if pool.refcount buffer - 1 > 0 then
        { pool with
          refcount :=
            Function.update pool.refcount buffer (pool.refcount buffer - 1) }
      else
        { pool with
          refcount :=
            Function.update pool.refcount buffer (pool.refcount buffer - 1)
          cspBuffers := enqueue buffer pool.cspBuffers }

/-- `csp_buffer_remaining` -/
def cspBufferRemaining (pool : BufferPool n) : Nat :=
  pool.cspBuffers.length

/-- No buffer is in the queue twice, and one that is not in the queue has one
user. -/
structure BufferPool.WellFormed (pool : BufferPool n) : Prop where
  nodup : pool.cspBuffers.Nodup
  one_user : ∀ buffer, buffer ∉ pool.cspBuffers → pool.refcount buffer = 1

section Get

variable {dataSize : Nat} {pool pool' : BufferPool n} {buffer : Fin n}

/-- What `csp_buffer_get` does when it gives a buffer away. -/
theorem cspBufferGet_eq_some
    (hGet : cspBufferGet dataSize pool = (some buffer, pool')) :
    dataSize ≤ bufSize ∧ pool.cspBuffers = buffer :: pool'.cspBuffers ∧
      pool'.refcount = Function.update pool.refcount buffer 1 ∧
      pool'.calls = pool.calls ++ [.get buffer] := by
  unfold cspBufferGet cspBufferGetSized at hGet
  split at hGet
  · cases hGet
  · next hSize =>
    split at hGet
    · cases hGet
    · next first rest hQueue =>
      obtain ⟨hFirst, rfl⟩ := Prod.mk.inj hGet
      obtain rfl := Option.some.inj hFirst
      exact ⟨Nat.le_of_not_lt hSize, hQueue, rfl, rfl⟩

/-- What it does otherwise. -/
theorem cspBufferGet_eq_none (hGet : cspBufferGet dataSize pool = (none, pool')) :
    (bufSize < dataSize ∨ pool.cspBuffers = []) ∧ pool' = pool := by
  unfold cspBufferGet cspBufferGetSized at hGet
  split at hGet
  · next hSize => exact ⟨.inl hSize, (Prod.mk.inj hGet).2.symm⟩
  · split at hGet
    · next hQueue => exact ⟨.inr hQueue, (Prod.mk.inj hGet).2.symm⟩
    · cases hGet

/-- A size that fits is served as long as the queue has a buffer. -/
theorem cspBufferGet_ne_none (hSize : dataSize ≤ bufSize)
    (hQueue : pool.cspBuffers ≠ []) : (cspBufferGet dataSize pool).1 ≠ none := by
  intro hNone
  obtain ⟨hTooLarge | hEmpty, -⟩ := cspBufferGet_eq_none (Prod.ext hNone rfl)
  · omega
  · exact hQueue hEmpty

theorem BufferPool.WellFormed.get (hPool : pool.WellFormed)
    (hGet : cspBufferGet dataSize pool = (some buffer, pool')) :
    pool'.WellFormed ∧ buffer ∉ pool'.cspBuffers := by
  obtain ⟨-, hQueue, hCount, -⟩ := cspBufferGet_eq_some hGet
  have hNodup := hPool.nodup
  rw [hQueue, List.nodup_cons] at hNodup
  refine ⟨⟨hNodup.2, ?_⟩, hNodup.1⟩
  intro other hOther
  rw [hCount]
  by_cases hSame : other = buffer
  · rw [hSame, Function.update_self]
  · rw [Function.update_of_ne hSame]
    apply hPool.one_user
    rw [hQueue, List.mem_cons]
    tauto

/-- A size that fits does not matter otherwise. -/
theorem cspBufferGetSized_of_le {bufferDataSize : Nat} (hSize : dataSize ≤ bufferDataSize) :
    cspBufferGetSized bufferDataSize dataSize pool = cspBufferGet 0 pool := by
  rw [cspBufferGet, cspBufferGetSized, cspBufferGetSized, if_neg (Nat.not_lt_of_le hSize),
    if_neg (Nat.not_lt_zero _)]

end Get

section Free

variable {pool : BufferPool n} {buffer : Fin n} (hPool : pool.WellFormed)
  (hUsed : buffer ∉ pool.cspBuffers)

include hPool hUsed

/-- The queue has room for a buffer that is in use. -/
theorem BufferPool.WellFormed.length_lt : pool.cspBuffers.length < n := by
  have hNodup : (buffer :: pool.cspBuffers).Nodup :=
    List.nodup_cons.mpr ⟨hUsed, hPool.nodup⟩
  have hCard := hNodup.length_le_card
  rw [Fintype.card_fin, List.length_cons] at hCard
  exact hCard

/-- What `csp_buffer_free` does with a buffer that is in use. -/
theorem cspBufferFree_used :
    cspBufferFree (some buffer) pool =
      { cspBuffers := pool.cspBuffers ++ [buffer]
        refcount := Function.update pool.refcount buffer 0
        calls := pool.calls ++ [.free buffer] } := by
  have hOne := hPool.one_user buffer hUsed
  have hRoom := hPool.length_lt hUsed
  simp [cspBufferFree, enqueue, hOne, hRoom]

theorem BufferPool.WellFormed.free :
    (cspBufferFree (some buffer) pool).WellFormed := by
  rw [cspBufferFree_used hPool hUsed]
  constructor
  · exact List.nodup_append.mpr ⟨hPool.nodup, List.nodup_singleton buffer,
      fun other hOther _ hMem hEq => hUsed (by
        rw [← List.mem_singleton.mp hMem, ← hEq]
        exact hOther)⟩
  · intro other hOther
    rw [List.mem_append, List.mem_singleton, not_or] at hOther
    dsimp only
    rw [Function.update_of_ne hOther.2]
    exact hPool.one_user other hOther.1

end Free

/-! ## Buffers that come back -/

/-- The pool has got some buffers back, and has given none away. -/
structure BufferPool.Returned (pool pool' : BufferPool n) : Prop where
  queue : pool.cspBuffers <+: pool'.cspBuffers
  fresh : ∀ buffer ∈ pool'.cspBuffers, buffer ∉ pool.cspBuffers →
    pool'.refcount buffer = 0
  zero : ∀ buffer, pool.refcount buffer = 0 → pool'.refcount buffer = 0

section Returned

variable {pool pool' pool'' : BufferPool n} {buffer : Fin n}

theorem BufferPool.Returned.refl (pool : BufferPool n) : pool.Returned pool :=
  ⟨List.prefix_rfl, fun _ hMem hNot => absurd hMem hNot, fun _ hZero => hZero⟩

theorem BufferPool.Returned.trans (hFirst : pool.Returned pool')
    (hLater : pool'.Returned pool'') : pool.Returned pool'' where
  queue := hFirst.queue.trans hLater.queue
  fresh := by
    intro buffer hMem hNot
    by_cases hBetween : buffer ∈ pool'.cspBuffers
    · exact hLater.zero buffer (hFirst.fresh buffer hBetween hNot)
    · exact hLater.fresh buffer hMem hBetween
  zero := fun buffer hZero => hLater.zero buffer (hFirst.zero buffer hZero)

theorem BufferPool.WellFormed.returned_free (hPool : pool.WellFormed)
    (hUsed : buffer ∉ pool.cspBuffers) :
    pool.Returned (cspBufferFree (some buffer) pool) := by
  rw [cspBufferFree_used hPool hUsed]
  constructor
  · exact List.prefix_append _ _
  · intro other hMem hNot
    have hSame : other = buffer := by
      rcases List.mem_append.mp hMem with hOld | hNew
      · exact absurd hOld hNot
      · exact List.mem_singleton.mp hNew
    rw [hSame]
    exact Function.update_self ..
  · intro other hZero
    by_cases hSame : other = buffer
    · rw [hSame]
      exact Function.update_self ..
    · exact (Function.update_of_ne hSame ..).trans hZero

/-- A buffer of the queue is not put there once more if it has no user, or if the queue
is full. -/
theorem BufferPool.WellFormed.free_again (hPool : pool.WellFormed)
    (hMem : buffer ∈ pool.cspBuffers)
    (hHarmless : pool.refcount buffer = 0 ∨ pool.cspBuffers.length = n) :
    (cspBufferFree (some buffer) pool).cspBuffers = pool.cspBuffers ∧
      (cspBufferFree (some buffer) pool).WellFormed ∧
      pool.Returned (cspBufferFree (some buffer) pool) := by
  have hQueue : (cspBufferFree (some buffer) pool).cspBuffers = pool.cspBuffers := by
    rw [cspBufferFree]
    dsimp only
    split
    · rfl
    · next hUsers =>
      split
      · rfl
      · have hFull : pool.cspBuffers.length = n := hHarmless.resolve_left hUsers
        exact if_neg (by omega)
  have hOther : ∀ other ≠ buffer,
      (cspBufferFree (some buffer) pool).refcount other = pool.refcount other := by
    intro other hNe
    rw [cspBufferFree]
    dsimp only
    split
    · rfl
    · split
      · exact Function.update_of_ne hNe ..
      · exact Function.update_of_ne hNe ..
  refine ⟨hQueue, ⟨hQueue ▸ hPool.nodup, ?_⟩, hQueue ▸ List.prefix_rfl, ?_, ?_⟩
  · intro other hNot
    rw [hQueue] at hNot
    rw [hOther other fun hSame => hNot (hSame ▸ hMem)]
    exact hPool.one_user other hNot
  · intro other hIn hNot
    exact absurd (hQueue ▸ hIn) hNot
  · intro other hZero
    by_cases hSame : other = buffer
    · rw [hSame] at hZero ⊢
      rw [cspBufferFree]
      dsimp only
      rw [if_pos hZero]
      exact hZero
    · rw [hOther other hSame, hZero]

/-- Buffers in use are freed one after another. -/
theorem BufferPool.WellFormed.free_all (hPool : pool.WellFormed) {buffers : List (Fin n)}
    (hNodup : buffers.Nodup) (hUsed : ∀ buffer ∈ buffers, buffer ∉ pool.cspBuffers) :
    (buffers.foldl (fun pool buffer => cspBufferFree (some buffer) pool) pool).cspBuffers =
        pool.cspBuffers ++ buffers ∧
      (buffers.foldl (fun pool buffer => cspBufferFree (some buffer) pool) pool).WellFormed ∧
      pool.Returned
        (buffers.foldl (fun pool buffer => cspBufferFree (some buffer) pool) pool) := by
  induction buffers generalizing pool with
  | nil => exact ⟨(List.append_nil _).symm, hPool, .refl pool⟩
  | cons buffer buffers ih =>
      rw [List.nodup_cons] at hNodup
      rw [List.forall_mem_cons] at hUsed
      have hFree := cspBufferFree_used hPool hUsed.1
      have hLater : ∀ other ∈ buffers,
          other ∉ (cspBufferFree (some buffer) pool).cspBuffers := by
        intro other hMem
        rw [hFree, List.mem_append, List.mem_singleton, not_or]
        exact ⟨hUsed.2 other hMem, fun hSame => hNodup.1 (hSame ▸ hMem)⟩
      obtain ⟨hQueue, hWellFormed, hReturned⟩ := ih (hPool.free hUsed.1) hNodup.2 hLater
      refine ⟨?_, hWellFormed, (hPool.returned_free hUsed.1).trans hReturned⟩
      rw [List.foldl_cons, hQueue, hFree, List.append_assoc, List.singleton_append]

end Returned

end Csp
end CubeSatComm
