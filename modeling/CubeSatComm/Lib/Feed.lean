import Mathlib.Data.List.Basic
import Mathlib.Data.Nat.Find
import Mathlib.Tactic.Tauto

/-!
# Feeds: input that arrives in pieces

A feed is what the coming `read` calls on a descriptor find: a list of arrivals,
each a piece of data or a failure.  A `read` that asks for at least the whole
first piece gets that piece; one that asks for less gets the front of it, and the
rest stays for the following reads.  An empty piece is a read that returns `0`,
an exhausted feed a read that waits.

Every way of cutting a stream into non-empty pieces is a list of pieces with that
stream as its concatenation (`IsCut`), and the pieces the reads return are then
those of `reads`: the cut, cut further where a piece exceeds the requested count.
-/

namespace CubeSatComm
namespace Lib

/-! ## Blocks of a list -/

section Blocks

variable {α : Type*}

/-- The consecutive blocks of at most `k` elements of a list. -/
def blocks (k : Nat) (xs : List α) : List (List α) :=
  if k = 0 ∨ xs = [] then [] else xs.take k :: blocks k (xs.drop k)
termination_by xs.length
decreasing_by
  have hPos : 0 < xs.length := List.length_pos_iff.mpr (by tauto)
  simp only [List.length_drop]
  omega

@[simp] theorem blocks_nil (k : Nat) : blocks k ([] : List α) = [] := by
  rw [blocks]
  simp

theorem blocks_of_ne_nil {k : Nat} {xs : List α} (hPos : 0 < k)
    (hNe : xs ≠ []) : blocks k xs = xs.take k :: blocks k (xs.drop k) := by
  rw [blocks]
  simp [hNe, Nat.pos_iff_ne_zero.mp hPos]

/-- A list no longer than a block is its only block. -/
theorem blocks_of_length_le {k : Nat} {xs : List α} (hNe : xs ≠ [])
    (hLe : xs.length ≤ k) : blocks k xs = [xs] := by
  have hPos : 0 < k := Nat.lt_of_lt_of_le (List.length_pos_iff.mpr hNe) hLe
  rw [blocks_of_ne_nil hPos hNe, List.take_of_length_le hLe,
    List.drop_eq_nil_of_le hLe, blocks_nil]

/-- Structural induction along the blocks of a list. -/
theorem blocks_induction {k : Nat} (hPos : 0 < k)
    {motive : List α → Prop} (nil : motive [])
    (block : ∀ xs, xs ≠ [] → motive (xs.drop k) → motive xs)
    (xs : List α) : motive xs := by
  induction hLength : xs.length using Nat.strongRecOn generalizing xs with
  | _ size ih =>
      by_cases hNil : xs = []
      · exact hNil ▸ nil
      · refine block xs hNil (ih (xs.drop k).length ?_ _ rfl)
        have := List.length_pos_iff.mpr hNil
        simp only [List.length_drop]
        omega

@[simp] theorem flatten_blocks {k : Nat} (hPos : 0 < k) (xs : List α) :
    (blocks k xs).flatten = xs := by
  induction xs using blocks_induction hPos with
  | nil => simp
  | block xs hNe ih =>
      rw [blocks_of_ne_nil hPos hNe, List.flatten_cons, ih,
        List.take_append_drop]

theorem length_le_of_mem_blocks {k : Nat} (hPos : 0 < k) {xs block : List α}
    (hMem : block ∈ blocks k xs) : block.length ≤ k := by
  induction xs using blocks_induction hPos with
  | nil => simp at hMem
  | block xs hNe ih =>
      rw [blocks_of_ne_nil hPos hNe, List.mem_cons] at hMem
      rcases hMem with rfl | hMem
      · exact List.length_take_le k xs
      · exact ih hMem

theorem ne_nil_of_mem_blocks {k : Nat} (hPos : 0 < k) {xs block : List α}
    (hMem : block ∈ blocks k xs) : block ≠ [] := by
  induction xs using blocks_induction hPos with
  | nil => simp at hMem
  | block xs hNe ih =>
      rw [blocks_of_ne_nil hPos hNe, List.mem_cons] at hMem
      rcases hMem with rfl | hMem
      · simp only [ne_eq, List.take_eq_nil_iff, hNe, or_false]
        omega
      · exact ih hMem

/-- A list that is not empty has at least one block, and only one exactly when it is
no longer than a block. -/
theorem length_blocks_pos {k : Nat} (hPos : 0 < k) {xs : List α} (hNe : xs ≠ []) :
    0 < (blocks k xs).length := by
  rw [blocks_of_ne_nil hPos hNe, List.length_cons]
  exact Nat.succ_pos _

theorem length_blocks_eq_one_iff {k : Nat} (hPos : 0 < k) {xs : List α}
    (hNe : xs ≠ []) : (blocks k xs).length = 1 ↔ xs.length ≤ k := by
  constructor
  · intro hOne
    rw [blocks_of_ne_nil hPos hNe, List.length_cons, Nat.add_eq_right] at hOne
    by_contra hLong
    have hDrop : xs.drop k ≠ [] := by
      rw [ne_eq, List.drop_eq_nil_iff]
      exact hLong
    have := length_blocks_pos hPos hDrop
    omega
  · intro hLe
    rw [blocks_of_length_le hNe hLe]
    rfl

/-- The number of blocks is the length divided by the block size, rounded up. -/
theorem length_blocks {k : Nat} (hPos : 0 < k) (xs : List α) :
    (blocks k xs).length = (xs.length + (k - 1)) / k := by
  induction xs using blocks_induction hPos with
  | nil =>
      simp only [blocks_nil, List.length_nil, Nat.zero_add]
      exact (Nat.div_eq_of_lt (by omega)).symm
  | block xs hNe ih =>
      have hLength := List.length_pos_iff.mpr hNe
      rw [blocks_of_ne_nil hPos hNe, List.length_cons, ih, List.length_drop]
      -- the last block is the only one that need not be full
      by_cases hLe : xs.length ≤ k
      · have hZero : (xs.length - k + (k - 1)) / k = 0 :=
          Nat.div_eq_of_lt (by omega)
        have hOne : (xs.length + (k - 1)) / k = 1 :=
          Nat.div_eq_of_lt_le (by omega) (by omega)
        rw [hZero, hOne]
      · have hSplit : xs.length + (k - 1) = (xs.length - k + (k - 1)) + k := by
          omega
        rw [hSplit, Nat.add_div_right _ hPos]

/-- The first `j` blocks hold the first `k * j` elements. -/
theorem flatten_take_blocks {k : Nat} (hPos : 0 < k) (xs : List α) (j : Nat) :
    ((blocks k xs).take j).flatten = xs.take (k * j) := by
  induction j generalizing xs with
  | zero => simp
  | succ j ih =>
      by_cases hNe : xs = []
      · simp [hNe]
      · rw [blocks_of_ne_nil hPos hNe, List.take_succ_cons, List.flatten_cons,
          ih, Nat.mul_succ, Nat.add_comm (k * j) k, List.take_add]

/-- The blocks of exactly `k` elements at the front of a list. -/
def fullBlocks (k : Nat) (xs : List α) : List (List α) :=
  (blocks k xs).take (xs.length / k)

theorem fullBlocks_of_le {k : Nat} {xs : List α} (hPos : 0 < k)
    (hLe : k ≤ xs.length) :
    fullBlocks k xs = xs.take k :: fullBlocks k (xs.drop k) := by
  have hNe : xs ≠ [] := List.ne_nil_of_length_pos (by omega)
  rw [fullBlocks, fullBlocks, blocks_of_ne_nil hPos hNe, Nat.div_eq_sub_div hPos hLe,
    List.take_succ_cons, List.length_drop]

theorem fullBlocks_of_lt {k : Nat} {xs : List α} (hLt : xs.length < k) :
    fullBlocks k xs = [] := by
  rw [fullBlocks, Nat.div_eq_of_lt hLt, List.take_zero]

/-- Structural induction along the full blocks of a list. -/
theorem fullBlocks_induction {k : Nat} (hPos : 0 < k) {motive : List α → Prop}
    (short : ∀ xs, xs.length < k → motive xs)
    (full : ∀ xs, k ≤ xs.length → motive (xs.drop k) → motive xs)
    (xs : List α) : motive xs := by
  induction xs using blocks_induction hPos with
  | nil => exact short [] hPos
  | block xs hNe ih =>
      rcases Nat.lt_or_ge xs.length k with hLt | hLe
      · exact short xs hLt
      · exact full xs hLe ih

theorem length_of_mem_fullBlocks {k : Nat} (hPos : 0 < k) {xs block : List α}
    (hMem : block ∈ fullBlocks k xs) : block.length = k := by
  induction xs using fullBlocks_induction hPos with
  | short xs hLt =>
      rw [fullBlocks_of_lt hLt] at hMem
      cases hMem
  | full xs hLe ih =>
      rw [fullBlocks_of_le hPos hLe] at hMem
      rcases List.mem_cons.mp hMem with rfl | hMem
      · rw [List.length_take, Nat.min_eq_left hLe]
      · exact ih hMem

theorem flatten_fullBlocks {k : Nat} (hPos : 0 < k) (xs : List α) :
    (fullBlocks k xs).flatten = xs.take (k * (xs.length / k)) :=
  flatten_take_blocks hPos xs _

end Blocks

/-! ## Feeds -/

/-- One arrival of a feed. -/
inductive Arrival (α ε : Type) where
  | piece (xs : List α)
  | failure (e : ε)
  deriving DecidableEq, Repr

/-- The arrivals that the coming reads find, in order. -/
abbrev Feed (α ε : Type) := List (Arrival α ε)

namespace Feed

variable {α ε : Type}

/-- A read of at most `count` elements: what it returns and the feed behind it.
`none` means that it waits. -/
def read (count : Nat) : Feed α ε → Option (Except ε (List α) × Feed α ε)
  | [] => none
  | .failure e :: rest => some (.error e, rest)
  | .piece xs :: rest =>
      if xs.length ≤ count then
        some (.ok xs, rest)
      else
        some (.ok (xs.take count), .piece (xs.drop count) :: rest)

/-- Size of a feed: every read of a positive count makes it smaller. -/
def size : Feed α ε → Nat
  | [] => 0
  | .failure _ :: rest => 1 + size rest
  | .piece xs :: rest => 1 + xs.length + size rest

theorem size_lt_of_read {count : Nat} {feed rest : Feed α ε}
    {out : Except ε (List α)} (hCount : 0 < count)
    (hRead : feed.read count = some (out, rest)) : rest.size < feed.size := by
  cases feed with
  | nil => cases hRead
  | cons arrival tail =>
      cases arrival with
      | failure e =>
          cases hRead
          simp only [size]
          omega
      | piece xs =>
          simp only [read] at hRead
          split at hRead
          · cases hRead
            simp only [size]
            omega
          · cases hRead
            simp only [size, List.length_drop]
            omega

/-- A read never returns more than it was asked for. -/
theorem length_le_of_read {count : Nat} {feed rest : Feed α ε} {xs : List α}
    (hRead : feed.read count = some (.ok xs, rest)) : xs.length ≤ count := by
  cases feed with
  | nil => cases hRead
  | cons arrival tail =>
      cases arrival with
      | failure e => cases hRead
      | piece ys =>
          simp only [read] at hRead
          split at hRead
          · cases hRead
            assumption
          · cases hRead
            exact List.length_take_le count ys

/-- The elements that arrive before the first failure. -/
def arriving : Feed α ε → List α
  | [] => []
  | .failure _ :: _ => []
  | .piece xs :: rest => xs ++ arriving rest

/-- A read takes its elements from the front of those that arrive. -/
theorem arriving_of_read {count : Nat} {feed rest : Feed α ε} {xs : List α}
    (hRead : feed.read count = some (.ok xs, rest)) :
    feed.arriving = xs ++ rest.arriving := by
  cases feed with
  | nil => cases hRead
  | cons arrival tail =>
      cases arrival with
      | failure e => cases hRead
      | piece ys =>
          simp only [read] at hRead
          split at hRead
          · cases hRead
            rfl
          · cases hRead
            rw [arriving, arriving, ← List.append_assoc, List.take_append_drop]

/-- A read that fails has met the failure at the front. -/
theorem eq_of_read_error {count : Nat} {feed rest : Feed α ε} {e : ε}
    (hRead : feed.read count = some (.error e, rest)) :
    feed = .failure e :: rest := by
  cases feed with
  | nil => cases hRead
  | cons arrival tail =>
      cases arrival with
      | failure e' =>
          cases hRead
          rfl
      | piece ys =>
          simp only [read] at hRead
          split at hRead <;> cases hRead

theorem eq_nil_of_read_none {count : Nat} {feed : Feed α ε}
    (hRead : feed.read count = none) : feed = [] := by
  cases feed with
  | nil => rfl
  | cons arrival tail =>
      cases arrival with
      | failure e => cases hRead
      | piece ys =>
          simp only [read] at hRead
          split at hRead <;> cases hRead

/-- A read adds no failure to the feed. -/
theorem failure_mem_of_read {count : Nat} {feed rest : Feed α ε}
    {out : Except ε (List α)} {e : ε} (hRead : feed.read count = some (out, rest))
    (hMem : .failure e ∈ rest) : .failure e ∈ feed := by
  cases feed with
  | nil => cases hRead
  | cons arrival tail =>
      cases arrival with
      | failure e' =>
          cases hRead
          exact List.mem_cons_of_mem _ hMem
      | piece ys =>
          simp only [read] at hRead
          split at hRead
          · cases hRead
            exact List.mem_cons_of_mem _ hMem
          · cases hRead
            simpa using hMem

/-- A failure is among the arrivals. -/
def Fails (feed : Feed α ε) : Prop := ∃ e, .failure e ∈ feed

theorem not_fails_nil : ¬ Fails ([] : Feed α ε) := by
  rintro ⟨e, hMem⟩
  cases hMem

theorem fails_failure (e : ε) (feed : Feed α ε) : Fails (.failure e :: feed) :=
  ⟨e, List.mem_cons_self⟩

/-- A read that returns data leaves the failures where they are. -/
theorem fails_iff_of_read {count : Nat} {feed rest : Feed α ε} {xs : List α}
    (hRead : feed.read count = some (.ok xs, rest)) : feed.Fails ↔ rest.Fails := by
  constructor
  · rintro ⟨e, hMem⟩
    refine ⟨e, ?_⟩
    cases feed with
    | nil => cases hRead
    | cons arrival tail =>
        cases arrival with
        | failure e' => cases hRead
        | piece ys =>
            have hTail : .failure e ∈ tail := by simpa using hMem
            simp only [read] at hRead
            split at hRead
            · cases hRead
              exact hTail
            · cases hRead
              exact List.mem_cons_of_mem _ hTail
  · rintro ⟨e, hMem⟩
    exact ⟨e, failure_mem_of_read hRead hMem⟩

/-- What arrives later does not change a read that need not wait for it. -/
theorem read_append {count : Nat} {feed rest : Feed α ε} {out : Except ε (List α)}
    (hRead : feed.read count = some (out, rest)) (later : Feed α ε) :
    read count (feed ++ later) = some (out, rest ++ later) := by
  cases feed with
  | nil => cases hRead
  | cons arrival tail =>
      cases arrival with
      | failure e =>
          cases hRead
          rfl
      | piece ys =>
          rw [List.cons_append]
          simp only [read] at hRead ⊢
          split at hRead
          · next hLe =>
            cases hRead
            rw [if_pos hLe]
          · next hLe =>
            cases hRead
            rw [if_neg hLe, List.cons_append]

/-- What the reads of at most `count` elements of one piece return: its blocks, or the
empty piece. -/
def pieceReads (count : Nat) (xs : List α) : List (List α) :=
  if xs = [] then [[]] else blocks count xs

/-- What the successive reads of at most `count` elements return, up to the first
failure. -/
def chunks (count : Nat) : Feed α ε → List (List α)
  | [] => []
  | .failure _ :: _ => []
  | .piece xs :: rest => pieceReads count xs ++ chunks count rest

/-- A read returns the first of the chunks. -/
theorem chunks_of_read {count : Nat} (hPos : 0 < count) {feed rest : Feed α ε}
    {xs : List α} (hRead : feed.read count = some (.ok xs, rest)) :
    feed.chunks count = xs :: rest.chunks count := by
  cases feed with
  | nil => cases hRead
  | cons arrival tail =>
      cases arrival with
      | failure e => cases hRead
      | piece ys =>
          simp only [read] at hRead
          split at hRead
          · next hLe =>
            cases hRead
            rw [chunks, pieceReads]
            split
            · next hNil =>
              rw [hNil]
              rfl
            · next hNe =>
              rw [blocks_of_length_le hNe hLe]
              rfl
          · next hLe =>
            cases hRead
            have hNe : ys ≠ [] := List.ne_nil_of_length_pos (by omega)
            have hDrop : ys.drop count ≠ [] := by
              rw [ne_eq, List.drop_eq_nil_iff]
              exact hLe
            rw [chunks, chunks, pieceReads, pieceReads, if_neg hNe, if_neg hDrop,
              blocks_of_ne_nil hPos hNe, List.cons_append]

theorem length_le_of_mem_chunks {count : Nat} (hPos : 0 < count) {feed : Feed α ε}
    {xs : List α} (hMem : xs ∈ feed.chunks count) : xs.length ≤ count := by
  induction feed with
  | nil => cases hMem
  | cons arrival rest ih =>
      cases arrival with
      | failure e => cases hMem
      | piece ys =>
          rw [chunks, List.mem_append] at hMem
          rcases hMem with hFirst | hRest
          · rw [pieceReads] at hFirst
            split at hFirst
            · simp [List.mem_singleton.mp hFirst]
            · exact length_le_of_mem_blocks hPos hFirst
          · exact ih hRest

/-- No piece of a feed is longer than `n`. -/
def PiecesLe (n : Nat) (feed : Feed α ε) : Prop :=
  ∀ xs, .piece xs ∈ feed → xs.length ≤ n

theorem PiecesLe.of_read {n count : Nat} {feed rest : Feed α ε}
    {out : Except ε (List α)} (hLe : feed.PiecesLe n)
    (hRead : feed.read count = some (out, rest)) :
    rest.PiecesLe n ∧ ∀ xs, out = .ok xs → xs.length ≤ n := by
  cases feed with
  | nil => cases hRead
  | cons arrival tail =>
      have hTail : PiecesLe n tail := fun xs hMem =>
        hLe xs (List.mem_cons_of_mem _ hMem)
      cases arrival with
      | failure e =>
          cases hRead
          exact ⟨hTail, nofun⟩
      | piece ys =>
          have hYs := hLe ys List.mem_cons_self
          simp only [read] at hRead
          split at hRead
          · cases hRead
            refine ⟨hTail, ?_⟩
            rintro xs hOut
            obtain rfl := Except.ok.inj hOut
            exact hYs
          · cases hRead
            constructor
            · intro xs hMem
              rcases List.mem_cons.mp hMem with hFront | hMem
              · rw [Arrival.piece.inj hFront, List.length_drop]
                omega
              · exact hTail xs hMem
            · rintro xs hOut
              obtain rfl := Except.ok.inj hOut
              rw [List.length_take]
              omega

/-- The feed of a list of pieces. -/
def ofPieces (cut : List (List α)) : Feed α ε := cut.map .piece

@[simp] theorem ofPieces_nil : (ofPieces [] : Feed α ε) = [] := rfl

@[simp] theorem ofPieces_cons (xs : List α) (cut : List (List α)) :
    (ofPieces (xs :: cut) : Feed α ε) = .piece xs :: ofPieces cut := rfl

theorem ofPieces_injective :
    Function.Injective (ofPieces : List (List α) → Feed α ε) := by
  intro cut cut' hEq
  exact List.map_injective_iff.mpr (fun _ _ h => Arrival.piece.inj h) hEq

theorem arriving_ofPieces_append (cut : List (List α)) (later : Feed α ε) :
    arriving (ofPieces cut ++ later) = cut.flatten ++ arriving later := by
  induction cut with
  | nil => rfl
  | cons xs rest ih =>
      rw [ofPieces_cons, List.cons_append, arriving, ih, List.flatten_cons,
        List.append_assoc]

theorem arriving_ofPieces (cut : List (List α)) :
    arriving (ofPieces cut : Feed α ε) = cut.flatten := by
  have hAppend := arriving_ofPieces_append cut ([] : Feed α ε)
  rwa [List.append_nil, arriving, List.append_nil] at hAppend

theorem not_fails_ofPieces (cut : List (List α)) : ¬ Fails (ofPieces cut : Feed α ε) := by
  rintro ⟨e, hMem⟩
  obtain ⟨xs, -, hEq⟩ := List.mem_map.mp hMem
  cases hEq

end Feed

/-! ## Cuts of a stream -/

section Cut

variable {α ε : Type}

/-- `cut` is a way to cut `stream` into non-empty pieces. -/
structure IsCut (cut : List (List α)) (stream : List α) : Prop where
  flatten_eq : cut.flatten = stream
  ne_nil : ∀ xs ∈ cut, xs ≠ []

theorem isCut_nil_iff {cut : List (List α)} : IsCut cut [] ↔ cut = [] := by
  constructor
  · rintro ⟨hFlatten, hNe⟩
    cases cut with
    | nil => rfl
    | cons xs rest =>
        simp only [List.flatten_cons, List.append_eq_nil_iff] at hFlatten
        exact absurd hFlatten.1 (hNe xs List.mem_cons_self)
  · rintro rfl
    exact ⟨rfl, by simp⟩

theorem IsCut.cons {xs : List α} {cut : List (List α)} {stream : List α}
    (hNe : xs ≠ []) (hCut : IsCut cut stream) :
    IsCut (xs :: cut) (xs ++ stream) where
  flatten_eq := by simp [hCut.flatten_eq]
  ne_nil := by
    intro ys hMem
    rcases List.mem_cons.mp hMem with rfl | hMem
    · exact hNe
    · exact hCut.ne_nil ys hMem

theorem isCut_singleton {stream : List α} (hNe : stream ≠ []) :
    IsCut [stream] stream := by
  simpa using IsCut.cons hNe (isCut_nil_iff.mpr rfl)

theorem isCut_blocks {k : Nat} (hPos : 0 < k) (stream : List α) :
    IsCut (blocks k stream) stream where
  flatten_eq := flatten_blocks hPos stream
  ne_nil := fun _ hMem => ne_nil_of_mem_blocks hPos hMem

/-- What the successive reads of at most `count` elements return. -/
def reads (count : Nat) (cut : List (List α)) : List (List α) :=
  cut.flatMap (blocks count)

@[simp] theorem reads_nil (count : Nat) : reads count ([] : List (List α)) = [] :=
  rfl

theorem isCut_reads {count : Nat} (hPos : 0 < count) {cut : List (List α)}
    {stream : List α} (hCut : IsCut cut stream) :
    IsCut (reads count cut) stream where
  flatten_eq := by
    rw [← hCut.flatten_eq, reads]
    clear hCut
    induction cut with
    | nil => rfl
    | cons xs rest ih => simp [ih, flatten_blocks hPos]
  ne_nil := by
    intro xs hMem
    obtain ⟨piece, -, hBlock⟩ := List.mem_flatMap.mp hMem
    exact ne_nil_of_mem_blocks hPos hBlock

/-- There are at least as many reads as pieces. -/
theorem length_le_length_reads {count : Nat} (hPos : 0 < count)
    {cut : List (List α)} (hNe : ∀ xs ∈ cut, xs ≠ []) :
    cut.length ≤ (reads count cut).length := by
  induction cut with
  | nil => exact Nat.le_refl 0
  | cons xs rest ih =>
      rw [List.forall_mem_cons] at hNe
      have hFirst := length_blocks_pos hPos hNe.1
      have hRest := ih hNe.2
      rw [reads] at hRest ⊢
      rw [List.flatMap_cons, List.length_append, List.length_cons]
      omega

/-- There is one read for each piece exactly when no piece exceeds the requested
count. -/
theorem length_reads_eq_iff {count : Nat} (hPos : 0 < count)
    {cut : List (List α)} (hNe : ∀ xs ∈ cut, xs ≠ []) :
    (reads count cut).length = cut.length ↔ ∀ xs ∈ cut, xs.length ≤ count := by
  induction cut with
  | nil => simp
  | cons xs rest ih =>
      rw [List.forall_mem_cons] at hNe
      have hFirst := length_blocks_pos hPos hNe.1
      have hRest := length_le_length_reads hPos hNe.2
      rw [List.forall_mem_cons, ← length_blocks_eq_one_iff hPos hNe.1, ← ih hNe.2]
      rw [reads] at hRest ⊢
      rw [List.flatMap_cons, List.length_append, List.length_cons]
      rw [reads]
      omega

/-- Pieces that do not exceed the requested count are read as they are. -/
theorem reads_eq_self {count : Nat} {cut : List (List α)}
    (hNe : ∀ xs ∈ cut, xs ≠ []) (hLe : ∀ xs ∈ cut, xs.length ≤ count) :
    reads count cut = cut := by
  induction cut with
  | nil => rfl
  | cons xs rest ih =>
      rw [List.forall_mem_cons] at hNe hLe
      have hRest := ih hNe.2 hLe.2
      rw [reads] at hRest ⊢
      rw [List.flatMap_cons, blocks_of_length_le hNe.1 hLe.1, hRest]
      rfl

/-- What a read of at most `count` elements leaves of the pieces. -/
def afterRead (count : Nat) : List (List α) → List (List α)
  | [] => []
  | xs :: rest => if xs.length ≤ count then rest else xs.drop count :: rest

theorem Feed.read_ofPieces_cons (count : Nat) (xs : List α)
    (rest : List (List α)) :
    (Feed.ofPieces (xs :: rest) : Feed α ε).read count =
      some (.ok (xs.take count), Feed.ofPieces (afterRead count (xs :: rest))) := by
  by_cases hLe : xs.length ≤ count
  · simp [Feed.read, afterRead, hLe, List.take_of_length_le hLe]
  · simp [Feed.read, afterRead, hLe]

/-- A read from a cut stream: it waits exactly at the end of the stream, and
otherwise returns the next of the `reads` and leaves a cut of the rest. -/
theorem Feed.read_ofPieces {count : Nat} (hPos : 0 < count)
    {cut : List (List α)} {stream : List α} (hCut : IsCut cut stream)
    (hNe : stream ≠ []) :
    ∃ xs, (Feed.ofPieces cut : Feed α ε).read count =
        some (.ok xs, Feed.ofPieces (afterRead count cut)) ∧
      xs ≠ [] ∧ xs.length ≤ count ∧
      reads count cut = xs :: reads count (afterRead count cut) ∧
      IsCut (afterRead count cut) (stream.drop xs.length) ∧
      xs ++ stream.drop xs.length = stream := by
  cases cut with
  | nil => exact absurd hCut.flatten_eq.symm hNe
  | cons ys rest =>
      have hYs : ys ≠ [] := hCut.ne_nil ys List.mem_cons_self
      have hRest : IsCut rest rest.flatten :=
        ⟨rfl, fun xs hMem => hCut.ne_nil xs (List.mem_cons_of_mem _ hMem)⟩
      have hStream : stream = ys ++ rest.flatten := by
        rw [← hCut.flatten_eq, List.flatten_cons]
      refine ⟨ys.take count, Feed.read_ofPieces_cons count ys rest, ?_,
        List.length_take_le count ys, ?_⟩
      · simp only [ne_eq, List.take_eq_nil_iff, hYs, or_false]
        omega
      -- the piece is returned whole, or its front is and the rest stays
      by_cases hLe : ys.length ≤ count
      · rw [List.take_of_length_le hLe, afterRead, if_pos hLe]
        refine ⟨?_, ?_, ?_⟩
        · simp [reads, blocks_of_length_le hYs hLe]
        · simpa [hStream] using hRest
        · simp [hStream]
      · have hTake : (ys.take count).length = count := by
          simp only [List.length_take]
          omega
        have hDrop : ys.drop count ≠ [] := by
          simp only [ne_eq, List.drop_eq_nil_iff]
          omega
        have hSplit : stream.drop count = ys.drop count ++ rest.flatten := by
          rw [hStream, List.drop_append_of_le_length (by omega)]
        rw [afterRead, if_neg hLe, hTake, hSplit]
        refine ⟨?_, IsCut.cons hDrop hRest, ?_⟩
        · simp [reads, blocks_of_ne_nil hPos hYs]
        · rw [hStream, ← List.append_assoc, List.take_append_drop]

/-- The position in the stream that the first `k` reads of at most `count` elements
reach. -/
def readBoundary (count : Nat) (cut : List (List α)) (k : Nat) : Nat :=
  ((reads count cut).take k).flatten.length

@[simp] theorem readBoundary_zero (count : Nat) (cut : List (List α)) :
    readBoundary count cut 0 = 0 := by
  simp [readBoundary]

theorem readBoundary_succ {count : Nat} {cut cut' : List (List α)}
    {xs : List α} (hReads : reads count cut = xs :: reads count cut') (k : Nat) :
    readBoundary count cut (k + 1) = xs.length + readBoundary count cut' k := by
  rw [readBoundary, hReads, List.take_succ_cons, List.flatten_cons,
    List.length_append, readBoundary]

theorem readBoundary_mono (count : Nat) (cut : List (List α)) {j k : Nat}
    (hLe : j ≤ k) : readBoundary count cut j ≤ readBoundary count cut k := by
  have hSplit : (reads count cut).take k = (reads count cut).take j ++
      ((reads count cut).drop j).take (k - j) := by
    rw [← List.take_add, Nat.add_sub_cancel' hLe]
  rw [readBoundary, readBoundary, hSplit, List.flatten_append, List.length_append]
  exact Nat.le_add_right _ _

/-- The first read takes the first piece, or as much of it as it asked for. -/
theorem readBoundary_one {count : Nat} (hPos : 0 < count) {xs : List α}
    (hNe : xs ≠ []) (cut : List (List α)) :
    readBoundary count (xs :: cut) 1 = min count xs.length := by
  simp [readBoundary, reads, blocks_of_ne_nil hPos hNe]

theorem readBoundary_one_le {count : Nat} (hPos : 0 < count) {cut : List (List α)}
    {stream : List α} (hCut : IsCut cut stream) : readBoundary count cut 1 ≤ count := by
  cases cut with
  | nil => simp [readBoundary]
  | cons xs rest =>
      rw [readBoundary_one hPos (hCut.ne_nil xs List.mem_cons_self)]
      exact Nat.min_le_left _ _

/-- The first read leaves a cut of the rest of the stream. -/
theorem isCut_afterRead {count : Nat} (hPos : 0 < count) {cut : List (List α)}
    {stream : List α} (hCut : IsCut cut stream) (hNe : stream ≠ []) :
    IsCut (afterRead count cut) (stream.drop (readBoundary count cut 1)) := by
  obtain ⟨xs, -, -, -, hReads, hRest, -⟩ := @Feed.read_ofPieces α Unit count hPos cut stream
    hCut hNe
  rwa [readBoundary_succ hReads, readBoundary_zero, Nat.add_zero]

/-- The reads come to the end of the stream, and the first that does is the last. -/
theorem exists_readBoundary_length {count : Nat} (hPos : 0 < count)
    {cut : List (List α)} {stream : List α} (hCut : IsCut cut stream) :
    ∃ k, readBoundary count cut k = stream.length ∧
      ∀ j < k, readBoundary count cut j < stream.length := by
  have hFlatten := (isCut_reads hPos hCut).flatten_eq
  have hReaches : ∃ k, readBoundary count cut k = stream.length :=
    ⟨(reads count cut).length, by rw [readBoundary, List.take_length, hFlatten]⟩
  classical
  refine ⟨Nat.find hReaches, Nat.find_spec hReaches, fun j hLt => ?_⟩
  have hMono := readBoundary_mono count cut (Nat.le_of_lt hLt)
  have hNe := Nat.find_min hReaches hLt
  rw [Nat.find_spec hReaches] at hMono
  omega

/-- The reads of a single piece. -/
theorem readBoundary_singleton {count : Nat} (hPos : 0 < count) (xs : List α)
    (k : Nat) : readBoundary count [xs] k = min (count * k) xs.length := by
  have hReads : reads count [xs] = blocks count xs := by
    simp [reads]
  rw [readBoundary, hReads, flatten_take_blocks hPos, List.length_take]

/-- The first boundary that reaches `n` is `n` as soon as some boundary is. -/
theorem readBoundary_eq_of_first {count n k k' : Nat} {cut : List (List α)}
    (hReach : n ≤ readBoundary count cut k)
    (hFirst : ∀ j < k, readBoundary count cut j < n)
    (hEq : readBoundary count cut k' = n) : readBoundary count cut k = n := by
  have hLe : k ≤ k' := by
    -- the boundaries before the `k`-th do not reach `n`
    by_contra hLt
    have hBefore := hFirst k' (by omega)
    omega
  have hMono := readBoundary_mono count cut hLe
  omega

theorem Feed.read_ofPieces_nil {count : Nat} {cut : List (List α)}
    (hCut : IsCut cut ([] : List α)) :
    (Feed.ofPieces cut : Feed α ε).read count = none := by
  rw [isCut_nil_iff.mp hCut]
  rfl

end Cut

end Lib
end CubeSatComm
