import CubeSatComm.Lib.Feed
import Mathlib.Data.List.Infix

/-!
# Lines of a text

A text falls into lines, each of which ends with a delimiter; the last one may lack it.
`line` is the first of them and `lines` are all.  A reader with little room takes a
line in several pieces, the blocks of the line.

`upto` cuts a list behind the first element with a property.
-/

namespace CubeSatComm
namespace Lib

variable {α : Type*}

/-- The front of a list up to and including the first element with the property. -/
def upto (p : α → Prop) [DecidablePred p] : List α → List α
  | [] => []
  | x :: xs => if p x then [x] else x :: upto p xs

section Upto

variable {p : α → Prop} [DecidablePred p] {x : α} {xs ys : List α}

theorem upto_cons_of_pos (hPos : p x) : upto p (x :: xs) = [x] := by
  rw [upto, if_pos hPos]

theorem upto_cons_of_neg (hNeg : ¬ p x) : upto p (x :: xs) = x :: upto p xs := by
  rw [upto, if_neg hNeg]

theorem upto_append_of_neg (hNeg : ∀ x ∈ xs, ¬ p x) :
    upto p (xs ++ ys) = xs ++ upto p ys := by
  induction xs with
  | nil => rfl
  | cons x xs ih =>
      rw [List.forall_mem_cons] at hNeg
      rw [List.cons_append, upto_cons_of_neg hNeg.1, ih hNeg.2, List.cons_append]

theorem upto_eq_self (hNeg : ∀ x ∈ xs, ¬ p x) : upto p xs = xs := by
  have hAppend := @upto_append_of_neg _ p _ xs [] hNeg
  rwa [List.append_nil, upto, List.append_nil] at hAppend

theorem upto_ne_nil (hNe : xs ≠ []) : upto p xs ≠ [] := by
  cases xs with
  | nil => exact absurd rfl hNe
  | cons x xs =>
      rw [upto]
      split
      · exact List.cons_ne_nil _ _
      · exact List.cons_ne_nil _ _

theorem mem_of_mem_upto (hMem : x ∈ upto p xs) : x ∈ xs := by
  induction xs with
  | nil => cases hMem
  | cons y ys ih =>
      rw [upto] at hMem
      split at hMem
      · rw [List.mem_singleton.mp hMem]
        exact List.mem_cons_self
      · rcases List.mem_cons.mp hMem with rfl | hRest
        · exact List.mem_cons_self
        · exact List.mem_cons_of_mem _ (ih hRest)

/-- The first element with the property, and what stands before and behind it. -/
theorem exists_first (hSome : ∃ x ∈ xs, p x) :
    ∃ before x after, xs = before ++ x :: after ∧ (∀ y ∈ before, ¬ p y) ∧ p x := by
  induction xs with
  | nil =>
      obtain ⟨x, hMem, -⟩ := hSome
      cases hMem
  | cons y ys ih =>
      by_cases hFirst : p y
      · exact ⟨[], y, ys, rfl, fun _ hMem => absurd hMem (List.not_mem_nil), hFirst⟩
      · obtain ⟨x, hMem, hX⟩ := hSome
        have hRest : x ∈ ys := by
          rcases List.mem_cons.mp hMem with rfl | hRest
          · exact absurd hX hFirst
          · exact hRest
        obtain ⟨before, z, after, rfl, hBefore, hZ⟩ := ih ⟨x, hRest, hX⟩
        refine ⟨y :: before, z, after, rfl, ?_, hZ⟩
        rw [List.forall_mem_cons]
        exact ⟨hFirst, hBefore⟩

end Upto

/-! ## Lines -/

section Lines

variable [DecidableEq α]

/-- The first line of a text, with its delimiter. -/
def line (d : α) : List α → List α :=
  upto (· = d)

/-- The lines of a text. -/
def lines (d : α) : List α → List (List α)
  | [] => []
  | x :: xs =>
      if x = d then
        [x] :: lines d xs
      else
        match lines d xs with
        | [] => [[x]]
        | first :: rest => (x :: first) :: rest

variable {d : α} {xs ys rest : List α}

theorem lines_append (hYs : d ∉ ys) :
    lines d (ys ++ d :: rest) = (ys ++ [d]) :: lines d rest := by
  induction ys with
  | nil => rw [List.nil_append, lines, if_pos rfl, List.nil_append]
  | cons y ys ih =>
      rw [List.mem_cons, not_or] at hYs
      rw [List.cons_append, lines, if_neg (Ne.symm hYs.1), ih hYs.2, List.cons_append]

theorem lines_of_not_mem (hXs : d ∉ xs) (hNe : xs ≠ []) : lines d xs = [xs] := by
  induction xs with
  | nil => exact absurd rfl hNe
  | cons x xs ih =>
      rw [List.mem_cons, not_or] at hXs
      rw [lines, if_neg (Ne.symm hXs.1)]
      by_cases hNil : xs = []
      · rw [hNil, lines]
      · rw [ih hXs.2 hNil]

theorem line_append (hYs : d ∉ ys) : line d (ys ++ d :: rest) = ys ++ [d] := by
  have hNeg : ∀ y ∈ ys, ¬ y = d := by
    rintro y hMem rfl
    exact hYs hMem
  rw [line, upto_append_of_neg hNeg, upto_cons_of_pos (p := (· = d)) rfl]

theorem line_of_not_mem (hXs : d ∉ xs) : line d xs = xs := by
  have hNeg : ∀ x ∈ xs, ¬ x = d := by
    rintro x hMem rfl
    exact hXs hMem
  exact upto_eq_self hNeg

/-- Structural induction along the lines of a text. -/
theorem lines_induction (d : α) {motive : List α → Prop} (nil : motive [])
    (last : ∀ xs, xs ≠ [] → d ∉ xs → motive xs)
    (line : ∀ ys rest, d ∉ ys → motive rest → motive (ys ++ d :: rest))
    (xs : List α) : motive xs := by
  induction hLength : xs.length using Nat.strongRecOn generalizing xs with
  | _ size ih =>
      by_cases hMem : d ∈ xs
      · obtain ⟨ys, rest, rfl, hYs⟩ := List.eq_append_cons_of_mem hMem
        refine line ys rest hYs (ih rest.length ?_ rest rfl)
        rw [← hLength, List.length_append, List.length_cons]
        omega
      · by_cases hNil : xs = []
        · exact hNil ▸ nil
        · exact last xs hNil hMem

theorem ne_nil_of_mem_lines {first : List α} (hMem : first ∈ lines d xs) :
    first ≠ [] := by
  induction xs using lines_induction d with
  | nil => cases hMem
  | last xs hNe hXs =>
      rw [lines_of_not_mem hXs hNe, List.mem_singleton] at hMem
      exact hMem ▸ hNe
  | line ys rest hYs ih =>
      rw [lines_append hYs, List.mem_cons] at hMem
      rcases hMem with rfl | hMem
      · exact List.append_ne_nil_of_right_ne_nil _ (List.cons_ne_nil d [])
      · exact ih hMem

/-- The lines of a text are the first one and those of the rest. -/
theorem lines_of_ne_nil (hNe : xs ≠ []) :
    lines d xs = line d xs :: lines d (xs.drop (line d xs).length) := by
  by_cases hMem : d ∈ xs
  · obtain ⟨ys, rest, rfl, hYs⟩ := List.eq_append_cons_of_mem hMem
    have hSplit : ys ++ d :: rest = (ys ++ [d]) ++ rest := by
      rw [List.append_assoc, List.singleton_append]
    rw [lines_append hYs, line_append hYs, hSplit, List.drop_left]
  · rw [lines_of_not_mem hMem hNe, line_of_not_mem hMem, List.drop_length, lines]

/-- Behind a part of the first line comes the rest of that line. -/
theorem lines_drop {k : Nat} (hLt : k < (line d xs).length) :
    lines d (xs.drop k) =
      (line d xs).drop k :: lines d (xs.drop (line d xs).length) := by
  by_cases hMem : d ∈ xs
  · obtain ⟨ys, rest, rfl, hYs⟩ := List.eq_append_cons_of_mem hMem
    have hSplit : ys ++ d :: rest = (ys ++ [d]) ++ rest := by
      rw [List.append_assoc, List.singleton_append]
    rw [line_append hYs, List.length_append, List.length_singleton] at hLt
    rw [line_append hYs]
    have hDrop : (ys ++ d :: rest).drop (ys ++ [d]).length = rest := by
      rw [hSplit, List.drop_left]
    rw [hDrop, List.drop_append_of_le_length (by omega), lines_append
      (fun hIn => hYs (List.mem_of_mem_drop hIn)),
      List.drop_append_of_le_length (by omega)]
  · rw [line_of_not_mem hMem] at hLt ⊢
    have hNe : xs.drop k ≠ [] := by
      rw [ne_eq, List.drop_eq_nil_iff]
      omega
    rw [lines_of_not_mem (fun hIn => hMem (List.mem_of_mem_drop hIn)) hNe,
      List.drop_length, lines]

/-! ### Pieces of lines -/

/-- The pieces in which a reader with room for `k` elements takes the lines. -/
def linePieces (d : α) (k : Nat) (xs : List α) : List (List α) :=
  (lines d xs).flatMap (blocks k)

/-- The first piece is as much of the first line as there is room for. -/
theorem linePieces_of_ne_nil {k : Nat} (hPos : 0 < k) (hNe : xs ≠ []) :
    linePieces d k xs =
      (line d xs).take k ::
        linePieces d k (xs.drop ((line d xs).take k).length) := by
  have hLine : line d xs ≠ [] := upto_ne_nil hNe
  rw [linePieces, lines_of_ne_nil hNe, List.flatMap_cons]
  by_cases hLe : (line d xs).length ≤ k
  · rw [blocks_of_length_le hLine hLe, List.take_of_length_le hLe, linePieces,
      List.singleton_append]
  · have hTake : ((line d xs).take k).length = k := by
      rw [List.length_take]
      omega
    have hLines : lines d (xs.drop k) =
        (line d xs).drop k :: lines d (xs.drop (line d xs).length) :=
      lines_drop (by omega)
    rw [blocks_of_ne_nil hPos hLine, hTake, linePieces, hLines, List.flatMap_cons,
      List.cons_append]

end Lines

/-- A list that is shorter than a block is one of the blocks exactly if it is the last
of them. -/
theorem mem_blocks_iff {k : Nat} {piece : List α} (hNe : piece ≠ [])
    (hShort : piece.length < k) (xs : List α) :
    piece ∈ blocks k xs ↔ xs.length % k = piece.length ∧ piece <:+ xs := by
  have hPos : 0 < piece.length := List.length_pos_iff.mpr hNe
  have hBlock : 0 < k := by omega
  induction xs using blocks_induction hBlock with
  | nil =>
      rw [blocks_nil, List.length_nil, Nat.zero_mod]
      constructor
      · intro hMem
        cases hMem
      · rintro ⟨hZero, -⟩
        omega
  | block xs hXs ih =>
      by_cases hLt : xs.length < k
      · rw [blocks_of_length_le hXs (by omega), List.mem_singleton, Nat.mod_eq_of_lt hLt]
        constructor
        · rintro rfl
          exact ⟨rfl, List.suffix_refl _⟩
        · rintro ⟨hLength, hSuffix⟩
          exact hSuffix.eq_of_length hLength.symm
      · -- the first block is full
        have hFull : piece ≠ xs.take k := by
          rintro rfl
          rw [List.length_take] at hShort
          omega
        have hMod : xs.length % k = (xs.drop k).length % k := by
          rw [List.length_drop, ← Nat.mod_eq_sub_mod (by omega)]
        rw [blocks_of_ne_nil hBlock hXs, List.mem_cons, or_iff_right hFull, hMod]
        refine Iff.trans ih (and_congr_right fun hLength => ?_)
        constructor
        · intro hSuffix
          exact hSuffix.trans (List.drop_suffix k xs)
        · intro hSuffix
          have hLe : piece.length ≤ (xs.drop k).length := by
            rw [← hLength]
            exact Nat.mod_le _ _
          exact List.suffix_of_suffix_length_le hSuffix (List.drop_suffix k xs) hLe

/-- A list that is shorter than a block is the last of the blocks it is among. -/
theorem upto_blocks_append [DecidableEq α] {k : Nat} {piece xs : List α}
    (hShort : piece.length < k) (hMem : piece ∈ blocks k xs) (rest : List (List α)) :
    upto (· = piece) (blocks k xs ++ rest) = blocks k xs := by
  have hBlock : 0 < k := by omega
  induction xs using blocks_induction hBlock with
  | nil =>
      rw [blocks_nil] at hMem
      cases hMem
  | block xs hXs ih =>
      by_cases hFirst : xs.take k = piece
      · have hLe : xs.length ≤ k := by
          have hLength := congrArg List.length hFirst
          rw [List.length_take] at hLength
          omega
        rw [List.take_of_length_le hLe] at hFirst
        rw [blocks_of_length_le hXs hLe, List.singleton_append,
          upto_cons_of_pos (p := (· = piece)) hFirst]
      · rw [blocks_of_ne_nil hBlock hXs] at hMem ⊢
        have hRest : piece ∈ blocks k (xs.drop k) := by
          rcases List.mem_cons.mp hMem with hEq | hRest
          · exact absurd hEq.symm hFirst
          · exact hRest
        rw [List.cons_append, upto_cons_of_neg (p := (· = piece)) hFirst, ih hRest]

/-- The blocks of several texts hold these texts. -/
theorem flatten_flatMap_blocks {k : Nat} (hPos : 0 < k) (xss : List (List α)) :
    (xss.flatMap (blocks k)).flatten = xss.flatten := by
  induction xss with
  | nil => rfl
  | cons xs xss ih =>
      rw [List.flatMap_cons, List.flatten_append, flatten_blocks hPos, ih,
        List.flatten_cons]

end Lib
end CubeSatComm
