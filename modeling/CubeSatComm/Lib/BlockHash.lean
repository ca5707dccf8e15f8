import CubeSatComm.Lib.Feed

/-!
# Hashing block by block

A hash function that compresses a message block by block, from an initial chaining value
on.  What is left over behind the last full block waits for more of the message, or for
the padding at its end.

The two rules for a message that grows (`chain_append_of_lt`, `chain_append_of_eq`) are
those of a hash that is fed piece by piece: the piece is kept, or it completes a block.
-/

namespace CubeSatComm
namespace Lib

variable {α σ : Type*}

/-- What is left over behind the full blocks. -/
def leftover (k : Nat) (xs : List α) : List α := xs.drop (k * (xs.length / k))

theorem length_leftover (k : Nat) (xs : List α) :
    (leftover k xs).length = xs.length % k := by
  rw [leftover, List.length_drop, Nat.mod_def]

theorem leftover_of_lt {k : Nat} {xs : List α} (hLt : xs.length < k) :
    leftover k xs = xs := by
  rw [leftover, Nat.div_eq_of_lt hLt, Nat.mul_zero, List.drop_zero]

theorem flatten_fullBlocks_append_leftover {k : Nat} (hPos : 0 < k) (xs : List α) :
    (fullBlocks k xs).flatten ++ leftover k xs = xs := by
  rw [flatten_fullBlocks hPos, leftover, List.take_append_drop]

/-- A full block in front of a list. -/
theorem fullBlocks_append_of_eq {k : Nat} {block : List α} (hPos : 0 < k)
    (hBlock : block.length = k) (xs : List α) :
    fullBlocks k (block ++ xs) = block :: fullBlocks k xs := by
  rw [fullBlocks_of_le hPos (by simp [hBlock]), List.take_left' hBlock,
    List.drop_left' hBlock]

/-- Full blocks in front of a list. -/
theorem fullBlocks_flatten_append {k : Nat} (hPos : 0 < k) {bs : List (List α)}
    (hBlocks : ∀ block ∈ bs, block.length = k) (xs : List α) :
    fullBlocks k (bs.flatten ++ xs) = bs ++ fullBlocks k xs := by
  induction bs with
  | nil => simp
  | cons block bs ih =>
      rw [List.flatten_cons, List.append_assoc,
        fullBlocks_append_of_eq hPos (hBlocks block (by simp)),
        ih fun block hMem => hBlocks block (List.mem_cons_of_mem _ hMem), List.cons_append]

theorem leftover_flatten_append {k : Nat} (hPos : 0 < k) {bs : List (List α)}
    (hBlocks : ∀ block ∈ bs, block.length = k) (xs : List α) :
    leftover k (bs.flatten ++ xs) = leftover k xs := by
  have hSplit := flatten_fullBlocks_append_leftover hPos (bs.flatten ++ xs)
  rw [fullBlocks_flatten_append hPos hBlocks, List.flatten_append, List.append_assoc] at hSplit
  have hRest := List.append_cancel_left hSplit
  exact List.append_cancel_left
    (hRest.trans (flatten_fullBlocks_append_leftover hPos xs).symm)

/-- A longer list has the full blocks of its front, and those that start with what its
front leaves over. -/
theorem fullBlocks_append {k : Nat} (hPos : 0 < k) (xs ys : List α) :
    fullBlocks k (xs ++ ys) = fullBlocks k xs ++ fullBlocks k (leftover k xs ++ ys) := by
  have hSplit := flatten_fullBlocks_append_leftover hPos xs
  calc fullBlocks k (xs ++ ys)
      = fullBlocks k ((fullBlocks k xs).flatten ++ (leftover k xs ++ ys)) := by
        rw [← List.append_assoc, hSplit]
    _ = fullBlocks k xs ++ fullBlocks k (leftover k xs ++ ys) :=
        fullBlocks_flatten_append hPos (fun _ => length_of_mem_fullBlocks hPos) _

theorem leftover_append {k : Nat} (hPos : 0 < k) (xs ys : List α) :
    leftover k (xs ++ ys) = leftover k (leftover k xs ++ ys) := by
  have hSplit := flatten_fullBlocks_append_leftover hPos xs
  calc leftover k (xs ++ ys)
      = leftover k ((fullBlocks k xs).flatten ++ (leftover k xs ++ ys)) := by
        rw [← List.append_assoc, hSplit]
    _ = leftover k (leftover k xs ++ ys) :=
        leftover_flatten_append hPos (fun _ => length_of_mem_fullBlocks hPos) _

/-- The chaining value behind the full blocks of a message. -/
def chain (k : Nat) (compress : σ → List α → σ) (init : σ) (message : List α) : σ :=
  (fullBlocks k message).foldl compress init

section Chain

variable {k : Nat} (compress : σ → List α → σ) (init : σ) {message xs : List α}

@[simp] theorem chain_nil : chain k compress init [] = init := by
  simp [chain, fullBlocks]

@[simp] theorem leftover_nil : leftover k ([] : List α) = [] := by
  simp [leftover]

/-- What does not complete a block is kept. -/
theorem chain_append_of_lt (hLt : (leftover k message ++ xs).length < k) :
    chain k compress init (message ++ xs) = chain k compress init message ∧
      leftover k (message ++ xs) = leftover k message ++ xs := by
  have hPos : 0 < k := by omega
  constructor
  · rw [chain, fullBlocks_append hPos, fullBlocks_of_lt hLt, List.append_nil, chain]
  · rw [leftover_append hPos, leftover_of_lt hLt]

/-- A block that has been completed is compressed. -/
theorem chain_append_of_eq (hPos : 0 < k) (hEq : (leftover k message ++ xs).length = k) :
    chain k compress init (message ++ xs) =
        compress (chain k compress init message) (leftover k message ++ xs) ∧
      leftover k (message ++ xs) = [] := by
  constructor
  · have hBlock : fullBlocks k (leftover k message ++ xs) = [leftover k message ++ xs] := by
      rw [fullBlocks_of_le hPos (Nat.le_of_eq hEq.symm),
        List.take_of_length_le (Nat.le_of_eq hEq), List.drop_eq_nil_of_le (Nat.le_of_eq hEq),
        fullBlocks_of_lt hPos]
    rw [chain, fullBlocks_append hPos, hBlock, List.foldl_append]
    rfl
  · rw [leftover_append hPos, leftover, hEq, Nat.div_self hPos, Nat.mul_one,
      List.drop_eq_nil_of_le (Nat.le_of_eq hEq)]

end Chain

end Lib
end CubeSatComm
