import Mathlib.Algebra.GroupWithZero.Nat
import Mathlib.Data.List.Basic

/-!
# Stores into a memory region

A region of memory is the list of its cells from a base address on.  `store`
overwrites the cells from an offset on and leaves every other cell alone, as
`memcpy`, `read` and `sprintf` do with the buffer they are given.  The lemmas
say which cells a store changes and how adjacent stores compose, and what becomes of a
region when one cell is overwritten or added.
-/

namespace CubeSatComm
namespace Lib

variable {α : Type*}

/-- Overwrite the cells from `offset` on by `xs`. -/
def store (memory : List α) (offset : Nat) (xs : List α) : List α :=
  memory.take offset ++ xs ++ memory.drop (offset + xs.length)

@[simp] theorem store_zero (memory xs : List α) :
    store memory 0 xs = xs ++ memory.drop xs.length := by
  simp [store]

@[simp] theorem store_nil (memory : List α) (offset : Nat) :
    store memory offset [] = memory := by
  simp [store]

theorem length_store {memory xs : List α} {offset : Nat}
    (hFits : offset + xs.length ≤ memory.length) :
    (store memory offset xs).length = memory.length := by
  simp [store]
  omega

theorem le_length_store {memory xs : List α} {offset : Nat}
    (hOffset : offset ≤ memory.length) :
    offset + xs.length ≤ (store memory offset xs).length := by
  simp [store]
  omega

/-- Cells below the offset keep their contents. -/
theorem take_store {memory xs : List α} {offset k : Nat}
    (hOffset : offset ≤ memory.length) (hLe : k ≤ offset) :
    (store memory offset xs).take k = memory.take k := by
  unfold store
  rw [List.append_assoc, List.take_append_of_le_length (by simp; omega),
    List.take_take, Nat.min_eq_left hLe]

/-- Cells above the stored ones keep their contents. -/
theorem drop_store {memory xs : List α} {offset k : Nat}
    (hOffset : offset ≤ memory.length) (hLe : offset + xs.length ≤ k) :
    (store memory offset xs).drop k = memory.drop k := by
  have hFront : (memory.take offset ++ xs).length = offset + xs.length := by
    simp [Nat.min_eq_left hOffset]
  unfold store
  rw [List.drop_append, hFront, List.drop_eq_nil_of_le (by omega),
    List.nil_append, List.drop_drop]
  congr 1
  omega

/-- The stored cells are found where they were put, behind those below the
offset. -/
theorem take_add_store {memory xs : List α} {offset : Nat}
    (hOffset : offset ≤ memory.length) :
    (store memory offset xs).take (offset + xs.length) =
      memory.take offset ++ xs := by
  have hFront : (memory.take offset ++ xs).length = offset + xs.length := by
    simp [Nat.min_eq_left hOffset]
  unfold store
  rw [← hFront, List.take_left']
  rfl

/-- Two stores next to each other are one store. -/
theorem store_store_adjacent {memory xs ys : List α} {offset : Nat}
    (hOffset : offset ≤ memory.length) :
    store (store memory offset xs) (offset + xs.length) ys =
      store memory offset (xs ++ ys) := by
  have hTail :
      (store memory offset xs).drop (offset + xs.length + ys.length) =
        memory.drop (offset + xs.length + ys.length) :=
    drop_store hOffset (by omega)
  rw [store, take_add_store hOffset, hTail]
  simp [store, Nat.add_assoc]

/-! ## Single cells -/

/-- What a sum over the cells becomes when one of them is overwritten. -/
theorem sum_map_set (f : α → Nat) {memory : List α} {i : Nat} {x : α}
    (hAt : memory[i]? = some x) (y : α) :
    ((memory.set i y).map f).sum + f x = (memory.map f).sum + f y := by
  induction memory generalizing i with
  | nil => cases hAt
  | cons z memory ih =>
      cases i with
      | zero =>
          cases hAt
          simp only [List.set_cons_zero, List.map_cons, List.sum_cons]
          omega
      | succ i =>
          have hSum := ih hAt
          simp only [List.set_cons_succ, List.map_cons, List.sum_cons]
          omega

/-- The cells of a region that has grown by one. -/
theorem getElem?_concat_eq_some {memory : List α} {x y : α} {i : Nat} :
    (memory ++ [x])[i]? = some y ↔ memory[i]? = some y ∨ i = memory.length ∧ x = y := by
  rcases Nat.lt_trichotomy i memory.length with hLt | rfl | hGt
  · rw [List.getElem?_append_left hLt]
    simp [Nat.ne_of_lt hLt]
  · simp
  · rw [List.getElem?_eq_none (by simp; omega), List.getElem?_eq_none (by omega)]
    simp [Nat.ne_of_gt hGt]

end Lib
end CubeSatComm
