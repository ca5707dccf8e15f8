import Mathlib.Data.List.Rotate

/-!
# Slots that are recycled in FIFO order

A queue gives out its slots from the front, and they come back to its end in the order
in which they were given out.  The slots in use, followed by those in the queue, are
then the slots of the beginning, rotated by the number of slots that have come back
(`rotate_succ`).  So the slot of each use is known from the start: use `i` is of the
slot at position `i` modulo the number of slots (`slot_of_rotate`), and two uses are of
the same slot only if they are that number apart (`slot_ne_of_near`).
-/

namespace CubeSatComm
namespace Lib

variable {α : Type*}

/-- The slot of the `i`-th use. -/
def slot (order : List α) (i : Nat) : Option α := order[i % order.length]?

variable {order : List α} {x : α} {i j p : Nat}

/-- The oldest slot in use comes back. -/
theorem rotate_succ {others : List α} (hCycle : x :: others = order.rotate p) :
    others ++ [x] = order.rotate (p + 1) := by
  rw [← List.rotate_rotate, ← hCycle, List.rotate_cons_succ, List.rotate_zero]

/-- The slot behind `used`, when `p` slots have come back. -/
theorem slot_of_rotate {used rest : List α} (hCycle : used ++ x :: rest = order.rotate p) :
    slot order (p + used.length) = some x := by
  have hLength := congrArg List.length hCycle
  rw [List.length_append, List.length_cons, List.length_rotate] at hLength
  rw [slot, Nat.add_comm, ← List.getElem?_rotate (by omega), ← hCycle]
  simp

theorem mod_eq_of_slot_eq (hNodup : order.Nodup) (hFirst : slot order i = some x)
    (hSecond : slot order j = some x) : i % order.length = j % order.length := by
  have hIn := (List.getElem?_eq_some_iff.mp hFirst).1
  exact (List.getElem?_inj hIn hNodup).mp (hFirst.trans hSecond.symm)

/-- Two uses of a slot are not near each other. -/
theorem slot_ne_of_near (hNodup : order.Nodup) (hLt : i < j)
    (hNear : j < i + order.length) (hFirst : slot order i = some x) :
    slot order j ≠ some x := by
  intro hSecond
  have hMod := mod_eq_of_slot_eq hNodup hFirst hSecond
  have hSub : (j - i) % order.length = 0 := Nat.sub_mod_eq_zero_of_mod_eq hMod.symm
  rw [Nat.mod_eq_of_lt (by omega)] at hSub
  omega

end Lib
end CubeSatComm
