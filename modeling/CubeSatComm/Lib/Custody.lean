import Mathlib.Data.List.Nodup

/-!
# Custody

Things are held in places, each of which holds a list of them.  The holding is exclusive
if nothing is held in two places, or twice in one.

A place may always give things up (`Exclusive.mono`).  It may take things that are then in
no other place (`Exclusive.receive`); where they were before does not matter, so this is
the rule for a move as well as for things that come from outside.
-/

namespace CubeSatComm
namespace Lib

variable {π τ : Type*}

/-- Nothing is in two places, or twice in one. -/
structure Exclusive (held : π → List τ) : Prop where
  nodup : ∀ p, (held p).Nodup
  unique : ∀ {p q x}, x ∈ held p → x ∈ held q → p = q

/-- It is in no place. -/
def Nowhere (held : π → List τ) (x : τ) : Prop := ∀ p, x ∉ held p

section Exclusive

variable {held held' : π → List τ} {p q : π} {x : τ} {xs ys : List τ}

theorem Exclusive.not_mem (hHeld : Exclusive held) (hMem : x ∈ held p) (hNe : q ≠ p) :
    x ∉ held q := by
  intro hOther
  exact hNe (hHeld.unique hOther hMem)

theorem Exclusive.mono (hHeld : Exclusive held) (hSub : ∀ p, (held' p).Sublist (held p)) :
    Exclusive held' where
  nodup := fun p => (hHeld.nodup p).sublist (hSub p)
  unique := fun hMem hOther => hHeld.unique ((hSub _).subset hMem) ((hSub _).subset hOther)

/-- What is in no place still is in none when places give things up. -/
theorem Nowhere.mono (hNowhere : Nowhere held x) (hSub : ∀ p, (held' p).Sublist (held p)) :
    Nowhere held' x :=
  fun p hMem => hNowhere p ((hSub p).subset hMem)

/-- The place `q` keeps `ys` and takes `xs`, which no place holds any more. -/
theorem Exclusive.receive (hHeld : Exclusive held) (hPlace : held' q = ys ++ xs)
    (hKept : ys.Sublist (held q)) (hOthers : ∀ p ≠ q, (held' p).Sublist (held p))
    (hNodup : xs.Nodup) (hFresh : ∀ x ∈ xs, x ∉ ys ∧ ∀ p ≠ q, x ∉ held' p) :
    Exclusive held' := by
  have hElsewhere : ∀ p x, x ∈ held' p → x ∈ held' q → p = q := by
    intro p x hMem hIn
    by_contra hNe
    rw [hPlace, List.mem_append] at hIn
    rcases hIn with hOld | hNew
    · exact hNe (hHeld.unique ((hOthers p hNe).subset hMem) (hKept.subset hOld))
    · exact (hFresh x hNew).2 p hNe hMem
  constructor
  · intro p
    by_cases hSame : p = q
    · rw [hSame, hPlace, List.nodup_append]
      refine ⟨(hHeld.nodup q).sublist hKept, hNodup, ?_⟩
      rintro x hOld y hNew rfl
      exact (hFresh x hNew).1 hOld
    · exact (hHeld.nodup p).sublist (hOthers p hSame)
  · intro p p' x hMem hOther
    by_cases hSame : p = q
    · rw [hSame] at hMem ⊢
      exact (hElsewhere p' x hOther hMem).symm
    · by_cases hSame' : p' = q
      · rw [hSame'] at hOther ⊢
        exact hElsewhere p x hMem hOther
      · exact hHeld.unique ((hOthers p hSame).subset hMem) ((hOthers p' hSame').subset hOther)

end Exclusive

end Lib
end CubeSatComm
