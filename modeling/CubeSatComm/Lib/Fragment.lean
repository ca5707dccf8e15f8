import Mathlib.Data.List.Infix
import Mathlib.Data.List.Range

/-!
# Messages in fragments

A long message is sent in fragments.  Each of them says where in the message its content
belongs and how long the message is, and nothing else, so a receiver knows neither which
message a fragment is of nor how the sender has cut it.

`Assembles` is what a receiver does that takes fragments in their order and without gaps
only.  Fragments of one message assemble to nothing but that message, however they were cut
and whichever of them were lost or repeated (`Assembles.eq_of_parts`).  Fragments of two
messages of the same length can be mixed (`assembles_mixed`).
-/

namespace CubeSatComm
namespace Lib

variable {α : Type*}

/-- A fragment of a message. -/
structure Fragment (α : Type*) where
  offset : Nat
  total : Nat
  content : List α
  deriving DecidableEq, Repr

/-- What the fragment says is true of the message. -/
structure Fragment.PartOf (fragment : Fragment α) (message : List α) : Prop where
  total_eq : fragment.total = message.length
  isPrefix : fragment.content <+: message.drop fragment.offset

/-- The fragment continues what a receiver has of a message of this length. -/
structure Fragment.Continues (fragment : Fragment α) (total : Nat) (xs : List α) : Prop where
  offset_eq : fragment.offset = xs.length
  total_eq : fragment.total = total
  fits : xs.length + fragment.content.length ≤ total

/-- A receiver that has `xs` takes one fragment after the other, and has `ys`, the whole
message, with the last of them. -/
inductive Assembles (total : Nat) : List α → List (Fragment α) → List α → Prop where
  | last {xs fragment} : fragment.Continues total xs →
      xs.length + fragment.content.length = total →
      Assembles total xs [fragment] (xs ++ fragment.content)
  | more {xs fragment fragments ys} : fragment.Continues total xs →
      fragment.content ≠ [] → xs.length + fragment.content.length < total →
      Assembles total (xs ++ fragment.content) fragments ys →
      Assembles total xs (fragment :: fragments) ys

/-- A receiver that has `xs` takes one fragment after the other, and has `ys`, which is not
the whole message. -/
inductive Gathers (total : Nat) : List α → List (Fragment α) → List α → Prop where
  | nil {xs} : Gathers total xs [] xs
  | cons {xs fragment fragments ys} : fragment.Continues total xs →
      fragment.content ≠ [] → xs.length + fragment.content.length < total →
      Gathers total (xs ++ fragment.content) fragments ys →
      Gathers total xs (fragment :: fragments) ys

section Assembles

variable {total : Nat} {xs ys message : List α} {fragments : List (Fragment α)}

theorem Assembles.length_eq (hAssembles : Assembles total xs fragments ys) :
    ys.length = total := by
  induction hAssembles with
  | last _ hLength => rw [List.length_append, hLength]
  | more _ _ _ _ ih => exact ih

/-- Nothing is added to a message that is complete. -/
theorem Assembles.ne_nil (hAssembles : Assembles total xs fragments ys) : fragments ≠ [] := by
  cases hAssembles with
  | last => exact List.cons_ne_nil _ _
  | more => exact List.cons_ne_nil _ _

theorem Assembles.head {fragment : Fragment α}
    (hAssembles : Assembles total xs (fragment :: fragments) ys) :
    fragment.Continues total xs := by
  cases hAssembles with
  | last hContinues => exact hContinues
  | more hContinues => exact hContinues

theorem Fragment.Continues.isPrefix {fragment : Fragment α}
    (hContinues : fragment.Continues total xs) (hPart : fragment.PartOf message)
    (hPrefix : xs <+: message) : xs ++ fragment.content <+: message := by
  obtain ⟨rest, rfl⟩ := hPrefix
  have hContent := hPart.isPrefix
  rw [hContinues.offset_eq, List.drop_left' rfl] at hContent
  exact (List.prefix_append_right_inj xs).mpr hContent

/-- Fragments of one message assemble to this message only. -/
theorem Assembles.eq_of_parts (hAssembles : Assembles total xs fragments ys)
    (hParts : ∀ fragment ∈ fragments, fragment.PartOf message) (hPrefix : xs <+: message) :
    ys = message := by
  induction hAssembles with
  | @last xs fragment hContinues hLength =>
    have hPart := hParts fragment (List.mem_singleton_self _)
    refine (hContinues.isPrefix hPart hPrefix).eq_of_length ?_
    rw [List.length_append, hLength, ← hContinues.total_eq, hPart.total_eq]
  | @more xs fragment fragments ys hContinues _ _ _ ih =>
    have hPart := hParts fragment List.mem_cons_self
    exact ih (fun other hMem => hParts other (List.mem_cons_of_mem _ hMem))
      (hContinues.isPrefix hPart hPrefix)

end Assembles

/-! ## Cutting a message into fragments of one size -/

section Cut

variable (mtu : Nat) (message : List α)

/-- The fragment with the `k`-th `mtu` elements. -/
def fragmentAt (k : Nat) : Fragment α :=
  ⟨k * mtu, message.length, (message.drop (k * mtu)).take mtu⟩

/-- How many fragments the message is cut into. -/
def fragmentCount : Nat := (message.length + mtu - 1) / mtu

/-- All fragments in their order. -/
def cut : List (Fragment α) :=
  (List.range (fragmentCount mtu message)).map (fragmentAt mtu message)

variable {mtu message} {k : Nat}

theorem partOf_fragmentAt (k : Nat) : (fragmentAt mtu message k).PartOf message :=
  ⟨rfl, List.take_prefix _ _⟩

theorem lt_fragmentCount (hPos : 0 < mtu) :
    k < fragmentCount mtu message ↔ k * mtu < message.length := by
  rw [fragmentCount, ← Nat.succ_le_iff, Nat.le_div_iff_mul_le hPos, Nat.succ_mul]
  omega

theorem cut_nil (hPos : 0 < mtu) : cut mtu ([] : List α) = [] := by
  have hZero : fragmentCount mtu ([] : List α) = 0 :=
    Nat.div_eq_of_lt (by rw [List.length_nil]; omega)
  simp [cut, hZero]

theorem length_content_fragmentAt (k : Nat) :
    (fragmentAt mtu message k).content.length = min mtu (message.length - k * mtu) := by
  simp [fragmentAt]

theorem continues_fragmentAt {xs : List α} (hLength : xs.length = k * mtu)
    (hMore : k * mtu < message.length) :
    (fragmentAt mtu message k).Continues message.length xs := by
  refine ⟨hLength.symm, rfl, ?_⟩
  rw [hLength, length_content_fragmentAt]
  omega

theorem content_fragmentAt_ne_nil (hPos : 0 < mtu) (hMore : k * mtu < message.length) :
    (fragmentAt mtu message k).content ≠ [] := by
  rw [← List.length_pos_iff, length_content_fragmentAt]
  omega

theorem cut_drop_cons (hLt : k < fragmentCount mtu message) :
    (cut mtu message).drop k = fragmentAt mtu message k :: (cut mtu message).drop (k + 1) := by
  have hIn : k < (cut mtu message).length := by simpa [cut] using hLt
  rw [List.drop_eq_getElem_cons hIn]
  simp [cut]

/-- The fragments from the `k`-th on complete whatever is as long as what is before them. -/
theorem assembles_cut_drop (hPos : 0 < mtu) {xs : List α} (hLength : xs.length = k * mtu)
    (hMore : k * mtu < message.length) :
    Assembles message.length xs ((cut mtu message).drop k) (xs ++ message.drop (k * mtu)) := by
  -- on the number of fragments that are to come
  induction hLeft : fragmentCount mtu message - k generalizing k xs with
  | zero =>
    have hLt := (lt_fragmentCount hPos).mpr hMore
    omega
  | succ left ih =>
    have hContinues := continues_fragmentAt hLength hMore
    have hContent : (fragmentAt mtu message k).content ++ message.drop ((k + 1) * mtu) =
        message.drop (k * mtu) := by
      rw [Nat.succ_mul, ← List.drop_drop]
      exact List.take_append_drop ..
    rw [cut_drop_cons ((lt_fragmentCount hPos).mpr hMore), ← hContent, ← List.append_assoc]
    have hSucc : (k + 1) * mtu = k * mtu + mtu := Nat.succ_mul k mtu
    by_cases hNext : (k + 1) * mtu < message.length
    · have hFull : (fragmentAt mtu message k).content.length = mtu := by
        rw [length_content_fragmentAt]
        omega
      refine .more hContinues (content_fragmentAt_ne_nil hPos hMore) (by omega) ?_
      refine ih ?_ hNext (by omega)
      rw [List.length_append, hLength, hFull, hSucc]
    · have hEnd : (cut mtu message).drop (k + 1) = [] := by
        refine List.drop_eq_nil_of_le ?_
        have hNotLt := mt (lt_fragmentCount hPos).mp hNext
        simpa [cut] using Nat.le_of_not_lt hNotLt
      rw [hEnd, List.drop_eq_nil_of_le (Nat.le_of_not_lt hNext), List.append_nil]
      refine .last hContinues ?_
      rw [hLength, length_content_fragmentAt]
      omega

/-- A message that is not empty is assembled from its fragments. -/
theorem assembles_cut (hPos : 0 < mtu) (hMessage : message ≠ []) :
    Assembles message.length [] (cut mtu message) message := by
  have hMore : 0 * mtu < message.length := by
    rw [Nat.zero_mul]
    exact List.length_pos_iff.mpr hMessage
  have hNone : ([] : List α).length = 0 * mtu := (Nat.zero_mul mtu).symm
  have hAll := assembles_cut_drop hPos hNone hMore
  simpa using hAll

theorem mem_cut {fragment : Fragment α} :
    fragment ∈ cut mtu message ↔
      ∃ k, k < fragmentCount mtu message ∧ fragmentAt mtu message k = fragment := by
  simp [cut]

/-- When the fragments are all from one sender, they are taken in the order in which it has
cut them. -/
theorem Assembles.eq_cut (hPos : 0 < mtu) {xs ys : List α} {fragments : List (Fragment α)}
    (hAssembles : Assembles message.length xs fragments ys) (hLength : xs.length = k * mtu)
    (hFrom : ∀ fragment ∈ fragments, fragment ∈ cut mtu message) :
    fragments = (cut mtu message).drop k := by
  -- what continues the first `k` fragments is the `k`-th
  have hNext : ∀ {k fragment} {xs : List α}, fragment ∈ cut mtu message →
      xs.length = k * mtu → fragment.Continues message.length xs →
        k < fragmentCount mtu message ∧ fragmentAt mtu message k = fragment := by
    intro k fragment xs hMem hLength hContinues
    obtain ⟨j, hLt, rfl⟩ := mem_cut.mp hMem
    have hOffset : j * mtu = k * mtu := hContinues.offset_eq.trans hLength
    rw [← Nat.eq_of_mul_eq_mul_right hPos hOffset]
    exact ⟨hLt, rfl⟩
  induction hAssembles generalizing k with
  | @last xs fragment hContinues hLast =>
    obtain ⟨hLt, rfl⟩ := hNext (hFrom fragment (List.mem_singleton_self _)) hLength hContinues
    have hSucc : (k + 1) * mtu = k * mtu + mtu := Nat.succ_mul k mtu
    rw [hLength, length_content_fragmentAt] at hLast
    have hEnd : ¬ k + 1 < fragmentCount mtu message := by
      rw [lt_fragmentCount hPos]
      omega
    have hNil : (cut mtu message).drop (k + 1) = [] := by
      refine List.drop_eq_nil_of_le ?_
      simpa [cut] using Nat.le_of_not_lt hEnd
    rw [cut_drop_cons hLt, hNil]
  | @more xs fragment fragments ys hContinues _ hMore _ ih =>
    obtain ⟨hLt, rfl⟩ := hNext (hFrom fragment List.mem_cons_self) hLength hContinues
    have hSucc : (k + 1) * mtu = k * mtu + mtu := Nat.succ_mul k mtu
    rw [hLength, length_content_fragmentAt] at hMore
    have hFull : (xs ++ (fragmentAt mtu message k).content).length = (k + 1) * mtu := by
      rw [List.length_append, hLength, length_content_fragmentAt]
      omega
    rw [cut_drop_cons hLt, ih hFull fun other hMem => hFrom other (List.mem_cons_of_mem _ hMem)]

/-- The first fragments can be put in front of whatever completes the message. -/
theorem assembles_take_cut {fragments : List (Fragment α)} {ys : List α} (hPos : 0 < mtu)
    (hMore : k * mtu < message.length)
    (hRest : Assembles message.length (message.take (k * mtu)) fragments ys) :
    Assembles message.length [] ((cut mtu message).take k ++ fragments) ys := by
  induction k generalizing fragments with
  | zero => simpa using hRest
  | succ k ih =>
    have hSucc : (k + 1) * mtu = k * mtu + mtu := Nat.succ_mul k mtu
    have hBefore : k * mtu < message.length := by omega
    have hLt := (lt_fragmentCount hPos).mpr hBefore
    have hIn : k < (cut mtu message).length := by simpa [cut] using hLt
    have hTake : (cut mtu message).take (k + 1) =
        (cut mtu message).take k ++ [fragmentAt mtu message k] := by
      rw [List.take_succ_eq_append_getElem hIn]
      simp [cut]
    rw [hTake, List.append_assoc]
    refine ih hBefore ?_
    have hLength : (message.take (k * mtu)).length = k * mtu := by
      rw [List.length_take]
      omega
    refine .more (continues_fragmentAt hLength hBefore) (content_fragmentAt_ne_nil hPos hBefore)
      ?_ ?_
    · rw [hLength, length_content_fragmentAt]
      omega
    · rwa [hSucc, List.take_add] at hRest

/-- The first fragments of one message and the others of another one, which is as long,
assemble to what neither of the two is. -/
theorem assembles_mixed {message' : List α} (hPos : 0 < mtu)
    (hLength : message'.length = message.length) (hMore : k * mtu < message.length) :
    Assembles message.length [] ((cut mtu message).take k ++ (cut mtu message').drop k)
      (message.take (k * mtu) ++ message'.drop (k * mtu)) := by
  refine assembles_take_cut hPos hMore ?_
  rw [← hLength] at hMore ⊢
  refine assembles_cut_drop hPos ?_ hMore
  rw [List.length_take]
  omega

end Cut

end Lib
end CubeSatComm
