import Mathlib.Order.Bounds.Image
import Mathlib.Algebra.Field.Defs
import Mathlib.Algebra.Order.Ring.Defs
import Mathlib.Order.WithBot

/-!
# Least values

A loop that keeps the smallest of what it has met ends with the least of it, and the least
of a set of positive multiples is the multiple of the least.
-/

namespace IsLeast

/-- A loop keeps the least of what it has seen. -/
theorem foldl {α β K : Type*} [LinearOrder K] {f : β → α → β} {value : β → K} {S : α → Set K}
    (step : ∀ acc a T, IsLeast T (value acc) → IsLeast (T ∪ S a) (value (f acc a)))
    (as : List α) (acc : β) {T : Set K} (h : IsLeast T (value acc)) :
    IsLeast (T ∪ {x | ∃ a ∈ as, x ∈ S a}) (value (as.foldl f acc)) := by
  induction as generalizing acc T with
  | nil =>
      have hnone : {x | ∃ a ∈ ([] : List α), x ∈ S a} = ∅ := by simp
      rw [hnone, Set.union_empty]
      exact h
  | cons a as ih =>
      -- what the first element adds is in the set before the rest is folded
      have hsplit : {x | ∃ b ∈ a :: as, x ∈ S b} = S a ∪ {x | ∃ b ∈ as, x ∈ S b} := by
        ext x
        simp
      rw [hsplit, ← Set.union_assoc]
      exact ih (f acc a) (step acc a T h)

/-- What is least beside `⊤` is least without it. -/
theorem of_top {K : Type*} [LinearOrder K] {S : Set K} {v : K}
    (h : IsLeast ({⊤} ∪ (fun x : K => (x : WithTop K)) '' S) (v : WithTop K)) : IsLeast S v := by
  constructor
  · rcases h.1 with htop | ⟨x, hx, heq⟩
    · exact absurd htop WithTop.coe_ne_top
    · rwa [← WithTop.coe_inj.mp heq]
  · intro x hx
    exact WithTop.coe_le_coe.mp (h.2 (.inr ⟨x, hx, rfl⟩))

/-- The least of the multiples. -/
theorem const_mul {K : Type*} [Field K] [LinearOrder K] [IsStrictOrderedRing K] {S : Set K}
    {v s : K} (hs : 0 < s) (h : IsLeast S v) : IsLeast ((fun x => s * x) '' S) (s * v) :=
  (monotone_mul_left_of_nonneg hs.le).map_isLeast h

/-- The least value is positive exactly if all of them are. -/
theorem pos_iff {K : Type*} [Zero K] [LinearOrder K] {S : Set K} {v : K} (h : IsLeast S v) :
    0 < v ↔ ∀ x ∈ S, 0 < x := by
  constructor
  · intro hv x hx
    exact hv.trans_le (h.2 hx)
  · intro hS
    exact hS v h.1

end IsLeast
