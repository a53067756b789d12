import Mathlib.Algebra.Order.Group.Defs
import Mathlib.Data.List.MinMax

/-!
# Walks to the nearest

Every step of a walk has its candidates, and the walk takes the one nearest to where it is:
the first of them, if there are several. How near one is to another is any measure with
values in a linear order. Nothing makes such a walk stay with what moves on steadily: another
candidate may come nearer on the way. Where none comes within twice a step of it, none does.
-/

namespace NearestWalk

variable {α K : Type*} [DecidableEq α] [LinearOrder K] (d : α → α → K) (candidates : Nat → List α)

/-- The candidate taken from `q`. -/
def nearest (l : List α) (q : α) : Option α := l.argmin fun s => d s q

/-- No candidate is nearer to `q`, and none as near comes before it. -/
structure IsNearest (l : List α) (q s : α) : Prop where
  mem : s ∈ l
  le : ∀ a ∈ l, d s q ≤ d a q
  first : ∀ a ∈ l, d a q ≤ d s q → l.idxOf s ≤ l.idxOf a

/-- The places of `n` steps of the walk that is at `q`, from the `k`-th on. -/
def walk : (n k : Nat) → α → Option (List α)
  | 0, _, _ => some []
  | n + 1, k, q => (nearest d (candidates k) q).bind fun s => (walk n (k + 1) s).map (s :: ·)

/-- A path whose first `n` steps, from the `k`-th of the walk on, are to the nearest candidate. -/
def StepsNearest (n k : Nat) (c : Nat → α) : Prop :=
  ∀ j < n, IsNearest d (candidates (k + j)) (c j) (c (j + 1))

variable {d candidates} {l places : List α} {q r s : α} {n k : Nat} {c : Nat → α}

theorem nearest_eq_some : nearest d l q = some s ↔ IsNearest d l q s := by
  unfold nearest
  rw [List.argmin_eq_some_iff]
  constructor
  · intro h
    exact ⟨h.1, h.2.1, h.2.2⟩
  · intro h
    exact ⟨h.mem, h.le, h.first⟩

theorem walk_succ : walk d candidates (n + 1) k q = some places
    ↔ ∃ s rest, IsNearest d (candidates k) q s ∧ walk d candidates n (k + 1) s = some rest
      ∧ places = s :: rest := by
  constructor
  · intro h
    obtain ⟨s, hs, h'⟩ := Option.bind_eq_some_iff.mp h
    obtain ⟨rest, hrest, he⟩ := Option.map_eq_some_iff.mp h'
    exact ⟨s, rest, nearest_eq_some.mp hs, hrest, he.symm⟩
  · intro h
    obtain ⟨s, rest, hs, hrest, rfl⟩ := h
    exact Option.bind_eq_some_iff.mpr
      ⟨s, nearest_eq_some.mpr hs, Option.map_eq_some_iff.mpr ⟨rest, hrest, rfl⟩⟩

theorem StepsNearest.tail (h : StepsNearest d candidates (n + 1) k c) :
    StepsNearest d candidates n (k + 1) fun j => c (j + 1) := by
  intro j hj
  have hstep := h (j + 1) (Nat.succ_lt_succ hj)
  rwa [show k + (j + 1) = k + 1 + j by omega] at hstep

/-- Such a path is walked. -/
theorem StepsNearest.walk (h : StepsNearest d candidates n k c) :
    walk d candidates n k (c 0) = some ((List.range n).map fun j => c (j + 1)) := by
  induction n generalizing k c with
  | zero => rfl
  | succ n ih =>
      have hfirst : IsNearest d (candidates k) (c 0) (c 1) := h 0 (Nat.succ_pos n)
      refine walk_succ.mpr ⟨c 1, _, hfirst, ih h.tail, ?_⟩
      rw [List.range_succ_eq_map, List.map_cons, List.map_map]
      rfl

/-- A walk along such a path ends where the path does. -/
theorem StepsNearest.last (h : StepsNearest d candidates (n + 1) k c) :
    (NearestWalk.walk d candidates (n + 1) k (c 0)).bind List.getLast? = some (c (n + 1)) := by
  rw [h.walk, Option.bind_some, List.range_succ, List.map_append, List.map_singleton,
    List.getLast?_concat]

/-! ## Keeping clear of the others -/

section Clear

variable [AddCommGroup K] [IsOrderedAddMonoid K]

/-- A path through the candidates of its first `n` steps, from the `k`-th of the walk on, that
no other candidate comes within twice a step of. -/
def KeepsClear (d : α → α → K) (candidates : Nat → List α) (n k : Nat) (c : Nat → α) : Prop :=
  ∀ j < n, c (j + 1) ∈ candidates (k + j)
    ∧ ∀ a ∈ candidates (k + j), a ≠ c (j + 1) →
      d (c (j + 1)) (c j) + d (c (j + 1)) (c j) < d a (c (j + 1))

/-- Such a path is walked: from anywhere else the way back to it is longer than its step. -/
theorem KeepsClear.stepsNearest (h : KeepsClear d candidates n k c)
    (hsymm : ∀ x y, d x y = d y x) (htri : ∀ x y z, d x z ≤ d x y + d y z) :
    StepsNearest d candidates n k c := by
  intro j hj
  obtain ⟨hmem, hclear⟩ := h j hj
  have hlt : ∀ a ∈ candidates (k + j), a ≠ c (j + 1) → d (c (j + 1)) (c j) < d a (c j) := by
    intro a ha hne
    -- by the long way round: a rival nearer than the walk would be too close to where it goes
    have hround : d a (c (j + 1)) ≤ d a (c j) + d (c (j + 1)) (c j) := by
      rw [hsymm (c (j + 1))]
      exact htri ..
    exact lt_of_add_lt_add_right ((hclear a ha hne).trans_le hround)
  refine ⟨hmem, ?_, ?_⟩
  · intro a ha
    by_cases he : a = c (j + 1)
    · rw [he]
    · exact (hlt a ha he).le
  · intro a ha hle
    by_cases he : a = c (j + 1)
    · rw [he]
    · exact absurd hle (not_le.mpr (hlt a ha he))

end Clear

end NearestWalk
