import Mathlib.Data.List.Forall2
import Mathlib.Tactic.Common

/-!
# Computations that can fail

What a computation that was put together from smaller ones and succeeded says about them.
-/

namespace Except

variable {ε ε' α β : Type*}

theorem bind_eq_ok {x : Except ε α} {f : α → Except ε β} {b : β} :
    x.bind f = .ok b ↔ ∃ a, x = .ok a ∧ f a = .ok b := by
  cases x with
  | error e =>
      constructor
      · intro h; cases h
      · intro h
        obtain ⟨a, ha, -⟩ := h
        cases ha
  | ok a =>
      constructor
      · intro h; exact ⟨a, rfl, h⟩
      · intro h
        obtain ⟨a', ha, hb⟩ := h
        cases ha
        exact hb

theorem bind_eq_error {x : Except ε α} {f : α → Except ε β} {e : ε} :
    x.bind f = .error e ↔ x = .error e ∨ ∃ a, x = .ok a ∧ f a = .error e := by
  cases x with
  | error e' =>
      constructor
      · intro h; cases h; exact .inl rfl
      · intro h
        rcases h with h | ⟨a, ha, -⟩
        · cases h; rfl
        · cases ha
  | ok a =>
      constructor
      · intro h; exact .inr ⟨a, rfl, h⟩
      · intro h
        rcases h with h | ⟨a', ha, hb⟩
        · cases h
        · cases ha
          exact hb

theorem map_eq_error {x : Except ε α} {f : α → β} {e : ε} :
    x.map f = .error e ↔ x = .error e := by
  cases x with
  | error e' =>
      constructor
      · intro h; cases h; rfl
      · intro h; cases h; rfl
  | ok a =>
      constructor
      · intro h; cases h
      · intro h; cases h

/-- A computation goes on where its first part succeeds. -/
theorem exists_bind {x : Except ε α} {f : α → Except ε β} {a : α} (hx : x = .ok a)
    (h : ∃ b, f a = .ok b) : ∃ b, x.bind f = .ok b := by
  subst hx
  exact h

theorem mapError_eq_ok {x : Except ε α} {f : ε → ε'} {a : α} :
    x.mapError f = .ok a ↔ x = .ok a := by
  cases x with
  | error e =>
      constructor
      · intro h; cases h
      · intro h; cases h
  | ok b =>
      constructor
      · intro h; cases h; rfl
      · intro h; cases h; rfl

theorem mapError_eq_error {x : Except ε α} {f : ε → ε'} {e : ε'} :
    x.mapError f = .error e ↔ ∃ e', x = .error e' ∧ f e' = e := by
  cases x with
  | error e' =>
      constructor
      · intro h; exact ⟨e', rfl, Except.error.inj h⟩
      · intro h
        obtain ⟨d, hd, rfl⟩ := h
        cases hd
        rfl
  | ok a =>
      constructor
      · intro h; cases h
      · intro h
        obtain ⟨d, hd, -⟩ := h
        cases hd

/-- `Option::ok_or`. -/
def ofOption (o : Option α) (e : ε) : Except ε α := o.elim (.error e) .ok

theorem ofOption_eq_ok {o : Option α} {e : ε} {a : α} :
    ofOption o e = .ok a ↔ o = some a := by
  cases o with
  | none =>
      constructor
      · intro h; cases h
      · intro h; cases h
  | some b =>
      constructor
      · intro h; cases h; rfl
      · intro h; cases h; rfl

theorem ofOption_eq_error {o : Option α} {e e' : ε} :
    ofOption o e = .error e' ↔ o = none ∧ e = e' := by
  cases o with
  | none =>
      constructor
      · intro h; exact ⟨rfl, Except.error.inj h⟩
      · intro h; rw [← h.2]; rfl
  | some b =>
      constructor
      · intro h; cases h
      · intro h; cases h.1

/-- The check that something holds. -/
def require (p : Prop) [Decidable p] (e : ε) : Except ε Unit := if p then .ok () else .error e

theorem require_eq_ok {p : Prop} [Decidable p] {e : ε} {u : Unit} :
    require p e = .ok u ↔ p := by
  unfold require
  by_cases h : p
  · rw [if_pos h]
    exact iff_of_true rfl h
  · rw [if_neg h]
    refine iff_of_false ?_ h
    intro hc
    cases hc

theorem require_eq_error {p : Prop} [Decidable p] {e e' : ε} :
    require p e = .error e' ↔ ¬ p ∧ e = e' := by
  unfold require
  by_cases h : p
  · rw [if_pos h]
    refine iff_of_false ?_ ?_
    · intro hc; cases hc
    · intro hc; exact hc.1 h
  · rw [if_neg h]
    constructor
    · intro hc; exact ⟨h, Except.error.inj hc⟩
    · intro hc; rw [hc.2]

end Except

/-! ## Element by element -/

variable {α β : Type*} {d : α → Option β} {g : List α → Option (List β)} {xs : List α}

/-- Take every element of a list, or fail with the first that fails. -/
structure TakesAll (d : α → Option β) (g : List α → Option (List β)) : Prop where
  nil : g [] = some []
  cons : ∀ x xs, g (x :: xs) = (d x).bind fun y => (g xs).map fun ys => y :: ys

namespace TakesAll

theorem eq_some (h : TakesAll d g) {ys : List β} :
    g xs = some ys ↔ List.Forall₂ (fun x y => d x = some y) xs ys := by
  -- along the list: a head that is taken, and a tail that is
  induction xs generalizing ys with
  | nil =>
      rw [List.forall₂_nil_left_iff, h.nil, Option.some_inj]
      exact eq_comm
  | cons x xs ih =>
      rw [List.forall₂_cons_left_iff, h.cons]
      constructor
      · intro hbind
        obtain ⟨y, hy, hmap⟩ := Option.bind_eq_some_iff.mp hbind
        obtain ⟨ys', hys, rfl⟩ := Option.map_eq_some_iff.mp hmap
        exact ⟨y, ys', hy, ih.mp hys, rfl⟩
      · rintro ⟨y, ys', hy, hys, rfl⟩
        refine Option.bind_eq_some_iff.mpr ⟨y, hy, ?_⟩
        exact Option.map_eq_some_iff.mpr ⟨ys', ih.mpr hys, rfl⟩

theorem eq_none (h : TakesAll d g) : g xs = none ↔ ∃ x ∈ xs, d x = none := by
  induction xs with
  | nil =>
      rw [h.nil]
      simp
  | cons x xs ih =>
      rw [h.cons, List.exists_mem_cons_iff, ← ih]
      cases d x with
      | none => simp
      | some y => simp

end TakesAll
