import Mathlib.Algebra.Group.Basic
import Mathlib.Data.List.Chain

/-!
# Frames that hang on frames

A table says of a frame which frame it hangs on and by what motion. The motion from a frame
to one below it is composed on the way up. When every frame has a place and the table holds
the motions between the places of neighbours, everything in between cancels.
-/

/-! ## A table written row by row -/

namespace Rows

variable {α κ : Type*} [DecidableEq κ] {key : α → κ} {l : List α} {k : κ} {x : α}

/-- What is found under `k` once the rows have been written in order: a later one replaces it. -/
def latest (key : α → κ) (l : List α) (k : κ) : Option α := l.reverse.find? (key · = k)

theorem latest_mem (h : latest key l k = some x) : x ∈ l ∧ key x = k := by
  have hfound : l.reverse.find? (key · = k) = some x := h
  refine ⟨List.mem_reverse.mp (List.mem_of_find?_eq_some hfound), ?_⟩
  simpa using List.find?_some hfound

/-- A row no other is written over is found. -/
theorem latest_of_mem (hx : x ∈ l) (h : ∀ y ∈ l, key y = key x → y = x) :
    latest key l (key x) = some x := by
  have hsome : (latest key l (key x)).isSome = true :=
    List.find?_isSome.mpr ⟨x, List.mem_reverse.mpr hx, decide_eq_true rfl⟩
  obtain ⟨y, hy⟩ := Option.isSome_iff_exists.mp hsome
  obtain ⟨hmem, hkey⟩ := latest_mem hy
  rw [hy, h y hmem hkey]

end Rows

/-- The frame a frame hangs on, and the motion from there. -/
abbrev FrameTree (N G : Type*) := N → Option (N × G)

namespace FrameTree

variable {M N G : Type*} [Group G] {t : FrameTree N G}

/-- `g` leads from `anc` down to a frame. -/
inductive Leads (t : FrameTree N G) (anc : N) : N → G → Prop
  | here : Leads t anc anc 1
  | hang {c p : N} {m g : G} : c ≠ anc → t c = some (p, m) → Leads t anc p g →
      Leads t anc c (g * m)

theorem Leads.unique {anc c : N} {g g' : G} (h : Leads t anc c g) (h' : Leads t anc c g') :
    g = g' := by
  induction h generalizing g' with
  | here =>
      cases h' with
      | here => rfl
      -- a way that ends at the ancestor does not go on above it
      | hang hne => exact absurd rfl hne
  | hang hne ht _ ih =>
      cases h' with
      | here => exact absurd rfl hne
      | hang _ ht' h' =>
          rw [ht] at ht'
          cases ht'
          rw [ih h']

/-- A table that has all of another's frames leads where that one does. -/
theorem Leads.mono {t' : FrameTree N G} (hsub : ∀ {c x}, t c = some x → t' c = some x)
    {anc c : N} {g : G} (h : Leads t anc c g) : Leads t' anc c g := by
  induction h with
  | here => exact .here
  | hang hne ht _ ih => exact .hang hne (hsub ht) ih

/-- The table holds the motion from the place of `p` to the place of `c`. -/
def Placed (t : FrameTree N G) (name : M → N) (place : M → G) (c p : M) : Prop :=
  t (name c) = some (name p, (place p)⁻¹ * place c)

/-- Along a path of placed frames, the motion between the places of its ends. -/
theorem Leads.along {name : M → N} {place : M → G} (hname : Function.Injective name)
    {anc : M} : ∀ {c : M} {path : List M}, (c :: path).IsChain (Placed t name place) →
      (c :: path).Nodup → (c :: path).getLast? = some anc →
      Leads t (name anc) (name c) ((place anc)⁻¹ * place c) := by
  intro c path
  induction path generalizing c with
  | nil =>
      intro _ _ hlast
      obtain rfl : c = anc := Option.some.inj hlast
      rw [inv_mul_cancel]
      exact .here
  | cons p path ih =>
      intro hchain hnodup hlast
      obtain ⟨hplaced, hchain⟩ := List.isChain_cons_cons.mp hchain
      obtain ⟨hnew, hnodup⟩ := List.nodup_cons.mp hnodup
      rw [List.getLast?_cons_cons] at hlast
      -- the ancestor is further up, and no place is met twice
      have hne : name c ≠ name anc := by
        intro h
        exact hnew (hname h ▸ List.mem_of_getLast? hlast)
      have hup := Leads.hang hne hplaced (ih hchain hnodup hlast)
      rwa [mul_assoc, mul_inv_cancel_left] at hup

end FrameTree
