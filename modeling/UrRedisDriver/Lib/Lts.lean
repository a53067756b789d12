import Mathlib.Algebra.Order.Ring.Int
import Mathlib.Data.List.Induction

/-!
# Labelled transition systems

A system is a partial function `step : S → A → Option S`: `none` means the action is
not enabled in that state. Everything here is about arbitrary states and actions.

Runs come in two shapes. `run` executes a list of actions, which is what a concrete
trace is checked with. `ReachableBy ok` is the set of states reached by steps each of
which met `ok` in the state it left, which is what an invariant is proved over: a
property of *every* run is the case `ok = ⊤`, and a property of the runs that stay out
of some situation is the case where `ok` excludes it.
-/

namespace Lts

variable {S A : Type*} {step : S → A → Option S}

/-- Run a list of actions, giving up at the first one that is not enabled. -/
def run (step : S → A → Option S) : S → List A → Option S
  | s, [] => some s
  | s, a :: as => (step s a).bind fun s' => run step s' as

@[simp] theorem run_nil (s : S) : run step s [] = some s := rfl

theorem run_cons (s : S) (a : A) (as : List A) :
    run step s (a :: as) = (step s a).bind fun s' => run step s' as := rfl

/-- A run can be cut anywhere. -/
theorem run_append (s : S) (as bs : List A) :
    run step s (as ++ bs) = (run step s as).bind fun s' => run step s' bs := by
  induction as generalizing s with
  | nil => rfl
  | cons a as ih =>
      rw [List.cons_append, run_cons, run_cons]
      cases step s a with
      | none => rfl
      | some s' => exact ih s'

theorem run_snoc {s u : S} {as : List A} {a : A} (h : run step s (as ++ [a]) = some u) :
    ∃ t, run step s as = some t ∧ step t a = some u := by
  rw [run_append] at h
  cases hr : run step s as with
  | none => rw [hr] at h; simp at h
  | some t =>
      rw [hr] at h
      refine ⟨t, rfl, ?_⟩
      simpa [run_cons] using h

/--
**Induction along a run, from its end.** `P` relates the actions taken so far to the
state they lead to.
-/
theorem run_induction {s : S} {P : List A → S → Prop} (h0 : P [] s)
    (hstep : ∀ as t a u, run step s as = some t → P as t → step t a = some u → P (as ++ [a]) u)
    {as : List A} {u : S} (h : run step s as = some u) : P as u := by
  induction as using List.reverseRecOn generalizing u with
  | nil => rw [run_nil] at h; injection h with h; subst h; exact h0
  | append_singleton as a ih =>
      obtain ⟨t, hr, hs⟩ := run_snoc h
      exact hstep as t a u hr (ih hr) hs

/-- Some step of the run was taken in a state and with an action that meet `P`. -/
def Took (step : S → A → Option S) (s : S) (as : List A) (P : S → A → Prop) : Prop :=
  ∃ pre a post u, as = pre ++ a :: post ∧ run step s pre = some u ∧ P u a

theorem not_took_nil {s : S} {P : S → A → Prop} : ¬ Took step s [] P := by
  rintro ⟨pre, a, post, u, h, -⟩
  cases pre <;> cases h

/-- The last step of a run is the one that was taken where the rest of it led. -/
theorem took_snoc {s t : S} {as : List A} {a : A} {P : S → A → Prop}
    (h : run step s as = some t) : Took step s (as ++ [a]) P ↔ Took step s as P ∨ P t a := by
  constructor
  · rintro ⟨pre, b, post, u, he, hr, hP⟩
    -- the step was the last one, or one before it
    rcases List.eq_nil_or_concat post with rfl | ⟨post, c, rfl⟩
    · obtain ⟨rfl, hb⟩ := List.append_inj' he rfl
      cases hb
      rw [hr] at h
      cases h
      exact .inr hP
    · rw [List.concat_eq_append, ← List.cons_append, ← List.append_assoc] at he
      obtain ⟨rfl, -⟩ := List.append_inj' he rfl
      exact .inl ⟨pre, b, post, u, rfl, hr, hP⟩
  · rintro (⟨pre, b, post, u, rfl, hr, hP⟩ | hP)
    · exact ⟨pre, b, post ++ [a], u, by simp, hr, hP⟩
    · exact ⟨as, a, [], t, rfl, h, hP⟩

/-- The first step of a run is the one that was taken where it started. -/
theorem took_cons {s : S} {a : A} {as : List A} {P : S → A → Prop} :
    Took step s (a :: as) P ↔ P s a ∨ ∃ t, step s a = some t ∧ Took step t as P := by
  constructor
  · rintro ⟨pre, b, post, u, he, hr, hP⟩
    cases pre with
    | nil =>
        cases he
        cases hr
        exact .inl hP
    | cons c pre =>
        cases he
        obtain ⟨t, ht, hr'⟩ := Option.bind_eq_some_iff.mp hr
        exact .inr ⟨t, ht, pre, b, post, u, rfl, hr', hP⟩
  · rintro (hP | ⟨t, ht, pre, b, post, u, rfl, hr, hP⟩)
    · exact ⟨[], a, as, s, rfl, rfl, hP⟩
    · exact ⟨a :: pre, b, post, u, rfl, Option.bind_eq_some_iff.mpr ⟨t, ht, hr⟩, hP⟩

/--
**A measure that runs out.** If every step of a certain kind keeps an invariant and lowers a
measure, but where something is done, then in a run of such steps that is longer than the
measure it is done.
-/
theorem took_of_measure {s t : S} {as : List A} {m : S → Nat} {kind : A → Prop}
    {I finished : S → Prop}
    (hstep : ∀ u a v, I u → step u a = some v → kind a → ¬ finished u → I v ∧ m v < m u)
    (hI : I s) (h : run step s as = some t) (hkind : ∀ a ∈ as, kind a)
    (hlen : m s < as.length) : Took step s as fun u _ => finished u := by
  induction as generalizing s with
  | nil => exact absurd hlen (Nat.not_lt_zero _)
  | cons a as ih =>
      obtain ⟨v, hv, hr⟩ := Option.bind_eq_some_iff.mp h
      rw [took_cons]
      -- a run that goes on without finishing would lower the measure at each step
      by_cases hdone : finished s
      · exact .inl hdone
      · obtain ⟨hIv, hlower⟩ := hstep s a v hI hv (hkind a List.mem_cons_self) hdone
        rw [List.length_cons] at hlen
        exact .inr ⟨v, hv,
          ih hIv hr (fun b hb => hkind b (List.mem_cons_of_mem a hb)) (by omega)⟩

/-- The states reached from `init` by steps that each meet `ok` in the state they leave. -/
inductive ReachableBy (step : S → A → Option S) (ok : S → A → Prop) (init : S) : S → Prop
  | init : ReachableBy step ok init init
  | tail {s a s'} : ReachableBy step ok init s → ok s a → step s a = some s' →
      ReachableBy step ok init s'

/-- The states reached from `init` by any steps at all. -/
abbrev Reachable (step : S → A → Option S) (init : S) : S → Prop :=
  ReachableBy step (fun _ _ => True) init

/-- Run a list of actions, giving up at the first one that is not enabled or not allowed. -/
def runBy (step : S → A → Option S) (ok : S → A → Prop) [∀ s a, Decidable (ok s a)] :
    S → List A → Option S
  | s, [] => some s
  | s, a :: as => if ok s a then (step s a).bind fun s' => runBy step ok s' as else none

theorem reachableBy_of_runBy {ok : S → A → Prop} [∀ s a, Decidable (ok s a)] {init s t : S}
    {as : List A} (h0 : ReachableBy step ok init s) (h : runBy step ok s as = some t) :
    ReachableBy step ok init t := by
  induction as generalizing s with
  | nil => cases h; exact h0
  | cons a as ih =>
      rw [runBy] at h
      -- a run by permitted steps stops at the first that is not
      split at h
      · rename_i ha
        obtain ⟨s', hs, hr⟩ := Option.bind_eq_some_iff.mp h
        exact ih (.tail h0 ha hs) hr
      · cases h

/-- A checked run of allowed steps is a state they reach. -/
theorem exists_of_runBy {ok : S → A → Prop} [∀ s a, Decidable (ok s a)] {init : S} {as : List A}
    {p : S → Bool} (h : (runBy step ok init as).any p = true) :
    ∃ s, ReachableBy step ok init s ∧ p s = true := by
  obtain ⟨s, hs, hp⟩ := (Option.any_eq_true _ _).mp h
  exact ⟨s, reachableBy_of_runBy .init hs, hp⟩

/-- Asking less of every step reaches at least as much. -/
theorem ReachableBy.mono {ok ok' : S → A → Prop} {init s : S}
    (hok : ∀ s a, ok s a → ok' s a) (h : ReachableBy step ok init s) :
    ReachableBy step ok' init s := by
  induction h with
  | init => exact .init
  | tail _ ha hs ih => exact .tail ih (hok _ _ ha) hs

theorem ReachableBy.reachable {ok : S → A → Prop} {init s : S}
    (h : ReachableBy step ok init s) : Reachable step init s :=
  h.mono fun _ _ _ => trivial

theorem reachable_of_run {init s t : S} {as : List A} (h0 : Reachable step init s)
    (h : run step s as = some t) : Reachable step init t := by
  refine run_induction (P := fun _ u => Reachable step init u) h0 ?_ h
  intro _ _ _ _ _ ih hs
  exact .tail ih trivial hs

/-- A checked run is a reachable state. -/
theorem exists_of_run {init : S} {as : List A} {p : S → Bool}
    (h : (run step init as).any p = true) : ∃ s, Reachable step init s ∧ p s = true := by
  obtain ⟨s, hs, hp⟩ := (Option.any_eq_true _ _).mp h
  exact ⟨s, reachable_of_run .init hs, hp⟩

/--
**The invariant rule.** What holds at the start and survives each step that meets `ok`
holds in every state such steps reach. The step premise may use that the state it
leaves is itself reached.
-/
theorem ReachableBy.invariant {ok : S → A → Prop} {init : S} {I : S → Prop} (h0 : I init)
    (hstep : ∀ s a s', ReachableBy step ok init s → I s → ok s a → step s a = some s' → I s')
    {s : S} (h : ReachableBy step ok init s) : I s := by
  induction h with
  | init => exact h0
  | tail hr ha hs ih => exact hstep _ _ _ hr ih ha hs

/-- What every step keeps, a run keeps. -/
theorem run_keeps {init s t : S} {as : List A} {I : S → Prop}
    (hstep : ∀ u a v, Reachable step init u → I u → step u a = some v → I v)
    (h0 : Reachable step init s) (hI : I s) (h : run step s as = some t) : I t := by
  induction as generalizing s with
  | nil => cases h; exact hI
  | cons a as ih =>
      obtain ⟨s', hs, hr⟩ := Option.bind_eq_some_iff.mp h
      exact ih (.tail h0 trivial hs) (hstep s a s' h0 hI hs) hr

/-- **Costs along a run.** A measure that no step raises by more than its cost ends no higher
than it started plus the cost of all the steps. -/
theorem run_le {init s t : S} {as : List A} {m : S → Nat} {c : A → Nat}
    (hstep : ∀ u a v, Reachable step init u → step u a = some v → m v ≤ m u + c a)
    (h0 : Reachable step init s) (h : run step s as = some t) :
    m t ≤ m s + (as.map c).sum := by
  induction as generalizing s with
  | nil => cases h; simp
  | cons a as ih =>
      obtain ⟨s', hs, hr⟩ := Option.bind_eq_some_iff.mp h
      have h1 := hstep s a s' h0 hs
      have h2 := ih (.tail h0 trivial hs) hr
      rw [List.map_cons, List.sum_cons]
      omega

/-! ## What can still be reached -/

section Leads

variable {kind : A → Prop}

/-- Some actions of a kind lead from one state to the other. -/
def Leads (step : S → A → Option S) (kind : A → Prop) (s t : S) : Prop :=
  ∃ as, (∀ a ∈ as, kind a) ∧ run step s as = some t

theorem Leads.refl (s : S) : Leads step kind s s := ⟨[], nofun, rfl⟩

theorem Leads.single {s t : S} {a : A} (ha : kind a) (h : step s a = some t) :
    Leads step kind s t :=
  ⟨[a], by simpa using ha, by rw [run_cons, h]; rfl⟩

theorem Leads.trans {s t u : S} (hst : Leads step kind s t) (htu : Leads step kind t u) :
    Leads step kind s u := by
  obtain ⟨as, has, hr⟩ := hst
  obtain ⟨bs, hbs, hr'⟩ := htu
  refine ⟨as ++ bs, ?_, by rw [run_append, hr]; exact hr'⟩
  intro a ha
  exact (List.mem_append.mp ha).elim (has a) (hbs a)

/-- Allowing more kinds of actions leads at least as far. -/
theorem Leads.mono {kind' : A → Prop} {s t : S} (h : Leads step kind s t)
    (hk : ∀ a, kind a → kind' a) : Leads step kind' s t := by
  obtain ⟨as, has, hr⟩ := h
  exact ⟨as, fun a ha => hk a (has a ha), hr⟩

/-- What is reached stays reached where more actions lead. -/
theorem Leads.reachable {init s t : S} (h : Leads step kind s t) (hs : Reachable step init s) :
    Reachable step init t := by
  obtain ⟨as, -, hr⟩ := h
  exact reachable_of_run hs hr

/--
**A rank that can always be lowered.** If from every state that keeps an invariant some actions
lead either to where it is wanted or to a state of lower rank that keeps it too, then they lead
to where it is wanted from all of them.
-/
theorem Leads.of_rank {I P : S → Prop} {m : S → Nat}
    (h : ∀ s, I s → ¬ P s → ∃ t, Leads step kind s t ∧ I t ∧ m t < m s) {s : S} (hI : I s) :
    ∃ t, Leads step kind s t ∧ I t ∧ P t := by
  induction hm : m s using Nat.strong_induction_on generalizing s with
  | _ n ih =>
      by_cases hP : P s
      · exact ⟨s, .refl s, hI, hP⟩
      · obtain ⟨t, hst, hIt, hlt⟩ := h s hI hP
        obtain ⟨u, htu, hu⟩ := ih (m t) (hm ▸ hlt) hIt rfl
        exact ⟨u, hst.trans htu, hu⟩

end Leads

/-! ## Records kept beside a run -/

section Recorded

variable {H : Type*}

/-- The same system with a record kept beside the state. The record follows the steps and
decides none of them. -/
def recorded (step : S → A → Option S) (note : S → A → H → H) (x : S × H) (a : A) :
    Option (S × H) :=
  (step x.1 a).map fun s => (s, note x.1 a x.2)

theorem recorded_eq_some {note : S → A → H → H} {x x' : S × H} {a : A} :
    recorded step note x a = some x' ↔ step x.1 a = some x'.1 ∧ x'.2 = note x.1 a x.2 := by
  unfold recorded
  rw [Option.map_eq_some_iff]
  constructor
  · rintro ⟨s, hs, rfl⟩
    exact ⟨hs, rfl⟩
  · rintro ⟨hs, hn⟩
    exact ⟨x'.1, hs, by rw [← hn]⟩

/-- Forgetting the record, a run of the recorded system is one of the system. -/
theorem ReachableBy.forget {note : S → A → H → H} {ok : S × H → A → Prop} {ok' : S → A → Prop}
    {x₀ x : S × H} (h : ReachableBy (recorded step note) ok x₀ x)
    (hok : ∀ x a, ok x a → ok' x.1 a) : ReachableBy step ok' x₀.1 x.1 := by
  induction h with
  | init => exact .init
  | tail _ ha hs ih => exact .tail ih (hok _ _ ha) (recorded_eq_some.mp hs).1

end Recorded

/-! ## Refinement -/

section Refinement

variable {T B : Type*} {spec : T → B → Option T}

/--
A step of the concrete system is matched by the abstract one when it either changes
nothing the abstraction sees or is some single abstract step that is allowed.
-/
def Matched (spec : T → B → Option T) (ok : T → B → Prop) (t t' : T) : Prop :=
  t' = t ∨ ∃ b, ok t b ∧ spec t b = some t'

/--
**Forward simulation.** If every allowed concrete step from related states is matched, every
state allowed steps reach is related to one allowed abstract steps reach.
-/
theorem ReachableBy.simulate {ok : S → A → Prop} {ok' : T → B → Prop} {init : S} {tinit : T}
    {R : S → T → Prop} (h0 : R init tinit)
    (hstep : ∀ s a s' t, ReachableBy step ok init s → R s t → ok s a → step s a = some s' →
      ∃ t', Matched spec ok' t t' ∧ R s' t')
    {s : S} (h : ReachableBy step ok init s) :
    ∃ t, ReachableBy spec ok' tinit t ∧ R s t := by
  induction h with
  | init => exact ⟨tinit, .init, h0⟩
  | tail hr ha hs ih =>
      obtain ⟨t, ht, hR⟩ := ih
      obtain ⟨t', hm, hR'⟩ := hstep _ _ _ _ hr hR ha hs
      rcases hm with rfl | ⟨b, hok, hb⟩
      · exact ⟨_, ht, hR'⟩
      · exact ⟨t', .tail ht hok hb, hR'⟩

end Refinement

end Lts
