import Mathlib.Data.List.Nodup
import Mathlib.Data.Set.Operations
import UrRedisDriver.Lib.Lts

/-!
# Processes over one map

A process has a state of its own and sets entries of a map that it shares with others. It owns a
set of keys if what it does depends on no other entry of the map and it sets no other. Processes
that own disjoint sets do not disturb each other: whatever the interleaving, each of them goes
through a run it could have by itself.
-/

namespace SharedMap

variable {K V S A : Type*} [DecidableEq K]

/-! ## Setting entries -/

/-- The entries are set one after the other. -/
def setAll (m : K → V) (es : List (K × V)) : K → V :=
  es.foldl (fun m e => Function.update m e.1 e.2) m

theorem setAll_cons (m : K → V) (e : K × V) (es : List (K × V)) :
    setAll m (e :: es) = setAll (Function.update m e.1 e.2) es := rfl

theorem setAll_of_not_mem {es : List (K × V)} {k : K} (m : K → V) (h : k ∉ es.map Prod.fst) :
    setAll m es k = m k := by
  induction es generalizing m with
  | nil => rfl
  | cons e es ih =>
      rw [List.map_cons, List.mem_cons, not_or] at h
      rw [setAll_cons, ih _ h.2, Function.update_of_ne h.1]

/-- An entry is there afterwards if no other value is set under its key. -/
theorem setAll_of_mem {es : List (K × V)} (m : K → V) {e : K × V} (he : e ∈ es)
    (hone : ∀ e' ∈ es, e'.1 = e.1 → e'.2 = e.2) : setAll m es e.1 = e.2 := by
  induction es generalizing m e with
  | nil => cases he
  | cons a es ih =>
      rw [setAll_cons]
      -- a later entry of the same key has the same value
      by_cases hk : e.1 ∈ es.map Prod.fst
      · obtain ⟨e', he', hkey⟩ := List.mem_map.mp hk
        have hvalue := hone e' (List.mem_cons_of_mem a he') hkey
        rw [← hkey, ← hvalue]
        refine ih _ he' fun e'' he'' hkey' => ?_
        rw [hvalue]
        exact hone e'' (List.mem_cons_of_mem a he'') (hkey'.trans hkey)
      · rcases List.mem_cons.mp he with rfl | he
        · rw [setAll_of_not_mem _ hk, Function.update_self]
        · exact absurd (List.mem_map_of_mem he) hk

/-- Under distinct keys, every entry is there afterwards. -/
theorem setAll_of_nodup {es : List (K × V)} (m : K → V) (hn : (es.map Prod.fst).Nodup)
    {e : K × V} (he : e ∈ es) : setAll m es e.1 = e.2 :=
  setAll_of_mem m he fun _ he' hkey => congrArg Prod.snd (List.inj_on_of_nodup_map hn he' he hkey)

/-- Where two maps agree they still do once the same entries are set. -/
theorem setAll_congr {es : List (K × V)} {m m' : K → V} {k : K} (h : m k = m' k) :
    setAll m es k = setAll m' es k := by
  induction es generalizing m m' with
  | nil => exact h
  | cons e es ih =>
      rw [setAll_cons, setAll_cons]
      refine ih ?_
      -- at the key that is written both are equal anyway
      by_cases hk : k = e.1
      · subst hk
        rw [Function.update_self, Function.update_self]
      · rw [Function.update_of_ne hk, Function.update_of_ne hk, h]

/-- What holds of every entry that is set and of what was there holds of what is there. -/
theorem setAll_keeps {es : List (K × V)} {m : K → V} {k : K} {P : V → Prop} (hm : P (m k))
    (hes : ∀ e ∈ es, P e.2) : P (setAll m es k) := by
  induction es generalizing m with
  | nil => exact hm
  | cons e es ih =>
      rw [setAll_cons]
      refine ih ?_ fun e' he' => hes e' (List.mem_cons_of_mem e he')
      by_cases hk : k = e.1
      · subst hk
        rw [Function.update_self]
        exact hes e List.mem_cons_self
      · rwa [Function.update_of_ne hk]

/-! ## Processes -/

/-- What a process does in a state, on an action: its next state, and the entries it sets. -/
abbrev Process (K V S A : Type*) := (K → V) → S → A → Option (S × List (K × V))

/-- It neither reads nor sets an entry outside the set. -/
structure Owns (P : Process K V S A) (mine : Set K) : Prop where
  reads : ∀ {m m' : K → V}, (∀ k ∈ mine, m k = m' k) → ∀ s a, P m s a = P m' s a
  writes : ∀ {m : K → V} {s s' : S} {a : A} {es : List (K × V)}, P m s a = some (s', es) →
    ∀ e ∈ es, e.1 ∈ mine

omit [DecidableEq K] in
theorem Owns.not_set {P : Process K V S A} {mine : Set K} (h : Owns P mine) {m : K → V} {s s' : S}
    {a : A} {es : List (K × V)} (hP : P m s a = some (s', es)) {k : K} (hk : k ∉ mine) :
    k ∉ es.map Prod.fst := by
  intro hmem
  obtain ⟨e, he, rfl⟩ := List.mem_map.mp hmem
  exact hk (h.writes hP e he)

/-- A process that has the map for itself. -/
def alone (P : Process K V S A) (x : (K → V) × S) (a : A) : Option ((K → V) × S) :=
  (P x.1 x.2 a).map fun r => (setAll x.1 r.2, r.1)

theorem alone_eq_some {P : Process K V S A} {x x' : (K → V) × S} {a : A} :
    alone P x a = some x' ↔ ∃ es, P x.1 x.2 a = some (x'.2, es) ∧ x'.1 = setAll x.1 es := by
  unfold alone
  rw [Option.map_eq_some_iff]
  constructor
  · rintro ⟨⟨s, es⟩, h, rfl⟩
    exact ⟨es, h, rfl⟩
  · rintro ⟨es, h, hm⟩
    exact ⟨_, h, by rw [← hm]⟩

variable {ι : Type*} [DecidableEq ι]

/-- Processes that share the map. Each action is one of one of them. -/
def together (P : ι → Process K V S A) (x : (K → V) × (ι → S)) (a : ι × A) :
    Option ((K → V) × (ι → S)) :=
  (P a.1 x.1 (x.2 a.1) a.2).map fun r => (setAll x.1 r.2, Function.update x.2 a.1 r.1)

theorem together_eq_some {P : ι → Process K V S A} {x x' : (K → V) × (ι → S)} {a : ι × A} :
    together P x a = some x' ↔ ∃ s es, P a.1 x.1 (x.2 a.1) a.2 = some (s, es)
      ∧ x' = (setAll x.1 es, Function.update x.2 a.1 s) := by
  unfold together
  rw [Option.map_eq_some_iff]
  constructor
  · rintro ⟨⟨s, es⟩, h, rfl⟩
    exact ⟨s, es, h, rfl⟩
  · rintro ⟨s, es, h, rfl⟩
    exact ⟨_, h, rfl⟩

/--
**Nobody disturbs anybody.** If the processes own disjoint sets of keys, then in whatever state
they get to together, each of them is in one it gets to by itself, and finds its own entries as
they would be then.
-/
theorem isolated {P : ι → Process K V S A} {mine : ι → Set K} (hown : ∀ i, Owns (P i) (mine i))
    (hapart : ∀ i j, i ≠ j → ∀ k ∈ mine i, k ∉ mine j) {ok : A → Prop}
    {x₀ x : (K → V) × (ι → S)}
    (h : Lts.ReachableBy (together P) (fun _ a => ok a.2) x₀ x) (i : ι) :
    ∃ m, Lts.ReachableBy (alone (P i)) (fun _ a => ok a) (x₀.1, x₀.2 i) (m, x.2 i)
      ∧ ∀ k ∈ mine i, m k = x.1 k := by
  induction h with
  | init => exact ⟨x₀.1, .init, fun _ _ => rfl⟩
  | @tail y a _ _ ha hs ih =>
      obtain ⟨m, hm, hagree⟩ := ih
      obtain ⟨s, es, hP, rfl⟩ := together_eq_some.mp hs
      by_cases hi : i = a.1
      · subst hi
        -- its own step, which it would take by itself as well
        refine ⟨setAll m es, .tail hm ha ?_, fun k hk => setAll_congr (hagree k hk)⟩
        dsimp only
        rw [Function.update_self]
        exact alone_eq_some.mpr ⟨es, ((hown a.1).reads hagree _ _).trans hP, rfl⟩
      · refine ⟨m, ?_, ?_⟩
        · dsimp only
          rw [Function.update_of_ne hi]
          exact hm
        · intro k hk
          have hout : k ∉ es.map Prod.fst := (hown a.1).not_set hP (hapart i a.1 hi k hk)
          rw [hagree k hk]
          exact (setAll_of_not_mem y.1 hout).symm

/-- What nobody owns stays as it is. -/
theorem untouched {P : ι → Process K V S A} {mine : ι → Set K} (hown : ∀ i, Owns (P i) (mine i))
    {k : K} (hk : ∀ i, k ∉ mine i) {ok : A → Prop} {x₀ x : (K → V) × (ι → S)}
    (h : Lts.ReachableBy (together P) (fun _ a => ok a.2) x₀ x) : x.1 k = x₀.1 k := by
  induction h with
  | init => rfl
  | @tail y a _ _ _ hs ih =>
      obtain ⟨s, es, hP, rfl⟩ := together_eq_some.mp hs
      have hout : k ∉ es.map Prod.fst := (hown a.1).not_set hP (hk a.1)
      rw [← ih]
      exact setAll_of_not_mem y.1 hout

end SharedMap
