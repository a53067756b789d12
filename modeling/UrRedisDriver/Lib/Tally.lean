import Mathlib.Data.Set.Card

/-!
# Counting by reading and writing back

Callers count an event each by reading a shared counter, writing back one more than they
read, and finishing. Nothing is atomic but a single read or write. A caller that writes back
what has changed since it read it loses what was written in between; where no value changes
while somebody holds it, the counter is the number of the calls that wrote it.
-/

namespace Tally

/-- Where a caller is. -/
inductive Call
  | idle
  /-- It has read the counter and has not written it back. -/
  | holding (v : Int)
  /-- It has written the counter back and has not finished. -/
  | written
  deriving DecidableEq

end Tally

/-- A counter, its callers, and the calls that have finished since it was last reset. -/
structure Tally (P : Type*) where
  value : Int
  call : P → Tally.Call
  completed : Nat

namespace Tally

variable {P : Type*}

/-- The callers that have written and not finished. -/
def underWay (t : Tally P) : Set P := {p | t.call p = .written}

/-- The counter is what it should be: every value held is the current one, and the counter is
the number of the calls that have written it. -/
structure Exact (t : Tally P) : Prop where
  held : ∀ p v, t.call p = .holding v → v = t.value
  finite : t.underWay.Finite
  counted : t.value = t.completed + t.underWay.ncard

/-- With nobody between its write and its end, the counter counts the finished calls. -/
theorem Exact.value_eq {t : Tally P} (h : Exact t) (hquiet : ∀ p, t.call p ≠ .written) :
    t.value = t.completed := by
  have hnone : t.underWay = ∅ := Set.eq_empty_iff_forall_notMem.mpr hquiet
  have hcounted := h.counted
  rw [hnone, Set.ncard_empty] at hcounted
  simpa using hcounted

/-- A counter nobody uses yet. -/
theorem exact_zero : Exact (⟨0, fun _ => .idle, 0⟩ : Tally P) where
  held := by
    intro p v h
    cases h
  finite := by
    have hnone : underWay (⟨0, fun _ => .idle, 0⟩ : Tally P) = ∅ :=
      Set.eq_empty_iff_forall_notMem.mpr fun p hp => Call.noConfusion hp
    rw [hnone]
    exact Set.finite_empty
  counted := by
    have hnone : underWay (⟨0, fun _ => .idle, 0⟩ : Tally P) = ∅ :=
      Set.eq_empty_iff_forall_notMem.mpr fun p hp => Call.noConfusion hp
    rw [hnone, Set.ncard_empty]
    rfl

variable [DecidableEq P]

/-- One step of a caller, or a reset, that takes no value from under anybody who holds it. -/
inductive Move (t : Tally P) : Tally P → Prop
  | read (p : P) : t.call p = .idle →
      Move t { t with call := Function.update t.call p (.holding t.value) }
  | write (p : P) (v : Int) : t.call p = .holding v →
      (∀ q v', t.call q = .holding v' → q = p) →
      Move t { t with value := v + 1, call := Function.update t.call p .written }
  | finish (p : P) : t.call p = .written →
      Move t { t with call := Function.update t.call p .idle, completed := t.completed + 1 }
  | reset : t.value = 0 ∨ (∀ p, t.call p = .idle) → Move t { t with value := 0, completed := 0 }
  | stay : Move t t

theorem underWay_update (t : Tally P) (p : P) {c : Call} (hc : c ≠ .written) (value : Int)
    (completed : Nat) :
    underWay ⟨value, Function.update t.call p c, completed⟩ = t.underWay \ {p} := by
  ext q
  by_cases hq : q = p
  · subst hq
    simp [underWay, hc]
  · simp [underWay, hq]

theorem underWay_written (t : Tally P) (p : P) (value : Int) (completed : Nat) :
    underWay ⟨value, Function.update t.call p .written, completed⟩ = insert p t.underWay := by
  ext q
  by_cases hq : q = p
  · subst hq
    simp [underWay]
  · simp [underWay, hq]

/-- Who holds a value after one caller has moved. -/
theorem holding_update {call : P → Call} {p q : P} {c : Call} {v : Int}
    (h : Function.update call p c q = .holding v) :
    q = p ∧ c = .holding v ∨ q ≠ p ∧ call q = .holding v := by
  by_cases hq : q = p
  · subst hq
    rw [Function.update_self] at h
    exact .inl ⟨rfl, h⟩
  · rw [Function.update_of_ne hq] at h
    exact .inr ⟨hq, h⟩

variable {t t' : Tally P} {p : P}

theorem Exact.read (h : Exact t) (hp : t.call p = .idle) :
    Exact { t with call := Function.update t.call p (.holding t.value) } := by
  have hout : p ∉ t.underWay := by
    intro hmem
    exact Call.noConfusion (hp.symm.trans hmem)
  -- a call that has only read is not counted as under way
  have hset := underWay_update t p (c := .holding t.value) (fun he => Call.noConfusion he) t.value
    t.completed
  rw [Set.sdiff_singleton_eq_self hout] at hset
  refine ⟨?_, by rw [hset]; exact h.finite, by rw [hset]; exact h.counted⟩
  intro q v hq
  rcases holding_update hq with ⟨-, hc⟩ | ⟨-, hq⟩
  · exact (Call.holding.inj hc).symm
  · exact h.held q v hq

theorem Exact.write {v : Int} (h : Exact t) (hp : t.call p = .holding v)
    (halone : ∀ q v', t.call q = .holding v' → q = p) :
    Exact { t with value := v + 1, call := Function.update t.call p .written } := by
  have hout : p ∉ t.underWay := by
    intro hmem
    exact Call.noConfusion (hp.symm.trans hmem)
  have hv := h.held p v hp
  have hcounted := h.counted
  refine ⟨?_, by rw [underWay_written]; exact h.finite.insert p, ?_⟩
  · intro q v' hq
    rcases holding_update hq with ⟨-, hc⟩ | ⟨hne, hq⟩
    · exact Call.noConfusion hc
    · -- any other call still holding the old value would be wrong now
      exact absurd (halone q v' hq) hne
  · rw [underWay_written, Set.ncard_insert_of_notMem hout h.finite]
    push_cast
    omega

theorem Exact.finish (h : Exact t) (hp : t.call p = .written) :
    Exact { t with call := Function.update t.call p .idle, completed := t.completed + 1 } := by
  have hset := underWay_update t p (c := .idle) (fun he => Call.noConfusion he) t.value
    (t.completed + 1)
  have hmem : p ∈ t.underWay := hp
  -- one call less under way, one more completed
  have hcard := Set.ncard_sdiff_singleton_add_one hmem h.finite
  have hcounted := h.counted
  refine ⟨?_, by rw [hset]; exact h.finite.sdiff, ?_⟩
  · intro q v hq
    rcases holding_update hq with ⟨-, hc⟩ | ⟨-, hq⟩
    · exact Call.noConfusion hc
    · exact h.held q v hq
  · rw [hset]
    push_cast
    omega

omit [DecidableEq P] in
theorem Exact.reset (h : Exact t) (hzero : t.value = 0 ∨ ∀ p, t.call p = .idle) :
    Exact { t with value := 0, completed := 0 } := by
  have hcounted := h.counted
  rcases hzero with hzero | hidle
  · -- nothing has been counted, so nothing is forgotten
    refine ⟨fun q v hq => (h.held q v hq).trans hzero, h.finite, ?_⟩
    show (0 : Int) = ((0 : Nat) : Int) + t.underWay.ncard
    omega
  · have hnone : t.underWay = ∅ := by
      refine Set.eq_empty_iff_forall_notMem.mpr fun p hp => ?_
      exact Call.noConfusion ((hidle p).symm.trans hp)
    refine ⟨?_, h.finite, ?_⟩
    · intro q v hq
      exact Call.noConfusion ((hidle q).symm.trans hq)
    · show (0 : Int) = ((0 : Nat) : Int) + t.underWay.ncard
      rw [hnone, Set.ncard_empty]
      rfl

/-- **No update is lost.** -/
theorem Exact.move (h : Exact t) (hm : Move t t') : Exact t' := by
  cases hm with
  | read p hp => exact h.read hp
  | write p v hp halone => exact h.write hp halone
  | finish p hp => exact h.finish hp
  | reset hzero => exact h.reset hzero
  | stay => exact h

end Tally
