import UrRedisDriver.Proof.Branches
import UrRedisDriver.Proof.Segments

/-!
# The nearest configuration for a pose

The configurations for a pose within the limits are the branches of the inverse kinematics,
any number of whole turns added to their joints. Within two turns either way no more than one
turn is ever added, so those that are tried are all there are.
-/

namespace UrRedisDriver.Proof

open UrRedisDriver
open Real (pi)
open scoped Literals

noncomputable section

variable {dh : DhParameters} {limits : Limits ℝ} {T : Pose} {q : Joints ℝ}

/-! ## Whole turns -/

theorem turns_nodup (a : ℝ) :
    (([-1, 0, 1] : List ℝ).map fun turn => a + turn * 2 * pi).Nodup := by
  apply List.Nodup.map
  · intro x y hxy
    have hmul : x * 2 * pi = y * 2 * pi := add_left_cancel hxy
    exact mul_right_cancel₀ two_ne_zero (mul_right_cancel₀ Real.pi_ne_zero hmul)
  · norm_num

/-- No configuration is listed twice for one branch. -/
theorem nodup_expandTurns {n : Nat} (sol lower upper : Fin n → ℝ) :
    (expandTurns sol lower upper).Nodup := by
  induction n with
  | zero => exact List.nodup_singleton sol
  | succ n ih =>
      rw [expandTurns, List.nodup_flatMap]
      constructor
      · intro v _
        split
        · exact (ih _ _ _).map (@Fin.cons_right_injective n (fun _ => ℝ) v)
        · exact List.nodup_nil
      · -- two configurations that differ in their first joint
        refine (turns_nodup (sol 0)).imp fun {v w} hne => ?_
        intro x hv hw
        have hfirst : ∀ {u : ℝ}, (x ∈ if u ≥ lower 0 ∧ u ≤ upper 0 then
            (expandTurns (Fin.tail sol) (Fin.tail lower) (Fin.tail upper)).map
              (Fin.cons (α := fun _ => ℝ) u) else []) → x 0 = u := by
          intro u hu
          split at hu
          · obtain ⟨r, -, rfl⟩ := List.mem_map.mp hu
            rfl
          · cases hu
        exact hne ((hfirst hv).symm.trans (hfirst hw))

/-- The limits of every joint lie within two turns. -/
def WithinTurns (limits : Limits ℝ) : Prop :=
  ∀ i, -(2 * pi) ≤ limits.positionMin i ∧ limits.positionMax i ≤ 2 * pi

/-- What is listed for a branch. -/
theorem mem_expandTurns_iff {sol : Joints ℝ} (hspan : WithinTurns limits)
    (hsol : sol ∈ inverseKinematics dh T) :
    q ∈ expandTurns sol limits.positionMin limits.positionMax
      ↔ TurnsApart sol q ∧ Inside limits q := by
  constructor
  · intro h
    exact ⟨turnsApart_of_expandTurns h, fun i => (mem_expandTurns.mp h i).2⟩
  · intro h
    exact mem_expandTurns_of_turnsApart hsol h.1
      (fun i => ⟨(hspan i).1.trans (h.2 i).1, (h.2 i).2.trans (hspan i).2⟩) h.2

/-! ## The choice -/

/-- A branch for the pose, up to whole turns, within the limits. -/
def Candidate (dh : DhParameters) (limits : Limits ℝ) (T : Pose) (q : Joints ℝ) : Prop :=
  Inside limits q ∧ ∃ sol ∈ inverseKinematics dh T, TurnsApart sol q

theorem mem_filtered_iff (hspan : WithinTurns limits) :
    q ∈ inverseKinematicsFiltered dh T limits.positionMin limits.positionMax
      ↔ Candidate dh limits T q := by
  constructor
  · intro h
    obtain ⟨sol, hsol, hq⟩ := List.mem_flatMap.mp h
    obtain ⟨hturns, hinside⟩ := (mem_expandTurns_iff hspan hsol).mp hq
    exact ⟨hinside, sol, hsol, hturns⟩
  · rintro ⟨hinside, sol, hsol, hturns⟩
    exact List.mem_flatMap.mpr ⟨sol, hsol, (mem_expandTurns_iff hspan hsol).mpr ⟨hturns, hinside⟩⟩

/-- None of the candidates is nearer. -/
def NearestCandidate (dh : DhParameters) (limits : Limits ℝ) (T : Pose) (seed q : Joints ℝ) :
    Prop :=
  Candidate dh limits T q ∧ ∀ q', Candidate dh limits T q' →
    configurationDistance q seed ≤ configurationDistance q' seed

variable {seed : Joints ℝ} {index : Nat}

theorem resolvePose_unreachable_iff :
    resolvePose dh limits T seed index = .error (.unreachable index)
      ↔ inverseKinematics dh T = [] := by
  unfold resolvePose
  dsimp only
  constructor
  · intro h
    by_contra hraw
    rw [if_neg hraw] at h
    cases (Except.ofOption_eq_error.mp h).2
  · intro h
    rw [if_pos h]

theorem resolvePose_outside_iff (hspan : WithinTurns limits) :
    resolvePose dh limits T seed index = .error (.outsideJointLimits index)
      ↔ inverseKinematics dh T ≠ [] ∧ ∀ q, ¬ Candidate dh limits T q := by
  -- nothing is nearest exactly where the filtered list is empty
  have hnone : selectNearest (inverseKinematicsFiltered dh T limits.positionMin
      limits.positionMax) seed = none ↔ ∀ q, ¬ Candidate dh limits T q := by
    unfold selectNearest
    rw [List.argmin_eq_none, List.eq_nil_iff_forall_not_mem]
    exact forall_congr' fun q => not_congr (mem_filtered_iff hspan)
  unfold resolvePose
  dsimp only
  by_cases hraw : inverseKinematics dh T = []
  · rw [if_pos hraw]
    refine iff_of_false ?_ fun h => h.1 hraw
    intro h
    cases h
  · rw [if_neg hraw, Except.ofOption_eq_error, hnone]
    exact ⟨fun h => ⟨hraw, h.1⟩, fun h => ⟨h.2, rfl⟩⟩

theorem resolvePose_nearestCandidate (hspan : WithinTurns limits)
    (h : resolvePose dh limits T seed index = .ok q) : NearestCandidate dh limits T seed q := by
  unfold resolvePose at h
  dsimp only at h
  split at h
  · cases h
  · have hmin := Except.ofOption_eq_ok.mp h
    refine ⟨(mem_filtered_iff hspan).mp (List.argmin_mem hmin), ?_⟩
    intro q' hq'
    exact List.le_of_mem_argmin ((mem_filtered_iff hspan).mpr hq') hmin

/--
**The nearest branch.** A pose is unreachable exactly if it has no branch, outside the limits
exactly if no branch is within them up to whole turns, and else resolved to one that is nearest
the seed. For each branch every configuration that is whole turns away and within the limits
is listed once. How far two configurations are apart is their largest weighted joint move.
-/
theorem resolvePose_nearest (dh : DhParameters) (limits : Limits ℝ) (T : Pose)
    (seed : Joints ℝ) (index : Nat) (hspan : WithinTurns limits) :
    (resolvePose dh limits T seed index = .error (.unreachable index)
        ↔ inverseKinematics dh T = [])
      ∧ (resolvePose dh limits T seed index = .error (.outsideJointLimits index)
        ↔ inverseKinematics dh T ≠ [] ∧ ∀ q, ¬ Candidate dh limits T q)
      ∧ ((∃ q, Candidate dh limits T q) → ∃ q, resolvePose dh limits T seed index = .ok q
        ∧ NearestCandidate dh limits T seed q)
      ∧ (∀ sol ∈ inverseKinematics dh T,
        (expandTurns sol limits.positionMin limits.positionMax).Nodup
          ∧ ∀ q, q ∈ expandTurns sol limits.positionMin limits.positionMax
            ↔ TurnsApart sol q ∧ Inside limits q)
      ∧ ∀ q q', configurationDistance q q' = Finset.univ.sup' Finset.univ_nonempty
        fun i => (![4, 4, 3, 1, 1, 1] : Joints ℝ) i * |q i - q' i| := by
  refine ⟨resolvePose_unreachable_iff, resolvePose_outside_iff hspan, ?_, ?_,
    configurationDistance_eq⟩
  · rintro ⟨q, hinside, sol, hsol, hturns⟩
    obtain ⟨q', hq'⟩ := resolvePose_isOk seed index hsol
      ((mem_expandTurns_iff hspan hsol).mpr ⟨hturns, hinside⟩)
    exact ⟨q', hq', resolvePose_nearestCandidate hspan hq'⟩
  · intro sol hsol
    exact ⟨nodup_expandTurns _ _ _, fun q => mem_expandTurns_iff hspan hsol⟩

theorem resolvePose_nearest_home :
    ∃ q, resolvePose ur20 fullTurns (forwardKinematics ur20 (turnedHome 0)) 0 1 = .ok q
      ∧ NearestCandidate ur20 fullTurns (forwardKinematics ur20 (turnedHome 0)) 0 q := by
  obtain ⟨-, -, hnearest, -⟩ := resolvePose_nearest ur20 fullTurns
    (forwardKinematics ur20 (turnedHome 0)) 0 1 fun _ => ⟨le_rfl, le_rfl⟩
  have hat : At ur20 (forwardKinematics ur20 (turnedHome 0)) (turnedHome 0) := Motion.Same.refl _
  obtain ⟨sol, hsol, hturns⟩ := hat.listed (forModel_proper forModel_ur20)
    (.inr (by simp [turnedHome]))
  exact hnearest ⟨turnedHome 0, turnedHome_mem le_rfl zero_le_one, sol, hsol, hturns⟩

end

end UrRedisDriver.Proof
