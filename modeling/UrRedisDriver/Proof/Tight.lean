import UrRedisDriver.Proof.Speeds

/-!
# The fastest legal speeds

The least of what the joints allow is the greatest speed at which none of them exceeds its
limit, and the joint that is reported is one that is at its limit there.
-/

namespace UrRedisDriver.Proof

open UrRedisDriver
open scoped Literals

noncomputable section

variable {dq bound : Joints ℝ} {limits : Limits ℝ} {dmax ceiling : ℝ} {s : SegmentSpeed ℝ}
  {rates : List (Joints ℝ)}

/-! ## Joint segments -/

theorem foldl_max_mem {K : Type} [LinearOrder K] (xs : List K) (a : K) :
    xs.foldl max a = a ∨ xs.foldl max a ∈ xs := by
  induction xs generalizing a with
  | nil => exact .inl rfl
  | cons x xs ih =>
      rcases ih (max a x) with h | h
      · rcases max_choice a x with ha | hx
        · exact .inl (h.trans ha)
        · exact .inr (List.mem_cons.mpr (.inl (h.trans hx)))
      · exact .inr (List.mem_cons_of_mem x h)

/-- The largest move is that of some joint. -/
theorem largestMove_greatest (dq : Joints ℝ) :
    IsGreatest (Set.range fun j => |dq j|) (largestMove dq) := by
  constructor
  · rcases foldl_max_mem (List.ofFn fun i => |dq i|) 0 with h | h
    · -- if it is zero, no joint moves
      have h0 : |dq 0| ≤ largestMove dq := le_largestMove dq 0
      have hzero : largestMove dq = 0 := h
      exact ⟨0, le_antisymm h0 (hzero.trans_le (abs_nonneg _))⟩
    · exact List.mem_ofFn.mp h
  · rintro _ ⟨j, rfl⟩
    exact le_largestMove dq j

/-- The speeds of the leading joint at which no joint that moves exceeds its bound: joint `i`
covers its own part of the way in the same time. -/
def LeadingLegal (dq bound : Joints ℝ) (dmax : ℝ) : Set ℝ :=
  {v | ∀ i, motionlessJoint < |dq i| → v * |dq i| / dmax ≤ bound i}

theorem leading_le_iff {v : ℝ} {i : Fin 6} (hi : motionlessJoint < |dq i|) :
    v ≤ bound i * (largestMove dq / |dq i|) ↔ v * |dq i| / largestMove dq ≤ bound i := by
  have hpos : 0 < |dq i| := motionlessJoint_pos.trans hi
  have hmax : 0 < largestMove dq := hpos.trans_le (le_largestMove dq i)
  rw [div_le_iff₀ hmax, ← mul_div_assoc, le_div_iff₀ hpos]

theorem leading_eq_iff {v : ℝ} {i : Fin 6} (hi : motionlessJoint < |dq i|) :
    v = bound i * (largestMove dq / |dq i|) ↔ v * |dq i| / largestMove dq = bound i := by
  have hpos : 0 < |dq i| := motionlessJoint_pos.trans hi
  have hmax : 0 < largestMove dq := hpos.trans_le (le_largestMove dq i)
  rw [div_eq_iff hmax.ne', ← mul_div_assoc, eq_div_iff hpos.ne']

theorem lowerBounds_leadingSpeeds (dq bound : Joints ℝ) :
    lowerBounds (leadingSpeeds dq bound) = LeadingLegal dq bound (largestMove dq) := by
  ext v
  constructor
  · intro h i hi
    exact (leading_le_iff hi).mp (h ⟨i, hi, rfl⟩)
  · rintro h _ ⟨i, hi, rfl⟩
    exact (leading_le_iff hi).mpr (h i hi)

/-- The joint that the loop remembers set the velocity it has so far. -/
theorem limitingJoint_set (dq : Joints ℝ) (limits : Limits ℝ) :
    let acc := (List.finRange 6).foldl (boundByJoint dq limits (largestMove dq)) (⊤, ⊤, 0)
    acc.1 = ⊤ ∨ ∃ i : Fin 6, i.val = acc.2.2
      ∧ ∃ v ∈ allowed dq limits.velocityMax i, acc.1 = (v : WithTop ℝ) := by
  intro acc
  apply List.foldlRecOn (motive := fun acc : WithTop ℝ × WithTop ℝ × Nat =>
    acc.1 = ⊤ ∨ ∃ i : Fin 6, i.val = acc.2.2
      ∧ ∃ v ∈ allowed dq limits.velocityMax i, acc.1 = (v : WithTop ℝ))
  · exact .inl rfl
  · intro acc hacc i _
    unfold boundByJoint
    dsimp only
    by_cases hm : |dq i| ≤ motionlessJoint
    · rw [if_pos hm]
      exact hacc
    · rw [if_neg hm]
      -- the joint is noted where the bound is lowered, so the last one noted has set it
      by_cases hv : WithTop.some (limits.velocityMax i * (largestMove dq / |dq i|)) < acc.1
      · rw [if_pos hv]
        exact .inr ⟨i, rfl, _, ⟨not_le.mp hm, rfl⟩, rfl⟩
      · rw [if_neg hv]
        exact hacc

theorem limitingJoint_allowed (h : jointSegmentSpeed dq limits = some s) :
    ∃ i : Fin 6, i.val = s.limitingJoint ∧ s.velocity ∈ allowed dq limits.velocityMax i := by
  have hset := limitingJoint_set dq limits
  unfold jointSegmentSpeed at h
  dsimp only at h hset
  split at h
  · cases h
  · split at h
    · rename_i velocity acceleration joint heq
      cases h
      rw [heq] at hset
      rcases hset with htop | ⟨i, hi, v, hv, heqv⟩
      · exact absurd htop WithTop.coe_ne_top
      · rw [← WithTop.coe_inj.mp heqv] at hv
        exact ⟨i, hi, hv⟩
    · cases h

/-- A displacement has no speed exactly if no joint moves. -/
theorem jointSegmentSpeed_eq_none :
    jointSegmentSpeed dq limits = none ↔ largestMove dq ≤ motionlessJoint := by
  constructor
  · intro h
    -- the joint with the largest move is one that moves
    by_contra hlt
    obtain ⟨i, hi⟩ := (largestMove_greatest dq).1
    have hmove : motionlessJoint < |dq i| := (not_le.mp hlt).trans_eq hi.symm
    obtain ⟨s, hs⟩ := jointSegmentSpeed_isSome (l := limits) hmove
    rw [h] at hs
    cases hs
  · intro h
    unfold jointSegmentSpeed
    exact if_pos h

/-- Legal for every joint that moves, and at the limit for one. -/
structure JointTight (dq : Joints ℝ) (limits : Limits ℝ) (dmax : ℝ) (s : SegmentSpeed ℝ) :
    Prop where
  velocity : IsGreatest (LeadingLegal dq limits.velocityMax dmax) s.velocity
  acceleration : IsGreatest (LeadingLegal dq limits.accelerationMax dmax) s.acceleration
  limiting : ∃ i : Fin 6, i.val = s.limitingJoint ∧ motionlessJoint < |dq i|
    ∧ s.velocity * |dq i| / dmax = limits.velocityMax i
  some_acceleration : ∃ i, motionlessJoint < |dq i|
    ∧ s.acceleration * |dq i| / dmax = limits.accelerationMax i

theorem jointSegmentSpeed_jointTight (h : jointSegmentSpeed dq limits = some s) :
    JointTight dq limits (largestMove dq) s := by
  obtain ⟨hv, ha⟩ := jointSegmentSpeed_least h
  obtain ⟨i, hi, hmove, heq⟩ := limitingJoint_allowed h
  obtain ⟨j, hmovej, heqj⟩ := ha.1
  refine ⟨?_, ?_, ⟨i, hi, hmove, (leading_eq_iff hmove).mp heq⟩,
    ⟨j, hmovej, (leading_eq_iff hmovej).mp heqj⟩⟩
  · rw [← lowerBounds_leadingSpeeds]
    exact hv.isGLB
  · rw [← lowerBounds_leadingSpeeds]
    exact ha.isGLB

/-- The waypoint of a joint move is emitted with the speed of its own displacement. -/
def CarriesJointSpeeds (request : PlanRequest) (traj : PlannedTrajectory) : Prop :=
  ∀ (k : Nat) (wp : PlanWaypoint) (w : PlannedWaypoint) (fromQ : Joints ℝ),
    request.waypoints[k]? = some wp → wp.interpolation = .joint →
    traj.waypoints[k]? = some w → (configs traj)[k]? = some fromQ →
      ∃ s, jointSegmentSpeed (fun i => w.jointPositions i - fromQ i) traj.limits = some s
        ∧ w.velocity = s.velocity ∧ w.acceleration = s.acceleration

theorem plan_limits {src : LimitSource} {request : PlanRequest} {traj : PlannedTrajectory}
    {dh : DhParameters} {base : Limits ℝ} {qs : List (Joints ℝ)}
    (h : plan src request = .ok traj) (hroute : Route src request dh base qs) :
    traj.limits = base.scaled request.scaling := by
  obtain ⟨_, modelled, _, _, -, hmodelled, hlimits, -⟩ := plan_stages h
  obtain ⟨modelled', hmodelled', rfl⟩ := hroute.limits
  rw [hmodelled] at hmodelled'
  cases hmodelled'
  exact hlimits

theorem plan_carriesJointSpeeds {src : LimitSource} {request : PlanRequest}
    {traj : PlannedTrajectory} (h : plan src request = .ok traj) :
    CarriesJointSpeeds request traj := by
  intro k wp w fromQ hwp hjoint hw hfrom
  obtain ⟨dh, base, leg, hleg, rfl, hfrom', -, -, he⟩ := plan_waypoint h hw
  obtain ⟨s, hs, hv, ha⟩ := he.speed
  rw [hfrom] at hfrom'
  cases hfrom'
  have hasked := hleg.asked
  rw [hwp] at hasked
  cases hasked
  obtain ⟨⟨qs, hroute, -⟩, -⟩ := hleg
  rw [hjoint] at hs
  -- the speed of the leg is kept in its waypoint, under the limits of the plan
  rw [plan_limits h hroute, he.positions]
  exact ⟨s, Except.ofOption_eq_ok.mp hs, hv, ha⟩

/--
**Joint segments are legal and tight.** A displacement has a speed exactly if a joint moves;
the speed is the greatest that is legal, the acceleration too, and the limiting joint is at
its limit. Every waypoint of a joint move has the speed of its displacement.
-/
theorem jointSegments_tight :
    (∀ (dq : Joints ℝ) (limits : Limits ℝ) (dmax : ℝ),
        IsGreatest (Set.range fun j => |dq j|) dmax →
          (jointSegmentSpeed dq limits = none ↔ dmax ≤ motionlessJoint)
            ∧ ∀ s, jointSegmentSpeed dq limits = some s → JointTight dq limits dmax s)
      ∧ ∀ (src : LimitSource) (request : PlanRequest) (traj : PlannedTrajectory),
        plan src request = .ok traj → CarriesJointSpeeds request traj := by
  refine ⟨?_, fun src request traj h => plan_carriesJointSpeeds h⟩
  intro dq limits dmax hmax
  obtain rfl := hmax.unique (largestMove_greatest dq)
  exact ⟨jointSegmentSpeed_eq_none, fun s hs => jointSegmentSpeed_jointTight hs⟩

theorem jointSegments_tight_trace :
    ∃ traj, plan bench.limits (sweepRequest ⟨1, 1⟩ none) = .ok traj
      ∧ CarriesJointSpeeds (sweepRequest ⟨1, 1⟩ none) traj := by
  obtain ⟨traj, htraj, -⟩ := sweep_planned ⟨1, 1⟩ none
  exact ⟨traj, htraj, jointSegments_tight.2 _ _ traj htraj⟩

/-! ## Straight segments -/

/-- The tool speeds up to the ceiling at which no joint that moves exceeds its bound at any
sample. -/
def ToolLegal (rates : List (Joints ℝ)) (bound : Joints ℝ) (ceiling : ℝ) : Set ℝ :=
  {v | v ≤ ceiling ∧ ∀ r ∈ rates, ∀ i, motionlessJoint < |r i| → v * |r i| ≤ bound i}

theorem lowerBounds_toolSpeeds (rates : List (Joints ℝ)) (bound : Joints ℝ) (ceiling : ℝ) :
    lowerBounds ({ceiling} ∪ toolSpeeds rates bound) = ToolLegal rates bound ceiling := by
  ext v
  constructor
  · intro h
    refine ⟨h (.inl rfl), ?_⟩
    intro r hr i hi
    exact (le_div_iff₀ (motionlessJoint_pos.trans hi)).mp (h (.inr ⟨r, hr, i, hi, rfl⟩))
  · rintro ⟨hceil, h⟩ x (rfl | ⟨r, hr, i, hi, rfl⟩)
    · exact hceil
    · exact (le_div_iff₀ (motionlessJoint_pos.trans hi)).mpr (h r hr i hi)

theorem cartesianSpeedCap_greatest (rates : List (Joints ℝ)) (limits : Limits ℝ)
    (ceiling : ℝ) :
    IsGreatest (ToolLegal rates limits.velocityMax ceiling)
      (cartesianSpeedCap rates limits ceiling).velocity := by
  rw [← lowerBounds_toolSpeeds]
  exact (cartesianSpeedCap_least rates limits ceiling).isGLB

/-- More samples leave fewer speeds legal. -/
theorem ToolLegal.mono {more : List (Joints ℝ)} (h : rates ⊆ more) :
    ToolLegal more bound ceiling ⊆ ToolLegal rates bound ceiling :=
  fun _ hv => ⟨hv.1, fun r hr => hv.2 r (h hr)⟩

theorem cartesianSpeedCap_anti {more : List (Joints ℝ)} (h : rates ⊆ more) :
    (cartesianSpeedCap more limits ceiling).velocity
      ≤ (cartesianSpeedCap rates limits ceiling).velocity :=
  (cartesianSpeedCap_greatest more limits ceiling).mono
    (cartesianSpeedCap_greatest rates limits ceiling) (ToolLegal.mono h)

/-- What the loops remember: the ceiling, or the joint that set the velocity, at a sample that
was met. -/
def CapSet (rates : List (Joints ℝ)) (limits : Limits ℝ) (ceiling : ℝ) (acc : ℝ × Nat) : Prop :=
  acc.1 = ceiling ∨ ∃ r ∈ rates, ∃ i : Fin 6, i.val = acc.2 ∧ motionlessJoint < |r i|
    ∧ acc.1 = limits.velocityMax i / |r i|

theorem capByRate_set {r : Joints ℝ} (hr : r ∈ rates) {acc : ℝ × Nat}
    (h : CapSet rates limits ceiling acc) (i : Fin 6) :
    CapSet rates limits ceiling (capByRate r limits acc i) := by
  unfold capByRate
  dsimp only
  by_cases hm : |r i| ≤ motionlessJoint
  · rw [if_pos hm]
    exact h
  · rw [if_neg hm]
    by_cases hv : limits.velocityMax i / |r i| < acc.1
    · rw [if_pos hv]
      exact .inr ⟨r, hr, i, rfl, not_le.mp hm, rfl⟩
    · rw [if_neg hv]
      exact h

theorem cartesianSpeedCap_set (rates : List (Joints ℝ)) (limits : Limits ℝ) (ceiling : ℝ) :
    let s := cartesianSpeedCap rates limits ceiling
    CapSet rates limits ceiling (s.velocity, s.limitingJoint) := by
  apply List.foldlRecOn (motive := CapSet rates limits ceiling)
  · exact .inl rfl
  · intro acc hacc r hr
    apply List.foldlRecOn (motive := CapSet rates limits ceiling)
    · exact hacc
    · intro acc' hacc' i _
      exact capByRate_set hr hacc' i

/-- Legal at every sample and under the ceiling, and no greater speed is. -/
structure ToolTight (rates : List (Joints ℝ)) (limits : Limits ℝ) (ceiling : ℝ)
    (s : SegmentSpeed ℝ) : Prop where
  velocity : IsGreatest (ToolLegal rates limits.velocityMax ceiling) s.velocity
  positive : 0 < s.velocity
  capped : s.velocity ≤ ceiling
  limiting : s.velocity < ceiling → ∃ r ∈ rates, ∃ i : Fin 6, i.val = s.limitingJoint
    ∧ motionlessJoint < |r i| ∧ s.velocity * |r i| = limits.velocityMax i

/--
**Straight segments are legal and tight.** The cap is the greatest legal tool speed, whatever
the samples; more of them never raise it, and their order does not matter.
-/
theorem cartesianSpeedCap_tight (rates : List (Joints ℝ)) (limits : Limits ℝ) (ceiling : ℝ)
    (hv : ∀ i, 0 < limits.velocityMax i) (hc : 0 < ceiling) :
    ToolTight rates limits ceiling (cartesianSpeedCap rates limits ceiling)
      ∧ (∀ more, rates ⊆ more → (cartesianSpeedCap more limits ceiling).velocity
          ≤ (cartesianSpeedCap rates limits ceiling).velocity)
      ∧ ∀ rates', rates.Perm rates' → (cartesianSpeedCap rates' limits ceiling).velocity
          = (cartesianSpeedCap rates limits ceiling).velocity := by
  have hgreatest := cartesianSpeedCap_greatest rates limits ceiling
  refine ⟨⟨hgreatest, ?_, hgreatest.1.1, ?_⟩, fun more => cartesianSpeedCap_anti, ?_⟩
  · refine (cartesianSpeedCap_least rates limits ceiling).pos_iff.mpr ?_
    rintro x (rfl | hx)
    · exact hc
    · exact toolSpeeds_pos hv hx
  · intro hlt
    -- below the ceiling it is a joint that has set the cap, at one of the samples
    rcases cartesianSpeedCap_set rates limits ceiling with hceil | ⟨r, hr, i, hi, hmove, heq⟩
    · exact absurd hceil hlt.ne
    · exact ⟨r, hr, i, hi, hmove, (eq_div_iff (motionlessJoint_pos.trans hmove).ne').mp heq⟩
  · intro rates' hperm
    exact le_antisymm (cartesianSpeedCap_anti hperm.subset)
      (cartesianSpeedCap_anti hperm.symm.subset)

/-- A sample at which every joint turns with the tool, and one at which the last turns faster. -/
def turningRates : List (Joints ℝ) := [fun _ => 9.5, ![1, 1, 1, 1, 1, 20.5]]

/-- The second sample decides, on which side of the first it stands or not. -/
theorem cartesianSpeedCap_tight_turning :
    ToolTight turningRates benchLimits (1 / 2) (cartesianSpeedCap turningRates benchLimits (1 / 2))
      ∧ (cartesianSpeedCap turningRates benchLimits (1 / 2)).velocity
        ≤ (cartesianSpeedCap [fun _ => 9.5] benchLimits (1 / 2)).velocity
      ∧ (cartesianSpeedCap turningRates.reverse benchLimits (1 / 2)).velocity
        = (cartesianSpeedCap turningRates benchLimits (1 / 2)).velocity
      ∧ (cartesianSpeedCap turningRates benchLimits (1 / 2)).velocity < 1 / 2 := by
  have hhalf : (0 : ℝ) < 1 / 2 := by norm_num
  have htight := (cartesianSpeedCap_tight turningRates benchLimits _ benchSpeed_pos hhalf).1
  have hmore := (cartesianSpeedCap_tight [fun _ => 9.5] benchLimits _ benchSpeed_pos hhalf).2.1
  have horder := (cartesianSpeedCap_tight turningRates benchLimits _ benchSpeed_pos hhalf).2.2
  refine ⟨htight, hmore turningRates (by simp [turningRates]),
    horder _ (List.reverse_perm _).symm, ?_⟩
  have hfast : |(![1, 1, 1, 1, 1, 20.5] : Joints ℝ) 5| = 20.5 := by
    show |(20.5 : ℝ)| = 20.5
    norm_num
  -- the wrist allows less than the ceiling at the second sample
  have hlast := htight.velocity.1.2 ![1, 1, 1, 1, 1, 20.5] (by simp [turningRates]) 5
    (by rw [hfast]; norm_num [motionlessJoint])
  have hspeed : benchLimits.velocityMax 5 < 10 := by
    show (3.6651914291880923 : ℝ) < 10
    norm_num
  rw [hfast] at hlast
  linarith

end

end UrRedisDriver.Proof
