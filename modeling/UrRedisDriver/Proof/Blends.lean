import UrRedisDriver.Proof.Segments

/-!
# Blends

The controller skips a move whose blends reach into each other, so the radius at a corner is
bounded by both of the chords that meet there. Every bound is one of `blendRadius`, carried
to the corner it is about.
-/

namespace UrRedisDriver.Proof

open UrRedisDriver
open scoped Literals

noncomputable section

variable {dh : DhParameters} {p0 p1 p2 : Vec3} {cap : Option ℝ} {deviation : ℝ}

/-! ## The turn at a corner -/

/-- How far the path turns at `p1`, in radians. -/
def turn (p0 p1 p2 : Vec3) : ℝ :=
  Real.arccos ((p1 - p0) ⬝ᵥ (p2 - p1) / (Vec3.norm (p1 - p0) * Vec3.norm (p2 - p1)))

/-- The deflection is the turn: the clamp has nothing to do. -/
theorem cornerDeflection_eq :
    cornerDeflection p0 p1 p2
      = if Vec3.norm (p1 - p0) ≤ 1e-12 ∨ Vec3.norm (p2 - p1) ≤ 1e-12 then none
        else some (turn p0 p1 p2) := by
  unfold cornerDeflection turn
  dsimp only
  split
  · rfl
  · rename_i h
    obtain ⟨hin, hout⟩ := not_or.mp h
    have hpos : 0 < Vec3.norm (p1 - p0) * Vec3.norm (p2 - p1) :=
      mul_pos (lt_trans (by norm_num) (not_le.mp hin)) (lt_trans (by norm_num) (not_le.mp hout))
    have hle := abs_le.mp (Vec3.abs_dot_le (p1 - p0) (p2 - p1))
    -- by Cauchy-Schwarz the clamp of the source changes nothing: it guards against rounding only
    rw [Angle.clamp_of_mem]
    · rw [le_div_iff₀ hpos]
      linarith [hle.1]
    · rw [div_le_one hpos]
      exact hle.2

/-! ## One corner -/

/-- A radius that is emitted keeps every bound. -/
structure Blended (deflection chordIn chordOut deviation : ℝ) (cap : Option ℝ) (r : ℝ) :
    Prop where
  reversal : deflection < maxBlendableDeflection
  useful : minUsefulBlend ≤ r
  chord : r ≤ chordFraction * min chordIn chordOut
  deviation : 1e-9 < Real.tan (deflection / 4) → r ≤ deviation / Real.tan (deflection / 4)
  capped : ∀ c, cap = some c → r ≤ max c 0

theorem blendRadius_cases (deflection chordIn chordOut deviation : ℝ) (cap : Option ℝ) :
    blendRadius deflection chordIn chordOut deviation cap = 0
      ∨ Blended deflection chordIn chordOut deviation cap
        (blendRadius deflection chordIn chordOut deviation cap) := by
  unfold blendRadius
  by_cases hrev : deflection ≥ maxBlendableDeflection
  · rw [if_pos hrev]
    exact .inl rfl
  · rw [if_neg hrev]
    dsimp only
    -- the radius by the chords and the deviation, before the cap is looked at
    generalize hq : (if Real.tan (deflection / 4) > 1e-9 then
      min (chordFraction * min chordIn chordOut) (deviation / Real.tan (deflection / 4))
      else chordFraction * min chordIn chordOut) = byDeviation
    have hchord : byDeviation ≤ chordFraction * min chordIn chordOut := by
      rw [← hq]
      split
      · exact min_le_left _ _
      · exact le_rfl
    have hdev : 1e-9 < Real.tan (deflection / 4) →
        byDeviation ≤ deviation / Real.tan (deflection / 4) := by
      intro h
      rw [← hq, if_pos h]
      exact min_le_right _ _
    generalize hr : (cap.elim byDeviation fun c => min byDeviation (max c 0)) = r
    have hle : r ≤ byDeviation := by
      rw [← hr]
      cases cap with
      | none => exact le_rfl
      | some c => exact min_le_left _ _
    have hcap : ∀ c, cap = some c → r ≤ max c 0 := by
      intro c hc
      rw [← hr, hc]
      exact min_le_right _ _
    by_cases huse : r < minUsefulBlend
    · -- a blend that is too short to be of use is dropped
      rw [if_pos huse]
      exact .inl rfl
    · rw [if_neg huse]
      exact .inr ⟨not_le.mp hrev, not_lt.mp huse, hle.trans hchord, fun h => hle.trans (hdev h),
        hcap⟩

theorem minUsefulBlend_pos : 0 < minUsefulBlend := by norm_num [minUsefulBlend]

theorem blendRadius_nonneg {deflection chordIn chordOut : ℝ} :
    0 ≤ blendRadius deflection chordIn chordOut deviation cap := by
  rcases blendRadius_cases deflection chordIn chordOut deviation cap with h0 | hr
  · exact h0.ge
  · exact minUsefulBlend_pos.le.trans hr.useful

/-- Whatever the request says, no radius is negative. -/
theorem radiusBefore_nonneg {fromQ toQ : Joints ℝ} {after : Option (Joints ℝ)} :
    0 ≤ radiusBefore dh deviation cap fromQ toQ after := by
  unfold radiusBefore cornerRadius
  cases after with
  | none => exact le_rfl
  | some next =>
      rw [Option.elim_some]
      cases cornerDeflection (flangePoint dh fromQ) (flangePoint dh toQ) (flangePoint dh next) with
      | none => exact le_rfl
      | some deflection => exact blendRadius_nonneg

/-- What the radius at a corner has to respect. -/
structure CornerFits (deviation : ℝ) (cap : Option ℝ) (p0 p1 p2 : Vec3) (r : ℝ) : Prop where
  useful : r = 0 ∨ minUsefulBlend ≤ r
  incoming : r ≤ chordFraction * Vec3.norm (p1 - p0)
  outgoing : r ≤ chordFraction * Vec3.norm (p2 - p1)
  capped : ∀ c, cap = some c → r ≤ max c 0
  deviates : 1e-9 < Real.tan (turn p0 p1 p2 / 4) →
    r * Real.tan (turn p0 p1 p2 / 4) ≤ deviation
  reversal : maxBlendableDeflection ≤ turn p0 p1 p2 → r = 0
  still : Vec3.norm (p1 - p0) = 0 ∨ Vec3.norm (p2 - p1) = 0 → r = 0

/-- Stopping at a corner respects everything. -/
theorem CornerFits.zero (hdev : 0 ≤ deviation) : CornerFits deviation cap p0 p1 p2 0 where
  useful := .inl rfl
  incoming := mul_nonneg (by norm_num [chordFraction]) (Vec3.norm_nonneg _)
  outgoing := mul_nonneg (by norm_num [chordFraction]) (Vec3.norm_nonneg _)
  capped := fun c _ => le_max_right c 0
  deviates := fun _ => by rwa [zero_mul]
  reversal := fun _ => rfl
  still := fun _ => rfl

theorem cornerRadius_fits (hdev : 0 ≤ deviation) :
    CornerFits deviation cap p0 p1 p2 (cornerRadius deviation cap p0 p1 p2) := by
  unfold cornerRadius
  rw [cornerDeflection_eq]
  split
  · exact .zero hdev
  · rename_i hlen
    obtain ⟨hin, hout⟩ := not_or.mp hlen
    rw [Option.elim_some]
    -- no blend fits always, and what is blended fits by each of the bounds it was cut to
    rcases blendRadius_cases (turn p0 p1 p2) (Vec3.norm (p1 - p0)) (Vec3.norm (p2 - p1))
      deviation cap with h0 | hr
    · rw [h0]
      exact .zero hdev
    · have hfraction : 0 ≤ chordFraction := by norm_num [chordFraction]
      refine ⟨.inr hr.useful, ?_, ?_, hr.capped, ?_, ?_, ?_⟩
      · exact hr.chord.trans (mul_le_mul_of_nonneg_left (min_le_left _ _) hfraction)
      · exact hr.chord.trans (mul_le_mul_of_nonneg_left (min_le_right _ _) hfraction)
      · intro htan
        have hpos : 0 < Real.tan (turn p0 p1 p2 / 4) := lt_trans (by norm_num) htan
        exact (le_div_iff₀ hpos).mp (hr.deviation htan)
      · -- a corner that is nearly a reversal is not blended
        intro hrev
        exact absurd hr.reversal (not_lt.mpr hrev)
      · intro hzero
        -- neither chord is degenerate in this branch
        rcases hzero with hzero | hzero
        · rw [hzero] at hin
          exact absurd (by norm_num) hin
        · rw [hzero] at hout
          exact absurd (by norm_num) hout

/-! ## A whole plan -/

/-- No two blends of a plan reach into each other, and each keeps to its own bounds. -/
structure BlendsFit (dh : DhParameters) (request : PlanRequest) (traj : PlannedTrajectory) :
    Prop where
  last : ∀ w, traj.waypoints.getLast? = some w → w.blendRadius = 0
  useful : ∀ w ∈ traj.waypoints, w.blendRadius = 0 ∨ minUsefulBlend ≤ w.blendRadius
  apart : ∀ (k : Nat) (w w' : PlannedWaypoint), traj.waypoints[k]? = some w →
    traj.waypoints[k + 1]? = some w' →
      w.blendRadius + w'.blendRadius ≤ 0.8 * chord dh w.jointPositions w'.jointPositions
  first : ∀ w, traj.waypoints[0]? = some w →
    w.blendRadius ≤ 0.4 * chord dh traj.startJointPositions w.jointPositions
  capped : ∀ (k : Nat) (w : PlannedWaypoint) (wp : PlanWaypoint) (c : ℝ),
    traj.waypoints[k]? = some w → request.waypoints[k]? = some wp → wp.blendRadius = some c →
      w.blendRadius ≤ max c 0
  corner : ∀ (k : Nat) (w : PlannedWaypoint) (q0 q1 q2 : Joints ℝ),
    traj.waypoints[k]? = some w → (configs traj)[k]? = some q0 →
    (configs traj)[k + 1]? = some q1 → (configs traj)[k + 2]? = some q2 →
      let φ := turn (flangePoint dh q0) (flangePoint dh q1) (flangePoint dh q2)
      (1e-9 < Real.tan (φ / 4) → w.blendRadius * Real.tan (φ / 4) ≤ request.maxPathDeviation)
        ∧ (170 * Real.pi / 180 ≤ φ → w.blendRadius = 0)
        ∧ (chord dh q0 q1 = 0 ∨ chord dh q1 q2 = 0 → w.blendRadius = 0)

section Plan

variable {src : LimitSource} {request : PlanRequest} {traj : PlannedTrajectory}

/-- What is known of the waypoint emitted at `k`: it ends the path, or it fits its corner. -/
theorem plan_corner (h : plan src request = .ok traj) (hdev : 0 ≤ request.maxPathDeviation)
    (hdh : DhParameters.forModel request.robotModel = some dh) {k : Nat} {w : PlannedWaypoint}
    (hw : traj.waypoints[k]? = some w) :
    ∃ wp q0, request.waypoints[k]? = some wp ∧ (configs traj)[k]? = some q0
      ∧ (configs traj)[k + 1]? = some w.jointPositions
      ∧ ((configs traj)[k + 2]? = none ∧ w.blendRadius = 0
        ∨ ∃ q2, (configs traj)[k + 2]? = some q2
          ∧ CornerFits request.maxPathDeviation wp.blendRadius (flangePoint dh q0)
            (flangePoint dh w.jointPositions) (flangePoint dh q2) w.blendRadius) := by
  obtain ⟨dh', base, leg, hleg, rfl, hq0, hq1, hq2, he⟩ := plan_waypoint h hw
  obtain ⟨⟨qs, hroute, -⟩, hwp⟩ := hleg
  have hmodel := hroute.model
  rw [hdh] at hmodel
  cases hmodel
  refine ⟨leg.wp, leg.fromQ, hwp, hq0, by rw [he.positions, hq1], ?_⟩
  rw [hq2, he.blend, he.positions]
  cases leg.after with
  | none => exact .inl ⟨rfl, rfl⟩
  | some q2 => exact .inr ⟨q2, rfl, cornerRadius_fits hdev⟩

/--
**Blends never overlap.** In every plan of a request with a path deviation that is not
negative.
-/
theorem plan_blends (h : plan src request = .ok traj) (hdev : 0 ≤ request.maxPathDeviation) :
    ∃ dh, DhParameters.forModel request.robotModel = some dh ∧ BlendsFit dh request traj := by
  obtain ⟨dh, base, hroute, -⟩ := plan_route h
  have hdh := hroute.model
  have hfraction : 0 ≤ chordFraction := by norm_num [chordFraction]
  -- a radius is within either chord, and one at the end within any
  have hin : ∀ (k : Nat) (w : PlannedWaypoint) (q0 : Joints ℝ), traj.waypoints[k]? = some w →
      (configs traj)[k]? = some q0 →
        w.blendRadius ≤ chordFraction * chord dh q0 w.jointPositions := by
    intro k w q0 hw hq0
    obtain ⟨wp, q, -, hq, -, hend | hcorner⟩ := plan_corner h hdev hdh hw
    · rw [hend.2]
      exact mul_nonneg hfraction (Vec3.norm_nonneg _)
    · obtain ⟨q2, -, hfits⟩ := hcorner
      rw [hq] at hq0
      cases hq0
      exact hfits.incoming
  have hnext : ∀ (k : Nat) (w : PlannedWaypoint), traj.waypoints[k]? = some w →
      (configs traj)[k + 1]? = some w.jointPositions := by
    intro k w hw
    obtain ⟨wp, q, -, -, hq1, -⟩ := plan_corner h hdev hdh hw
    exact hq1
  refine ⟨dh, hdh, ?_, ?_, ?_, ?_, ?_, ?_⟩
  · intro w hw
    rw [List.getLast?_eq_getElem?] at hw
    obtain ⟨wp, q, -, -, -, hend | hcorner⟩ := plan_corner h hdev hdh hw
    · exact hend.2
    · -- nothing comes after the last waypoint
      obtain ⟨q2, hq2, -⟩ := hcorner
      obtain ⟨hlt, -⟩ := List.getElem?_eq_some_iff.mp hq2
      obtain ⟨hpos, -⟩ := List.getElem?_eq_some_iff.mp hw
      rw [configs, List.length_cons, List.length_map] at hlt
      omega
  · intro w hw
    obtain ⟨k, hk⟩ := List.getElem?_of_mem hw
    obtain ⟨wp, q, -, -, -, hend | hcorner⟩ := plan_corner h hdev hdh hk
    · exact .inl hend.2
    · obtain ⟨q2, -, hfits⟩ := hcorner
      exact hfits.useful
  · intro k w w' hw hw'
    have hsecond := hin (k + 1) w' w.jointPositions hw' (hnext k w hw)
    have hfirst : w.blendRadius ≤ chordFraction * chord dh w.jointPositions w'.jointPositions := by
      obtain ⟨wp, q, -, -, -, hend | hcorner⟩ := plan_corner h hdev hdh hw
      · rw [hend.2]
        exact mul_nonneg hfraction (Vec3.norm_nonneg _)
      · obtain ⟨q2, hq2, hfits⟩ := hcorner
        rw [hnext (k + 1) w' hw'] at hq2
        cases hq2
        exact hfits.outgoing
    rw [chordFraction] at hfirst hsecond
    linarith
  · intro w hw
    exact hin 0 w traj.startJointPositions hw rfl
  · intro k w wp c hw hwp hc
    obtain ⟨wp', q, hwp', -, -, hend | hcorner⟩ := plan_corner h hdev hdh hw
    · rw [hend.2]
      exact le_max_right c 0
    · obtain ⟨q2, -, hfits⟩ := hcorner
      rw [hwp'] at hwp
      cases hwp
      exact hfits.capped c hc
  · intro k w q0 q1 q2 hw hq0 hq1 hq2
    obtain ⟨wp, q, -, hq, hq1', hend | hcorner⟩ := plan_corner h hdev hdh hw
    · rw [hend.1] at hq2
      cases hq2
    · obtain ⟨q2', hq2', hfits⟩ := hcorner
      rw [hq] at hq0
      cases hq0
      rw [hq1'] at hq1
      cases hq1
      rw [hq2'] at hq2
      cases hq2
      exact ⟨hfits.deviates, hfits.reversal, hfits.still⟩

end Plan

theorem plan_blends_trace : ∃ traj, plan bench.limits (sweepRequest ⟨1, 1⟩ none) = .ok traj
    ∧ ∃ dh, DhParameters.forModel "ur20" = some dh ∧ BlendsFit dh (sweepRequest ⟨1, 1⟩ none) traj := by
  obtain ⟨traj, htraj, -⟩ := sweep_planned ⟨1, 1⟩ none
  have hdev : 0 ≤ (sweepRequest ⟨1, 1⟩ none).maxPathDeviation := by
    norm_num [sweepRequest, defaultMaxPathDeviation]
  exact ⟨traj, htraj, plan_blends htraj hdev⟩

end

end UrRedisDriver.Proof
