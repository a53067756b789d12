import UrRedisDriver.Proof.Blends
import UrRedisDriver.Proof.Stored

/-!
# Where the arm stops

A waypoint that is not to be blended has no bound on its blend, and a corner without a bound
gets the largest that fits. The arm stops at such a waypoint only where nothing fits.
-/

namespace UrRedisDriver.Proof

open UrRedisDriver UnitQuaternion Matrix
open scoped Literals

noncomputable section

variable {env : PlannerEnv} {command : RobotCommand ℝ} {joints : List ℝ} {dh : DhParameters}
  {base : Limits ℝ} {out : List (Waypoint ℝ) × PlannedTrajectory} {request : PlanRequest}
  {p0 p1 p2 : Vec3}

/-! ## A corner without a bound -/

/-- No blend fits at `p1`: one of the ways there and on is shorter than 2.5 mm, or the path
turns back on itself. -/
def NoRoom (p0 p1 p2 : Vec3) : Prop :=
  chordFraction * min (Vec3.norm (p1 - p0)) (Vec3.norm (p2 - p1)) < minUsefulBlend
    ∨ maxBlendableDeflection ≤ turn p0 p1 p2

theorem tan_quarter_lt_one {φ : ℝ} (hφ : 0 ≤ φ) (h : φ < maxBlendableDeflection) :
    Real.tan (φ / 4) < 1 := by
  have hpi := Real.pi_pos
  rw [maxBlendableDeflection] at h
  rw [← Real.tan_pi_div_four]
  apply Real.tan_lt_tan_of_lt_of_lt_pi_div_two <;> linarith

/-- The planner's own deviation never keeps a corner from being blended; a bound may. -/
theorem blendRadius_eq_zero {φ chordIn chordOut : ℝ} (cap : Option ℝ) (hφ : 0 ≤ φ) :
    blendRadius φ chordIn chordOut defaultMaxPathDeviation cap = 0
      ↔ (chordFraction * min chordIn chordOut < minUsefulBlend ∨ maxBlendableDeflection ≤ φ)
        ∨ ∃ c, cap = some c ∧ c < minUsefulBlend := by
  unfold blendRadius
  by_cases hrev : φ ≥ maxBlendableDeflection
  · rw [if_pos hrev]
    exact iff_of_true rfl (.inl (.inr hrev))
  · rw [if_neg hrev, or_iff_left hrev]
    dsimp only
    -- the default deviation never decides: below a reversal it allows more than the least useful
    -- blend
    have hdev : 1e-9 < Real.tan (φ / 4) →
        minUsefulBlend < defaultMaxPathDeviation / Real.tan (φ / 4) := by
      intro htan
      have hlt := tan_quarter_lt_one hφ (not_le.mp hrev)
      rw [lt_div_iff₀ (lt_trans (by norm_num) htan)]
      refine (mul_lt_of_lt_one_right minUsefulBlend_pos hlt).trans ?_
      norm_num [minUsefulBlend, defaultMaxPathDeviation]
    generalize hr : (if Real.tan (φ / 4) > 1e-9 then
      min (chordFraction * min chordIn chordOut) (defaultMaxPathDeviation / Real.tan (φ / 4))
      else chordFraction * min chordIn chordOut) = r
    have huse : r < minUsefulBlend ↔ chordFraction * min chordIn chordOut < minUsefulBlend := by
      rw [← hr]
      split
      · rename_i htan
        rw [min_lt_iff]
        exact or_iff_left (not_lt.mpr (hdev htan).le)
      · rfl
    -- without a cap only the chords are left, and a cap stops the arm only if it is itself too
    -- small
    have hcap : (cap.elim r fun c => min r (max c 0)) < minUsefulBlend
        ↔ r < minUsefulBlend ∨ ∃ c, cap = some c ∧ c < minUsefulBlend := by
      cases cap with
      | none => simp
      | some c => simp [minUsefulBlend_pos]
    rw [← huse, ← hcap]
    by_cases hlt : (cap.elim r fun c => min r (max c 0)) < minUsefulBlend
    · rw [if_pos hlt]
      exact iff_of_true rfl hlt
    · rw [if_neg hlt]
      have hpos := minUsefulBlend_pos.trans_le (not_lt.mp hlt)
      exact iff_of_false hpos.ne' hlt

theorem cornerRadius_eq_zero (cap : Option ℝ) :
    cornerRadius defaultMaxPathDeviation cap p0 p1 p2 = 0
      ↔ NoRoom p0 p1 p2 ∨ ∃ c, cap = some c ∧ c < minUsefulBlend := by
  unfold cornerRadius
  rw [cornerDeflection_eq]
  by_cases hshort : Vec3.norm (p1 - p0) ≤ 1e-12 ∨ Vec3.norm (p2 - p1) ≤ 1e-12
  · -- a way without a length is shorter than any that could be blended
    rw [if_pos hshort]
    refine iff_of_true rfl (.inl (.inl ?_))
    have hfraction : 0 ≤ chordFraction := by norm_num [chordFraction]
    refine (mul_le_mul_of_nonneg_left (min_le_iff.mpr hshort) hfraction).trans_lt ?_
    norm_num [chordFraction, minUsefulBlend]
  · rw [if_neg hshort, Option.elim_some]
    exact blendRadius_eq_zero cap (Real.arccos_nonneg _)

/-- A path that comes back on its own line has turned by half a turn. -/
theorem turn_back (h : p1 - p0 ≠ 0) : turn p0 p1 p0 = Real.pi := by
  have hback : p0 - p1 = -(p1 - p0) := (neg_sub _ _).symm
  have hnorm : Vec3.norm (p1 - p0) * Vec3.norm (p1 - p0) = (p1 - p0) ⬝ᵥ (p1 - p0) :=
    Real.mul_self_sqrt (by rw [Vec3.dot_self]; positivity)
  have hpos : (p1 - p0) ⬝ᵥ (p1 - p0) ≠ 0 := by
    intro hzero
    rw [Vec3.dot_self] at hzero
    have hpart : ∀ i, (p1 - p0) i ^ 2 ≤ 0 := by
      have h0 := sq_nonneg ((p1 - p0) 0)
      have h1 := sq_nonneg ((p1 - p0) 1)
      have h2 := sq_nonneg ((p1 - p0) 2)
      exact Fin.forall_fin_succ.mpr ⟨by linarith, Fin.forall_fin_two.mpr
        ⟨show (p1 - p0) 1 ^ 2 ≤ 0 by linarith, show (p1 - p0) 2 ^ 2 ≤ 0 by linarith⟩⟩
    exact h (funext fun i => sq_nonpos_iff _ |>.mp (hpart i))
  have hsame : Vec3.norm (-(p1 - p0)) = Vec3.norm (p1 - p0) := by
    rw [Vec3.norm, neg_dotProduct_neg, Vec3.norm]
  -- the way back is the way there negated: the angle between them is pi
  rw [turn, hback, hsame, hnorm, dotProduct_neg, neg_div, div_self hpos, Real.arccos_neg_one]

/-! ## What was asked for -/

/-- A waypoint that was asked for, and the one that is emitted for it. -/
structure BlendsAsAsked (wp e : Waypoint ℝ) : Prop where
  blends : e.useBlendRadius = true →
    wp.useBlendRadius = true ∧ 0 < e.blendRadius ∧ e.blendRadius ≤ wp.blendRadius
  stops : wp.useBlendRadius = false → e.useBlendRadius = false ∧ e.blendRadius = 0

/-- Wherever the arm is to stop on the way, no blend fits. -/
def StopsFit (env : PlannerEnv) (command : RobotCommand ℝ) (joints : List ℝ) : Prop :=
  ∀ (request : PlanRequest) (dh : DhParameters) (base : Limits ℝ) (leg : Leg) (wp : Waypoint ℝ)
    (next : Joints ℝ), Poses env command joints request → OnRoute env.limits request dh base leg →
      command.waypoints[leg.index]? = some wp → wp.useBlendRadius = false →
        leg.after = some next →
          NoRoom (flangePoint dh leg.fromQ) (flangePoint dh leg.toQ) (flangePoint dh next)

/-- The bound on its blend that a waypoint comes with. -/
def blendCap (wp : Waypoint ℝ) : Option ℝ := if wp.useBlendRadius then some wp.blendRadius else none

theorem planWaypoint_blend {wp : Waypoint ℝ} {index : Nat} {p : PlanWaypoint}
    (h : env.planWaypoint index wp = .ok p) : p.blendRadius = blendCap wp := by
  obtain ⟨target, -, h'⟩ := Except.bind_eq_ok.mp h
  obtain ⟨preferred, -, heq⟩ := Except.bind_eq_ok.mp h'
  cases heq
  rfl

theorem planWaypoints_length {wps : List (Waypoint ℝ)} {index : Nat} {ps : List PlanWaypoint}
    (h : env.planWaypoints index wps = .ok ps) : ps.length = wps.length := by
  induction wps generalizing index ps with
  | nil =>
      cases h
      rfl
  | cons w ws ih =>
      obtain ⟨p, -, h'⟩ := Except.bind_eq_ok.mp h
      obtain ⟨ps', hps, heq⟩ := Except.bind_eq_ok.mp h'
      cases heq
      rw [List.length_cons, List.length_cons, ih hps]

theorem Poses.unique {request' : PlanRequest} (h : Poses env command joints request)
    (h' : Poses env command joints request') : request = request' := by
  obtain ⟨start, ps, hstart, hps, rfl⟩ := h
  obtain ⟨start', ps', hstart', hps', rfl⟩ := h'
  rw [hstart] at hstart'
  cases hstart'
  rw [hps] at hps'
  cases hps'
  rfl

theorem Poses.deviation (h : Poses env command joints request) :
    request.maxPathDeviation = defaultMaxPathDeviation := by
  obtain ⟨start, ps, -, -, rfl⟩ := h
  rfl

theorem waypointsForCommand_emitted (h : env.waypointsForCommand command joints = .ok out)
    (hid : command.trajectoryId = "") :
    ∃ request, Poses env command joints request ∧ plan env.limits request = .ok out.2
      ∧ List.Forall₂ EmittedAs out.2.waypoints out.1 := by
  obtain ⟨request, hposes, hplan, hout⟩ := waypointsForCommand_planned h hid
  rw [hout]
  exact ⟨request, hposes, hplan, toWaypoints_emittedAs _ _ _⟩

/-- The waypoint of a command, the leg of the route it is the end of, and what is emitted. -/
structure PlannedAs (env : PlannerEnv) (request : PlanRequest) (dh : DhParameters)
    (base : Limits ℝ) (leg : Leg) (wp e : Waypoint ℝ) : Prop where
  onRoute : OnRoute env.limits request dh base leg
  radius : e.blendRadius
    = radiusBefore dh defaultMaxPathDeviation (blendCap wp) leg.fromQ leg.toQ leg.after
  flag : e.useBlendRadius = true ↔ 0 < e.blendRadius

theorem plannedAs_get (hposes : Poses env command joints request)
    (hplan : plan env.limits request = .ok out.2)
    (hout : List.Forall₂ EmittedAs out.2.waypoints out.1) {i : Nat} {wp e : Waypoint ℝ}
    (hwp : command.waypoints[i]? = some wp) (he : out.1[i]? = some e) :
    ∃ dh base leg, leg.index = i ∧ PlannedAs env request dh base leg wp e := by
  obtain ⟨w, hw, hemitted⟩ : ∃ w, out.2.waypoints[i]? = some w ∧ EmittedAs w e := by
    obtain ⟨hi, rfl⟩ := List.getElem?_eq_some_iff.mp he
    have hlt : i < out.2.waypoints.length := hout.length_eq ▸ hi
    exact ⟨_, List.getElem?_eq_getElem hlt, hout.get hlt hi⟩
  obtain ⟨dh, base, leg, hleg, rfl, -, -, -, hend⟩ := plan_waypoint hplan hw
  have hdeviation := hposes.deviation
  obtain ⟨start, ps, -, hps, rfl⟩ := hposes
  -- the waypoint of the leg is the one prepared from this command
  obtain ⟨p, j, hp, hplanned⟩ := planWaypoints_get hps hwp
  have hasked : some p = some leg.wp := hp.symm.trans hleg.asked
  cases hasked
  refine ⟨dh, base, leg, rfl, hleg, ?_, ?_⟩
  · rw [hemitted.blend.1, hend.blend, planWaypoint_blend hplanned, hdeviation]
  · rw [hemitted.blend.2, hemitted.blend.1]

/-- A bound is kept. -/
theorem radiusBefore_capped {deviation c : ℝ} {fromQ toQ : Joints ℝ} {after : Option (Joints ℝ)}
    (hdev : 0 ≤ deviation) : radiusBefore dh deviation (some c) fromQ toQ after ≤ max c 0 := by
  cases after with
  | none => exact le_max_right c 0
  | some next => exact (cornerRadius_fits hdev).capped c rfl

/-- Without a bound, a waypoint is stopped at only where no blend fits. -/
theorem radiusBefore_none_eq_zero {fromQ toQ : Joints ℝ} {after : Option (Joints ℝ)} :
    radiusBefore dh defaultMaxPathDeviation none fromQ toQ after = 0
      ↔ ∀ next, after = some next →
        NoRoom (flangePoint dh fromQ) (flangePoint dh toQ) (flangePoint dh next) := by
  cases after with
  | none =>
      refine iff_of_true rfl ?_
      intro next hnext
      cases hnext
  | some q =>
      refine (cornerRadius_eq_zero none).trans ⟨?_, fun h => .inl (h q rfl)⟩
      rintro (h | ⟨c, hc, -⟩) next hnext
      · cases hnext
        exact h
      · cases hc

/-- Where there is room, a waypoint is blended unless its bound is too small to be of use. -/
theorem blended_of_room {leg : Leg} {wp e : Waypoint ℝ} {next : Joints ℝ}
    (h : PlannedAs env request dh base leg wp e) (hafter : leg.after = some next)
    (hroom : ¬ NoRoom (flangePoint dh leg.fromQ) (flangePoint dh leg.toQ) (flangePoint dh next))
    (hcap : ∀ c, blendCap wp = some c → minUsefulBlend ≤ c) : e.useBlendRadius = true := by
  refine h.flag.mpr (lt_of_le_of_ne ?_ ?_)
  · rw [h.radius]
    exact radiusBefore_nonneg
  · intro hzero
    rw [h.radius, hafter] at hzero
    rcases (cornerRadius_eq_zero (blendCap wp)).mp hzero.symm with hno | ⟨c, hc, hlt⟩
    · exact hroom hno
    · exact absurd hlt (not_lt.mpr (hcap c hc))

/-- What is emitted for a waypoint is right exactly if it may be blended, or cannot be. -/
theorem blendsAsAsked_leg {leg : Leg} {wp e : Waypoint ℝ}
    (h : PlannedAs env request dh base leg wp e) :
    BlendsAsAsked wp e ↔ (wp.useBlendRadius = false → ∀ next, leg.after = some next →
      NoRoom (flangePoint dh leg.fromQ) (flangePoint dh leg.toQ) (flangePoint dh next)) := by
  have hradius := h.radius
  have hflag := h.flag
  cases huse : wp.useBlendRadius with
  | true =>
      -- a flag that is set is honoured whatever the room: the radius is a cap
      refine iff_of_true ⟨?_, ?_⟩ ?_
      · intro he
        have hpos := hflag.mp he
        have hcap : e.blendRadius ≤ max wp.blendRadius 0 := by
          rw [hradius, blendCap, huse]
          exact radiusBefore_capped (by norm_num [defaultMaxPathDeviation])
        refine ⟨huse, hpos, (le_max_iff.mp hcap).resolve_right (not_le.mpr hpos)⟩
      · intro hfalse
        rw [huse] at hfalse
        cases hfalse
      · intro hfalse
        cases hfalse
  | false =>
      -- a flag that is cleared is no cap at all, so the planner blends where it finds room
      have hnone : blendCap wp = none := by
        rw [blendCap, huse]
        rfl
      rw [hnone] at hradius
      rw [← radiusBefore_none_eq_zero, ← hradius]
      constructor
      · intro hasked _
        exact (hasked.stops huse).2
      · intro hzero
        have hr := hzero rfl
        have hoff : ¬ e.useBlendRadius = true := by
          rw [hflag, hr]
          exact lt_irrefl 0
        refine ⟨fun he => absurd he hoff, fun _ => ⟨Bool.not_eq_true _ ▸ hoff, hr⟩⟩

/-! ## Two quarter turns -/

/-- The arm stretched out, turned by `θ`. -/
def turned (θ : ℝ) : Joints ℝ := ![θ, 0, 0, 0, 0, 0]

/-- The flange runs round the axis of joint 1. -/
theorem flangePoint_turned (dh : DhParameters) (θ : ℝ) :
    flangePoint dh (turned θ)
      = ![Real.cos θ * (dh.a2 + dh.a3) + Real.sin θ * (dh.d4 + dh.d6),
          Real.sin θ * (dh.a2 + dh.a3) - Real.cos θ * (dh.d4 + dh.d6), dh.d1 - dh.d5] := by
  have hcut : forwardKinematics dh (turned θ) = dhTransform θ dh.d1 0 (Real.pi / 2)
      * ((dhTransform 0 0 dh.a2 0 * dhTransform 0 0 dh.a3 0 * dhTransform 0 dh.d4 0 (Real.pi / 2))
        * (dhTransform 0 dh.d5 0 (-Real.pi / 2) * dhTransform 0 dh.d6 0 0)) := by
    rw [forwardKinematics_eq]
    simp only [mul_assoc]
    rfl
  ext i
  rw [flangePoint, hcut, Motion.mul_trans, Motion.mul_trans, planar_trans, wrist_trans]
  simp only [Pi.add_apply, smul_apply, planar_matrix, dhTransform_matrix, dhTransform_trans]
  fin_cases i <;> simp [-mul_eq_mul_left_iff] <;> ring

/-- The arm stretched out, a quarter turn further, and half a turn. -/
def quarterPath : List (Joints ℝ) := [turned (Real.pi / 2), turned Real.pi]

/-- At the quarter turn the path turns by a right angle, far from either end. -/
theorem not_noRoom_quarter : ¬ NoRoom (flangePoint ur20 (turned 0))
    (flangePoint ur20 (turned (Real.pi / 2))) (flangePoint ur20 (turned Real.pi)) := by
  have hpi := Real.pi_pos
  -- two chords of the same length at a right angle
  have hin : flangePoint ur20 (turned (Real.pi / 2)) - flangePoint ur20 (turned 0)
      = ![1.946, -1.2354, 0] := by
    rw [flangePoint_turned, flangePoint_turned]
    ext i
    fin_cases i <;> norm_num [ur20]
  have hout : flangePoint ur20 (turned Real.pi) - flangePoint ur20 (turned (Real.pi / 2))
      = ![1.2354, 1.946, 0] := by
    rw [flangePoint_turned, flangePoint_turned]
    ext i
    fin_cases i <;> norm_num [ur20]
  have hlong : ∀ v : Vec3, 1 ≤ v 0 → 1 ≤ Vec3.norm v := by
    intro v hv
    have hsq := Vec3.norm_sq v
    nlinarith [Vec3.norm_nonneg v, sq_nonneg (v 1), sq_nonneg (v 2)]
  rintro (hshort | hrev)
  · rw [hin, hout] at hshort
    have hmin := le_min (hlong ![1.946, -1.2354, 0] (by norm_num))
      (hlong ![1.2354, 1.946, 0] (by norm_num))
    rw [chordFraction, minUsefulBlend] at hshort
    linarith
  · have hdot : (![1.946, -1.2354, 0] : Vec3) ⬝ᵥ ![1.2354, 1.946, 0] = 0 := by
      rw [dotProduct, Fin.sum_univ_three]
      show (1.946 : ℝ) * 1.2354 + -1.2354 * 1.946 + 0 * 0 = 0
      norm_num
    rw [turn, hin, hout, hdot, zero_div, Real.arccos_zero, maxBlendableDeflection] at hrev
    linarith

/-- A waypoint of joint angles, to be stopped at. -/
def jointWaypoint (q : Joints ℝ) : Waypoint ℝ :=
  { frontWaypoint with useJointPositions := true, jointPositions := List.ofFn q }

/-- The request to go there. -/
def quarterCommand : RobotCommand ℝ :=
  { frontCommand "p[0,0,0,0,0,0]" with waypoints := quarterPath.map jointWaypoint }

def quarterRequest : PlanRequest :=
  bench.planRequest quarterCommand (turned 0) (quarterPath.map jointMove)

/-- Joint angles are taken as they are, and the bound on the blend with them. -/
theorem planWaypoint_joints (q : Joints ℝ) (index : Nat) (flag : Bool) (radius : ℝ) :
    env.planWaypoint index { jointWaypoint q with useBlendRadius := flag, blendRadius := radius }
      = .ok { jointMove q with blendRadius := if flag then some radius else none } := by
  have hsix : PlannerEnv.toSix (List.ofFn q) index "joint_positions" = .ok q :=
    Except.ofOption_eq_ok.mpr (Joints.ofList?_ofFn q)
  refine Except.bind_eq_ok.mpr ⟨.joints q, ?_, rfl⟩
  unfold PlannerEnv.waypointTarget
  exact (if_pos rfl).trans (Except.bind_eq_ok.mpr ⟨q, hsix, rfl⟩)

theorem planWaypoints_joints (qs : List (Joints ℝ)) (index : Nat) :
    env.planWaypoints index (qs.map jointWaypoint) = .ok (qs.map jointMove) := by
  induction qs generalizing index with
  | nil => rfl
  | cons q qs ih =>
      refine Except.bind_eq_ok.mpr ⟨_, planWaypoint_joints q index false 0, ?_⟩
      exact Except.bind_eq_ok.mpr ⟨_, ih (index + 1), rfl⟩

theorem quarter_start : Joints.ofList? ((List.ofFn (turned 0)).take 6) = some (turned 0) := by
  rw [List.take_of_length_le (List.length_ofFn).le, Joints.ofList?_ofFn]

theorem quarter_posed : Poses bench quarterCommand (List.ofFn (turned 0)) quarterRequest :=
  ⟨turned 0, _, quarter_start, planWaypoints_joints quarterPath 0, rfl⟩

theorem turned_inside {θ : ℝ} (hlo : 0 ≤ θ) (hhi : θ ≤ Real.pi) :
    Inside benchLimits (turned θ) := by
  intro i
  have hreach := benchReach_ge i
  have hbound : 0 ≤ turned θ i ∧ turned θ i ≤ benchReach i := by
    by_cases hi : i = 0
    · subst hi
      exact ⟨hlo, hhi.trans (benchReach_of_pi (by decide))⟩
    · have hzero : turned θ i = 0 := by
        fin_cases i
        · exact absurd rfl hi
        all_goals rfl
      rw [hzero]
      exact ⟨le_rfl, by linarith⟩
  have hmin : -benchReach i ≤ turned θ i := by linarith
  exact ⟨hmin, hbound.2⟩

theorem moves_turned {θ φ : ℝ} (h : 1 ≤ |φ - θ|) : Moves (turned θ) (turned φ) := by
  refine ⟨0, ?_⟩
  show motionlessJoint < |φ - θ|
  rw [motionlessJoint]
  linarith

theorem quarter_planned : ∃ out,
    bench.waypointsForCommand quarterCommand (List.ofFn (turned 0)) = .ok out
      ∧ plan bench.limits quarterRequest = .ok out.2 ∧ configs out.2 = turned 0 :: quarterPath := by
  have hpi := Real.pi_gt_three
  have hinside : ∀ q ∈ turned 0 :: quarterPath, Inside benchLimits q := by
    intro q hq
    simp only [quarterPath, List.mem_cons, List.not_mem_nil, or_false] at hq
    rcases hq with rfl | rfl | rfl <;> apply turned_inside <;> linarith
  -- each step turns the base by a quarter, so none is degenerate
  have hmoves : List.IsChain Moves (turned 0 :: quarterPath) := by
    refine .cons_cons (moves_turned ?_) (.cons_cons (moves_turned ?_) (.singleton _))
    · exact (by linarith : (1 : ℝ) ≤ Real.pi / 2 - 0).trans (le_abs_self _)
    · exact (by linarith : (1 : ℝ) ≤ Real.pi - Real.pi / 2).trans (le_abs_self _)
  obtain ⟨traj, htraj, hconfigs⟩ := plan_joints quarterRequest forModel_ur20 bench_limits rfl
    (jointMoves quarterPath) (List.cons_ne_nil _ _) (by decide) hinside hmoves
  obtain ⟨waypoints, hout⟩ := waypointsForCommand_isOk quarter_posed rfl (List.cons_ne_nil _ _)
    htraj
  exact ⟨_, hout, htraj, hconfigs⟩

/-! ## There and back -/

/-- The quarter turn, half a turn, and back to the quarter turn. -/
def backPath : List (Joints ℝ) := [turned (Real.pi / 2), turned Real.pi, turned (Real.pi / 2)]

/-- To be blended at the quarter turn, and stopped at where the arm turns back. -/
def backCommand : RobotCommand ℝ :=
  { quarterCommand with
    waypoints :=
      [{ jointWaypoint (turned (Real.pi / 2)) with useBlendRadius := true, blendRadius := 0.05 },
        jointWaypoint (turned Real.pi), jointWaypoint (turned (Real.pi / 2))] }

def backRequest : PlanRequest :=
  { quarterRequest with
    waypoints :=
      [{ jointMove (turned (Real.pi / 2)) with blendRadius := some 0.05 },
        jointMove (turned Real.pi), jointMove (turned (Real.pi / 2))] }

theorem back_posed : Poses bench backCommand (List.ofFn (turned 0)) backRequest :=
  ⟨turned 0, _, quarter_start,
    Except.bind_eq_ok.mpr ⟨_, planWaypoint_joints (turned (Real.pi / 2)) 0 true 0.05,
      Except.bind_eq_ok.mpr
        ⟨_, planWaypoints_joints [turned Real.pi, turned (Real.pi / 2)] 1, rfl⟩⟩, rfl⟩

theorem back_planned : ∃ out,
    bench.waypointsForCommand backCommand (List.ofFn (turned 0)) = .ok out
      ∧ plan bench.limits backRequest = .ok out.2 ∧ configs out.2 = turned 0 :: backPath := by
  have hpi := Real.pi_gt_three
  have hinside : ∀ q ∈ turned 0 :: backPath, Inside benchLimits q := by
    intro q hq
    simp only [backPath, List.mem_cons, List.not_mem_nil, or_false] at hq
    rcases hq with rfl | rfl | rfl | rfl <;> apply turned_inside <;> linarith
  -- a quarter, another one, and the last one back
  have hmoves : List.IsChain Moves (turned 0 :: backPath) := by
    refine .cons_cons (moves_turned ?_) (.cons_cons (moves_turned ?_)
      (.cons_cons (moves_turned ?_) (.singleton _)))
    · exact (by linarith : (1 : ℝ) ≤ Real.pi / 2 - 0).trans (le_abs_self _)
    · exact (by linarith : (1 : ℝ) ≤ Real.pi - Real.pi / 2).trans (le_abs_self _)
    · rw [abs_sub_comm]
      exact (by linarith : (1 : ℝ) ≤ Real.pi - Real.pi / 2).trans (le_abs_self _)
  have hwps : List.Forall₂ JointMove backRequest.waypoints backPath :=
    .cons ⟨rfl, rfl⟩ (jointMoves [turned Real.pi, turned (Real.pi / 2)])
  obtain ⟨traj, htraj, hconfigs⟩ := plan_joints backRequest forModel_ur20 bench_limits rfl
    hwps (List.cons_ne_nil _ _) (by decide) hinside hmoves
  obtain ⟨waypoints, hout⟩ := waypointsForCommand_isOk back_posed rfl (List.cons_ne_nil _ _)
    htraj
  exact ⟨_, hout, htraj, hconfigs⟩

/-- Where the arm turns back, nothing can be blended. -/
theorem noRoom_back : NoRoom (flangePoint ur20 (turned (Real.pi / 2)))
    (flangePoint ur20 (turned Real.pi)) (flangePoint ur20 (turned (Real.pi / 2))) := by
  have hpi := Real.pi_pos
  have hne : flangePoint ur20 (turned Real.pi) - flangePoint ur20 (turned (Real.pi / 2)) ≠ 0 := by
    intro hzero
    have hfirst := congrFun hzero 0
    rw [flangePoint_turned, flangePoint_turned] at hfirst
    norm_num [ur20] at hfirst
  refine .inr ?_
  rw [turn_back hne, maxBlendableDeflection]
  linarith

/-- The legs of a plan end at its configurations. -/
theorem legs_of_configs {qs : List (Joints ℝ)} {traj : PlannedTrajectory} {leg : Leg}
    (hplan : plan env.limits request = .ok traj) (hqs : configs traj = qs)
    (hleg : OnRoute env.limits request dh base leg) :
    qs[leg.index]? = some leg.fromQ ∧ qs[leg.index + 1]? = some leg.toQ
      ∧ qs[leg.index + 2]? = leg.after := by
  obtain ⟨dh', base', hroute, -⟩ := plan_route hplan
  obtain ⟨qs', hroute', hfrom, hto, hafter⟩ := hleg.route
  obtain ⟨rfl, rfl, rfl⟩ := hroute.unique hroute'
  rw [hqs] at hfrom hto hafter
  exact ⟨hfrom, hto, hafter⟩

/-! ## Where the arm is to stop -/

/--
**Blending where it was asked for.** In every request that is planned, each waypoint is
blended only if it was to be, and within its bound, exactly if no blend fits at any of the
waypoints that the arm is to stop at on its way.
-/
theorem blendsAsAsked_iff (h : env.waypointsForCommand command joints = .ok out)
    (hid : command.trajectoryId = "") :
    List.Forall₂ BlendsAsAsked command.waypoints out.1 ↔ StopsFit env command joints := by
  obtain ⟨request, hposes, hplan, hout⟩ := waypointsForCommand_emitted h hid
  have hlen : command.waypoints.length = out.1.length := by
    obtain ⟨dh, base, -, hcount⟩ := plan_route hplan
    obtain ⟨start, ps, -, hps, rfl⟩ := hposes
    rw [← hout.length_eq, hcount]
    exact (planWaypoints_length hps).symm
  rw [List.forall₂_iff_get]
  constructor
  · rintro ⟨-, hall⟩ request' dh base leg wp next hposes' hleg hwp hstop hnext
    obtain rfl := hposes.unique hposes'
    obtain ⟨hi, rfl⟩ := List.getElem?_eq_some_iff.mp hwp
    obtain ⟨dh', base', leg', hindex, hplanned⟩ := plannedAs_get hposes hplan hout hwp
      (List.getElem?_eq_getElem (hlen ▸ hi))
    obtain ⟨rfl, rfl, rfl⟩ := hplanned.onRoute.unique hleg hindex
    exact (blendsAsAsked_leg hplanned).mp (hall _ hi (hlen ▸ hi)) hstop next hnext
  · -- a leg without a next one is the end of the route, where nothing can blend
    intro hfit
    refine ⟨hlen, fun i hi hi' => ?_⟩
    have hwp := List.getElem?_eq_getElem hi
    obtain ⟨dh, base, leg, rfl, hplanned⟩ := plannedAs_get hposes hplan hout hwp
      (List.getElem?_eq_getElem hi')
    refine (blendsAsAsked_leg hplanned).mpr ?_
    intro hstop next hnext
    exact hfit request dh base leg _ next hposes hplanned.onRoute hwp hstop hnext

/-- Blended at the quarter turn, and stopped at where the arm turns back and at the end. -/
theorem blendsAsAsked_back : ∃ out e₁ e₂ e₃,
    bench.waypointsForCommand backCommand (List.ofFn (turned 0)) = .ok out
      ∧ out.1 = [e₁, e₂, e₃]
      ∧ e₁.useBlendRadius = true ∧ 0 < e₁.blendRadius ∧ e₁.blendRadius ≤ 0.05
      ∧ e₂.useBlendRadius = false ∧ e₃.useBlendRadius = false := by
  obtain ⟨out, hout, hplan, hconfigs⟩ := back_planned
  have hroom : StopsFit bench backCommand (List.ofFn (turned 0)) := by
    intro request dh base leg wp next hposes hleg hwp hstop hnext
    obtain rfl := hposes.unique back_posed
    obtain ⟨dh', base', hroute, -⟩ := plan_route hplan
    obtain ⟨hfrom, hto, hafter⟩ := legs_of_configs hplan hconfigs hleg
    obtain ⟨qs, hroute', -⟩ := hleg.route
    have hdh : some dh = some ur20 := hroute'.model.symm.trans forModel_ur20
    cases hdh
    rw [hnext] at hafter
    match hindex : leg.index with
    | 0 =>
        -- the quarter turn is to be blended
        rw [hindex] at hwp
        cases hwp
        cases hstop
    | 1 =>
        rw [hindex] at hfrom hto hafter
        rw [← Option.some.inj hfrom, ← Option.some.inj hto, ← Option.some.inj hafter]
        exact noRoom_back
    | n + 2 =>
        -- and nothing comes after the last waypoint
        rw [hindex] at hafter
        cases hafter
  have hasked := (blendsAsAsked_iff hout rfl).mpr hroom
  obtain ⟨e₁, es, h₁, hrest, hcons⟩ := List.forall₂_cons_left_iff.mp hasked
  obtain ⟨e₂, es', h₂, hrest', rfl⟩ := List.forall₂_cons_left_iff.mp hrest
  obtain ⟨e₃, es'', h₃, hnil, rfl⟩ := List.forall₂_cons_left_iff.mp hrest'
  cases hnil
  have hblended : e₁.useBlendRadius = true := by
    obtain ⟨request, hposes, hplan', hemitted⟩ := waypointsForCommand_emitted hout rfl
    obtain ⟨dh, base, leg, hindex, hplanned⟩ := plannedAs_get hposes hplan' hemitted
      (i := 0) rfl (by rw [hcons]; rfl)
    obtain ⟨hfrom, hto, hafter⟩ := legs_of_configs hplan' hconfigs hplanned.onRoute
    rw [hindex] at hfrom hto hafter
    obtain ⟨qs, hroute, -⟩ := hplanned.onRoute.route
    obtain rfl := hposes.unique back_posed
    have hdh : some dh = some ur20 := hroute.model.symm.trans forModel_ur20
    cases hdh
    refine blended_of_room hplanned hafter.symm ?_ ?_
    · rw [← Option.some.inj hfrom, ← Option.some.inj hto]
      exact not_noRoom_quarter
    · intro c hc
      rw [← Option.some.inj hc]
      norm_num [minUsefulBlend]
  obtain ⟨-, hpos, hle⟩ := h₁.blends hblended
  exact ⟨out, e₁, e₂, e₃, hout, hcons, hblended, hpos, hle, (h₂.stops rfl).1, (h₃.stops rfl).1⟩

/-- The arm was to stop at the quarter turn, and is blended through it. -/
theorem not_blendsAsAsked_quarter : ∃ out wp e,
    bench.waypointsForCommand quarterCommand (List.ofFn (turned 0)) = .ok out
      ∧ quarterCommand.trajectoryId = "" ∧ quarterCommand.waypoints[0]? = some wp
      ∧ out.1[0]? = some e ∧ wp.useBlendRadius = false ∧ e.useBlendRadius = true
      ∧ ¬ List.Forall₂ BlendsAsAsked quarterCommand.waypoints out.1 := by
  obtain ⟨out, hout, hplan, hconfigs⟩ := quarter_planned
  obtain ⟨request, hposes, hplan', hemitted⟩ := waypointsForCommand_emitted hout rfl
  obtain ⟨dh, base, hroute, hlen⟩ := plan_route hplan
  have hcount : out.1.length = 2 := hemitted.length_eq.symm.trans hlen
  obtain ⟨e, he⟩ : ∃ e, out.1[0]? = some e := ⟨_, List.getElem?_eq_getElem (by omega)⟩
  have hwp : quarterCommand.waypoints[0]? = some (jointWaypoint (turned (Real.pi / 2))) := rfl
  obtain ⟨dh', base', leg, hindex, hplanned⟩ := plannedAs_get hposes hplan' hemitted hwp he
  obtain rfl := hposes.unique quarter_posed
  -- the leg runs from the start over the quarter turn to the half turn
  obtain ⟨hfrom, hto, hafter⟩ := legs_of_configs hplan hconfigs hplanned.onRoute
  rw [hindex] at hfrom hto hafter
  obtain ⟨qs, hroute', -⟩ := hplanned.onRoute.route
  have hdh : some dh' = some ur20 := hroute'.model.symm.trans forModel_ur20
  cases hdh
  have hblended : e.useBlendRadius = true := by
    refine blended_of_room hplanned hafter.symm ?_ ?_
    · rw [← Option.some.inj hfrom, ← Option.some.inj hto]
      exact not_noRoom_quarter
    · rintro c ⟨⟩
  refine ⟨out, _, e, hout, rfl, hwp, he, rfl, hblended, ?_⟩
  intro hall
  obtain ⟨e', es, hfirst, -, hes⟩ := List.forall₂_cons_left_iff.mp hall
  rw [hes] at he
  cases he
  exact Bool.false_ne_true ((hfirst.stops rfl).1.symm.trans hblended)

end

end UrRedisDriver.Proof
