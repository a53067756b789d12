import UrRedisDriver.Proof.Reissue
import UrRedisDriver.Proof.Stops
import UrRedisDriver.Proof.Visits

/-!
# Plans in parts

A plan is made of the plans of its parts. Each waypoint is resolved from the one before it and
each segment is timed between its own ends, so a request can be cut at any waypoint. Only the
corner there knows of both sides, and the first part comes to rest in it.

That is what makes it right to resume a planned motion with what is left of its waypoints.
-/

namespace UrRedisDriver.Proof

open UrRedisDriver
open scoped Literals

noncomputable section

variable {src : LimitSource} {request : PlanRequest} {traj : PlannedTrajectory}
  {dh : DhParameters} {limits : Limits ℝ} {frames : FrameConfig} {speed deviation : ℝ}
  {q : Joints ℝ} {qs : List (Joints ℝ)} {i : Nat}

/-! ## What the number of a waypoint is for -/

/-- It is what an error says, and nothing else depends on it. -/
theorem checkConfiguration_index (h : checkConfiguration limits q i = .ok ()) (j : Nat) :
    checkConfiguration limits q j = .ok () := by
  unfold checkConfiguration at h ⊢
  split at h
  · rfl
  · cases h

theorem resolvePose_index {target : Pose} {seed : Joints ℝ}
    (h : resolvePose dh limits target seed i = .ok q) (j : Nat) :
    resolvePose dh limits target seed j = .ok q := by
  unfold resolvePose at h ⊢
  dsimp only at h ⊢
  split at h
  · cases h
  · rename_i hraw
    rw [if_neg hraw]
    exact Except.ofOption_eq_ok.mpr (Except.ofOption_eq_ok.mp h)

theorem resolve_index {target : WaypointTarget} {preferred : Option (Joints ℝ)} {seed : Joints ℝ}
    (h : resolve target preferred dh limits frames seed i = .ok q) (j : Nat) :
    resolve target preferred dh limits frames seed j = .ok q := by
  cases target with
  | joints q' =>
      obtain ⟨_, hcheck, hq⟩ := Except.bind_eq_ok.mp h
      have hcheck' := checkConfiguration_index (Except.mapError_eq_ok.mp hcheck) j
      exact Except.bind_eq_ok.mpr ⟨(), Except.mapError_eq_ok.mpr hcheck', hq⟩
  | pose values frame =>
      cases frame <;>
        exact Except.mapError_eq_ok.mpr (resolvePose_index (Except.mapError_eq_ok.mp h) j)

theorem resolveWaypoints_index {wps : List PlanWaypoint}
    (h : resolveWaypoints dh limits frames i q wps = .ok qs) (j : Nat) :
    resolveWaypoints dh limits frames j q wps = .ok qs := by
  induction wps generalizing i j q qs with
  | nil => exact h
  | cons wp wps ih =>
      obtain ⟨q', hq', h⟩ := Except.bind_eq_ok.mp h
      obtain ⟨qs', hqs', heq⟩ := Except.bind_eq_ok.mp h
      exact Except.bind_eq_ok.mpr
        ⟨q', resolve_index hq' _, Except.bind_eq_ok.mpr ⟨qs', ih hqs' _, heq⟩⟩

theorem segmentSpeed_index {interpolation : Interpolation} {toQ : Joints ℝ} {v : SegmentSpeed ℝ}
    (h : segmentSpeed dh limits speed i interpolation q toQ = .ok v) (j : Nat) :
    segmentSpeed dh limits speed j interpolation q toQ = .ok v := by
  cases interpolation with
  | joint => exact Except.ofOption_eq_ok.mpr (Except.ofOption_eq_ok.mp h)
  | linear =>
      obtain ⟨rates, hrates, hv⟩ := Except.bind_eq_ok.mp h
      exact Except.bind_eq_ok.mpr
        ⟨rates, Except.ofOption_eq_ok.mpr (Except.ofOption_eq_ok.mp hrates), hv⟩

/-- Segments that are told apart by their warnings alone. -/
structure SameTiming (ss ss' : List Segment) : Prop where
  planned : ss'.map Segment.planned = ss.map Segment.planned
  duration : ss'.map Segment.duration = ss.map Segment.duration

theorem planSegments_index {pairs : List (PlanWaypoint × Joints ℝ)} {ss : List Segment}
    (h : planSegments dh limits speed i q pairs = .ok ss) (j : Nat) :
    ∃ ss', planSegments dh limits speed j q pairs = .ok ss' ∧ SameTiming ss ss' := by
  induction pairs generalizing i j q ss with
  | nil =>
      cases h
      exact ⟨[], rfl, rfl, rfl⟩
  | cons p pairs ih =>
      obtain ⟨wp, toQ⟩ := p
      obtain ⟨s, hs, h⟩ := Except.bind_eq_ok.mp h
      obtain ⟨ss', hss', heq⟩ := Except.bind_eq_ok.mp h
      cases heq
      obtain ⟨v, hv, heq⟩ := Except.bind_eq_ok.mp hs
      cases heq
      -- the number of a segment only stands in what is said about it
      obtain ⟨ts, hts, halike⟩ := ih hss' (j + 1)
      refine ⟨_, Except.bind_eq_ok.mpr ⟨_, Except.bind_eq_ok.mpr ⟨v, segmentSpeed_index hv j, rfl⟩,
        Except.bind_eq_ok.mpr ⟨ts, hts, rfl⟩⟩, ?_, ?_⟩
      · simp only [List.map_cons, halike.planned]
      · simp only [List.map_cons, halike.duration]

/-- The waypoint at a corner, blended or not. -/
theorem blendCorners_cons (p : Vec3) (wp : PlanWaypoint) (wps : List PlanWaypoint)
    (w w' : PlannedWaypoint) (ws : List PlannedWaypoint) (i : Nat) :
    (blendCorners dh deviation i p (wp :: wps) (w :: w' :: ws)).1
      = { w with
          blendRadius := ((cornerBlend deviation i wp.blendRadius p
            (flangePoint dh w.jointPositions) (flangePoint dh w'.jointPositions)).map
              Prod.fst).getD w.blendRadius }
        :: (blendCorners dh deviation (i + 1) (flangePoint dh w.jointPositions) wps
            (w' :: ws)).1 := by
  rw [blendCorners]
  cases cornerBlend deviation i wp.blendRadius p (flangePoint dh w.jointPositions)
    (flangePoint dh w'.jointPositions) <;> rfl

theorem cornerBlend_index (cap : Option ℝ) (p0 p1 p2 : Vec3) (i j : Nat) :
    (cornerBlend deviation i cap p0 p1 p2).map Prod.fst
      = (cornerBlend deviation j cap p0 p1 p2).map Prod.fst := by
  unfold cornerBlend
  cases cornerDeflection p0 p1 p2 <;> rfl

/-! ## One stage after the other -/

theorem resolveWaypoints_append {first rest : List PlanWaypoint} :
    resolveWaypoints dh limits frames i q (first ++ rest) = .ok qs ↔
      ∃ qs₁ qs₂, resolveWaypoints dh limits frames i q first = .ok qs₁
        ∧ resolveWaypoints dh limits frames (i + first.length) (qs₁.getLastD q) rest = .ok qs₂
        ∧ qs = qs₁ ++ qs₂ := by
  induction first generalizing i q qs with
  | nil =>
      constructor
      · intro h
        exact ⟨[], qs, rfl, h, rfl⟩
      · rintro ⟨qs₁, qs₂, h₁, h₂, rfl⟩
        cases h₁
        exact h₂
  | cons wp first ih =>
      have hnext : i + (wp :: first).length = i + 1 + first.length := by
        rw [List.length_cons]
        omega
      rw [hnext]
      constructor
      · -- the second part starts from the last configuration of the first, which is its seed
        intro h
        obtain ⟨q', hq', h⟩ := Except.bind_eq_ok.mp h
        obtain ⟨qs', hqs', heq⟩ := Except.bind_eq_ok.mp h
        cases heq
        obtain ⟨qs₁, qs₂, h₁, h₂, rfl⟩ := ih.mp hqs'
        refine ⟨q' :: qs₁, qs₂, Except.bind_eq_ok.mpr ⟨q', hq', ?_⟩, ?_, rfl⟩
        · exact Except.bind_eq_ok.mpr ⟨qs₁, h₁, rfl⟩
        · rwa [List.getLastD_cons]
      · rintro ⟨qs₁, qs₂, h₁, h₂, rfl⟩
        obtain ⟨q', hq', h₁⟩ := Except.bind_eq_ok.mp h₁
        obtain ⟨qs', hqs', heq⟩ := Except.bind_eq_ok.mp h₁
        cases heq
        rw [List.getLastD_cons] at h₂
        refine Except.bind_eq_ok.mpr ⟨q', hq', ?_⟩
        exact Except.bind_eq_ok.mpr ⟨qs' ++ qs₂, ih.mpr ⟨qs', qs₂, hqs', h₂, rfl⟩, rfl⟩

theorem planSegments_append {first rest : List (PlanWaypoint × Joints ℝ)} {ss : List Segment} :
    planSegments dh limits speed i q (first ++ rest) = .ok ss ↔
      ∃ ss₁ ss₂, planSegments dh limits speed i q first = .ok ss₁
        ∧ planSegments dh limits speed (i + first.length) ((first.map Prod.snd).getLastD q) rest
          = .ok ss₂
        ∧ ss = ss₁ ++ ss₂ := by
  induction first generalizing i q ss with
  | nil =>
      constructor
      · intro h
        exact ⟨[], ss, rfl, h, rfl⟩
      · rintro ⟨ss₁, ss₂, h₁, h₂, rfl⟩
        cases h₁
        exact h₂
  | cons p first ih =>
      obtain ⟨wp, toQ⟩ := p
      have hnext : i + ((wp, toQ) :: first).length = i + 1 + first.length := by
        rw [List.length_cons]
        omega
      rw [hnext, List.map_cons, List.getLastD_cons]
      constructor
      · intro h
        obtain ⟨s, hs, h⟩ := Except.bind_eq_ok.mp h
        obtain ⟨ss', hss', heq⟩ := Except.bind_eq_ok.mp h
        cases heq
        obtain ⟨ss₁, ss₂, h₁, h₂, rfl⟩ := ih.mp hss'
        refine ⟨s :: ss₁, ss₂, Except.bind_eq_ok.mpr ⟨s, hs, ?_⟩, h₂, rfl⟩
        exact Except.bind_eq_ok.mpr ⟨ss₁, h₁, rfl⟩
      · rintro ⟨ss₁, ss₂, h₁, h₂, rfl⟩
        obtain ⟨s, hs, h₁⟩ := Except.bind_eq_ok.mp h₁
        obtain ⟨ss', hss', heq⟩ := Except.bind_eq_ok.mp h₁
        cases heq
        refine Except.bind_eq_ok.mpr ⟨s, hs, ?_⟩
        exact Except.bind_eq_ok.mpr ⟨ss' ++ ss₂, ih.mpr ⟨ss', ss₂, hss', h₂, rfl⟩, rfl⟩

theorem blendCorners_index (wps : List PlanWaypoint) (ws : List PlannedWaypoint) (p : Vec3)
    (i j : Nat) :
    (blendCorners dh deviation i p wps ws).1 = (blendCorners dh deviation j p wps ws).1 := by
  induction wps generalizing i j p ws with
  | nil => rfl
  | cons wp wps ih =>
      match ws with
      | [] => rfl
      | [w] => rfl
      | w :: w' :: ws =>
          rw [blendCorners_cons, blendCorners_cons, cornerBlend_index _ _ _ _ i j, ih]

/-- A list of waypoints that another is carried on by: its last one is not stopped at. -/
def CarriedOn (first rest whole : List PlannedWaypoint) : Prop :=
  ∃ init w r, first = init ++ [w] ∧ whole = init ++ { w with blendRadius := r } :: rest

theorem CarriedOn.cons {first rest whole : List PlannedWaypoint} (h : CarriedOn first rest whole)
    (w : PlannedWaypoint) : CarriedOn (w :: first) rest (w :: whole) := by
  obtain ⟨init, last, r, rfl, rfl⟩ := h
  exact ⟨w :: init, last, r, rfl, rfl⟩

theorem blendCorners_append {first rest : List PlanWaypoint} {ws₁ ws₂ : List PlannedWaypoint}
    (p : Vec3) (i j : Nat) (hlen : ws₁.length = first.length) (hfirst : ws₁ ≠ [])
    (hrest : ws₂ ≠ []) (hend : ∀ w ∈ ws₁.getLast?, w.jointPositions = q) :
    CarriedOn (blendCorners dh deviation i p first ws₁).1
      (blendCorners dh deviation j (flangePoint dh q) rest ws₂).1
      (blendCorners dh deviation i p (first ++ rest) (ws₁ ++ ws₂)).1 := by
  induction first generalizing i p ws₁ with
  | nil => exact absurd (List.length_eq_zero_iff.mp hlen) hfirst
  | cons wp first ih =>
      obtain ⟨w₂, ws₂, rfl⟩ := List.exists_cons_of_ne_nil hrest
      match ws₁ with
      | [w] =>
          -- the corner between the two parts: neither part alone has it, so here the radius may
          -- differ
          have hnil : first = [] := by simpa using hlen.symm
          subst hnil
          obtain rfl : w.jointPositions = q := hend w rfl
          rw [List.singleton_append, List.singleton_append, blendCorners_cons,
            blendCorners_index rest _ _ (i + 1) j]
          exact ⟨[], w, _, rfl, rfl⟩
      | w :: w' :: ws =>
          -- a corner inside the first part, which is blended as it is there
          have hih := @ih (w' :: ws) (flangePoint dh w.jointPositions) (i + 1) (by simpa using hlen)
            (List.cons_ne_nil _ _) (by simpa [List.getLast?_cons_cons] using hend)
          rw [List.cons_append, List.cons_append, List.cons_append, blendCorners_cons,
            blendCorners_cons]
          exact hih.cons _

/-! ## The whole planner -/

/-- What is made of the stages of a plan. -/
def assembled (request : PlanRequest) (dh : DhParameters) (limits : Limits ℝ)
    (startQ : Joints ℝ) (segments : List Segment) : PlannedTrajectory :=
  let blended := blendCorners dh request.maxPathDeviation 0 (flangePoint dh startQ)
    request.waypoints (segments.map Segment.planned)
  { robotModel := request.robotModel
    startJointPositions := startQ
    waypoints := blended.1
    durationEstimate := (segments.map Segment.duration).sum
    limits := limits
    warnings := segments.flatMap Segment.warnings ++ blended.2 }

/-- The arm of a request, and the limits it is planned within. -/
structure Setting (src : LimitSource) (request : PlanRequest) (dh : DhParameters)
    (limits : Limits ℝ) : Prop where
  model : DhParameters.forModel request.robotModel = some dh
  limits : ∃ modelled, modelLimits src request.robotModel = .ok modelled
    ∧ limits = (request.accelerationMax.elim modelled modelled.withAcceleration).scaled
      request.scaling

/-- The stages of a plan, in its setting. -/
structure Staged (request : PlanRequest) (dh : DhParameters) (limits : Limits ℝ)
    (startQ : Joints ℝ) (qs : List (Joints ℝ)) (segments : List Segment) : Prop where
  some : request.waypoints ≠ []
  few : request.waypoints.length ≤ maxWaypoints
  start : resolve request.start none dh limits request.frameConfig 0 0 = .ok startQ
  resolved : resolveWaypoints dh limits request.frameConfig 0 startQ request.waypoints = .ok qs
  timed : planSegments dh limits request.maxCartesianSpeed 0 startQ (request.waypoints.zip qs)
    = .ok segments

theorem plan_eq_ok : plan src request = .ok traj ↔ ∃ dh limits startQ qs segments,
    Setting src request dh limits ∧ Staged request dh limits startQ qs segments
      ∧ traj = assembled request dh limits startQ segments := by
  constructor
  · intro h
    obtain ⟨dh, hdh, h⟩ := Except.bind_eq_ok.mp h
    obtain ⟨_, hne, h⟩ := Except.bind_eq_ok.mp h
    obtain ⟨_, hlen, h⟩ := Except.bind_eq_ok.mp h
    obtain ⟨modelled, hmodelled, h⟩ := Except.bind_eq_ok.mp h
    obtain ⟨startQ, hstart, h⟩ := Except.bind_eq_ok.mp h
    obtain ⟨qs, hqs, h⟩ := Except.bind_eq_ok.mp h
    obtain ⟨segments, hsegments, h⟩ := Except.bind_eq_ok.mp h
    exact ⟨dh, _, startQ, qs, segments, ⟨Except.ofOption_eq_ok.mp hdh, modelled, hmodelled, rfl⟩,
      ⟨Except.require_eq_ok.mp hne, Except.require_eq_ok.mp hlen, hstart, hqs, hsegments⟩,
      (Except.ok.inj h).symm⟩
  · -- in the order in which `plan` checks them
    rintro ⟨dh, limits, startQ, qs, segments, ⟨hdh, modelled, hmodelled, rfl⟩, hs, rfl⟩
    refine Except.bind_eq_ok.mpr ⟨dh, Except.ofOption_eq_ok.mpr hdh, ?_⟩
    refine Except.bind_eq_ok.mpr ⟨(), Except.require_eq_ok.mpr hs.some, ?_⟩
    refine Except.bind_eq_ok.mpr ⟨(), Except.require_eq_ok.mpr hs.few, ?_⟩
    refine Except.bind_eq_ok.mpr ⟨modelled, hmodelled, ?_⟩
    refine Except.bind_eq_ok.mpr ⟨startQ, hs.start, ?_⟩
    refine Except.bind_eq_ok.mpr ⟨qs, hs.resolved, ?_⟩
    exact Except.bind_eq_ok.mpr ⟨segments, hs.timed, rfl⟩

theorem Setting.unique {dh' : DhParameters} {limits' : Limits ℝ}
    (h : Setting src request dh limits) (h' : Setting src request dh' limits') :
    dh = dh' ∧ limits = limits' := by
  obtain ⟨hdh, modelled, hmodelled, rfl⟩ := h
  obtain ⟨hdh', modelled', hmodelled', rfl⟩ := h'
  rw [hdh] at hdh'
  cases hdh'
  rw [hmodelled] at hmodelled'
  cases hmodelled'
  exact ⟨rfl, rfl⟩

/-! ## Cutting a request in two -/

/-- A request without the waypoints after a cut, -/
def firstPart (request : PlanRequest) (first : List PlanWaypoint) : PlanRequest :=
  { request with waypoints := first }

/-- and one for these, from where the cut is. -/
def lastPart (request : PlanRequest) (q : Joints ℝ) (rest : List PlanWaypoint) :
    PlanRequest :=
  { request with start := .joints q, waypoints := rest }

/-- How a plan is made of the plans of its parts. -/
structure Joined (traj₁ traj₂ traj : PlannedTrajectory) : Prop where
  model : traj₁.robotModel = traj.robotModel ∧ traj₂.robotModel = traj.robotModel
  limits : traj₁.limits = traj.limits ∧ traj₂.limits = traj.limits
  start : traj₁.startJointPositions = traj.startJointPositions
  waypoints : CarriedOn traj₁.waypoints traj₂.waypoints traj.waypoints
  duration : traj.durationEstimate = traj₁.durationEstimate + traj₂.durationEstimate

variable {first rest : List PlanWaypoint} {startQ : Joints ℝ} {qs₁ qs₂ : List (Joints ℝ)}
  {ss₁ ss₂ ss : List Segment}

theorem Staged.segments_positions (h : Staged request dh limits startQ qs ss) :
    (ss.map Segment.planned).map PlannedWaypoint.jointPositions = qs :=
  Proof.segments_positions (resolveWaypoints_length h.resolved) h.timed

theorem joined_assembled (hw : request.waypoints = first ++ rest)
    (h₁ : Staged (firstPart request first) dh limits startQ qs₁ ss₁)
    (h₂ : Staged (lastPart request q rest) dh limits q qs₂ ss₂) (hq : qs₁.getLastD startQ = q)
    (hss : SameTiming (ss₁ ++ ss₂) ss) :
    Joined (assembled (firstPart request first) dh limits startQ ss₁)
      (assembled (lastPart request q rest) dh limits q ss₂)
      (assembled request dh limits startQ ss) := by
  have hpos₁ := h₁.segments_positions
  have hpos₂ := h₂.segments_positions
  have hlen₁ : (ss₁.map Segment.planned).length = first.length := by
    have := congrArg List.length hpos₁
    rwa [List.length_map, resolveWaypoints_length h₁.resolved] at this
  have hlen₂ : (ss₂.map Segment.planned).length = rest.length := by
    have := congrArg List.length hpos₂
    rwa [List.length_map, resolveWaypoints_length h₂.resolved] at this
  have hsome₁ : ss₁.map Segment.planned ≠ [] := by
    rw [← List.length_pos_iff_ne_nil, hlen₁, List.length_pos_iff_ne_nil]
    exact h₁.some
  have hsome₂ : ss₂.map Segment.planned ≠ [] := by
    rw [← List.length_pos_iff_ne_nil, hlen₂, List.length_pos_iff_ne_nil]
    exact h₂.some
  -- the last waypoint of the first part is where the second one starts
  have hend : ∀ w ∈ (ss₁.map Segment.planned).getLast?, w.jointPositions = q := by
    intro w hlast
    rw [← hq, ← hpos₁, List.getLastD_eq_getLast?, List.getLast?_map, Option.mem_def.mp hlast]
    rfl
  refine ⟨⟨rfl, rfl⟩, ⟨rfl, rfl⟩, rfl, ?_, ?_⟩
  · show CarriedOn _ _ (blendCorners dh request.maxPathDeviation 0 (flangePoint dh startQ)
      request.waypoints (ss.map Segment.planned)).1
    rw [hw, hss.planned, List.map_append]
    exact blendCorners_append (flangePoint dh startQ) 0 0 hlen₁ hsome₁ hsome₂ hend
  · show (ss.map Segment.duration).sum = _
    rw [hss.duration, List.map_append, List.sum_append]
    rfl

theorem SameTiming.symm (h : SameTiming ss₁ ss₂) : SameTiming ss₂ ss₁ :=
  ⟨h.planned.symm, h.duration.symm⟩

theorem SameTiming.append (ss : List Segment) (h : SameTiming ss₁ ss₂) :
    SameTiming (ss ++ ss₁) (ss ++ ss₂) := by
  refine ⟨?_, ?_⟩
  · rw [List.map_append, List.map_append, h.planned]
  · rw [List.map_append, List.map_append, h.duration]

/-- The segments on both sides of a cut are those of the two parts. -/
theorem zip_cut (hqs : resolveWaypoints dh limits frames i startQ first = .ok qs₁)
    (rest : List PlanWaypoint) (qs₂ : List (Joints ℝ)) :
    (first ++ rest).zip (qs₁ ++ qs₂) = first.zip qs₁ ++ rest.zip qs₂
      ∧ (first.zip qs₁).map Prod.snd = qs₁ := by
  have hlen := resolveWaypoints_length hqs
  exact ⟨List.zip_append hlen.symm, List.map_snd_zip hlen.le⟩

theorem Staged.cut (h : Staged request dh limits startQ qs ss)
    (hw : request.waypoints = first ++ rest) (hfirst : first ≠ []) (hrest : rest ≠ []) :
    ∃ q qs₁ qs₂ ss₁ ss₂, Staged (firstPart request first) dh limits startQ qs₁ ss₁
      ∧ Staged (lastPart request q rest) dh limits q qs₂ ss₂ ∧ qs₁.getLastD startQ = q
      ∧ SameTiming (ss₁ ++ ss₂) ss := by
  have hresolved := h.resolved
  have htimed := h.timed
  have hfew := h.few
  rw [hw] at hresolved htimed hfew
  rw [List.length_append] at hfew
  obtain ⟨qs₁, qs₂, h₁, h₂, rfl⟩ := resolveWaypoints_append.mp hresolved
  obtain ⟨hzip, hends⟩ := zip_cut h₁ rest qs₂
  rw [hzip] at htimed
  obtain ⟨ss₁, ss₂, ht₁, ht₂, rfl⟩ := planSegments_append.mp htimed
  rw [hends] at ht₂
  obtain ⟨ss₂', ht₂', hsame⟩ := planSegments_index ht₂ 0
  -- where the cut is, the arm may stand
  have hinside : Inside limits (qs₁.getLastD startQ) := by
    have hne : first.length - 1 < first.length :=
      Nat.sub_lt (List.length_pos_iff_ne_nil.mpr hfirst) Nat.one_pos
    obtain ⟨q, seed, index, hq, hres⟩ := resolveWaypoints_get h₁ (List.getElem?_eq_getElem hne)
    rw [List.getLastD_eq_getLast?, List.getLast?_eq_getElem?, resolveWaypoints_length h₁, hq]
    exact resolve_inside hres
  refine ⟨_, qs₁, qs₂, ss₁, ss₂', ⟨hfirst, ?_, h.start, h₁, ht₁⟩,
    ⟨hrest, ?_, resolve_joints hinside, resolveWaypoints_index h₂ 0, ht₂'⟩, rfl,
    (hsame.append ss₁).symm⟩
  · show first.length ≤ maxWaypoints
    omega
  · show rest.length ≤ maxWaypoints
    omega

theorem Staged.join (h₁ : Staged (firstPart request first) dh limits startQ qs₁ ss₁)
    (h₂ : Staged (lastPart request q rest) dh limits q qs₂ ss₂) (hq : qs₁.getLastD startQ = q)
    (hw : request.waypoints = first ++ rest) (hfew : request.waypoints.length ≤ maxWaypoints) :
    ∃ ss, Staged request dh limits startQ (qs₁ ++ qs₂) ss ∧ SameTiming (ss₁ ++ ss₂) ss := by
  have hresolved₁ : resolveWaypoints dh limits request.frameConfig 0 startQ first = .ok qs₁ :=
    h₁.resolved
  have hresolved₂ : resolveWaypoints dh limits request.frameConfig 0 q rest = .ok qs₂ :=
    h₂.resolved
  have htimed₁ : planSegments dh limits request.maxCartesianSpeed 0 startQ (first.zip qs₁)
      = .ok ss₁ := h₁.timed
  have htimed₂ : planSegments dh limits request.maxCartesianSpeed 0 q (rest.zip qs₂)
      = .ok ss₂ := h₂.timed
  obtain ⟨hzip, hends⟩ := zip_cut hresolved₁ rest qs₂
  obtain ⟨ss₂', htimed₂', hsame⟩ := planSegments_index htimed₂ (0 + (first.zip qs₁).length)
  refine ⟨ss₁ ++ ss₂', ⟨?_, hfew, h₁.start, ?_, ?_⟩, hsame.append ss₁⟩
  · rw [hw]
    exact List.append_ne_nil_of_left_ne_nil h₁.some _
  · rw [hw]
    refine resolveWaypoints_append.mpr ⟨qs₁, qs₂, hresolved₁, ?_, rfl⟩
    rw [hq]
    exact resolveWaypoints_index hresolved₂ _
  · rw [hw, hzip]
    refine planSegments_append.mpr ⟨ss₁, ss₂', htimed₁, ?_, rfl⟩
    rw [hends, hq]
    exact htimed₂'

/--
**A plan is made of the plans of its parts.** A request that is cut at one of its waypoints has
a plan only if what is before the cut has one, and what is after it has one from where the
first one ends; and then the plan is these two, one after the other, but for the corner at the
cut. Two that fit and are not too long together make a plan of the whole.
-/
theorem plan_parts (hw : request.waypoints = first ++ rest) (hfirst : first ≠ [])
    (hrest : rest ≠ []) :
    (∀ traj, plan src request = .ok traj → ∃ traj₁ traj₂ q,
        plan src (firstPart request first) = .ok traj₁
          ∧ (configs traj₁).getLast? = some q
          ∧ plan src (lastPart request q rest) = .ok traj₂ ∧ Joined traj₁ traj₂ traj)
      ∧ ∀ traj₁ traj₂ q, plan src (firstPart request first) = .ok traj₁ →
        (configs traj₁).getLast? = some q → plan src (lastPart request q rest) = .ok traj₂ →
          request.waypoints.length ≤ maxWaypoints →
            ∃ traj, plan src request = .ok traj ∧ Joined traj₁ traj₂ traj := by
  -- the first part ends where its last configuration is, or at the start if it has none
  have hlast {limits : Limits ℝ} {startQ : Joints ℝ} {qs₁ : List (Joints ℝ)} {ss₁ : List Segment}
      {dh : DhParameters} (h : Staged (firstPart request first) dh limits startQ qs₁ ss₁) :
      (configs (assembled (firstPart request first) dh limits startQ ss₁)).getLast?
        = some (qs₁.getLastD startQ) := by
    have hpos : (assembled (firstPart request first) dh limits startQ ss₁).waypoints.map
        PlannedWaypoint.jointPositions = qs₁ :=
      (blendCorners_positions ..).trans h.segments_positions
    rw [configs, hpos, List.getLast?_cons, List.getLastD_eq_getLast?]
    rfl
  constructor
  · intro traj h
    obtain ⟨dh, limits, startQ, qs, ss, hset, hs, rfl⟩ := plan_eq_ok.mp h
    obtain ⟨q, qs₁, qs₂, ss₁, ss₂, h₁, h₂, hq, hss⟩ := hs.cut hw hfirst hrest
    exact ⟨_, _, q, plan_eq_ok.mpr ⟨dh, limits, startQ, qs₁, ss₁, ⟨hset.model, hset.limits⟩, h₁, rfl⟩,
      by rw [hlast h₁, hq],
      plan_eq_ok.mpr ⟨dh, limits, q, qs₂, ss₂, ⟨hset.model, hset.limits⟩, h₂, rfl⟩,
      joined_assembled hw h₁ h₂ hq hss⟩
  · intro traj₁ traj₂ q hp₁ hq hp₂ hfew
    obtain ⟨dh, limits, startQ, qs₁, ss₁, hset, h₁, rfl⟩ := plan_eq_ok.mp hp₁
    obtain ⟨dh', limits', q', qs₂, ss₂, hset', h₂, rfl⟩ := plan_eq_ok.mp hp₂
    have hset₁ : Setting src request dh limits := ⟨hset.model, hset.limits⟩
    have hset₂ : Setting src request dh' limits' := ⟨hset'.model, hset'.limits⟩
    -- both parts are planned with the model and limits of the whole
    obtain ⟨rfl, rfl⟩ := hset₁.unique hset₂
    rw [hlast h₁] at hq
    -- a start given in joints is resolved to itself
    obtain ⟨rfl, -⟩ := resolve_joints_ok h₂.start
    have hend := Option.some.inj hq
    obtain ⟨ss, hs, hss⟩ := h₁.join h₂ hend hw hfew
    exact ⟨_, plan_eq_ok.mpr ⟨dh, limits, startQ, qs₁ ++ qs₂, ss, hset₁, hs, rfl⟩,
      joined_assembled hw h₁ h₂ hend hss⟩

/-- Half a turn in two quarters, cut between them. -/
theorem plan_parts_quarter : ∃ traj traj₁ traj₂ q, plan bench.limits quarterRequest = .ok traj
    ∧ plan bench.limits (firstPart quarterRequest [jointMove (turned (Real.pi / 2))]) = .ok traj₁
    ∧ plan bench.limits (lastPart quarterRequest q [jointMove (turned Real.pi)]) = .ok traj₂
    ∧ Joined traj₁ traj₂ traj := by
  obtain ⟨out, -, hplan, -⟩ := quarter_planned
  have hw : quarterRequest.waypoints
      = [jointMove (turned (Real.pi / 2))] ++ [jointMove (turned Real.pi)] := rfl
  obtain ⟨traj₁, traj₂, q, h₁, -, h₂, hjoined⟩ :=
    (plan_parts hw (List.cons_ne_nil _ _) (List.cons_ne_nil _ _)).1 out.2 hplan
  exact ⟨out.2, traj₁, traj₂, q, hplan, h₁, h₂, hjoined⟩

/-! ## What is left of a motion -/

theorem CarriedOn.drop {first rest whole : List PlannedWaypoint} (h : CarriedOn first rest whole) :
    whole.drop first.length = rest := by
  obtain ⟨init, w, r, rfl, rfl⟩ := h
  rw [List.length_append, List.length_singleton, ← List.drop_drop, List.drop_left]
  rfl

theorem CarriedOn.positions {first rest whole : List PlannedWaypoint}
    (h : CarriedOn first rest whole) : whole.map PlannedWaypoint.jointPositions
      = first.map PlannedWaypoint.jointPositions ++ rest.map PlannedWaypoint.jointPositions := by
  obtain ⟨init, w, r, rfl, rfl⟩ := h
  simp

/-- What a plan has after its first waypoints is what would be planned from the last of them. -/
theorem plan_rest (h : plan src request = .ok traj) {start : Joints ℝ}
    (hstart : request.start = .joints start) {n : Nat} (hn : n < traj.waypoints.length) :
    ∃ q traj', (configs traj)[n]? = some q
      ∧ plan src (lastPart request q (request.waypoints.drop n)) = .ok traj'
      ∧ traj'.waypoints = traj.waypoints.drop n := by
  have hcount := (plan_route h).choose_spec.choose_spec.2
  cases n with
  | zero =>
      -- nothing is done yet, and the rest is the request itself
      obtain ⟨dh, limits, startQ, qs, ss, hset, hs, rfl⟩ := plan_eq_ok.mp h
      have hq := hs.start
      rw [hstart] at hq
      obtain ⟨rfl, -⟩ := resolve_joints_ok hq
      have hsame : lastPart request startQ (request.waypoints.drop 0) = request := by
        rw [lastPart, ← hstart]
        rfl
      exact ⟨startQ, _, rfl, hsame ▸ h, rfl⟩
  | succ n =>
      have hfirst : request.waypoints.take (n + 1) ≠ [] := by
        rw [← List.length_pos_iff_ne_nil, List.length_take]
        omega
      have hrest : request.waypoints.drop (n + 1) ≠ [] := by
        rw [← List.length_pos_iff_ne_nil, List.length_drop]
        omega
      -- the rest of the plan is the second part of the request cut there
      obtain ⟨traj₁, traj₂, q, h₁, hq, h₂, hjoin⟩ :=
        (plan_parts (List.take_append_drop _ _).symm hfirst hrest).1 traj h
      have hlen : traj₁.waypoints.length = n + 1 := by
        rw [(plan_route h₁).choose_spec.choose_spec.2]
        show (request.waypoints.take (n + 1)).length = n + 1
        rw [List.length_take]
        omega
      refine ⟨q, traj₂, ?_, h₂, ?_⟩
      · rw [List.getLast?_eq_getElem?, configs, List.length_cons, List.length_map, hlen,
          Nat.add_sub_cancel] at hq
        rw [configs, List.getElem?_cons_succ, hjoin.waypoints.positions, List.getElem?_append_left]
        · exact hq
        · rw [List.length_map, hlen]
          exact Nat.lt_succ_self n
      · rw [← hlen, hjoin.waypoints.drop]

theorem remaining_drop {c remaining : RobotCommand ℝ} {n : Nat} (hw : c.waypoints ≠ [])
    (h : remainingCommand c n = .ok remaining) :
    n < c.waypoints.length ∧ remaining.waypoints = c.waypoints.drop n := by
  unfold remainingCommand at h
  rw [if_neg hw] at h
  split at h
  · cases h
  · split at h
    · cases h
    · rename_i hle
      cases h
      exact ⟨not_le.mp hle, rfl⟩

/--
**Resumed as if planned again.** What a planned motion is re-issued with after some of its
waypoints is what the planner would make of the rest of the request, from the configuration the
last of them is at.
-/
theorem resumed_as_replanned {env : PlannerEnv} {command remaining : RobotCommand ℝ}
    {joints : List ℝ} {out : List (Waypoint ℝ) × PlannedTrajectory} {n : Nat}
    (h : env.waypointsForCommand command joints = .ok out) (hid : command.trajectoryId = "")
    (hrest : remainingCommand { command with waypoints := out.1 } n = .ok remaining) :
    ∃ request q traj', Poses env command joints request ∧ (configs out.2)[n]? = some q
      ∧ plan env.limits (lastPart request q (request.waypoints.drop n)) = .ok traj'
      ∧ remaining.waypoints = toWaypoints traj' command.tcpInFaceplate
        (if command.usePayload then command.payload else "") := by
  obtain ⟨request, hposes, hplan, hout⟩ := waypointsForCommand_planned h hid
  have hcount := (plan_route hplan).choose_spec.choose_spec.2
  obtain ⟨start, ps, hstart, hps, rfl⟩ := id hposes
  have hne : out.2.waypoints.length ≠ 0 := by
    obtain ⟨dh, limits, startQ, qs, ss, hset, hs, -⟩ := plan_eq_ok.mp hplan
    rw [hcount]
    exact fun he => hs.some (List.length_eq_zero_iff.mp he)
  have hlen : out.1.length = out.2.waypoints.length := by
    rw [hout, toWaypoints, List.length_map]
  have hsome : out.1 ≠ [] := by
    rw [← List.length_pos_iff_ne_nil]
    omega
  obtain ⟨hn, hdrop⟩ := remaining_drop hsome hrest
  dsimp only at hn hdrop
  rw [hlen] at hn
  -- dropping waypoints of the command is dropping segments of its plan
  obtain ⟨q, traj', hq, hplan', hwaypoints⟩ := plan_rest hplan rfl hn
  refine ⟨_, q, traj', hposes, hq, hplan', ?_⟩
  rw [hdrop, hout, toWaypoints, toWaypoints, hwaypoints, List.map_drop]

/-- The second quarter, after the first one was done. -/
theorem resumed_as_replanned_quarter : ∃ out remaining,
    bench.waypointsForCommand quarterCommand (List.ofFn (turned 0)) = .ok out
      ∧ remainingCommand { quarterCommand with waypoints := out.1 } 1 = .ok remaining
      ∧ ∃ request q traj', Poses bench quarterCommand (List.ofFn (turned 0)) request
        ∧ (configs out.2)[1]? = some q
        ∧ plan bench.limits (lastPart request q (request.waypoints.drop 1)) = .ok traj'
        ∧ remaining.waypoints = toWaypoints traj' quarterCommand.tcpInFaceplate "" := by
  obtain ⟨out, hout, -, hconfigs⟩ := quarter_planned
  obtain ⟨-, -, -, hwaypoints⟩ := waypointsForCommand_planned hout rfl
  have hlen : out.1.length = 2 := by
    have hlen := congrArg List.length hconfigs
    rw [configs, List.length_cons, List.length_map] at hlen
    rw [hwaypoints, toWaypoints, List.length_map]
    exact Nat.succ.inj hlen
  have hkind : Text.endsWith quarterCommand.commandType "_relative" = false := by decide
  obtain ⟨remaining, hrest⟩ :
      ∃ remaining, remainingCommand { quarterCommand with waypoints := out.1 } 1 = .ok remaining :=
    exists_remaining hkind fun _ => by
      show 1 < out.1.length
      omega
  exact ⟨out, remaining, hout, hrest, resumed_as_replanned hout rfl hrest⟩

end

end UrRedisDriver.Proof
