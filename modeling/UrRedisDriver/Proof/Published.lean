import UrRedisDriver.Interfaces.StatePublisher
import UrRedisDriver.Proof.Ahead

/-!
# The published frames against the arm

The URDF places the tool at `Rz(pi)` times the forward kinematics. Half a turn added to the
first joint takes that `Rz(pi)` back, so what is published from `base_link` to `tool0` is the
forward kinematics in the UR base frame, for as long as the chain takes the added half turn:
its range check is on the sum.
-/

namespace UrRedisDriver.Proof

open UrRedisDriver UnitQuaternion Matrix
open Real (sin cos pi)
open scoped Literals

noncomputable section

variable {dh : DhParameters}

/-! ## Half a turn of the first joint -/

/-- The turn of the URDF's base joint. -/
theorem rzPi_matrix : matrix rzPi.rot = !![-1, 0, 0; 0, -1, 0; 0, 0, 1] := by
  have haxis : (![0, 0, pi] : Vec3) = pi • Vec3.zAxis.1 := by
    ext i
    fin_cases i <;> simp [Vec3.zAxis]
  rw [rzPi, haxis, fromScaledAxis_smul Vec3.zAxis Real.pi_pos.le, matrix_zAxis, Real.cos_pi,
    Real.sin_pi, neg_zero]

/-- Half a turn back and half a turn on. -/
theorem rzPi_dhTransform (θ d a α : ℝ) :
    Motion.Same (rzPi * dhTransform (θ + pi) d a α) (dhTransform θ d a α) := by
  apply same_of_matrix
  · rw [Motion.mul_rot, matrix_mul, rzPi_matrix, dhTransform_matrix, dhTransform_matrix,
      Real.cos_add_pi, Real.sin_add_pi]
    ext i j
    fin_cases i <;> fin_cases j <;> simp [Matrix.mul_apply, Fin.sum_univ_three]
  · rw [Motion.mul_trans, smul_def, rzPi_matrix, dhTransform_trans, dhTransform_trans,
      Real.cos_add_pi, Real.sin_add_pi]
    ext i
    fin_cases i <;> simp [rzPi]

/-- The joints the chain is set to. -/
def halfTurned (q : Joints ℝ) : Joints ℝ := Function.update q 0 (q 0 + pi)

/-- **The added half turn takes the base joint's back**, wherever the arm is. -/
theorem rzPi_forwardKinematics (q : Joints ℝ) :
    Motion.Same (rzPi * forwardKinematics dh (halfTurned q)) (forwardKinematics dh q) := by
  have hfirst : Motion.Same (rzPi * dh.link (halfTurned q) 0) (dh.link q 0) := by
    have hturn := rzPi_dhTransform (q 0) (dh.row 0).1 (dh.row 0).2.1 (dh.row 0).2.2
    simpa only [DhParameters.link, halfTurned, Function.update_self] using hturn
  have hrest : ∀ i, i ≠ 0 → dh.link (halfTurned q) i = dh.link q i := by
    intro i hi
    rw [DhParameters.link, halfTurned, Function.update_of_ne hi]
    rfl
  rw [forwardKinematics_eq, forwardKinematics_eq, hrest 1 (by decide), hrest 2 (by decide),
    hrest 3 (by decide), hrest 4 (by decide), hrest 5 (by decide)]
  simp only [← mul_assoc]
  exact ((((hfirst.mul (.refl _)).mul (.refl _)).mul (.refl _)).mul (.refl _)).mul (.refl _)

theorem jointsForTf_ofFn {N C : Type} (env : PublisherEnv ℝ Pose N C) (q : Joints ℝ)
    (hpi : env.num.pi = pi) :
    jointsForTf env (List.ofFn q) = List.ofFn (halfTurned q) := by
  rw [List.ofFn_succ, List.ofFn_succ, jointsForTf, hpi]
  rfl

/-! ## Reading the published frames back -/

/-- The isometry of a transform whose rotation is a unit quaternion. -/
def toIsometry (t : SPTransform ℝ) : Option Pose :=
  if h : t.rotation.w ^ 2 + t.rotation.x ^ 2 + t.rotation.y ^ 2 + t.rotation.z ^ 2 = 1 then
    some ⟨ofParts t.rotation.w t.rotation.x t.rotation.y t.rotation.z h,
      ![t.translation.x, t.translation.y, t.translation.z]⟩
  else none

theorem toIsometry_toSpTransform (p : Pose) : toIsometry (isometryToSpTransform p) = some p := by
  have hunit := (mem_unitary_iff p.rot.1).mp p.rot.2
  refine (dif_pos hunit).trans (congrArg some ?_)
  refine Motion.ext (ext_parts rfl rfl rfl rfl) (funext fun i => ?_)
  fin_cases i <;> rfl

/-- The tree that a list of transforms makes, each under its own frame. -/
def publishedTree (ts : List (SPTransformStamped ℝ)) : FrameTree String Pose := fun frame =>
  (Rows.latest SPTransformStamped.childFrameId ts frame).bind fun t =>
    (toIsometry t.transform).map fun m => (t.parentFrameId, m)

/-- Every frame of the arm is published, and together they lead to where the tool is. -/
def Tracks (params : URDFParameters) (dh : DhParameters) (q : Joints ℝ)
    (writes : List (Write ℝ)) : Prop :=
  ∃ ts, .transforms ts ∈ writes
    ∧ (∀ r ∈ relations, ∃ t ∈ ts, t.parentFrameId = params.frame r.1
      ∧ t.childFrameId = params.frame r.2)
    ∧ (∃ g, (publishedTree ts).Leads (params.frame "base_link") (params.frame "tool0") g)
    ∧ ∀ g, (publishedTree ts).Leads (params.frame "base_link") (params.frame "tool0") g →
      Motion.Same g (forwardKinematics dh q)

/-! ## What is relied on of the chain -/

/-- The position limits of a URDF; a continuous joint has none. -/
abbrev PositionLimits := Fin 6 → Option (ℝ × ℝ)

def Within (limits : PositionLimits) (q : Joints ℝ) : Prop :=
  ∀ i, ∀ r ∈ limits i, r.1 ≤ q i ∧ q i ≤ r.2

section Chains

variable {N C : Type} {chain : Chain ℝ Pose N C} {limits : PositionLimits}

/-- Where the chain holds a link to be. -/
def linkPlace (chain : Chain ℝ Pose N C) (c : C) (link : String) : Pose :=
  ((Rows.latest chain.frameName chain.nodes link).bind (chain.worldTransform c)).getD 1

/--
The chain was read from the URDF of an arm: its links are told apart by their names and hang
on each other as the driver's frames do, and setting its joints either is refused and changes
nothing, a value being outside its limits, or puts the tool where `Rz(pi) * DH` does.
-/
structure Reads (chain : Chain ℝ Pose N C) (limits : PositionLimits) (dh : DhParameters) :
    Prop where
  named : ∀ m ∈ chain.nodes, ∀ n ∈ chain.nodes, chain.frameName m = chain.frameName n → m = n
  linked : ∀ r ∈ relations, ∃ m ∈ chain.nodes, ∃ n ∈ chain.nodes, chain.frameName m = r.1
    ∧ chain.frameName n = r.2 ∧ chain.parent n = some m
  refuses : ∀ c q, ¬ Within limits q →
    ∃ e, chain.setJointPositions c (List.ofFn q) = (c, .error e)
  realises : ∀ c q, Within limits q →
    ∃ c', chain.setJointPositions c (List.ofFn q) = (c', .ok ())
      ∧ Motion.Same (linkPlace chain (chain.updateLinkTransforms c') "base_link") 1
      ∧ Motion.Same (linkPlace chain (chain.updateLinkTransforms c') "tool0")
        (rzPi * forwardKinematics dh q)

theorem Reads.place (h : Reads chain limits dh) {n : N} (hn : n ∈ chain.nodes) (c : C) :
    linkPlace chain c (chain.frameName n) = (chain.worldTransform c n).getD 1 := by
  rw [linkPlace, Rows.latest_of_mem hn fun m hm hname => h.named m hm n hn hname]
  rfl

/-! ## The frames of one tick -/

theorem relations_distinct : ∀ r ∈ relations, ∀ r' ∈ relations, r.2 = r'.2 → r = r' := by
  decide

theorem relations_not_base : ∀ r ∈ relations, r.2 ≠ "base_link" := by decide

variable {params : URDFParameters} {default : SPTransform ℝ} {now₀ : String → Nat}

/-- The templates are looked up by the bare name of a link. -/
theorem robotTransforms_eq_some {link : String} {t : SPTransformStamped ℝ} :
    (initializeRobotTransforms params default now₀).1 link = some t ↔
      ∃ r ∈ relations, r.2 = link ∧ t = seedTransform params default now₀ r := by
  unfold initializeRobotTransforms
  rw [Option.map_eq_some_iff]
  constructor
  · rintro ⟨r, hr, rfl⟩
    obtain ⟨hmem, hlink⟩ := Rows.latest_mem hr
    exact ⟨r, hmem, hlink, rfl⟩
  · rintro ⟨r, hr, rfl, rfl⟩
    have hlatest := Rows.latest_of_mem hr fun r' hr' h => relations_distinct r' hr' r hr h
    exact ⟨r, hlatest, rfl⟩

variable {now : N → Nat} {c : C}

/-- The frame a node is published as. -/
theorem updatedTransform_eq_some {n : N} {t : SPTransformStamped ℝ} :
    updatedTransform (.real params chain default) (initializeRobotTransforms params default now₀).1
        now c n = some t ↔
      ∃ r ∈ relations, r.2 = chain.frameName n ∧ t =
        { seedTransform params default now₀ r with
          transform := isometryToSpTransform
            (relativeTransform (.real params chain default) c n)
          timeStamp := now n } := by
  have hchain : (PublisherEnv.real params chain default).chain = chain := rfl
  unfold updatedTransform
  rw [hchain]
  constructor
  · intro h
    split at h
    · -- the base itself hangs under nothing and is not published
      cases h
    · obtain ⟨template, htemplate, rfl⟩ := Option.map_eq_some_iff.mp h
      obtain ⟨r, hr, hlink, rfl⟩ := robotTransforms_eq_some.mp htemplate
      exact ⟨r, hr, hlink, rfl⟩
  · rintro ⟨r, hr, hlink, rfl⟩
    rw [if_neg (hlink ▸ relations_not_base r hr),
      robotTransforms_eq_some.mpr ⟨r, hr, hlink, rfl⟩]
    rfl

/-- The frames that one tick publishes. -/
def tickFrames (chain : Chain ℝ Pose N C) (params : URDFParameters) (default : SPTransform ℝ)
    (now₀ : String → Nat) (now : N → Nat) (c : C) : List (SPTransformStamped ℝ) :=
  chain.nodes.filterMap (updatedTransform (.real params chain default)
    (initializeRobotTransforms params default now₀).1 now c)

/-- What is published of a link is its motion from the link it hangs on. -/
theorem Reads.published (h : Reads chain limits dh) {r : String × String} (hr : r ∈ relations) :
    ∃ t ∈ tickFrames chain params default now₀ now c,
      t.parentFrameId = params.frame r.1 ∧ t.childFrameId = params.frame r.2
        ∧ t.transform
          = isometryToSpTransform ((linkPlace chain c r.1)⁻¹ * linkPlace chain c r.2) := by
  have hchain : (PublisherEnv.real params chain default).chain = chain := rfl
  obtain ⟨m, hm, n, hn, hparent, hchild, hmn⟩ := h.linked r hr
  refine ⟨_, List.mem_filterMap.mpr
    ⟨n, hn, updatedTransform_eq_some.mpr ⟨r, hr, hchild.symm, rfl⟩⟩, rfl, rfl, ?_⟩
  rw [← hparent, ← hchild, h.place hm, h.place hn]
  show isometryToSpTransform (relativeTransform _ c n) = _
  unfold relativeTransform
  rw [hchain, hmn]

/-- No frame is published twice. -/
theorem Reads.once (h : Reads chain limits dh) {t t' : SPTransformStamped ℝ}
    (ht : t ∈ tickFrames chain params default now₀ now c)
    (ht' : t' ∈ tickFrames chain params default now₀ now c)
    (hframe : t.childFrameId = t'.childFrameId) : t = t' := by
  obtain ⟨n, hn, hup⟩ := List.mem_filterMap.mp ht
  obtain ⟨n', hn', hup'⟩ := List.mem_filterMap.mp ht'
  obtain ⟨r, hr, hlink, rfl⟩ := updatedTransform_eq_some.mp hup
  obtain ⟨r', hr', hlink', rfl⟩ := updatedTransform_eq_some.mp hup'
  have hrr : r.2 = r'.2 := params.frame_injective hframe
  obtain rfl := relations_distinct r hr r' hr' hrr
  obtain rfl := h.named n hn n' hn' (hlink.symm.trans hlink')
  rfl

/-- The published tree holds the motions between the places of the links. -/
theorem Reads.placed (h : Reads chain limits dh) {r : String × String} (hr : r ∈ relations) :
    (publishedTree (tickFrames chain params default now₀ now c)).Placed params.frame
        (linkPlace chain c) r.2 r.1 := by
  obtain ⟨t, ht, hparent, hchild, htransform⟩ :
      ∃ t ∈ tickFrames chain params default now₀ now c, _ := h.published hr
  unfold FrameTree.Placed publishedTree
  rw [← hchild, Rows.latest_of_mem ht fun t' ht' => h.once ht' ht, Option.bind_some, htransform,
    toIsometry_toSpTransform, Option.map_some, hparent]

/-- The links from the tool up to the base. -/
def armLinks : List String :=
  [ "flange", "wrist_3_link", "wrist_2_link", "wrist_1_link", "forearm_link", "upper_arm_link",
    "shoulder_link", "base_link_inertia", "base_link"]

/-- What leads to the tool is what the chain holds to be between base and tool. -/
theorem Reads.leads (h : Reads chain limits dh) :
    (publishedTree (tickFrames chain params default now₀ now c)).Leads (params.frame "base_link")
        (params.frame "tool0") ((linkPlace chain c "base_link")⁻¹ * linkPlace chain c "tool0") := by
  have hpath : ("tool0" :: armLinks).IsChain fun link parent => (parent, link) ∈ relations := by
    decide
  exact FrameTree.Leads.along params.frame_injective (hpath.imp fun _ _ hr => h.placed hr)
    (by decide) rfl

/-! ## One tick -/

/-- Half a turn on stays above the lower limit; the upper one is the question. -/
theorem within_halfTurned {q : Joints ℝ} (hq : Within limits q) :
    Within limits (halfTurned q) ↔ ∀ r ∈ limits 0, q 0 + pi ≤ r.2 := by
  constructor
  · intro h r hr
    have hfirst := (h 0 r hr).2
    rwa [halfTurned, Function.update_self] at hfirst
  · intro h i r hr
    by_cases hi : i = 0
    · subst hi
      rw [halfTurned, Function.update_self]
      exact ⟨(hq 0 r hr).1.trans (le_add_of_nonneg_right Real.pi_pos.le), h r hr⟩
    · rw [halfTurned, Function.update_of_ne hi]
      exact hq i r hr

/-- A tick that sees new joints publishes what the chain makes of them. -/
theorem mem_tick {G : Type} [Group G] {env : PublisherEnv ℝ G N C} {T : RobotTransforms ℝ}
    {p : Publisher ℝ C} {ds : DriverState ℝ} {ts : List (SPTransformStamped ℝ)}
    (hnew : p.lastPublishedJoints ≠ some ds.jointValues) :
    .transforms ts ∈ (p.tick env T now ds).2 ↔
      .transforms ts ∈ (publishRobotTransforms env T now p.chain (jointsForTf env ds.jointValues)).2
        := by
  -- the measured state is published before the joints, and never a transform with it
  have hkept : (tickMeasured env p ds).1.lastPublishedJoints = p.lastPublishedJoints
      ∧ (tickMeasured env p ds).1.chain = p.chain
      ∧ .transforms ts ∉ (tickMeasured env p ds).2 := by
    unfold tickMeasured
    dsimp only
    split
    · exact ⟨rfl, rfl, by simp [publishMeasuredState]⟩
    · exact ⟨rfl, rfl, List.not_mem_nil⟩
  obtain ⟨hlast, hchain, hmeasured⟩ := hkept
  rw [Publisher.tick, List.mem_append, or_iff_right hmeasured, tickJoints, if_neg (hlast ▸ hnew),
    hchain]
  simp [publishJointStates]

section Publish

variable {c' : C} {joints : List ℝ} {ts : List (SPTransformStamped ℝ)}

/-- What the chain refuses is not published. -/
theorem publish_refused {e : String} (hset : chain.setJointPositions c joints = (c', .error e)) :
    (publishRobotTransforms (.real params chain default)
      (initializeRobotTransforms params default now₀).1 now c joints).2 = [] := by
  have henv : (PublisherEnv.real params chain default).chain.setJointPositions c joints
      = (c', .error e) := hset
  rw [publishRobotTransforms, henv]

/-- What it accepts is published in one write, if there is anything. -/
theorem publish_accepted (hset : chain.setJointPositions c joints = (c', .ok ())) :
    .transforms ts ∈ (publishRobotTransforms (.real params chain default)
        (initializeRobotTransforms params default now₀).1 now c joints).2
      ↔ ts = tickFrames chain params default now₀ now (chain.updateLinkTransforms c')
        ∧ ts ≠ [] := by
  have henv : (PublisherEnv.real params chain default).chain.setJointPositions c joints
      = (c', .ok ()) := hset
  have hframes : (PublisherEnv.real params chain default).chain.nodes.filterMap
      (updatedTransform (.real params chain default)
        (initializeRobotTransforms params default now₀).1 now
        ((PublisherEnv.real params chain default).chain.updateLinkTransforms c'))
      = tickFrames chain params default now₀ now (chain.updateLinkTransforms c') := rfl
  rw [publishRobotTransforms, henv]
  dsimp only
  rw [hframes]
  split
  · rename_i hnil
    refine iff_of_false List.not_mem_nil ?_
    rintro ⟨rfl, hne⟩
    exact hne (List.isEmpty_iff.mp hnil)
  · rename_i hne
    rw [List.mem_singleton, Write.transforms.injEq]
    constructor
    · rintro rfl
      exact ⟨rfl, fun hnil => hne (List.isEmpty_iff.mpr hnil)⟩
    · exact And.left

end Publish

variable {p : Publisher ℝ C} {ds : DriverState ℝ} {q : Joints ℝ}

/-- Joints the chain refuses with the half turn added leave the frames as they were. -/
theorem Reads.stale (h : Reads chain limits dh) (hds : ds.jointValues = List.ofFn q)
    (hnew : p.lastPublishedJoints ≠ some ds.jointValues) (hout : ¬ Within limits (halfTurned q)) :
    .transforms ts ∉ (p.tick (.real params chain default)
      (initializeRobotTransforms params default now₀).1 now ds).2 := by
  obtain ⟨e, hset⟩ := h.refuses p.chain (halfTurned q) hout
  rw [mem_tick hnew, hds, jointsForTf_ofFn _ q rfl, publish_refused hset]
  exact List.not_mem_nil

/-- Those it accepts are followed. -/
theorem Reads.tracks (h : Reads chain limits dh) (hds : ds.jointValues = List.ofFn q)
    (hnew : p.lastPublishedJoints ≠ some ds.jointValues) (hin : Within limits (halfTurned q)) :
    Tracks params dh q (p.tick (.real params chain default)
      (initializeRobotTransforms params default now₀).1 now ds).2 := by
  obtain ⟨c', hset, hbase, htool⟩ := h.realises p.chain (halfTurned q) hin
  have hframe : ∀ r ∈ relations, ∃ t ∈ tickFrames chain params default now₀ now
      (chain.updateLinkTransforms c'), t.parentFrameId = params.frame r.1
        ∧ t.childFrameId = params.frame r.2 := by
    intro r hr
    obtain ⟨t, ht, hparent, hchild, -⟩ :
        ∃ t ∈ tickFrames chain params default now₀ now (chain.updateLinkTransforms c'), _ :=
      h.published hr
    exact ⟨t, ht, hparent, hchild⟩
  have hleads : (publishedTree (tickFrames chain params default now₀ now
      (chain.updateLinkTransforms c'))).Leads _ _ _ := h.leads
  refine ⟨_, ?_, hframe, ⟨_, hleads⟩, ?_⟩
  · rw [mem_tick hnew, hds, jointsForTf_ofFn _ q rfl, publish_accepted hset]
    obtain ⟨t, ht, -⟩ := hframe ("flange", "tool0") (by decide)
    exact ⟨rfl, List.ne_nil_of_mem ht⟩
  · intro g hg
    rw [hg.unique hleads]
    -- the tool's place is taken from the base link's, and that is where the world is
    have hturn : Motion.Same _ _ := hbase.inv.mul htool
    rw [inv_one, one_mul] at hturn
    exact hturn.trans (rzPi_forwardKinematics q)

/--
**When the published frames follow the arm**: for joints inside their limits that are news,
exactly if the first joint is still inside with half a turn added.
-/
theorem frames_track (h : Reads chain limits dh) (hq : Within limits q)
    (hds : ds.jointValues = List.ofFn q) (hnew : p.lastPublishedJoints ≠ some ds.jointValues) :
    Tracks params dh q (p.tick (.real params chain default)
        (initializeRobotTransforms params default now₀).1 now ds).2
      ↔ ∀ r ∈ limits 0, q 0 + pi ≤ r.2 := by
  rw [← within_halfTurned hq]
  constructor
  · rintro ⟨ts, hts, -⟩
    by_contra hout
    exact h.stale hds hnew hout hts
  · exact h.tracks hds hnew

end Chains

/-! ## The chain of a nominal URDF -/

/-- A joint of a URDF, with the link it moves and the link it hangs on. -/
structure UrdfNode where
  joint : String
  link : String
  parent : Option String
  deriving DecidableEq

def urdfNodes : List UrdfNode :=
  [ ⟨"root", "world", none⟩, ⟨"base_joint", "base_link", some "world"⟩,
    ⟨"base_link-base_link_inertia", "base_link_inertia", some "base_link"⟩,
    ⟨"shoulder_pan_joint", "shoulder_link", some "base_link_inertia"⟩,
    ⟨"shoulder_lift_joint", "upper_arm_link", some "shoulder_link"⟩,
    ⟨"elbow_joint", "forearm_link", some "upper_arm_link"⟩,
    ⟨"wrist_1_joint", "wrist_1_link", some "forearm_link"⟩,
    ⟨"wrist_2_joint", "wrist_2_link", some "wrist_1_link"⟩,
    ⟨"wrist_3_joint", "wrist_3_link", some "wrist_2_link"⟩,
    ⟨"wrist_3_link-ft_frame", "ft_frame", some "wrist_3_link"⟩,
    ⟨"base_link-base_fixed_joint", "base", some "base_link"⟩,
    ⟨"wrist_3-flange", "flange", some "wrist_3_link"⟩,
    ⟨"flange-tool0", "tool0", some "flange"⟩]

def turnX (θ : ℝ) : Pose := .rotation (fromAxisAngle Vec3.xAxis θ)

def turnZ (θ : ℝ) : Pose := .rotation (fromAxisAngle Vec3.zAxis θ)

/-- Where the joints put a link, by the origins of the URDF, its right angles exact. -/
def urdfPlace (dh : DhParameters) (q : Joints ℝ) (link : String) : Pose :=
  let shoulder := rzPi * .translation 0 0 dh.d1 * turnZ (q 0)
  let upperArm := shoulder * turnX (pi / 2) * turnZ (q 1)
  let forearm := upperArm * .translation dh.a2 0 0 * turnZ (q 2)
  let wrist1 := forearm * .translation dh.a3 0 dh.d4 * turnZ (q 3)
  let wrist2 := wrist1 * .translation 0 (-dh.d5) 0 * turnX (pi / 2) * turnZ (q 4)
  let wrist3 := wrist2 * .translation 0 dh.d6 0 * turnX (-pi / 2) * turnZ (q 5)
  let flange := wrist3 * (turnX (-pi / 2) * turnZ (-pi / 2))
  let tool := flange * (turnX (-pi / 2) * turnZ (-pi / 2))⁻¹
  let places :=
    [ ("base_link_inertia", rzPi), ("shoulder_link", shoulder), ("upper_arm_link", upperArm),
      ("forearm_link", forearm), ("wrist_1_link", wrist1), ("wrist_2_link", wrist2),
      ("wrist_3_link", wrist3), ("ft_frame", wrist3 * turnX pi), ("base", rzPi),
      ("flange", flange), ("tool0", tool)]
  (places.lookup link).getD 1

/-- A shift before a turn is the turned shift after it. -/
theorem slide {r : UnitQuaternion} {x y z x' y' z' : ℝ} (P : Pose)
    (h : r • (![x, y, z] : Vec3) = ![x', y', z']) :
    P * .translation x' y' z' * .rotation r = P * .rotation r * .translation x y z := by
  rw [mul_assoc, mul_assoc]
  congr 1
  ext1
  · simp [Pose.translation, Pose.rotation]
  · simp [Pose.translation, Pose.rotation, h]

theorem slide_turnZ (P : Pose) (d θ : ℝ) :
    P * .translation 0 0 d * turnZ θ = P * turnZ θ * .translation 0 0 d := by
  refine slide P ?_
  rw [smul_def, matrix_zAxis]
  ext i
  fin_cases i <;> simp

theorem slide_turnX (P : Pose) (d : ℝ) :
    P * .translation 0 (-d) 0 * turnX (pi / 2) = P * turnX (pi / 2) * .translation 0 0 d := by
  refine slide P ?_
  rw [smul_def, matrix_xAxis, Real.cos_pi_div_two, Real.sin_pi_div_two]
  ext i
  fin_cases i <;> simp

theorem slide_turnX_neg (P : Pose) (d : ℝ) :
    P * .translation 0 d 0 * turnX (-pi / 2) = P * turnX (-pi / 2) * .translation 0 0 d := by
  refine slide P ?_
  rw [smul_def, matrix_xAxis, neg_div, Real.cos_neg, Real.sin_neg, Real.cos_pi_div_two,
    Real.sin_pi_div_two]
  ext i
  fin_cases i <;> simp

theorem translation_split (P : Pose) (a d : ℝ) :
    P * .translation a 0 d = P * .translation a 0 0 * .translation 0 0 d := by
  rw [mul_assoc]
  congr 1
  ext1
  · simp [Pose.translation]
  · funext i
    fin_cases i <;> simp [Pose.translation]

/-- **The URDF is `Rz(pi) * DH`.** -/
theorem urdfPlace_tool (dh : DhParameters) (q : Joints ℝ) :
    urdfPlace dh q "tool0" = rzPi * forwardKinematics dh q := by
  have htool : urdfPlace dh q "tool0" = rzPi * .translation 0 0 dh.d1 * turnZ (q 0)
      * turnX (pi / 2) * turnZ (q 1) * .translation dh.a2 0 0 * turnZ (q 2)
      * .translation dh.a3 0 dh.d4 * turnZ (q 3) * .translation 0 (-dh.d5) 0 * turnX (pi / 2)
      * turnZ (q 4) * .translation 0 dh.d6 0 * turnX (-pi / 2) * turnZ (q 5) :=
    mul_inv_cancel_right _ _
  have hzero : Pose.translation 0 0 0 = 1 := by
    refine Motion.ext rfl (funext fun i => ?_)
    fin_cases i <;> rfl
  have hflat : turnX 0 = 1 := by
    rw [turnX, fromAxisAngle_zero]
    rfl
  -- both sides are products of turns and slides: each slide is moved past the turns about its axis
  have hlink : ∀ i, dh.link q i = turnZ (q i) * .translation 0 0 (dh.row i).1
      * .translation (dh.row i).2.1 0 0 * turnX (dh.row i).2.2 := fun _ => rfl
  rw [htool, forwardKinematics_eq]
  simp only [hlink, ← mul_assoc]
  rw [slide_turnZ, slide_turnX, slide_turnZ _ _ (q 4), slide_turnX_neg, slide_turnZ _ _ (q 5),
    translation_split _ dh.a3, slide_turnZ _ _ (q 3)]
  simp [DhParameters.row, hzero, hflat]

/-- The positions a chain holds, and where its links were when it was last updated. -/
structure UrdfState where
  positions : Joints ℝ
  placed : String → Option Pose

open Classical in
/-- The chain of a URDF with the lengths `dh` and these position limits. -/
def urdfChain (dh : DhParameters) (limits : PositionLimits) :
    Chain ℝ Pose UrdfNode UrdfState where
  nodes := urdfNodes
  joint n := n.joint
  link n := some n.link
  parent n := n.parent.bind fun parent => urdfNodes.find? (·.link = parent)
  setJointPositions c joints :=
    (Joints.ofList? joints).elim (c, .error "six joint positions are expected") fun q =>
      if Within limits q then ({ c with positions := q }, .ok ())
      else (c, .error "a joint position is out of its limits")
  updateLinkTransforms c := { c with placed := fun link => some (urdfPlace dh c.positions link) }
  worldTransform c n := c.placed n.link

theorem urdfChain_reads (dh : DhParameters) (limits : PositionLimits) :
    Reads (urdfChain dh limits) limits dh where
  named := by
    show ∀ m ∈ urdfNodes, ∀ n ∈ urdfNodes, m.link = n.link → m = n
    decide
  linked := by
    show ∀ r ∈ relations, ∃ m ∈ urdfNodes, ∃ n ∈ urdfNodes, m.link = r.1 ∧ n.link = r.2
      ∧ (n.parent.bind fun parent => urdfNodes.find? (·.link = parent)) = some m
    decide
  refuses c q hout := by
    refine ⟨"a joint position is out of its limits", ?_⟩
    simp only [urdfChain, Joints.ofList?_ofFn, Option.elim_some]
    exact if_neg hout
  realises c q hin := by
    refine ⟨{ c with positions := q }, ?_, ?_, ?_⟩
    · simp only [urdfChain, Joints.ofList?_ofFn, Option.elim_some]
      exact if_pos hin
    · exact .refl 1
    · show Motion.Same (urdfPlace dh q "tool0") _
      rw [urdfPlace_tool]
      exact .refl _

/-- Two turns for every joint but the elbow. -/
def ur20Limits : PositionLimits :=
  ![some (-2 * pi, 2 * pi), some (-2 * pi, 2 * pi), some (-pi, pi), some (-2 * pi, 2 * pi),
    some (-2 * pi, 2 * pi), some (-2 * pi, 2 * pi)]

namespace Scenario

/-- The second arm of a cell. -/
def secondArm : URDFParameters := ⟨"r2", "r2_"⟩

def noTurn : SPTransform ℝ := ⟨⟨0, 0, 0⟩, ⟨0, 0, 0, 1⟩⟩

/-- What the publisher of that arm, a UR20, writes on its first tick. -/
def firstWrites (q : Joints ℝ) : List (Write ℝ) :=
  ((Publisher.start ⟨0, fun _ => none⟩).tick
    (.real secondArm (urdfChain ur20 ur20Limits) noTurn)
    (initializeRobotTransforms secondArm noTurn fun _ => 0).1 (fun _ => 1)
    { DriverState.new with jointValues := List.ofFn q }).2

end Scenario

open Scenario

/-- The arm at four radians is inside its limits, and its frames are not published. -/
theorem not_frames_track :
    ¬ ∀ q, Within ur20Limits q → Tracks secondArm ur20 q (firstWrites q) := by
  intro h
  have hpi := Real.pi_gt_three
  have hq : Within ur20Limits ![4, 0, 0, 0, 0, 0] := by
    intro i r hr
    fin_cases i <;> obtain rfl := Option.some.inj hr <;> constructor <;> simp <;> linarith
  -- joint 1 at four radians: half a turn more leaves the limits, so the chain refuses
  obtain ⟨ts, hts, -⟩ := h _ hq
  refine (urdfChain_reads ur20 ur20Limits).stale rfl (Option.some_ne_none _).symm ?_ hts
  intro hin
  have htop := (within_halfTurned hq).mp hin (-2 * pi, 2 * pi) rfl
  have hlt := Real.pi_lt_four
  simp at htop
  linarith

/-- The arm at rest. -/
theorem frames_track_rest : Tracks secondArm ur20 0 (firstWrites 0) := by
  have hpi := Real.pi_pos
  have hq : Within ur20Limits 0 := by
    intro i r hr
    fin_cases i <;> obtain rfl := Option.some.inj hr <;> constructor <;> simp <;> linarith
  refine (frames_track (urdfChain_reads ur20 ur20Limits) hq rfl (Option.some_ne_none _).symm).mpr ?_
  intro r hr
  obtain rfl := Option.some.inj hr
  simp
  linarith

end

end UrRedisDriver.Proof
