import UrRedisDriver.Interfaces.VisualTransforms
import UrRedisDriver.Proof.Published

/-!
# The arms of a cell in the table of frames

The drivers of a cell write into one table of transforms. A frame is a prefix and one of a few
names, no one of which is the end of another: under different prefixes no frame is written by
two drivers. So each arm stands in the table as its own driver left it, link upon link, with all
of its frames from one tick.
-/

namespace UrRedisDriver.Proof

open UrRedisDriver UnitQuaternion
open Real (sin cos pi)

/-! ## Whose frame it is -/

/-- The frames one driver writes, without its prefix. -/
def ownFrames : List String :=
  relations.map Prod.snd ++ meshLinks.map fun mesh => visualFrame mesh.1

theorem frames_no_end : ∀ n ∈ "base_link" :: ownFrames, ∀ n' ∈ "base_link" :: ownFrames,
    n'.toList.isSuffixOf n.toList = true → n = n' := by
  decide

theorem frame_toList (params : URDFParameters) (n : String) :
    (params.frame n).toList = params.tfPrefix.toList ++ n.toList := by
  rw [params.frame_eq, String.toList_append]

section Names

variable {params params' : URDFParameters} {n n' : String}

/-- A frame is read in one way only. -/
theorem frame_eq_iff (hn : n ∈ "base_link" :: ownFrames) (hn' : n' ∈ "base_link" :: ownFrames) :
    params.frame n = params'.frame n' ↔ params.tfPrefix = params'.tfPrefix ∧ n = n' := by
  constructor
  · intro h
    have hl := congrArg String.toList h
    rw [frame_toList, frame_toList] at hl
    -- no frame name is the end of another one, so equal full names have equal last parts
    have hname : n = n' := by
      rcases List.append_eq_append_iff.mp hl with ⟨a, -, ha⟩ | ⟨a, -, ha⟩
      · exact frames_no_end n hn n' hn' (List.isSuffixOf_iff_suffix.mpr ⟨a, ha.symm⟩)
      · exact (frames_no_end n' hn' n hn (List.isSuffixOf_iff_suffix.mpr ⟨a, ha.symm⟩)).symm
    subst hname
    exact ⟨String.toList_inj.mp (List.append_cancel_right hl), rfl⟩
  · rintro ⟨hsame, rfl⟩
    rw [params.frame_eq, params'.frame_eq, hsame]

/-- The frames one driver writes. -/
def driverFrames (params : URDFParameters) : Set String :=
  {f | ∃ n ∈ ownFrames, f = params.frame n}

theorem driverFrames_apart (h : params.tfPrefix ≠ params'.tfPrefix) :
    ∀ f ∈ driverFrames params, f ∉ driverFrames params' := by
  rintro f ⟨n, hn, rfl⟩ ⟨n', hn', hf⟩
  exact h ((frame_eq_iff (List.mem_cons_of_mem _ hn) (List.mem_cons_of_mem _ hn')).mp hf).1

/-- Where an arm stands is not for a driver to say, be it its own or another's. -/
theorem base_not_written : params.frame "base_link" ∉ driverFrames params' := by
  rintro ⟨n, hn, hf⟩
  have hbase := ((frame_eq_iff List.mem_cons_self (List.mem_cons_of_mem _ hn)).mp hf).2
  subst hbase
  revert hn
  decide

theorem link_mem_ownFrames {r : String × String} (hr : r ∈ relations) : r.2 ∈ ownFrames :=
  List.mem_append_left _ (List.mem_map_of_mem hr)

theorem mesh_mem_ownFrames {mesh : String × String} (hm : mesh ∈ meshLinks) :
    visualFrame mesh.1 ∈ ownFrames :=
  List.mem_append_right _ (List.mem_map.mpr ⟨mesh, hm, rfl⟩)

theorem links_no_mesh : ∀ r ∈ relations, ∀ mesh ∈ meshLinks, r.2 ≠ visualFrame mesh.1 := by
  decide

theorem meshLinks_distinct :
    ∀ m ∈ meshLinks, ∀ m' ∈ meshLinks, visualFrame m.1 = visualFrame m'.1 → m = m' := by
  decide

end Names

/-! ## The turn of a mesh -/

noncomputable section

def yAxis : UnitVec3 := ⟨![0, 1, 0], by simp [dotProduct, Fin.sum_univ_three]⟩

def turnY (θ : ℝ) : Pose := .rotation (fromAxisAngle yAxis θ)

/-- An origin of a URDF: a shift, and turns about the fixed axes, that about the first one first. -/
def originPose (origin : (ℝ × ℝ × ℝ) × (ℝ × ℝ × ℝ)) : Pose :=
  .translation origin.1.1 origin.1.2.1 origin.1.2.2 * turnZ origin.2.2.2 * turnY origin.2.2.1
    * turnX origin.2.1

/-- Roll about the first axis, then pitch about the second, then yaw about the third. -/
theorem rpyToQuaternion_eq (roll pitch yaw : ℝ) : rpyToQuaternion .real roll pitch yaw
    = (isometryToSpTransform (turnZ yaw * turnY pitch * turnX roll)).rotation := by
  have hhalf : ∀ t : ℝ, t * 0.5 = t / 2 := by
    intro t
    norm_num
    ring
  unfold rpyToQuaternion isometryToSpTransform turnX turnY turnZ
  simp only [Trigonometry.real, hhalf, Motion.mul_rot, Pose.rotation]
  simp only [SPRotation.mk.injEq]
  refine ⟨?_, ?_, ?_, ?_⟩ <;> simp [fromAxisAngle, yAxis, Vec3.xAxis, Vec3.zAxis] <;> ring

theorem originPose_trans (x y z roll pitch yaw : ℝ) :
    (originPose ((x, y, z), (roll, pitch, yaw))).trans = ![x, y, z] := by
  simp [originPose, Pose.translation, Pose.rotation, turnX, turnY, turnZ]

/-- **The numbers of a mesh are those of its origin.** -/
theorem toIsometry_origin (origin : (ℝ × ℝ × ℝ) × (ℝ × ℝ × ℝ)) :
    toIsometry ⟨⟨origin.1.1, origin.1.2.1, origin.1.2.2⟩,
      rpyToQuaternion .real origin.2.1 origin.2.2.1 origin.2.2.2⟩ = some (originPose origin) := by
  obtain ⟨⟨x, y, z⟩, roll, pitch, yaw⟩ := origin
  have hrot : (originPose ((x, y, z), (roll, pitch, yaw))).rot
      = (turnZ yaw * turnY pitch * turnX roll).rot := by
    simp [originPose, Pose.translation]
  rw [← toIsometry_toSpTransform (originPose _), rpyToQuaternion_eq]
  unfold isometryToSpTransform
  rw [originPose_trans, hrot]
  rfl

/-! ## An arm and its table -/

/-- What the driver of one arm is started with; its chain is one of such an arm. -/
structure Arm (N C : Type) where
  params : URDFParameters
  defaultTransform : SPTransform ℝ
  mesh : MeshEnv ℝ
  chain : Chain ℝ Pose N C
  chainState : C
  limits : PositionLimits
  dh : DhParameters
  reads : Reads chain limits dh
  sines : mesh.trig = .real

variable {N C : Type}

def Arm.env (arm : Arm N C) : PublisherEnv ℝ Pose N C :=
  .real arm.params arm.chain arm.defaultTransform

def Arm.publisher (arm : Arm N C) : SharedMap.Process String (Option (SPTransformStamped ℝ))
    (FramesPhase ℝ C) (FramesAction ℝ N) :=
  framePublisher arm.env arm.mesh arm.chainState

/-- What a tick publishes of the arm when its chain is as it is. -/
def Arm.frames (arm : Arm N C) (seeded : String → Nat) (now : N → Nat) (c : C) :
    List (SPTransformStamped ℝ) :=
  tickFrames arm.chain arm.params arm.defaultTransform seeded now c

/-- A frame of the arm as it has to be, wherever it is. -/
structure HangsOn (params : URDFParameters) (r : String × String) (t : SPTransformStamped ℝ) :
    Prop where
  parent : t.parentFrameId = params.frame r.1
  active : t.activeTransform = true
  enabled : t.enableTransform = true
  metadata : t.metadata = none

/-- Every frame of the arm hangs on the link it belongs to. -/
def Hangs (params : URDFParameters) (table : FrameTable ℝ) : Prop :=
  ∀ r ∈ relations, ∃ t, table (params.frame r.2) = some t ∧ HangsOn params r t

/-- Every mesh hangs on its link, by the origin in the URDF. -/
def MeshesPlaced (params : URDFParameters) (mesh : MeshEnv ℝ) (table : FrameTable ℝ) : Prop :=
  ∀ m ∈ meshLinks, ∀ link, mesh.document.findLink m.1 = some link →
    ∃ t, table (params.frame (visualFrame m.1)) = some t ∧ t.parentFrameId = params.frame m.1
      ∧ toIsometry t.transform = some (originPose (visualOrigin mesh.parse link))

/-- The tree in the table. -/
def tableTree (table : FrameTable ℝ) : FrameTree String Pose := fun frame =>
  (table frame).bind fun t => (toIsometry t.transform).map fun m => (t.parentFrameId, m)

/-- The frames in the table are those of one tick, at the joints that are shown. -/
def Shows (arm : Arm N C) (table : FrameTable ℝ) (shown : Option (List ℝ)) : Prop :=
  ∀ joints, shown = some joints → ∃ c c' seeded now,
    arm.chain.setJointPositions c (jointsForTf arm.env joints) = (c', .ok ())
      ∧ ∀ t ∈ arm.frames seeded now (arm.chain.updateLinkTransforms c'),
        table t.childFrameId = some t

/-- What the driver of an arm has in the table, where it is. -/
def Standing (arm : Arm N C) (table : FrameTable ℝ) : FramesPhase ℝ C → Prop
  | .down => True
  | .seeding _ => Hangs arm.params table
  | .running _ _ shown => Hangs arm.params table ∧ MeshesPlaced arm.params arm.mesh table
      ∧ Shows arm table shown

section Writes

variable {table : FrameTable ℝ} {ts : List (SPTransformStamped ℝ)} {t : SPTransformStamped ℝ}

theorem mem_landing {reaches : Bool} {e : String × Option (SPTransformStamped ℝ)}
    (h : e ∈ landing reaches ts) : ∃ t ∈ ts, e = (t.childFrameId, some t) := by
  unfold landing at h
  split at h
  · obtain ⟨t, ht, rfl⟩ := List.mem_map.mp h
    exact ⟨t, ht, rfl⟩
  · cases h

theorem setAll_landing_of_ne {reaches : Bool} {frame : String}
    (h : ∀ t ∈ ts, t.childFrameId ≠ frame) :
    SharedMap.setAll table (landing reaches ts) frame = table frame := by
  refine SharedMap.setAll_of_not_mem table fun hmem => ?_
  obtain ⟨e, he, rfl⟩ := List.mem_map.mp hmem
  obtain ⟨t, ht, rfl⟩ := mem_landing he
  exact h t ht rfl

theorem setAll_landing_of_mem (ht : t ∈ ts)
    (hone : ∀ t' ∈ ts, t'.childFrameId = t.childFrameId → t' = t) :
    SharedMap.setAll table (landing true ts) t.childFrameId = some t := by
  refine SharedMap.setAll_of_mem (e := (t.childFrameId, some t)) table
    (List.mem_map.mpr ⟨t, ht, rfl⟩) ?_
  intro e he hkey
  obtain ⟨t', ht', rfl⟩ := mem_landing he
  rw [hone t' ht' hkey]

theorem transformsIn_transforms : transformsIn [.transforms ts] = ts := List.append_nil ts

end Writes

/-! ## What is set -/

section Sets

variable {arm : Arm N C} {table : FrameTable ℝ} {seeded : String → Nat} {now : N → Nat} {c : C}
  {t : SPTransformStamped ℝ}

theorem frame_of_mem_frames (ht : t ∈ arm.frames seeded now c) :
    ∃ r ∈ relations, t.childFrameId = arm.params.frame r.2 ∧ HangsOn arm.params r t := by
  obtain ⟨n, -, hup⟩ := List.mem_filterMap.mp ht
  obtain ⟨r, hr, -, rfl⟩ := updatedTransform_eq_some.mp hup
  exact ⟨r, hr, rfl, rfl, rfl, rfl, rfl⟩

/-- A tick hands over no frames, or those of joints that the chain has accepted. -/
theorem tick_frames (arm : Arm N C) (seeded : String → Nat) (now : N → Nat) (p : Publisher ℝ C)
    (ds : DriverState ℝ) :
    let r := p.tick arm.env
      (initializeRobotTransforms arm.env.robotParams arm.env.defaultTransform seeded).1 now ds
    transformsIn r.2 = [] ∨ ∃ c', arm.chain.setJointPositions p.chain
        (jointsForTf arm.env ds.jointValues) = (c', .ok ())
      ∧ transformsIn r.2 = arm.frames seeded now (arm.chain.updateLinkTransforms c') := by
  have hmeasured : transformsIn (tickMeasured arm.env p ds).2 = []
      ∧ (tickMeasured arm.env p ds).1.chain = p.chain := by
    unfold tickMeasured
    dsimp only
    split <;> exact ⟨rfl, rfl⟩
  have hsplit : ∀ ws ws' : List (Write ℝ),
      transformsIn (ws ++ ws') = transformsIn ws ++ transformsIn ws' := fun _ _ =>
    List.flatMap_append
  unfold Publisher.tick
  dsimp only
  rw [hsplit, hmeasured.1, List.nil_append]
  unfold tickJoints
  split
  · -- the joints are those of the last tick: no frames are sent
    exact .inl rfl
  · rw [hmeasured.2]
    show transformsIn (publishRobotTransforms _ _ _ _ _).2 = [] ∨ _
    cases hset : arm.chain.setJointPositions p.chain (jointsForTf arm.env ds.jointValues) with
    | mk c' e =>
        have henv : arm.env.chain.setJointPositions p.chain (jointsForTf arm.env ds.jointValues)
            = (c', e) := hset
        unfold publishRobotTransforms
        rw [henv]
        cases e with
        | error e => exact .inl rfl
        | ok u =>
            refine .inr ⟨c', rfl, ?_⟩
            dsimp only
            split
            · rename_i hnil
              exact (List.isEmpty_iff.mp hnil).symm
            · exact transformsIn_transforms

/-- What sets frames of the arm's links lets the meshes be. -/
theorem MeshesPlaced.keep {ts : List (SPTransformStamped ℝ)} {reaches : Bool}
    (h : MeshesPlaced arm.params arm.mesh table)
    (hts : ∀ t ∈ ts, ∃ r ∈ relations, t.childFrameId = arm.params.frame r.2) :
    MeshesPlaced arm.params arm.mesh (SharedMap.setAll table (landing reaches ts)) := by
  intro m hm link hlink
  obtain ⟨t, ht, hrest⟩ := h m hm link hlink
  refine ⟨t, ?_, hrest⟩
  rw [← ht]
  refine setAll_landing_of_ne fun t' ht' hframe => ?_
  obtain ⟨r, hr, hchild⟩ := hts t' ht'
  exact links_no_mesh r hr m hm (arm.params.frame_injective (hchild.symm.trans hframe))

theorem robot_stands (seeded : String → Nat) : Hangs arm.params (SharedMap.setAll table
    (landing true (relations.map (seedTransform arm.params arm.defaultTransform seeded)))) := by
  intro r hr
  refine ⟨seedTransform arm.params arm.defaultTransform seeded r, ?_, rfl, rfl, rfl, rfl⟩
  refine setAll_landing_of_mem (List.mem_map.mpr ⟨r, hr, rfl⟩) fun t' ht' hframe => ?_
  obtain ⟨r', hr', rfl⟩ := List.mem_map.mp ht'
  rw [relations_distinct r' hr' r hr (arm.params.frame_injective hframe)]

/-- The frames of the meshes of an arm. -/
def Arm.meshFrames (arm : Arm N C) (now : String → Nat) : List (SPTransformStamped ℝ) :=
  meshLinks.filterMap fun m =>
    (arm.mesh.document.findLink m.1).map (visualTransform arm.params arm.mesh now m)

theorem mem_meshFrames {now : String → Nat} : t ∈ arm.meshFrames now ↔ ∃ m ∈ meshLinks,
    ∃ link, arm.mesh.document.findLink m.1 = some link
      ∧ visualTransform arm.params arm.mesh now m link = t := by
  simp only [Arm.meshFrames, List.mem_filterMap, Option.map_eq_some_iff]

theorem meshes_placed (now : String → Nat) : MeshesPlaced arm.params arm.mesh
    (SharedMap.setAll table (landing true (arm.meshFrames now))) := by
  intro m hm link hlink
  refine ⟨visualTransform arm.params arm.mesh now m link, ?_, rfl, ?_⟩
  · refine setAll_landing_of_mem (t := visualTransform arm.params arm.mesh now m link)
      (mem_meshFrames.mpr ⟨m, hm, link, hlink, rfl⟩) fun t' ht' hframe => ?_
    obtain ⟨m', hm', link', hlink', rfl⟩ := mem_meshFrames.mp ht'
    obtain rfl := meshLinks_distinct m' hm' m hm (arm.params.frame_injective hframe)
    rw [hlink] at hlink'
    rw [Option.some.inj hlink']
  · show toIsometry ⟨_, rpyToQuaternion arm.mesh.trig _ _ _⟩ = _
    rw [arm.sines]
    exact toIsometry_origin (visualOrigin arm.mesh.parse link)

theorem visual_stands {now : String → Nat} (h : Hangs arm.params table) :
    Hangs arm.params (SharedMap.setAll table (landing true (arm.meshFrames now))) := by
  intro r hr
  obtain ⟨t, ht, hon⟩ := h r hr
  refine ⟨t, ?_, hon⟩
  rw [← ht]
  refine setAll_landing_of_ne fun t' ht' hframe => ?_
  obtain ⟨m, hm, link, -, rfl⟩ := mem_meshFrames.mp ht'
  exact links_no_mesh r hr m hm (arm.params.frame_injective hframe).symm

/-- The frames of a tick, all of them from that tick. -/
theorem frames_set (ht : t ∈ arm.frames seeded now c) :
    SharedMap.setAll table (landing true (arm.frames seeded now c)) t.childFrameId = some t :=
  setAll_landing_of_mem ht fun _ ht' hframe => arm.reads.once ht' ht hframe

theorem tick_stands {reaches : Bool} (h : Hangs arm.params table) :
    Hangs arm.params (SharedMap.setAll table (landing reaches (arm.frames seeded now c))) := by
  intro r hr
  cases reaches with
  | false => exact h r hr
  | true =>
      obtain ⟨t, ht, -, hchild, -⟩ : ∃ t ∈ arm.frames seeded now c, _ := arm.reads.published hr
      obtain ⟨r', hr', hchild', hon⟩ := frame_of_mem_frames ht
      have hrr : r'.2 = r.2 := arm.params.frame_injective (hchild'.symm.trans hchild)
      obtain rfl := relations_distinct r' hr' r hr hrr
      refine ⟨t, ?_, hon⟩
      rw [← hchild]
      exact frames_set ht

/-- The frames of a tick are those the tree is read from. -/
theorem Shows.tracks {q : Joints ℝ} {shown : Option (List ℝ)} (h : Shows arm table shown)
    (hq : shown = some (List.ofFn q)) :
    ∃ g, (tableTree table).Leads (arm.params.frame "base_link") (arm.params.frame "tool0") g
      ∧ Motion.Same g (forwardKinematics arm.dh q) := by
  obtain ⟨c, c', seeded, now, hset, htable⟩ := h _ hq
  rw [jointsForTf_ofFn arm.env q rfl] at hset
  have hin : Within arm.limits (halfTurned q) := by
    by_contra hout
    obtain ⟨e, he⟩ := arm.reads.refuses c _ hout
    rw [hset] at he
    cases he
  obtain ⟨c'', hset', hbase, htool⟩ := arm.reads.realises c _ hin
  rw [hset] at hset'
  obtain rfl : c' = c'' := congrArg Prod.fst hset'
  have hleads : (publishedTree (arm.frames seeded now (arm.chain.updateLinkTransforms c'))).Leads
      _ _ _ := arm.reads.leads
  refine ⟨_, hleads.mono fun {frame x} hx => ?_, ?_⟩
  · obtain ⟨t, ht, hpair⟩ := Option.bind_eq_some_iff.mp hx
    obtain ⟨hmem, rfl⟩ := Rows.latest_mem ht
    exact Option.bind_eq_some_iff.mpr ⟨t, htable t hmem, hpair⟩
  · -- the tool's place is taken from the base link's, and that is where the world is
    have hturn : Motion.Same _ _ := hbase.inv.mul htool
    rw [inv_one, one_mul] at hturn
    exact hturn.trans (rzPi_forwardKinematics q)

end Sets

/-! ## The driver of an arm by itself -/

section Runs

variable {arm : Arm N C}

/-- A publisher has to do with the frames under its prefix only. -/
theorem publisher_owns (arm : Arm N C) :
    SharedMap.Owns arm.publisher (driverFrames arm.params) where
  reads := by
    intro _ _ _ s a
    cases s <;> cases a <;> rfl
  writes := by
    intro m s s' a es h e he
    cases s with
    | down =>
        -- at the start the frames of the robot are written, ...
        cases a with
        | robot now reaches =>
            cases h
            obtain ⟨t, ht, rfl⟩ := mem_landing he
            rw [initializeRobotTransforms, transformsIn_transforms] at ht
            obtain ⟨r, hr, rfl⟩ := List.mem_map.mp ht
            exact ⟨r.2, link_mem_ownFrames hr, rfl⟩
        | _ => cases h
    | seeding seeded =>
        -- ... then those of its meshes ...
        cases a with
        | visual now reaches =>
            cases h
            obtain ⟨t, ht, rfl⟩ := mem_landing he
            rw [initializeVisualTransforms, transformsIn_transforms] at ht
            obtain ⟨mesh, hm, link, -, rfl⟩ := mem_meshFrames.mp ht
            exact ⟨_, mesh_mem_ownFrames hm, rfl⟩
        | _ => cases h
    | running seeded p shown =>
        -- ... and from then on those of the links, with every change of the joints
        cases a with
        | tick now ds reaches =>
            cases h
            obtain ⟨t, ht, rfl⟩ := mem_landing he
            rcases tick_frames arm seeded now p ds with hnil | ⟨c', -, hframes⟩
            · exact absurd (hnil ▸ ht) List.not_mem_nil
            · obtain ⟨r, hr, hchild, -⟩ := frame_of_mem_frames (hframes ▸ ht)
              exact ⟨r.2, link_mem_ownFrames hr, hchild⟩
        | _ => cases h

/-- Redis can be reached while the frames are seeded. A tick may be lost. -/
def SeedsReach : FramesAction ℝ N → Prop
  | .robot _ reaches | .visual _ reaches => reaches = true
  | .tick .. => True

theorem standing_step {table table' : FrameTable ℝ} {s s' : FramesPhase ℝ C}
    {a : FramesAction ℝ N} (h : Standing arm table s) (ha : SeedsReach a)
    (hs : SharedMap.alone arm.publisher (table, s) a = some (table', s')) :
    Standing arm table' s' := by
  obtain ⟨es, hP, rfl⟩ := SharedMap.alone_eq_some.mp hs
  dsimp only at hP ⊢
  cases s with
  | down =>
      cases a with
      | robot now reaches =>
          cases hP
          obtain rfl : reaches = true := ha
          rw [initializeRobotTransforms, transformsIn_transforms]
          exact robot_stands now
      | _ => cases hP
  | seeding seeded =>
      cases a with
      | visual now reaches =>
          cases hP
          obtain rfl : reaches = true := ha
          rw [initializeVisualTransforms, transformsIn_transforms]
          exact ⟨visual_stands h, meshes_placed now, nofun⟩
      | _ => cases hP
  | running seeded p shown =>
      obtain ⟨hhangs, hmeshes, hshows⟩ := h
      cases a with
      | tick now ds reaches =>
          cases hP
          rcases tick_frames arm seeded now p ds with hnil | ⟨c', hset, hframes⟩
          · -- a tick without frames leaves the table as it is, whether it reaches Redis or not
            rw [hnil]
            cases reaches <;> exact ⟨hhangs, hmeshes, hshows⟩
          · rw [hframes]
            cases reaches with
            -- a lost write is no news to the table: the frames of the last one stand on
            | false => exact ⟨hhangs, hmeshes, hshows⟩
            | true =>
                -- a chain that hangs together always has frames to send
                have hany : (arm.frames seeded now
                    (arm.chain.updateLinkTransforms c')).isEmpty = false := by
                  obtain ⟨t, ht, -⟩ : ∃ t ∈ arm.frames seeded now
                      (arm.chain.updateLinkTransforms c'), _ :=
                    arm.reads.published (show ("flange", "tool0") ∈ relations by decide)
                  exact List.isEmpty_eq_false_iff.mpr (List.ne_nil_of_mem ht)
                rw [hany]
                refine ⟨tick_stands hhangs, hmeshes.keep fun t ht => ?_, ?_⟩
                · obtain ⟨r, hr, hchild, -⟩ := frame_of_mem_frames ht
                  exact ⟨r, hr, hchild⟩
                · rintro joints hjoints
                  obtain rfl : ds.jointValues = joints := Option.some.inj hjoints
                  exact ⟨p.chain, c', seeded, now, hset, fun t ht => frames_set ht⟩
      | _ => cases hP

/-- The run of a driver that has the table for itself. -/
theorem standing_alone {table₀ : FrameTable ℝ} {x : FrameTable ℝ × FramesPhase ℝ C}
    (h : Lts.ReachableBy (SharedMap.alone arm.publisher) (fun _ a => SeedsReach a)
      (table₀, .down) x) : Standing arm x.1 x.2 := by
  refine h.invariant (I := fun x => Standing arm x.1 x.2) ?_ ?_
  · trivial
  · intro y a y' _ hI ha hs
    exact standing_step hI ha hs

/-- What is in the frames of an arm depends on them only. -/
theorem Standing.congr {table table' : FrameTable ℝ} {s : FramesPhase ℝ C}
    (hagree : ∀ f ∈ driverFrames arm.params, table f = table' f) (h : Standing arm table s) :
    Standing arm table' s := by
  have hhangs : Hangs arm.params table → Hangs arm.params table' := by
    intro h r hr
    rw [← hagree _ ⟨r.2, link_mem_ownFrames hr, rfl⟩]
    exact h r hr
  cases s with
  | down => trivial
  | seeding seeded => exact hhangs h
  | running seeded p shown =>
      refine ⟨hhangs h.1, ?_, ?_⟩
      · -- frames of meshes and of links alike are among those of the driver
        intro m hm
        rw [← hagree _ ⟨_, mesh_mem_ownFrames hm, rfl⟩]
        exact h.2.1 m hm
      · intro joints hjoints
        obtain ⟨c, c', seeded, now, hset, htable⟩ := h.2.2 joints hjoints
        refine ⟨c, c', seeded, now, hset, fun t ht => ?_⟩
        obtain ⟨r, hr, hchild, -⟩ := frame_of_mem_frames ht
        rw [← hagree _ ⟨r.2, link_mem_ownFrames hr, hchild⟩]
        exact htable t ht

end Runs

/-! ## The cell -/

/-- The publishers of a cell, whatever is in the table before, in any order of their steps. -/
abbrev FramesRun {ι : Type} [DecidableEq ι] (arm : ι → Arm N C) (table₀ : FrameTable ℝ)
    (x : FrameTable ℝ × (ι → FramesPhase ℝ C)) : Prop :=
  Lts.ReachableBy (SharedMap.together fun i => (arm i).publisher) (fun _ a => SeedsReach a.2)
    (table₀, fun _ => .down) x

/-- An arm in the table, its base where it was put. -/
structure ArmStands (arm : Arm N C) (table₀ table : FrameTable ℝ) (shown : Option (List ℝ)) :
    Prop where
  hangs : Hangs arm.params table
  base : table (arm.params.frame "base_link") = table₀ (arm.params.frame "base_link")
  meshes : MeshesPlaced arm.params arm.mesh table
  /-- From the base to the tool it is the arm at the joints that are shown. -/
  tracks : ∀ q, shown = some (List.ofFn q) → ∃ g,
    (tableTree table).Leads (arm.params.frame "base_link") (arm.params.frame "tool0") g
      ∧ Motion.Same g (forwardKinematics arm.dh q)

/--
**The arms of a cell stand.** Under different prefixes, an arm whose driver is in its loop hangs
together as its URDF has it, at the joints that last reached Redis, whatever the other drivers do
and whichever ticks are lost.
-/
theorem arms_stand {ι : Type} [DecidableEq ι] {arm : ι → Arm N C}
    (hapart : ∀ i j, i ≠ j → (arm i).params.tfPrefix ≠ (arm j).params.tfPrefix)
    {table₀ : FrameTable ℝ} {x : FrameTable ℝ × (ι → FramesPhase ℝ C)}
    (h : FramesRun arm table₀ x) (i : ι) {seeded : String → Nat} {p : Publisher ℝ C}
    {shown : Option (List ℝ)} (hi : x.2 i = .running seeded p shown) :
    ArmStands (arm i) table₀ x.1 shown := by
  have hown := fun i => publisher_owns (arm i)
  obtain ⟨table, halone, hagree⟩ :=
    SharedMap.isolated hown (fun i j hij => driverFrames_apart (hapart i j hij)) h i
  have hstand : Standing (arm i) x.1 (x.2 i) := (standing_alone halone).congr hagree
  rw [hi] at hstand
  obtain ⟨hhangs, hmeshes, hshows⟩ := hstand
  exact {
    hangs := hhangs
    base := SharedMap.untouched hown (fun _ => base_not_written) h
    meshes := hmeshes
    tracks := fun q hq => hshows.tracks hq }

/-- Joints that are news, and that the chain accepts, are shown once their frames land. -/
theorem tick_shown {arm : Arm N C} {seeded : String → Nat} {now : N → Nat} {p : Publisher ℝ C}
    {ds : DriverState ℝ} {q : Joints ℝ} (hds : ds.jointValues = List.ofFn q)
    (hnew : p.lastPublishedJoints ≠ some ds.jointValues)
    (hin : Within arm.limits (halfTurned q)) :
    (transformsIn (p.tick arm.env (initializeRobotTransforms arm.env.robotParams
      arm.env.defaultTransform seeded).1 now ds).2).isEmpty = false := by
  have htracks : Tracks arm.params arm.dh q (p.tick arm.env (initializeRobotTransforms
      arm.env.robotParams arm.env.defaultTransform seeded).1 now ds).2 :=
    arm.reads.tracks hds hnew hin
  obtain ⟨ts, hts, hframe, -⟩ := htracks
  obtain ⟨t, ht, -⟩ := hframe ("flange", "tool0") (by decide)
  refine List.isEmpty_eq_false_iff.mpr (List.ne_nil_of_mem (a := t) ?_)
  exact List.mem_flatMap.mpr ⟨_, hts, ht⟩

namespace Scenario

/-- A link whose mesh is a tenth above it, turned. -/
def raisedLink : XmlNode :=
  .element "link" [("name", "shoulder_link")]
    [.element "visual" [] [.element "origin" [("rpy", "0 0 1.5"), ("xyz", "0 0 0.1")] []]]

/-- A URDF with one link. -/
def oneLink : XmlNode := .element "robot" [("name", "ur20")] [.other, raisedLink]

/-- Decimals, read as the numbers they are. -/
noncomputable def decimal (text : String) : Option ℝ :=
  (Text.parseDecimal text).toOption.map Rat.cast

theorem threeNumbers_decimal {text : String} {a b c : ℚ}
    (h : (Text.splitWhitespace text).filterMap (fun s => (Text.parseDecimal s).toOption)
      = [a, b, c]) :
    threeNumbers decimal text = some ((a : ℝ), (b : ℝ), (c : ℝ)) := by
  have hmap : (Text.splitWhitespace text).filterMap decimal = [(a : ℝ), (b : ℝ), (c : ℝ)] := by
    have hcast := congrArg (List.map (Rat.cast : ℚ → ℝ)) h
    rw [List.map_filterMap] at hcast
    exact hcast
  rw [threeNumbers, hmap]

theorem visualOrigin_raised :
    visualOrigin decimal raisedLink = ((0, 0, 1 / 10), (0, 0, 3 / 2)) := by
  have hxyz : threeNumbers decimal "0 0 0.1" = _ :=
    threeNumbers_decimal (a := 0) (b := 0) (c := 1 / 10) (by decide +kernel)
  have hrpy : threeNumbers decimal "0 0 1.5" = _ :=
    threeNumbers_decimal (a := 0) (b := 0) (c := 3 / 2) (by decide +kernel)
  show ((threeNumbers decimal "0 0 0.1").getD _, (threeNumbers decimal "0 0 1.5").getD _) = _
  rw [hxyz, hrpy]
  norm_num

/-- A UR20 whose driver is started with these parameters. -/
def ur20Arm (params : URDFParameters) : Arm UrdfNode UrdfState where
  params := params
  defaultTransform := noTurn
  mesh := ⟨.real, decimal, "meshes/ur20/visual", oneLink⟩
  chain := urdfChain ur20 ur20Limits
  chainState := ⟨0, fun _ => none⟩
  limits := ur20Limits
  dh := ur20
  reads := urdfChain_reads ur20 ur20Limits
  sines := rfl

/-- The first arm of a cell has no prefix. -/
def armPair (second : Bool) : Arm UrdfNode UrdfState :=
  ur20Arm (if second then secondArm else ⟨"r1", ""⟩)

end Scenario

open Scenario

/-- Two arms, the first of which is shown at rest, with its mesh where its URDF has it. -/
theorem arms_stand_pair : ∃ x, FramesRun armPair (fun _ => none) x
    ∧ ArmStands (armPair false) (fun _ => none) x.1 (some (List.ofFn (0 : Joints ℝ)))
    ∧ ∃ t, x.1 "shoulder_link_visual" = some t ∧ t.parentFrameId = "shoulder_link"
      ∧ toIsometry t.transform = some (originPose ((0, 0, 1 / 10), (0, 0, 3 / 2))) := by
  let robot : FramesAction ℝ UrdfNode := .robot (fun _ => 0) true
  let visual : FramesAction ℝ UrdfNode := .visual (fun _ => 0) true
  let ds : DriverState ℝ := { DriverState.new with jointValues := List.ofFn (0 : Joints ℝ) }
  let tick : FramesAction ℝ UrdfNode := .tick (fun _ => 1) ds true
  let p : Publisher ℝ UrdfState := .start ⟨0, fun _ => none⟩
  have hin : Within (armPair false).limits (halfTurned 0) := by
    have hpi := Real.pi_pos
    intro i r hr
    fin_cases i <;> obtain rfl := Option.some.inj hr <;> constructor <;> simp [halfTurned] <;>
      linarith
  have hlands : (transformsIn (p.tick (armPair false).env (initializeRobotTransforms
      (armPair false).env.robotParams (armPair false).env.defaultTransform fun _ => 0).1
        (fun _ => 1) ds).2).isEmpty = false :=
    tick_shown rfl (Option.some_ne_none _).symm hin
  -- the second arm starts in between, and its frames do not touch those of the first
  have h₁ : FramesRun armPair (fun _ => none) _ := .tail (a := (false, robot)) .init rfl rfl
  have h₂ : FramesRun armPair (fun _ => none) _ := .tail (a := (true, robot)) h₁ rfl rfl
  have h₃ : FramesRun armPair (fun _ => none) _ := .tail (a := (false, visual)) h₂ rfl rfl
  have h₄ : FramesRun armPair (fun _ => none) _ := .tail (a := (false, tick)) h₃ trivial rfl
  obtain ⟨x, hx, p', hat⟩ : ∃ x, FramesRun armPair (fun _ => none) x ∧ ∃ p',
      x.2 false = .running (fun _ => 0) p' (some ds.jointValues) :=
    ⟨_, h₄, _, congrArg (FramesPhase.running _ _) (if_pos (congrArg (true && !·) hlands))⟩
  have hstands := arms_stand (by decide) hx false hat
  obtain ⟨t, ht, hparent, hplace⟩ :=
    hstands.meshes ("shoulder_link", "shoulder.dae") (by decide) raisedLink rfl
  have horigin : visualOrigin (armPair false).mesh.parse raisedLink = _ := visualOrigin_raised
  rw [horigin] at hplace
  exact ⟨x, hx, hstands, t, ht, hparent, hplace⟩

end

end UrRedisDriver.Proof
