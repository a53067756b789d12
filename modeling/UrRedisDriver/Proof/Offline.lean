import UrRedisDriver.Proof.PoseLiterals
import UrRedisDriver.Proof.Saving
import UrRedisDriver.Proof.Stops
import UrRedisDriver.Proof.Stored
import UrRedisDriver.Tools.PlanTrajectory

/-!
# Planned now, run later

The tool plans offline what the driver would plan when it is asked to. What it leaves in the
trajectory directory is a plan it made, whatever else goes wrong on the way, and to run that by
its name is to run what would have been planned on the spot.
-/

namespace UrRedisDriver.Proof

open UrRedisDriver FileTree

noncomputable section

variable {t : Tool} {sky : Weather} {d d' : Disk} {args : Args} {name input path text : String}
  {request : PlanRequest} {traj : PlannedTrajectory} {stored : StoredTrajectory}

/-! ## What a run leaves in the store -/

/-- A path that is not one of the trajectory directory. -/
def Elsewhere (env : PlannerEnv) (path : String) : Prop :=
  ∀ file, components path ≠ components env.trajectoryDirPath ++ [file]

theorem writeScript_load (h : Elsewhere t.env path) (script : String) :
    (t.env.onDisk (Tool.writeScript sky d path script).2).load name
      = (t.env.onDisk d).load name := by
  apply load_congr
  unfold Tool.writeScript
  dsimp only
  split
  · rfl
  · -- the script goes to a place of its own, so no stored trajectory is touched
    have hother (outcome : Disk.WriteOutcome) :
        (d.write (components path) script.toByteArray outcome).2.nodeAt (placeOf t.env name)
          = d.nodeAt (placeOf t.env name) :=
      Disk.write_other fun he => h _ he.symm
    specialize hother (if Tool.namesFile path then sky.writeScript
      else .notOpened "Is a directory (os error 21)")
    rcases hw : d.write (components path) script.toByteArray _ with ⟨written, d₁⟩
    rw [hw] at hother
    cases written with
    | error e => exact hother
    | ok u => exact hother

theorem scriptTo_load (h : ∀ path, args.get "script" = some path → Elsewhere t.env path)
    (traj : PlannedTrajectory) :
    (t.env.onDisk (t.scriptTo sky d args traj).2).load name = (t.env.onDisk d).load name := by
  unfold Tool.scriptTo
  cases t.render traj (args.get "tcp") with
  | error e => rfl
  | ok script =>
      cases hs : args.get "script" with
      | none => rfl
      | some path => exact writeScript_load (h path hs) script

/-- What can be loaded after a save was there before, or is what was saved. -/
theorem save_loads {s : Saving} (hs : SerdeExact t.toStringPretty t.env.parseStored s.stored)
    (h : (t.env.onDisk (t.env.save t.toStringPretty d s).2).load name = .ok stored) :
    (t.env.onDisk d).load name = .ok stored ∨ name = s.name ∧ stored = s.stored := by
  by_cases hname : name = s.name
  · subst hname
    cases save_outcome t.env t.toStringPretty d s with
    | written json hv hj hcut hres hplace hothers =>
        rw [load_written hv hplace (hs.round_trip json hj) rfl] at h
        exact .inr ⟨rfl, (Except.ok.inj h).symm⟩
    | cut json kept hv hj hcut hres hplace hothers =>
        -- half a file does not load, so it cannot be what was read
        obtain ⟨e, he⟩ := load_cut hs hj hplace
        rw [he] at h
        cases h
    | untouched hcut hres hsame => exact .inl (hsame.load s.name ▸ h)
  · rw [save_load_other hname] at h
    exact .inl h

theorem planned_ok : t.planned d args = .ok (name, request, traj) ↔
    ∃ input text request', args.get "input" = some input ∧ args.get "name" = some name
      ∧ validateName name = .ok () ∧ d.readToString input = .ok text
      ∧ t.parseRequest text = .ok request' ∧ t.override args request' = .ok request
      ∧ plan t.env.limits request = .ok traj := by
  unfold Tool.planned Args.require
  constructor
  · intro h
    obtain ⟨input, hinput, h⟩ := Except.bind_eq_ok.mp h
    obtain ⟨name', hname, h⟩ := Except.bind_eq_ok.mp h
    obtain ⟨_, hvalid, h⟩ := Except.bind_eq_ok.mp h
    obtain ⟨text, htext, h⟩ := Except.bind_eq_ok.mp h
    obtain ⟨request', hparse, h⟩ := Except.bind_eq_ok.mp h
    obtain ⟨request'', hover, h⟩ := Except.bind_eq_ok.mp h
    obtain ⟨traj', hplan, h⟩ := Except.bind_eq_ok.mp h
    cases h
    exact ⟨input, text, request', Except.ofOption_eq_ok.mp hinput, Except.ofOption_eq_ok.mp hname,
      hvalid, Except.mapError_eq_ok.mp htext, Except.mapError_eq_ok.mp hparse, hover,
      Except.mapError_eq_ok.mp hplan⟩
  · rintro ⟨input, text, request', hinput, hname, hvalid, htext, hparse, hover, hplan⟩
    refine Except.bind_eq_ok.mpr ⟨input, Except.ofOption_eq_ok.mpr hinput, ?_⟩
    refine Except.bind_eq_ok.mpr ⟨name, Except.ofOption_eq_ok.mpr hname, ?_⟩
    refine Except.bind_eq_ok.mpr ⟨(), hvalid, ?_⟩
    refine Except.bind_eq_ok.mpr ⟨text, Except.mapError_eq_ok.mpr htext, ?_⟩
    refine Except.bind_eq_ok.mpr ⟨request', Except.mapError_eq_ok.mpr hparse, ?_⟩
    refine Except.bind_eq_ok.mpr ⟨request, hover, ?_⟩
    exact Except.bind_eq_ok.mpr ⟨traj, Except.mapError_eq_ok.mpr hplan, rfl⟩

/-- What a name stands for, after a run of the tool that has planned it: the request is the one
in the input file, on the disk the run was made on, with what the command line has instead. -/
structure Made (t : Tool) (d : Disk) (argv : List String) (name : String)
    (stored : StoredTrajectory) : Prop where
  command : argv.head? = some "plan"
  asked : (Args.parse argv.tail).get "name" = some name
  stores : (Args.parse argv.tail).has "dry-run" = false
  name : stored.name = name
  planned : ∃ input text written request, (Args.parse argv.tail).get "input" = some input
    ∧ d.readToString input = .ok text ∧ t.parseRequest text = .ok written
    ∧ t.override (Args.parse argv.tail) written = .ok request
    ∧ stored.request = some request ∧ plan t.env.limits request = .ok stored.trajectory

/-- The script of a run, if it writes one, is not put among the trajectories. -/
def ScriptElsewhere (env : PlannerEnv) (argv : List String) : Prop :=
  ∀ path, (Args.parse argv.tail).get "script" = some path → Elsewhere env path

theorem planScript_load (h : ∀ path, args.get "script" = some path → Elsewhere t.env path)
    (traj : PlannedTrajectory) :
    (t.env.onDisk (t.planScript sky d args traj).2).load name = (t.env.onDisk d).load name := by
  unfold Tool.planScript
  split
  · exact scriptTo_load h traj
  · rfl

/-- What a run of `plan` can come to. -/
inductive PlanRun (t : Tool) (sky : Weather) (d : Disk) (args : Args) :
    Except String Unit × Disk → Prop
  | refused (e : String) (hp : t.planned d args = .error e) : PlanRun t sky d args (.error e, d)
  | unscripted (name : String) (request : PlanRequest) (traj : PlannedTrajectory) (e : String)
      (hp : t.planned d args = .ok (name, request, traj))
      (hs : (t.planScript sky d args traj).1 = .error e) :
      PlanRun t sky d args (.error e, (t.planScript sky d args traj).2)
  | dry (name : String) (request : PlanRequest) (traj : PlannedTrajectory)
      (hp : t.planned d args = .ok (name, request, traj)) (hdry : args.has "dry-run" = true) :
      PlanRun t sky d args (.ok (), (t.planScript sky d args traj).2)
  | saved (name : String) (request : PlanRequest) (traj : PlannedTrajectory) (d₁ : Disk)
      (hp : t.planned d args = .ok (name, request, traj)) (hdry : args.has "dry-run" = false)
      (hs : d₁ = (t.planScript sky d args traj).2) :
      PlanRun t sky d args
        ((t.env.save t.toStringPretty d₁ (Tool.saving sky name request traj)).1.map fun _ => (),
          (t.env.save t.toStringPretty d₁ (Tool.saving sky name request traj)).2)

theorem cmdPlan_run (t : Tool) (sky : Weather) (d : Disk) (raw : List String) :
    PlanRun t sky d (Args.parse raw) (t.cmdPlan sky d raw) := by
  unfold Tool.cmdPlan
  dsimp only
  cases hp : t.planned d (Args.parse raw) with
  -- no script was written: the source returns before it saves
  | error e => exact .refused e hp
  | ok p =>
      obtain ⟨name, request, traj⟩ := p
      dsimp only
      cases hs : t.planScript sky d (Args.parse raw) traj with
      | mk written d₁ =>
          cases written with
          | error e =>
              have h := PlanRun.unscripted name request traj e hp (congrArg Prod.fst hs)
              rwa [hs] at h
          | ok u =>
              dsimp only
              split
              · -- a dry run ends before the store is written
                rename_i hdry
                have h : PlanRun t sky d _ (.ok (), (t.planScript sky d _ traj).2) :=
                  .dry name request traj hp hdry
                rwa [hs] at h
              · rename_i hdry
                have h : PlanRun t sky d _ _ :=
                  .saved name request traj d₁ hp (by simpa using hdry) (by rw [hs])
                cases hw : t.env.save t.toStringPretty d₁ (Tool.saving sky name request traj) with
                | mk saved d₂ =>
                    rw [hw] at h
                    cases saved <;> exact h

theorem cmdPlan_load {raw : List String}
    (hs : ∀ stored, SerdeExact t.toStringPretty t.env.parseStored stored)
    (he : ScriptElsewhere t.env ("plan" :: raw))
    (h : (t.env.onDisk (t.cmdPlan sky d raw).2).load name = .ok stored) :
    (t.env.onDisk d).load name = .ok stored ∨ Made t d ("plan" :: raw) name stored := by
  -- the script comes first, and is none of the store's business
  have hscript (traj : PlannedTrajectory) : (t.env.onDisk
      (t.planScript sky d (Args.parse raw) traj).2).load name = (t.env.onDisk d).load name :=
    planScript_load he traj
  have hrun := cmdPlan_run t sky d raw
  generalize t.cmdPlan sky d raw = out at hrun h
  cases hrun with
  | refused e hp => exact .inl h
  | unscripted name request traj e hp hs => exact .inl (hscript traj ▸ h)
  | dry name request traj hp hdry => exact .inl (hscript traj ▸ h)
  | saved saved request traj d₁ hp hdry hd =>
      obtain ⟨input, text, written, hinput, hname, -, htext, hparse, hover, hplan⟩ :=
        planned_ok.mp hp
      rcases save_loads (hs _) h with hold | ⟨rfl, rfl⟩
      · exact .inl (hscript traj ▸ hd ▸ hold)
      · exact .inr ⟨rfl, hname, hdry, rfl, input, text, written, request, hinput, htext, hparse,
          hover, rfl, hplan⟩

theorem main_load {argv : List String}
    (hs : ∀ stored, SerdeExact t.toStringPretty t.env.parseStored stored)
    (he : ScriptElsewhere t.env argv)
    (h : (t.env.onDisk (t.main sky d argv).2).load name = .ok stored) :
    (t.env.onDisk d).load name = .ok stored ∨ Made t d argv name stored := by
  unfold Tool.main at h
  -- only `plan` saves; of the others only `render` writes anything at all
  split at h
  case h_4 raw => exact cmdPlan_load hs he h
  case h_7 raw =>
    refine .inl ?_
    unfold Tool.cmdRender at h
    dsimp only at h
    split at h
    · exact h
    · rename_i loaded _
      have hkeep : (t.env.onDisk (t.scriptTo sky d (Args.parse raw) loaded.trajectory).2).load name
          = (t.env.onDisk d).load name := scriptTo_load he _
      rwa [hkeep] at h
  all_goals exact .inl h

/--
**Whatever the tool is run for, and however its calls end.** What can be loaded from the store
afterwards was there before, or one of the runs planned it: it is the plan of the request in that
run's input file, as the earlier runs had left the disk, and it is stored with that request under
the name the run was given. A script that is written in between must not go to the trajectory
directory.
-/
theorem tool_keeps_store {calls : List (List String × Weather)}
    (hs : ∀ stored, SerdeExact t.toStringPretty t.env.parseStored stored)
    (he : ∀ call ∈ calls, ScriptElsewhere t.env call.1)
    (h : (t.env.onDisk (t.runs d calls)).load name = .ok stored) :
    (t.env.onDisk d).load name = .ok stored
      ∨ ∃ earlier call later, calls = earlier ++ call :: later
        ∧ Made t (t.runs d earlier) call.1 name stored := by
  induction calls generalizing d with
  | nil => exact .inl h
  | cons call calls ih =>
      obtain ⟨argv, sky⟩ := call
      rcases ih (fun c hc => he c (List.mem_cons_of_mem _ hc)) h with hload | hmade
      · rcases main_load hs (he _ List.mem_cons_self) hload with hold | hmade
        · exact .inl hold
        · exact .inr ⟨[], (argv, sky), calls, rfl, hmade⟩
      · -- the later run is as late on a disk that this one has been made on
        obtain ⟨earlier, c, later, rfl, hmade⟩ := hmade
        exact .inr ⟨(argv, sky) :: earlier, c, later, rfl, hmade⟩

/-! ## Running by name what was planned -/

/-- A run of `plan` stores the plan of a request as it stands in a file. -/
structure Stores (t : Tool) (d : Disk) (raw : List String) (name : String)
    (request : PlanRequest) : Prop where
  input : ∃ input text, (Args.parse raw).get "input" = some input
    ∧ d.readToString input = .ok text ∧ t.parseRequest text = .ok request
  name : (Args.parse raw).get "name" = some name
  asItStands : ∀ flag ∈ ["model", "velocity-scaling", "acceleration-scaling",
    "acceleration-limits"], (Args.parse raw).get flag = none
  stores : (Args.parse raw).has "dry-run" = false

theorem override_none (request : PlanRequest) (h : ∀ flag ∈ ["model", "velocity-scaling",
    "acceleration-scaling", "acceleration-limits"], args.get flag = none) :
    t.override args request = .ok request := by
  unfold Tool.override Args.float
  rw [h "model" (by decide), h "velocity-scaling" (by decide),
    h "acceleration-scaling" (by decide), h "acceleration-limits" (by decide)]
  rfl

/-- A run that succeeds has stored the plan. -/
theorem cmdPlan_stored {raw : List String}
    (hs : ∀ stored, SerdeExact t.toStringPretty t.env.parseStored stored)
    (h : Stores t d raw name request) (hok : (t.cmdPlan sky d raw).1 = .ok ()) :
    ∃ stored, plan t.env.limits request = .ok stored.trajectory
      ∧ (t.env.onDisk (t.cmdPlan sky d raw).2).load name = .ok stored := by
  -- the tool is given the request as it stands in its input file
  have hplanned {name' : String} {request' : PlanRequest} {traj : PlannedTrajectory}
      (hp : t.planned d (Args.parse raw) = .ok (name', request', traj)) :
      name' = name ∧ plan t.env.limits request = .ok traj := by
    obtain ⟨input, text, hinput, htext, hparse⟩ := h.input
    obtain ⟨input', text', request'', hinput', hname', -, htext', hparse', hover, hplan⟩ :=
      planned_ok.mp hp
    rw [hinput] at hinput'
    cases hinput'
    rw [htext] at htext'
    cases htext'
    rw [hparse] at hparse'
    cases hparse'
    rw [override_none request h.asItStands] at hover
    cases hover
    rw [h.name] at hname'
    cases hname'
    exact ⟨rfl, hplan⟩
  have hrun := cmdPlan_run t sky d raw
  generalize t.cmdPlan sky d raw = out at hrun hok
  -- a run that reports success has saved: each other ending fails or is a dry run
  cases hrun with
  | refused e hp => cases hok
  | unscripted _ _ traj e hp hs => cases hok
  | dry _ _ traj hp hdry =>
      rw [h.stores] at hdry
      cases hdry
  | saved name' request' traj d₁ hp hdry hd =>
      obtain ⟨rfl, hplan⟩ := hplanned hp
      cases hsave : (t.env.save t.toStringPretty d₁ (Tool.saving sky name' request' traj)).1 with
      | error e =>
          rw [hsave] at hok
          cases hok
      | ok path =>
          exact ⟨(Tool.saving sky name' request' traj).stored, hplan, save_load (hs _) hsave⟩

/-- The limits of an arm whose joints are all alike. -/
def deskLimits : Limits ℝ := (pickTrajectory "ur20").limits

/-- Where its description is. -/
def deskUrdf : String := "/opt/ur/urdf/ur20.urdf"

def deskJoints : List UrdfJoint := List.ofFn fun i =>
  ⟨jointNames i, false, deskLimits.positionMin i, deskLimits.positionMax i, deskLimits.velocityMax i⟩

def deskRead (path : String) : Except String (List UrdfJoint) :=
  if path = deskUrdf then .ok deskJoints else .error "No such file or directory (os error 2)"

def deskLimitSource : LimitSource := ⟨deskRead, some "/opt/ur"⟩

theorem desk_limit (path : String) (i : Fin 6) :
    UrdfJoint.limit path deskJoints (jointNames i) = .ok (-4, 4, 2) := by
  have hfind : deskJoints.find? (·.name = jointNames i) = some ⟨jointNames i, false, -4, 4, 2⟩ := by
    fin_cases i <;> simp [deskJoints, deskLimits, pickTrajectory, jointNames, List.ofFn_succ]
  refine Except.bind_eq_ok.mpr ⟨_, Except.ofOption_eq_ok.mpr hfind, ?_⟩
  refine Except.bind_eq_ok.mpr ⟨(), Except.require_eq_ok.mpr (by norm_num), ?_⟩
  exact if_neg (by norm_num)

theorem desk_limits : modelLimits deskLimitSource "ur20" = .ok deskLimits := by
  -- the vendored file is not there, and the one under the given directory is
  have hvendored : deskLimitSource.read "src/ur_description/urdf/ur20.urdf" = none := by
    have hne : ¬ "src/ur_description/urdf/ur20.urdf" = deskUrdf := by decide
    have hfile : deskRead "src/ur_description/urdf/ur20.urdf"
        = .error "No such file or directory (os error 2)" := by
      unfold deskRead
      rw [if_neg hne]
    unfold LimitSource.read Limits.fromUrdf
    rw [show deskLimitSource.readUrdf = deskRead from rfl, hfile]
    rfl
  have hdir : deskLimitSource.read deskUrdf = some deskLimits := by
    have hread : Limits.fromUrdf deskLimitSource.readUrdf deskUrdf = .ok deskLimits := by
      have hfile : deskLimitSource.readUrdf deskUrdf = .ok deskJoints := by
        show deskRead deskUrdf = _
        unfold deskRead
        rw [if_pos rfl]
      have hramp : estimateAcceleration (fun _ => (2 : ℝ)) = fun _ => 4 := by
        funext i
        norm_num [estimateAcceleration, rampTimeS]
      refine Except.bind_eq_ok.mpr ⟨deskJoints, Except.mapError_eq_ok.mpr hfile, ?_⟩
      refine Except.bind_eq_ok.mpr ⟨_, Joints.sequence_ok.mpr (desk_limit _), ?_⟩
      rw [hramp]
      rfl
    unfold LimitSource.read
    rw [hread]
  have hpath : "src/ur_description/urdf/" ++ "ur20" ++ ".urdf"
      = "src/ur_description/urdf/ur20.urdf" := by decide
  have hfull : Text.trimEndMatches "/opt/ur" '/' ++ "/urdf/" ++ "ur20" ++ ".urdf" = deskUrdf := by
    decide
  unfold modelLimits
  rw [hpath, hvendored]
  show Except.ofOption (deskLimitSource.read
    (Text.trimEndMatches "/opt/ur" '/' ++ "/urdf/" ++ "ur20" ++ ".urdf")) _ = _
  rw [hfull, hdir]
  rfl

def deskGoal : Joints ℝ := ![1, 0, 0, 0, 0, 0]

theorem desk_delta : jointDelta 0 deskGoal = deskGoal := by
  funext i
  fin_cases i <;> norm_num [jointDelta, deskGoal]

theorem desk_move : largestMove deskGoal = 1 := by
  norm_num [largestMove, List.ofFn_succ, deskGoal]

theorem desk_speed : jointSegmentSpeed deskGoal deskLimits = some ⟨2, 4, 0⟩ := by
  -- the first joint bounds the speed, the others are at rest
  have hfirst : boundByJoint deskGoal deskLimits 1 (⊤, ⊤, 0) 0
      = (((2 : ℝ) : WithTop ℝ), ((4 : ℝ) : WithTop ℝ), 0) := by
    have htop : ((2 : ℝ) : WithTop ℝ) < ⊤ := WithTop.coe_lt_top 2
    have hratio : (2 : ℝ) * (1 / |deskGoal 0|) = 2 := by norm_num [deskGoal]
    have hratio' : (4 : ℝ) * (1 / |deskGoal 0|) = 4 := by norm_num [deskGoal]
    have hmoves : ¬ |deskGoal 0| ≤ motionlessJoint := by norm_num [deskGoal, motionlessJoint]
    unfold boundByJoint
    dsimp only
    rw [if_neg hmoves]
    simp only [deskLimits, pickTrajectory, hratio, hratio', if_pos htop]
    simp
  have hstill (acc : WithTop ℝ × WithTop ℝ × Nat) (i : Fin 6) (hi : i ≠ 0) :
      boundByJoint deskGoal deskLimits 1 acc i = acc := by
    have hzero : deskGoal i = 0 := by
      fin_cases i
      · exact absurd rfl hi
      all_goals rfl
    rw [boundByJoint]
    norm_num [hzero, motionlessJoint]
  have hall : List.finRange 6 = [0, 1, 2, 3, 4, 5] := rfl
  unfold jointSegmentSpeed
  rw [desk_move, hall]
  simp only [List.foldl_cons, List.foldl_nil, hfirst, hstill _ 1 (by decide),
    hstill _ 2 (by decide), hstill _ 3 (by decide), hstill _ 4 (by decide), hstill _ 5 (by decide)]
  norm_num [motionlessJoint]

/-- The request to turn the first joint. -/
def deskRequest : PlanRequest where
  robotModel := "ur20"
  start := .joints 0
  waypoints := [jointMove deskGoal]
  scaling := ⟨0, 0⟩
  accelerationMax := none
  maxCartesianSpeed := defaultMaxCartesianSpeed
  maxPathDeviation := defaultMaxPathDeviation
  frameConfig := .default

theorem desk_inside {q : Joints ℝ} (h : ∀ i, 0 ≤ q i ∧ q i ≤ 1) : Inside deskLimits q := by
  intro i
  obtain ⟨hlo, hhi⟩ := h i
  have hmin : deskLimits.positionMin i ≤ q i := by
    show (-4 : ℝ) ≤ q i
    linarith
  have hmax : q i ≤ deskLimits.positionMax i := by
    show q i ≤ (4 : ℝ)
    linarith
  exact ⟨hmin, hmax⟩

theorem desk_plan : plan deskLimitSource deskRequest = .ok (pickTrajectory "ur20") := by
  have hscaled : deskLimits.scaled ⟨0, 0⟩ = deskLimits := by
    norm_num [Limits.scaled, clampScale, deskLimits, pickTrajectory]
  have hgoal : Inside deskLimits deskGoal :=
    desk_inside fun i => by fin_cases i <;> norm_num [deskGoal]
  have hsegment : planSegment ur20 deskLimits defaultMaxCartesianSpeed 0 (jointMove deskGoal) 0
      deskGoal = .ok ⟨⟨deskGoal, 2, 4, 0, false, 0⟩, 1, []⟩ := by
    have hspeed : segmentSpeed ur20 deskLimits defaultMaxCartesianSpeed 0 .joint 0 deskGoal
        = .ok ⟨2, 4, 0⟩ := by
      unfold segmentSpeed
      dsimp only
      rw [desk_delta, desk_speed]
      rfl
    -- ramped all the way: half a second up and half a second down
    have hlong : trapezoidDuration (largestMove (jointDelta 0 deskGoal)) 2 4 = 1 := by
      have hroot : √((1 : ℝ) / 4) = 1 / 2 := by
        rw [show (1 : ℝ) / 4 = (1 / 2) ^ 2 by norm_num]
        exact Real.sqrt_sq (by norm_num)
      rw [desk_delta, desk_move, trapezoidDuration]
      norm_num [hroot]
    refine Except.bind_eq_ok.mpr ⟨⟨2, 4, 0⟩, hspeed, ?_⟩
    unfold segmentDistance jointMove
    dsimp only
    rw [hlong]
    simp
  refine Except.bind_eq_ok.mpr ⟨ur20, Except.ofOption_eq_ok.mpr forModel_ur20, ?_⟩
  refine Except.bind_eq_ok.mpr ⟨(), Except.require_eq_ok.mpr (List.cons_ne_nil _ _), ?_⟩
  refine Except.bind_eq_ok.mpr ⟨(), Except.require_eq_ok.mpr (by decide), ?_⟩
  refine Except.bind_eq_ok.mpr ⟨deskLimits, desk_limits, ?_⟩
  dsimp only [deskRequest, Option.elim_none]
  rw [hscaled]
  refine Except.bind_eq_ok.mpr ⟨0, resolve_joints (desk_inside fun i => by simp), ?_⟩
  have hgoals : ∀ q ∈ [deskGoal], Inside deskLimits q := by
    intro q hq
    rwa [List.mem_singleton.mp hq]
  refine Except.bind_eq_ok.mpr
    ⟨[deskGoal], resolveWaypoints_joints (jointMoves [deskGoal]) hgoals, ?_⟩
  · refine Except.bind_eq_ok.mpr ⟨_, Except.bind_eq_ok.mpr ⟨_, hsegment, rfl⟩, ?_⟩
    simp [blendCorners, pickTrajectory, deskLimits, deskGoal]

/-- The request, as it is written by hand. -/
def deskInput : String :=
  "\x7b\"robot_model\":\"ur20\",\"start\":\x7b\"joints\":[0,0,0,0,0,0]\x7d,\"waypoints\":"
    ++ "[\x7b\"target\":\x7b\"joints\":[1,0,0,0,0,0]\x7d\x7d],"
    ++ "\"scaling\":\x7b\"velocity\":0,\"acceleration\":0\x7d\x7d"

/-- Six numbers, as `serde_json` lays an array out. -/
def arrayLines (indent : String) (numbers : List String) : String :=
  "[\n" ++ ",\n".intercalate (numbers.map fun n => indent ++ "  " ++ n) ++ "\n" ++ indent ++ "]"

/-- What is stored for it. -/
def deskStored : StoredTrajectory where
  schemaVersion := 1
  name := "pick"
  createdUnixSeconds := 0
  request := some deskRequest
  trajectory := pickTrajectory "ur20"

def deskText : String :=
  "\x7b\n" ++ "\n".intercalate ["  \"schema_version\": 1,", "  \"name\": \"pick\",",
    "  \"created_unix_seconds\": 0,", "  \"request\": \x7b",
    "    \"robot_model\": \"ur20\",", "    \"start\": \x7b",
    "      \"joints\": " ++ arrayLines "      " (List.replicate 6 "0.0"), "    \x7d,", "    \"waypoints\": [",
    "      \x7b", "        \"target\": \x7b",
    "          \"joints\": " ++ arrayLines "          " ("1.0" :: List.replicate 5 "0.0"), "        \x7d,",
    "        \"preferred_joint_config\": null,", "        \"blend_radius\": null,",
    "        \"interpolation\": \"joint\"", "      \x7d", "    ],", "    \"scaling\": \x7b",
    "      \"velocity\": 0.0,", "      \"acceleration\": 0.0", "    \x7d,",
    "    \"acceleration_max\": null,", "    \"max_cartesian_speed\": 0.5,",
    "    \"max_path_deviation\": 0.01,", "    \"frame_config\": \x7b",
    "      \"base_link_is_ur_base\": true", "    \x7d", "  \x7d,", "  \"trajectory\": \x7b",
    "    \"robot_model\": \"ur20\",",
    "    \"start_joint_positions\": " ++ arrayLines "    " (List.replicate 6 "0.0") ++ ",",
    "    \"waypoints\": [", "      \x7b",
    "        \"joint_positions\": " ++ arrayLines "        " ("1.0" :: List.replicate 5 "0.0") ++ ",",
    "        \"velocity\": 2.0,", "        \"acceleration\": 4.0,",
    "        \"blend_radius\": 0.0,", "        \"use_linear_motion\": false,",
    "        \"limiting_joint\": 0", "      \x7d", "    ],", "    \"duration_estimate\": 1.0,",
    "    \"limits\": \x7b",
    "      \"position_min\": " ++ arrayLines "      " (List.replicate 6 "-4.0") ++ ",",
    "      \"position_max\": " ++ arrayLines "      " (List.replicate 6 "4.0") ++ ",",
    "      \"velocity_max\": " ++ arrayLines "      " (List.replicate 6 "2.0") ++ ",",
    "      \"acceleration_max\": " ++ arrayLines "      " (List.replicate 6 "4.0"), "    \x7d,",
    "    \"warnings\": []", "  \x7d", "\x7d"]

open Classical in
/-- The tool, where those two texts are all that is read or written, and no templates are. -/
def desk : Tool where
  env := { bench with
    limits := deskLimitSource
    parseStored := fun text => if text = deskText then .ok deskStored
      else .error "EOF while parsing a value at line 1 column 0" }
  toStringPretty := fun stored => if stored = deskStored then .ok deskText
    else .error "not a finite number"
  parseRequest := fun text => if text = deskInput then .ok deskRequest
    else .error "expected value at line 1 column 1"
  templates := .ok fun _ => .error "Failed to render 'optimal_trajectory.script'"

theorem desk_serde (stored : StoredTrajectory) :
    SerdeExact desk.toStringPretty desk.env.parseStored stored := by
  have hjson {json : String} (h : desk.toStringPretty stored = .ok json) :
      stored = deskStored ∧ json = deskText := by
    unfold desk at h
    dsimp only at h
    split at h
    · rename_i hstored
      exact ⟨hstored, (Except.ok.inj h).symm⟩
    · cases h
  constructor
  · intro json h
    obtain ⟨rfl, rfl⟩ := hjson h
    unfold desk
    dsimp only
    rw [if_pos rfl]
  · intro json h
    obtain ⟨-, rfl⟩ := hjson h
    rw [deskText, String.toByteArray_append, ByteArray.size_append]
    exact Nat.add_pos_left (by decide) _
  · intro json k text h hk ht
    obtain ⟨-, rfl⟩ := hjson h
    unfold desk
    dsimp only
    refine ⟨_, if_neg ?_⟩
    intro he
    rw [he] at ht
    have hsize := congrArg ByteArray.size ht
    rw [ByteArray.size_extract] at hsize
    omega

theorem desk_root : Disk.empty.nodeAt ["path.json"].dropLast = some .directory := rfl

/-- The disk with the request on it. -/
def deskDisk : Disk :=
  Disk.empty.put ["path.json"] (.file deskInput.toByteArray) desk_root (by decide)

/-- Nothing goes wrong. -/
def fair : Weather := ⟨some 0, fun _ => none, .done, .done, none⟩

def deskArgs : List String := ["--input", "path.json", "--name", "pick"]

theorem desk_stores : Stores desk deskDisk deskArgs "pick" deskRequest where
  input := by
    have hread : deskDisk.readToString "path.json" = .ok deskInput := by
      have hfile : deskDisk.find "path.json" = some (.file deskInput.toByteArray) := rfl
      rw [Disk.readToString_file hfile, Disk.textOf_toByteArray]
    have hparse : desk.parseRequest deskInput = .ok deskRequest := by
      unfold desk
      dsimp only
      rw [if_pos rfl]
    exact ⟨"path.json", deskInput, by decide, hread, hparse⟩
  name := by decide
  asItStands := by decide
  stores := by decide

theorem desk_planned : desk.planned deskDisk (Args.parse deskArgs)
    = .ok ("pick", deskRequest, pickTrajectory "ur20") := by
  obtain ⟨input, text, hinput, htext, hparse⟩ := desk_stores.input
  exact planned_ok.mpr ⟨input, text, deskRequest, hinput, desk_stores.name, by decide, htext,
    hparse, override_none _ desk_stores.asItStands, desk_plan⟩

theorem desk_save : (desk.env.save desk.toStringPretty deskDisk
    (Tool.saving fair "pick" deskRequest (pickTrajectory "ur20"))).1
      = .ok "trajectories/pick.json" := by
  have hjson : desk.toStringPretty
      (Tool.saving fair "pick" deskRequest (pickTrajectory "ur20")).stored = .ok deskText := by
    unfold desk
    dsimp only
    exact if_pos rfl
  have hpath : desk.env.pathFor "pick" = .ok "trajectories/pick.json" := by rfl
  unfold PlannerEnv.save
  rw [show (Tool.saving fair "pick" deskRequest (pickTrajectory "ur20")).name = "pick" from rfl,
    hpath, hjson]
  rfl

theorem desk_runs : (desk.main fair deskDisk ("plan" :: deskArgs)).1 = .ok () := by
  show (desk.cmdPlan fair deskDisk deskArgs).1 = .ok ()
  -- no script was asked for, and it is no dry run
  have hscript : desk.planScript fair deskDisk (Args.parse deskArgs) (pickTrajectory "ur20")
      = (.ok (), deskDisk) := if_neg (by decide)
  have hdry : (Args.parse deskArgs).has "dry-run" = false := by decide
  have hsave := desk_save
  unfold Tool.cmdPlan
  dsimp only
  rw [desk_planned]
  dsimp only
  rw [hscript]
  dsimp only
  rw [hdry]
  rcases hs : desk.env.save desk.toStringPretty deskDisk
    (Tool.saving fair "pick" deskRequest (pickTrajectory "ur20")) with ⟨_ | path, d₁⟩
  · rw [hs] at hsave
    cases hsave
  · rfl

/-- The move is planned, listed and shown. -/
def deskCalls : List (List String × Weather) :=
  [("plan" :: deskArgs, fair), (["list"], fair), (["show", "pick"], fair)]

theorem tool_keeps_store_desk :
    ∃ stored, (desk.env.onDisk (desk.runs deskDisk deskCalls)).load "pick" = .ok stored
      ∧ (desk.env.onDisk deskDisk).load "pick" ≠ .ok stored
      ∧ ∃ earlier call later, deskCalls = earlier ++ call :: later
        ∧ Made desk (desk.runs deskDisk earlier) call.1 "pick" stored := by
  have hok : (desk.cmdPlan fair deskDisk deskArgs).1 = .ok () := desk_runs
  obtain ⟨stored, -, hload⟩ := cmdPlan_stored desk_serde desk_stores hok
  have hcalls : desk.runs deskDisk deskCalls = (desk.cmdPlan fair deskDisk deskArgs).2 := by
    simp only [deskCalls, Tool.runs, Tool.main]
  have hafter : (desk.env.onDisk (desk.runs deskDisk deskCalls)).load "pick" = .ok stored := by
    rw [hcalls, hload]
  have hbefore : (desk.env.onDisk deskDisk).load "pick" ≠ .ok stored := by
    intro h
    obtain ⟨path, text, hp, ht, -⟩ := load_ok.mp h
    have hne : placeOf desk.env "pick" ≠ ["path.json"] := by
      intro he
      have hlast := congrArg List.getLast? he
      rw [placeOf, List.getLast?_concat] at hlast
      exact absurd (Option.some.inj hlast) (by decide)
    -- the disk of the desk holds the request and nothing under that name
    have hnone : deskDisk.find path = none := by
      rw [find_pathFor hp, deskDisk, Disk.nodeAt_put, if_neg hne]
      rfl
    rw [Disk.readToString, hnone] at ht
    cases ht
  have helsewhere : ∀ call ∈ deskCalls, ScriptElsewhere desk.env call.1 := by
    have hnone : ∀ call ∈ deskCalls, (Args.parse call.1.tail).get "script" = none := by
      intro call hc
      simp only [deskCalls, List.mem_cons, List.not_mem_nil, or_false] at hc
      rcases hc with rfl | rfl | rfl <;> decide
    intro call hc path hp
    rw [hnone call hc] at hp
    cases hp
  exact ⟨stored, hafter, hbefore,
    (tool_keeps_store desk_serde helsewhere hafter).resolve_left hbefore⟩

end

end UrRedisDriver.Proof
