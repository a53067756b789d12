import UrRedisDriver.Proof.Targets

/-!
# A list of waypoints decodes as a whole

Every field of a waypoint is read from the first entry that has its name, and has to be of
its type. The one exception is `use_linear_motion`: whatever is stored under it that is no
truth value reads as false, as if nothing were stored there.
-/

namespace UrRedisDriver.Proof

open UrRedisDriver WaypointRaw

variable {F : Type} {entries : List (SPValue F × SPValue F)} {v item : SPValue F}
  {vs : List (SPValue F)} {wp : WaypointRaw F} {wps : List (WaypointRaw F)}

/-! ## The fields -/

/-- The truth values of a waypoint that have to be there. -/
def flagFields : List (String × (WaypointRaw F → Bool)) :=
  [ ("use_joint_positions", useJointPositions), ("use_execution_time", useExecutionTime),
    ("use_blend_radius", useBlendRadius), ("use_preferred_joint_config", usePreferredJointConfig),
    ("use_relative_pose", useRelativePose), ("use_payload", usePayload) ]

/-- Its numbers. -/
def numberFields : List (String × (WaypointRaw F → F)) :=
  [ ("acceleration", acceleration), ("velocity", velocity),
    ("global_acceleration_scaling", globalAccelerationScaling),
    ("global_velocity_scaling", globalVelocityScaling), ("execution_time", executionTime),
    ("blend_radius", blendRadius), ("force_threshold", forceThreshold) ]

/-- Its texts, but for the goal frame. -/
def textFields : List (String × (WaypointRaw F → String)) :=
  [ ("payload", payload), ("baseframe_id", baseframeId), ("faceplate_id", faceplateId),
    ("tcp_id", tcpId), ("root_frame_id", rootFrameId) ]

/-- Its vectors. -/
def vectorFields : List (String × (WaypointRaw F → List F)) :=
  [ ("joint_positions", jointPositions), ("preferred_joint_config", preferredJointConfig),
    ("relative_pose", relativePose) ]

/-! What holds of every field of a type, field by field. -/

theorem forall_flagFields {P : String × (WaypointRaw F → Bool) → Prop} :
    (∀ f ∈ flagFields, P f) ↔ P ("use_joint_positions", useJointPositions)
      ∧ P ("use_execution_time", useExecutionTime) ∧ P ("use_blend_radius", useBlendRadius)
      ∧ P ("use_preferred_joint_config", usePreferredJointConfig)
      ∧ P ("use_relative_pose", useRelativePose) ∧ P ("use_payload", usePayload) := by
  simp [flagFields]

theorem forall_numberFields {P : String × (WaypointRaw F → F) → Prop} :
    (∀ f ∈ numberFields, P f) ↔ P ("acceleration", acceleration) ∧ P ("velocity", velocity)
      ∧ P ("global_acceleration_scaling", globalAccelerationScaling)
      ∧ P ("global_velocity_scaling", globalVelocityScaling) ∧ P ("execution_time", executionTime)
      ∧ P ("blend_radius", blendRadius) ∧ P ("force_threshold", forceThreshold) := by
  simp [numberFields]

theorem forall_textFields {P : String × (WaypointRaw F → String) → Prop} :
    (∀ f ∈ textFields, P f) ↔ P ("payload", payload) ∧ P ("baseframe_id", baseframeId)
      ∧ P ("faceplate_id", faceplateId) ∧ P ("tcp_id", tcpId)
      ∧ P ("root_frame_id", rootFrameId) := by
  simp [textFields]

theorem forall_vectorFields {P : String × (WaypointRaw F → List F) → Prop} :
    (∀ f ∈ vectorFields, P f) ↔ P ("joint_positions", jointPositions)
      ∧ P ("preferred_joint_config", preferredJointConfig)
      ∧ P ("relative_pose", relativePose) := by
  simp [vectorFields]

/-! ## What is read from a value -/

theorem read_flag {ov : Option (SPValue F)} {b : Bool} :
    ov.bind SPValue.flag = some b ↔ ov = some (.bool (some b)) := by
  rw [Option.bind_eq_some_iff]
  constructor
  · rintro ⟨v, rfl, hv⟩
    cases v with
    | bool _ => exact congrArg (fun o => some (SPValue.bool o)) hv
    | _ => cases hv
  · rintro rfl
    exact ⟨_, rfl, rfl⟩

theorem getD_flag {ov : Option (SPValue F)} :
    (ov.bind SPValue.flag).getD false = true ↔ ov = some (.bool (some true)) := by
  rw [← read_flag]
  cases ov.bind SPValue.flag with
  | none => simp
  | some b => simp

theorem read_text {ov : Option (SPValue F)} {s : String} :
    ov.bind SPValue.text = some s ↔ ov = some (.string (some s)) := by
  rw [Option.bind_eq_some_iff]
  constructor
  · rintro ⟨v, rfl, hv⟩
    cases v with
    | string _ => exact congrArg (fun o => some (SPValue.string o)) hv
    | _ => cases hv
  · rintro rfl
    exact ⟨_, rfl, rfl⟩

theorem read_goal {j : Bool} {ov : Option (SPValue F)} {goal : String} :
    (if j = true then some "" else ov.bind SPValue.text) = some goal
      ↔ if j then goal = "" else ov = some (.string (some goal)) := by
  cases j with
  | true => exact Option.some_inj.trans eq_comm
  | false => exact read_text

variable [IntCast F]

/-- A value that is read as a number: a float, or an integer. -/
def IsNumber (v : SPValue F) (x : F) : Prop :=
  v = .float64 (some x) ∨ ∃ n : ℤ, v = .int64 (some n) ∧ x = n

theorem number_eq_some {x : F} : v.number = some x ↔ IsNumber v x := by
  cases v <;> simp [SPValue.number, IsNumber, eq_comm]

theorem numbers_takesAll : TakesAll (SPValue.number (F := F)) SPValue.numbers :=
  ⟨rfl, fun _ _ => rfl⟩

theorem read_number {ov : Option (SPValue F)} {x : F} :
    ov.bind SPValue.number = some x ↔ ∃ v, ov = some v ∧ IsNumber v x := by
  rw [Option.bind_eq_some_iff]
  exact exists_congr fun v => and_congr_right fun _ => number_eq_some

theorem read_vector {ov : Option (SPValue F)} {xs : List F} :
    ov.bind SPValue.f64Vec = some xs
      ↔ ∃ vs, ov = some (.array (some vs)) ∧ List.Forall₂ IsNumber vs xs := by
  -- a vector is a list of numbers of either kind
  have hnumbers {vs : List (SPValue F)} :
      SPValue.numbers vs = some xs ↔ List.Forall₂ IsNumber vs xs := by
    rw [numbers_takesAll.eq_some]
    simp only [number_eq_some]
  rw [Option.bind_eq_some_iff]
  constructor
  · rintro ⟨v, rfl, hv⟩
    cases v with
    | array ovs =>
        cases ovs with
        | none => cases hv
        | some vs => exact ⟨vs, rfl, hnumbers.mp hv⟩
    | _ => cases hv
  · rintro ⟨vs, rfl, h⟩
    exact ⟨_, rfl, hnumbers.mpr h⟩

/-! ## A waypoint -/

/-- A waypoint that has every field from the entry of its name. -/
structure DecodedFrom (entries : List (SPValue F × SPValue F)) (wp : WaypointRaw F) : Prop where
  flags : ∀ f ∈ flagFields, getVal entries f.1 = some (.bool (some (f.2 wp)))
  numbers : ∀ f ∈ numberFields, ∃ v, getVal entries f.1 = some v ∧ IsNumber v (f.2 wp)
  texts : ∀ f ∈ textFields, getVal entries f.1 = some (.string (some (f.2 wp)))
  vectors : ∀ f ∈ vectorFields, ∃ vs,
    getVal entries f.1 = some (.array (some vs)) ∧ List.Forall₂ IsNumber vs (f.2 wp)
  /-- Moving to joint positions needs no goal frame. -/
  goal : if wp.useJointPositions then wp.goalFeatureId = ""
    else getVal entries "goal_feature_id" = some (.string (some wp.goalFeatureId))
  /-- Anything but the truth value true is false here. -/
  linear : wp.useLinearMotion = true
    ↔ getVal entries "use_linear_motion" = some (.bool (some true))

theorem ite_bind {α β : Type} {b : Bool} {x y : Option α} {f : α → Option β} :
    (if b = true then x.bind f else y.bind f) = (if b = true then x else y).bind f := by
  cases b with
  | true => rfl
  | false => rfl

/-- What decoding a map yields. -/
theorem decode_map : decode (.map (some entries)) = some wp ↔ DecodedFrom entries wp := by
  dsimp only [decode, Option.bind_eq_bind]
  -- one condition for each field, in the order in which they are read
  simp only [ite_bind, ↓Option.bind_eq_some_iff (x := Option.bind _ _),
    ↓Option.bind_eq_some_iff (x := ite _ _ _), read_flag, read_goal, read_text, read_number,
    read_vector]
  constructor
  · rintro ⟨j, hj, acc, hacc, vel, hvel, gacc, hgacc, gvel, hgvel, uet, huet, et, het, ubr, hubr,
      br, hbr, jp, hjp, upj, hupj, pj, hpj, urp, hurp, rp, hrp, up, hup, pl, hpl, bf, hbf, fp, hfp,
      goal, hgoal, tcp, htcp, root, hroot, force, hforce, h⟩
    cases h
    refine ⟨?_, ?_, ?_, ?_, hgoal, getD_flag⟩
    · exact forall_flagFields.mpr ⟨hj, huet, hubr, hupj, hurp, hup⟩
    · exact forall_numberFields.mpr ⟨hacc, hvel, hgacc, hgvel, het, hbr, hforce⟩
    · exact forall_textFields.mpr ⟨hpl, hbf, hfp, htcp, hroot⟩
    · exact forall_vectorFields.mpr ⟨hjp, hpj, hrp⟩
  · rintro ⟨hflags, hnumbers, htexts, hvectors, hgoal, hlinear⟩
    obtain ⟨hj, huet, hubr, hupj, hurp, hup⟩ := forall_flagFields.mp hflags
    obtain ⟨hacc, hvel, hgacc, hgvel, het, hbr, hforce⟩ := forall_numberFields.mp hnumbers
    obtain ⟨hpl, hbf, hfp, htcp, hroot⟩ := forall_textFields.mp htexts
    obtain ⟨hjp, hpj, hrp⟩ := forall_vectorFields.mp hvectors
    have hlin : ((getVal entries "use_linear_motion").bind SPValue.flag).getD false
        = wp.useLinearMotion := Bool.eq_iff_iff.mpr (getD_flag.trans hlinear.symm)
    refine ⟨_, hj, _, hacc, _, hvel, _, hgacc, _, hgvel, _, huet, _, het, _, hubr, _, hbr, _, hjp,
      _, hupj, _, hpj, _, hurp, _, hrp, _, hup, _, hpl, _, hbf, _, hfp, _, hgoal, _, htcp, _,
      hroot, _, hforce, ?_⟩
    rw [hlin]

/-- A map with every field that has to be there, each of its type. -/
structure Complete (entries : List (SPValue F × SPValue F)) : Prop where
  flags : ∀ f ∈ flagFields (F := F), ∃ b, getVal entries f.1 = some (.bool (some b))
  numbers : ∀ f ∈ numberFields (F := F), ∃ x v, getVal entries f.1 = some v ∧ IsNumber v x
  texts : ∀ f ∈ textFields (F := F), ∃ s, getVal entries f.1 = some (.string (some s))
  vectors : ∀ f ∈ vectorFields (F := F), ∃ xs vs,
    getVal entries f.1 = some (.array (some vs)) ∧ List.Forall₂ IsNumber vs xs
  goal : getVal entries "use_joint_positions" = some (.bool (some true))
    ∨ ∃ s, getVal entries "goal_feature_id" = some (.string (some s))

/-- A map decodes exactly if it is complete. -/
theorem exists_decodedFrom : (∃ wp, DecodedFrom entries wp) ↔ Complete entries := by
  constructor
  · rintro ⟨wp, h⟩
    refine ⟨fun f hf => ⟨_, h.flags f hf⟩, fun f hf => ⟨_, h.numbers f hf⟩,
      fun f hf => ⟨_, h.texts f hf⟩, fun f hf => ⟨_, h.vectors f hf⟩, ?_⟩
    have hj : getVal entries "use_joint_positions" = some (.bool (some wp.useJointPositions)) :=
      h.flags ("use_joint_positions", useJointPositions) (List.mem_cons_self ..)
    have hgoal := h.goal
    cases huse : wp.useJointPositions with
    | true =>
        rw [huse] at hj
        exact .inl hj
    | false =>
        rw [huse] at hgoal
        exact .inr ⟨_, hgoal⟩
  · rintro ⟨hflags, hnumbers, htexts, hvectors, hgoal⟩
    obtain ⟨⟨j, hj⟩, ⟨uet, huet⟩, ⟨ubr, hubr⟩, ⟨upj, hupj⟩, ⟨urp, hurp⟩, ⟨up, hup⟩⟩ :=
      forall_flagFields.mp hflags
    obtain ⟨⟨acc, hacc⟩, ⟨vel, hvel⟩, ⟨gacc, hgacc⟩, ⟨gvel, hgvel⟩, ⟨et, het⟩, ⟨br, hbr⟩,
      ⟨force, hforce⟩⟩ := forall_numberFields.mp hnumbers
    obtain ⟨⟨pl, hpl⟩, ⟨bf, hbf⟩, ⟨fp, hfp⟩, ⟨tcp, htcp⟩, ⟨root, hroot⟩⟩ :=
      forall_textFields.mp htexts
    obtain ⟨⟨jp, hjp⟩, ⟨pj, hpj⟩, ⟨rp, hrp⟩⟩ := forall_vectorFields.mp hvectors
    -- a joint goal needs no goal feature, and gets the empty one
    obtain ⟨goal, hgoal⟩ : ∃ goal, if j = true then goal = ""
        else getVal entries "goal_feature_id" = some (.string (some goal)) := by
      cases j with
      | true => exact ⟨"", rfl⟩
      | false =>
          rcases hgoal with h | ⟨s, hs⟩
          · rw [hj] at h
            cases h
          · exact ⟨s, hs⟩
    refine ⟨⟨acc, vel, gacc, gvel, uet, et, ubr, br, j, jp, upj, pj, urp, rp, up, pl, bf, fp, goal,
      tcp, root, force, ((getVal entries "use_linear_motion").bind SPValue.flag).getD false⟩,
      ?_, ?_, ?_, ?_, hgoal, getD_flag⟩
    · exact forall_flagFields.mpr ⟨hj, huet, hubr, hupj, hurp, hup⟩
    · exact forall_numberFields.mpr ⟨hacc, hvel, hgacc, hgvel, het, hbr, hforce⟩
    · exact forall_textFields.mpr ⟨hpl, hbf, hfp, htcp, hroot⟩
    · exact forall_vectorFields.mpr ⟨hjp, hpj, hrp⟩

/-! ## The list -/

/-- An element that is a map, and what it is decoded as. -/
def Decodes (item : SPValue F) (wp : WaypointRaw F) : Prop :=
  ∃ entries, item = .map (some entries) ∧ DecodedFrom entries wp

/-- An element that is a complete map. -/
def Decodable (item : SPValue F) : Prop := ∃ entries, item = .map (some entries) ∧ Complete entries

theorem decode_eq_some : decode item = some wp ↔ Decodes item wp := by
  constructor
  · intro h
    cases item with
    | map o =>
        cases o with
        | none => cases h
        | some entries => exact ⟨entries, rfl, decode_map.mp h⟩
    | _ => cases h
  · rintro ⟨entries, rfl, h⟩
    exact decode_map.mpr h

theorem decode_eq_none : decode item = none ↔ ¬ Decodable item := by
  rw [← not_iff_not, not_not, ← ne_eq, ← Option.isSome_iff_ne_none, Option.isSome_iff_exists]
  constructor
  · rintro ⟨wp, h⟩
    obtain ⟨entries, rfl, hfrom⟩ := decode_eq_some.mp h
    exact ⟨entries, rfl, exists_decodedFrom.mp ⟨wp, hfrom⟩⟩
  · rintro ⟨entries, rfl, hcomplete⟩
    obtain ⟨wp, hfrom⟩ := exists_decodedFrom.mpr hcomplete
    exact ⟨wp, decode_map.mpr hfrom⟩

theorem decodeAll_takesAll : TakesAll (decode (F := F)) decodeAll := ⟨rfl, fun _ _ => rfl⟩

/--
**Whole or not at all.** An array is decoded element by element, in order, each waypoint from
the map in its place; and it is not decoded at all exactly if some element is no map, or has a
field that has to be there missing or of another type. What is stored under
`use_linear_motion` never keeps a list from being decoded.
-/
theorem vecFromSpValue_whole (vs : List (SPValue F)) :
    (∀ wps, vecFromSpValue (some (.array (some vs))) = some wps → List.Forall₂ Decodes vs wps)
      ∧ (vecFromSpValue (some (.array (some vs))) = none ↔ ∃ item ∈ vs, ¬ Decodable item) := by
  have hvec : vecFromSpValue (some (.array (some vs))) = decodeAll vs := rfl
  rw [hvec]
  constructor
  · intro wps h
    exact (decodeAll_takesAll.eq_some.mp h).imp fun _ _ => decode_eq_some.mp
  · rw [decodeAll_takesAll.eq_none]
    exact exists_congr fun item => and_congr_right fun _ => decode_eq_none

/-- The waypoint above, with something stored as its way of travelling. -/
def straightPart (v : SPValue ℚ) : List (SPValue ℚ × SPValue ℚ) :=
  match partWaypoint false with
  | .map (some entries) => (.string (some "use_linear_motion"), v) :: entries
  | _ => []

/-- A text is no truth value, and the list is decoded all the same: the arm does not travel
in a straight line. -/
theorem vecFromSpValue_text : ∃ wp,
    getVal (straightPart (.string (some "true"))) "use_linear_motion"
        = some (.string (some "true"))
      ∧ vecFromSpValue (some (.array (some [.map (some (straightPart (.string (some "true"))))])))
        = some [wp]
      ∧ wp.useLinearMotion = false :=
  ⟨_, rfl, rfl, rfl⟩

end UrRedisDriver.Proof
