import UrRedisDriver.Proof.PoseLiterals

/-!
# Rotations on their way to URScript

A looked-up quaternion is written as a rotation vector: half the angle is the arc cosine of
its scalar part, and the axis its vector part divided by the sine. The vector part is divided
by the length of the quaternion beforehand and the scalar part is not, so the two fit each
other at length one, and at any length only where the scalar part is zero.
-/

namespace UrRedisDriver.Proof

open UnitQuaternion
open scoped Literals

noncomputable section

/-- Exact arithmetic: no root of a negative number, no angle without a cosine. -/
def exactMath : AngleMath ℝ where
  epsilon := (1 / 2) ^ 52
  sqrt x := if 0 ≤ x then some √x else none
  acos x := if -1 ≤ x ∧ x ≤ 1 then some (Real.arccos x) else none

theorem exactMath_epsilon_pos : 0 < exactMath.epsilon := by
  show (0 : ℝ) < (1 / 2) ^ 52
  positivity

theorem exactMath_epsilon_le : exactMath.epsilon ≤ 1 := by
  show ((1 : ℝ) / 2) ^ 52 ≤ 1
  norm_num

/-- The length of a quaternion. -/
def qnorm (rot : SPRotation ℝ) : ℝ := √(rot.w ^ 2 + rot.x ^ 2 + rot.y ^ 2 + rot.z ^ 2)

/-- The vector part. -/
def qvector (rot : SPRotation ℝ) : Vec3 := ![rot.x, rot.y, rot.z]

def IsZero (rot : SPRotation ℝ) : Prop := rot.w = 0 ∧ rot.x = 0 ∧ rot.y = 0 ∧ rot.z = 0

variable {rot : SPRotation ℝ}

theorem qnorm_sq (rot : SPRotation ℝ) :
    qnorm rot ^ 2 = rot.w ^ 2 + rot.x ^ 2 + rot.y ^ 2 + rot.z ^ 2 :=
  Real.sq_sqrt (by positivity)

theorem qnorm_pos (h : ¬ IsZero rot) : 0 < qnorm rot := by
  refine Real.sqrt_pos.mpr (lt_of_le_of_ne (by positivity) fun h0 => h ?_)
  have hw := sq_nonneg rot.w
  have hx := sq_nonneg rot.x
  have hy := sq_nonneg rot.y
  have hz := sq_nonneg rot.z
  refine ⟨?_, ?_, ?_, ?_⟩ <;> exact pow_eq_zero_iff two_ne_zero |>.mp (by linarith)

theorem norm_qvector_sq (rot : SPRotation ℝ) :
    Vec3.norm (qvector rot) ^ 2 = qnorm rot ^ 2 - rot.w ^ 2 := by
  rw [Vec3.norm_sq, qnorm_sq]
  simp [qvector]
  ring

/-- The quaternion divided by its length. -/
def normalised (rot : SPRotation ℝ) (h : ¬ IsZero rot) : UnitQuaternion :=
  let n := qnorm rot
  ofParts (rot.w / n) (rot.x / n) (rot.y / n) (rot.z / n) (by
    have hn : n ≠ 0 := (qnorm_pos h).ne'
    have hs := qnorm_sq rot
    field_simp
    linarith)

/-- The rotation vector before it is divided by the sine of half the angle. -/
def unscaled (rot : SPRotation ℝ) : Vec3 := (2 * Real.arccos rot.w / qnorm rot) • qvector rot

theorem abs_le_one_of_half_turn (hw : rot.w = 0) : |rot.w| ≤ 1 := by
  rw [hw, abs_zero]
  exact zero_le_one

theorem rotationVector_none (h : 1 < |rot.w|) : rotationVector exactMath rot = none := by
  have hw : ¬ (-1 ≤ rot.w ∧ rot.w ≤ 1) := by
    rw [← abs_le]
    exact not_le.mpr h
  have ha : exactMath.acos rot.w = none := if_neg hw
  unfold rotationVector
  rw [ha]
  rfl

theorem rotationVector_eq (hz : ¬ IsZero rot) (h : |rot.w| ≤ 1) :
    rotationVector exactMath rot
      = if √(1 - rot.w ^ 2) < exactMath.epsilon then
          some (unscaled rot 0, unscaled rot 1, unscaled rot 2)
        else some ((unscaled rot 0) / √(1 - rot.w ^ 2), (unscaled rot 1) / √(1 - rot.w ^ 2),
          (unscaled rot 2) / √(1 - rot.w ^ 2)) := by
  have ha : exactMath.acos rot.w = some (Real.arccos rot.w) := if_pos (abs_le.mp h)
  have h1 : 0 ≤ 1 - rot.w ^ 2 := by
    have := (sq_le_one_iff_abs_le_one rot.w).mpr h
    linarith
  have hd : exactMath.sqrt (1 - rot.w ^ 2) = some √(1 - rot.w ^ 2) := if_pos h1
  have hn : exactMath.sqrt (rot.w ^ 2 + rot.x ^ 2 + rot.y ^ 2 + rot.z ^ 2) = some (qnorm rot) :=
    if_pos (by positivity)
  have hn0 : qnorm rot ≠ 0 := (qnorm_pos hz).ne'
  have hdiv : ∀ a, divide a (qnorm rot) = some (a / qnorm rot) := fun a => if_neg hn0
  have h0 : unscaled rot 0 = 2 * Real.arccos rot.w / qnorm rot * rot.x := rfl
  have h1' : unscaled rot 1 = 2 * Real.arccos rot.w / qnorm rot * rot.y := rfl
  have h2 : unscaled rot 2 = 2 * Real.arccos rot.w / qnorm rot * rot.z := rfl
  unfold rotationVector
  rw [ha, hd, hn]
  simp only [Option.bind_eq_bind, Option.bind_some, hdiv, Option.pure_def]
  rw [abs_of_nonneg (Real.sqrt_nonneg _)]
  -- either the source leaves the vector as it is, or it divides by the sine of half the angle
  split
  · rw [Option.some.injEq, Prod.mk.injEq, Prod.mk.injEq, h0, h1', h2]
    refine ⟨?_, ?_, ?_⟩ <;> ring
  · rename_i hge
    have hd0 : √(1 - rot.w ^ 2) ≠ 0 := by
      intro hz
      rw [hz] at hge
      exact hge exactMath_epsilon_pos
    have hdd : ∀ a, divide a √(1 - rot.w ^ 2) = some (a / √(1 - rot.w ^ 2)) := fun a => if_neg hd0
    simp only [hdd, Option.bind_some]
    rw [Option.some.injEq, Prod.mk.injEq, Prod.mk.injEq, h0, h1', h2]
    refine ⟨?_, ?_, ?_⟩ <;> ring

theorem qvector_eq_zero (h : Vec3.norm (qvector rot) = 0) : qvector rot = 0 := by
  have hs := Vec3.norm_sq (qvector rot)
  rw [h] at hs
  have h0 := sq_nonneg (qvector rot 0)
  have h1 := sq_nonneg (qvector rot 1)
  have h2 := sq_nonneg (qvector rot 2)
  have hsq : ∀ i, qvector rot i ^ 2 = 0 := by
    intro i
    fin_cases i
    · show qvector rot 0 ^ 2 = 0
      linarith
    · show qvector rot 1 ^ 2 = 0
      linarith
    · show qvector rot 2 ^ 2 = 0
      linarith
  funext i
  exact pow_eq_zero_iff two_ne_zero |>.mp (hsq i)

/-- Without a vector part it is one of the two that turn nothing. -/
theorem normalised_of_no_axis (hz : ¬ IsZero rot) (h : Vec3.norm (qvector rot) = 0) :
    normalised rot hz = 1 ∨ normalised rot hz = -1 := by
  have hv := norm_qvector_sq rot
  have hn := qnorm_pos hz
  have hq := qvector_eq_zero h
  have hx : rot.x = 0 := congrFun hq 0
  have hy : rot.y = 0 := congrFun hq 1
  have hz' : rot.z = 0 := congrFun hq 2
  -- without a vector part only the scalar is left, of length one
  have hw : rot.w / qnorm rot * (rot.w / qnorm rot) = 1 := by
    rw [h] at hv
    field_simp
    linarith
  obtain hw | hw := mul_self_eq_one_iff.mp hw
  · left
    apply ext_parts <;> simp only [normalised, ofParts_re, ofParts_imI, ofParts_imJ, ofParts_imK,
      hw, hx, hy, hz', zero_div] <;> rfl
  · right
    apply ext_parts <;> simp only [normalised, ofParts_re, ofParts_imI, ofParts_imJ, ofParts_imK,
      hw, hx, hy, hz', zero_div, Unitary.coe_neg, Quaternion.re_neg, Quaternion.imI_neg,
      Quaternion.imJ_neg, Quaternion.imK_neg] <;> simp <;> rfl

/-! ## The axis, and the two angles about it -/

/-- The axis of the rotation. -/
def axis (rot : SPRotation ℝ) (h : Vec3.norm (qvector rot) ≠ 0) : UnitVec3 :=
  ⟨(Vec3.norm (qvector rot))⁻¹ • qvector rot, by
    have hs := (Vec3.norm_sq (qvector rot)).trans (Vec3.dot_self (qvector rot)).symm
    rw [smul_dotProduct, dotProduct_smul, ← hs, smul_eq_mul, smul_eq_mul]
    field_simp⟩

theorem norm_smul_axis (h : Vec3.norm (qvector rot) ≠ 0) :
    Vec3.norm (qvector rot) • (axis rot h).1 = qvector rot := by
  show Vec3.norm (qvector rot) • (Vec3.norm (qvector rot))⁻¹ • qvector rot = qvector rot
  rw [smul_smul, mul_inv_cancel₀ h, one_smul]

theorem norm_mul_axis (h : Vec3.norm (qvector rot) ≠ 0) (i : Fin 3) :
    Vec3.norm (qvector rot) * (axis rot h).1 i = qvector rot i :=
  congrFun (norm_smul_axis h) i

/-- The normalised quaternion turns about the axis. -/
theorem normalised_eq (hz : ¬ IsZero rot) (h : Vec3.norm (qvector rot) ≠ 0) :
    normalised rot hz = fromAxisAngle (axis rot h) (2 * Real.arccos (rot.w / qnorm rot)) := by
  have hn := qnorm_pos hz
  have hv := norm_qvector_sq rot
  have hw : (rot.w / qnorm rot) ^ 2 ≤ 1 := by
    rw [div_pow, div_le_one (by positivity)]
    nlinarith [sq_nonneg (Vec3.norm (qvector rot))]
  obtain ⟨hlo, hhi⟩ := abs_le.mp ((sq_le_one_iff_abs_le_one _).mp hw)
  have hcos : Real.cos (2 * Real.arccos (rot.w / qnorm rot) / 2) = rot.w / qnorm rot := by
    rw [mul_div_cancel_left₀ _ two_ne_zero, Real.cos_arccos hlo hhi]
  have hsin : Real.sin (2 * Real.arccos (rot.w / qnorm rot) / 2)
      = Vec3.norm (qvector rot) / qnorm rot := by
    rw [mul_div_cancel_left₀ _ two_ne_zero, Real.sin_arccos]
    have hsq : 1 - (rot.w / qnorm rot) ^ 2 = (Vec3.norm (qvector rot) / qnorm rot) ^ 2 := by
      rw [div_pow, div_pow, hv]
      field_simp
    rw [hsq, Real.sqrt_sq (div_nonneg (Vec3.norm_nonneg _) hn.le)]
  have hpart : ∀ i, (axis rot h).1 i * (Vec3.norm (qvector rot) / qnorm rot)
      = qvector rot i / qnorm rot := by
    intro i
    rw [← mul_div_assoc, mul_comm, norm_mul_axis]
  -- the scalar is the cosine of half the angle, the vector part its sine along the axis
  refine ext_parts ?_ ?_ ?_ ?_
  · exact hcos.symm
  · show rot.x / qnorm rot = (axis rot h).1 0 * Real.sin _
    rw [hsin, hpart]
    rfl
  · show rot.y / qnorm rot = (axis rot h).1 1 * Real.sin _
    rw [hsin, hpart]
    rfl
  · show rot.z / qnorm rot = (axis rot h).1 2 * Real.sin _
    rw [hsin, hpart]
    rfl

/-- The angle the rotation vector turns by. -/
def axisAngle (rot : SPRotation ℝ) : ℝ :=
  let angle := 2 * Real.arccos rot.w / qnorm rot * Vec3.norm (qvector rot)
  if √(1 - rot.w ^ 2) < exactMath.epsilon then angle else angle / √(1 - rot.w ^ 2)

theorem axisAngle_nonneg (rot : SPRotation ℝ) : 0 ≤ axisAngle rot := by
  have hq : 0 ≤ qnorm rot := Real.sqrt_nonneg _
  have hv := Vec3.norm_nonneg (qvector rot)
  have ha := Real.arccos_nonneg rot.w
  unfold axisAngle
  dsimp only
  split <;> positivity

/-- The rotation vector lies along the axis. -/
theorem rotationVector_axis (hz : ¬ IsZero rot) (hw : |rot.w| ≤ 1)
    (h : Vec3.norm (qvector rot) ≠ 0) : ∃ rx ry rz,
      rotationVector exactMath rot = some (rx, ry, rz)
        ∧ ![rx, ry, rz] = axisAngle rot • (axis rot h).1 := by
  have hu : ∀ i, unscaled rot i
      = 2 * Real.arccos rot.w / qnorm rot * Vec3.norm (qvector rot) * (axis rot h).1 i := by
    intro i
    rw [mul_assoc, norm_mul_axis]
    rfl
  rw [rotationVector_eq hz hw]
  unfold axisAngle
  dsimp only
  split
  · refine ⟨_, _, _, rfl, ?_⟩
    ext i
    fin_cases i <;> exact hu _
  · refine ⟨_, _, _, rfl, ?_⟩
    have hd : ∀ i, unscaled rot i / √(1 - rot.w ^ 2)
        = 2 * Real.arccos rot.w / qnorm rot * Vec3.norm (qvector rot) / √(1 - rot.w ^ 2)
          * (axis rot h).1 i := by
      intro i
      rw [hu]
      ring
    ext i
    fin_cases i <;> exact hd _

/-! ## What a literal stands for -/

/-- The motion the transform stands for, its quaternion divided by its length. -/
def intended (tf : SPTransformStamped ℝ) (hz : ¬ IsZero tf.transform.rotation) : Pose :=
  ⟨normalised tf.transform.rotation hz,
    ![tf.transform.translation.x, tf.transform.translation.y, tf.transform.translation.z]⟩

/-- Six numbers that stand for that motion. -/
def Denotes (tf : SPTransformStamped ℝ) (hz : ¬ IsZero tf.transform.rotation) : Prop :=
  ∃ v, transformNumbers exactMath tf = some v ∧ Motion.Same (poseFromArray v) (intended tf hz)

/-- A string that is read as six numbers that do, where numbers survive being written. -/
def ReadsBack (tf : SPTransformStamped ℝ) (hz : ¬ IsZero tf.transform.rotation) : Prop :=
  ∀ num, (∀ v, transformNumbers exactMath tf = some v → ∀ i, RoundTrips num (v i)) →
    ∃ s v, transformToString exactMath num tf = some s ∧ parsePoseString num s = .ok v
      ∧ Motion.Same (poseFromArray v) (intended tf hz)

/-- The same transform with a longer or shorter quaternion. -/
def stretched (k : ℝ) (tf : SPTransformStamped ℝ) : SPTransformStamped ℝ :=
  let rot := tf.transform.rotation
  { tf with
    transform := { tf.transform with rotation := ⟨k * rot.x, k * rot.y, k * rot.z, k * rot.w⟩ } }

/-- The rotation survives being written: also stretched, and also read back. -/
structure IsKept (tf : SPTransformStamped ℝ) (hz : ¬ IsZero tf.transform.rotation) : Prop where
  denotes : Denotes tf hz
  stretch : ∀ k > 0, transformNumbers exactMath (stretched k tf) = transformNumbers exactMath tf
  reads_back : ReadsBack tf hz

variable {tf : SPTransformStamped ℝ} {hz : ¬ IsZero tf.transform.rotation}

theorem Denotes.reads_back (h : Denotes tf hz) : ReadsBack tf hz := by
  intro num hnum
  obtain ⟨v, hv, hs⟩ := h
  refine ⟨poseToString num v, v, ?_, parse_poseToString (hnum v hv), hs⟩
  unfold transformToString
  rw [hv]
  rfl

/-- The six numbers stand for the motion exactly if the last three do for its turn. -/
theorem denotes_iff {rx ry rz : ℝ}
    (h : rotationVector exactMath tf.transform.rotation = some (rx, ry, rz)) :
    Denotes tf hz ↔ matrix (fromScaledAxis ![rx, ry, rz])
      = matrix (normalised tf.transform.rotation hz) := by
  have hv : transformNumbers exactMath tf = some ![tf.transform.translation.x,
      tf.transform.translation.y, tf.transform.translation.z, rx, ry, rz] := by
    unfold transformNumbers
    rw [h]
    rfl
  rw [← smul_eq_iff]
  constructor
  · rintro ⟨v, hv', hs⟩
    rw [hv] at hv'
    rw [← Option.some.inj hv'] at hs
    exact (Motion.same_iff.mp hs).1
  · intro hs
    exact ⟨_, hv, Motion.same_iff.mpr ⟨hs, rfl⟩⟩

/-- Where there is an axis, it is the two angles about it that have to agree. -/
theorem denotes_axis_iff (hw : |tf.transform.rotation.w| ≤ 1)
    (h : Vec3.norm (qvector tf.transform.rotation) ≠ 0) :
    Denotes tf hz ↔ matrix (fromAxisAngle (axis _ h) (axisAngle tf.transform.rotation))
      = matrix (fromAxisAngle (axis _ h)
          (2 * Real.arccos (tf.transform.rotation.w / qnorm tf.transform.rotation))) := by
  obtain ⟨rx, ry, rz, hr, hax⟩ := rotationVector_axis hz hw h
  rw [denotes_iff hr, hax, fromScaledAxis_smul _ (axisAngle_nonneg _), normalised_eq hz h]

/-- Where there is none, the turn is none. -/
theorem denotes_of_no_axis (hw : |tf.transform.rotation.w| ≤ 1)
    (h : Vec3.norm (qvector tf.transform.rotation) = 0) : Denotes tf hz := by
  have hq := qvector_eq_zero h
  have hr : rotationVector exactMath tf.transform.rotation = some (0, 0, 0) := by
    have hu : unscaled tf.transform.rotation = 0 := by
      unfold unscaled
      rw [hq, smul_zero]
    rw [rotationVector_eq hz hw, hu]
    simp
  have h0 : (![0, 0, 0] : Vec3) = 0 := by
    ext i
    fin_cases i <;> rfl
  -- the source writes the zero vector, and the quaternion is the identity up to its sign
  rw [denotes_iff hr, h0, fromScaledAxis_zero, matrix_one]
  obtain hn | hn := normalised_of_no_axis hz h
  · rw [hn, matrix_one]
  · rw [hn, matrix_neg, matrix_one]

/-- A half turn is written right whatever the length of its quaternion. -/
theorem denotes_of_half_turn (hw : tf.transform.rotation.w = 0) : Denotes tf hz := by
  have hw1 := abs_le_one_of_half_turn hw
  by_cases h : Vec3.norm (qvector tf.transform.rotation) = 0
  · exact denotes_of_no_axis hw1 h
  · have hn := qnorm_pos hz
    -- all of the length is in the vector part, so that dividing by it or by one is the same
    have hv : Vec3.norm (qvector tf.transform.rotation) = qnorm tf.transform.rotation := by
      have hs := norm_qvector_sq tf.transform.rotation
      rw [hw] at hs
      refine (sq_eq_sq₀ (Vec3.norm_nonneg _) hn.le).mp ?_
      linarith
    have he : ¬ √(1 - (0 : ℝ) ^ 2) < exactMath.epsilon := by
      have h1 : √(1 - (0 : ℝ) ^ 2) = 1 := by norm_num
      rw [h1, not_lt]
      exact exactMath_epsilon_le
    rw [denotes_axis_iff hw1 h]
    congr 2
    unfold axisAngle
    dsimp only
    rw [hw, if_neg he, hv]
    simp
    field_simp

/-- Left at its sine, half the angle falls short of itself by less than a turn. -/
theorem angle_ne_of_short {w n : ℝ} (hn : 0 < n) (h : n ^ 2 = 1 ^ 2 - w ^ 2)
    (he : n < exactMath.epsilon) :
    ((2 * Real.arccos w * n : ℝ) : Real.Angle) ≠ ((2 * Real.arccos w : ℝ) : Real.Angle) := by
  intro heq
  obtain ⟨k, hk⟩ := Real.Angle.angle_eq_iff_two_pi_dvd_sub.mp heq
  have hn1 : n < 1 := lt_of_lt_of_le he exactMath_epsilon_le
  have hw : w < 1 := by nlinarith
  have ha : 0 < Real.arccos w := Real.arccos_pos.mpr hw
  have hpi := Real.arccos_le_pi w
  -- the two angles differ by less than a turn, and not by zero
  have hlo : -(2 * Real.pi) < 2 * Real.pi * k := by
    rw [← hk]
    nlinarith
  have hhi : 2 * Real.pi * k < 0 := by
    rw [← hk]
    nlinarith
  have hpi0 := Real.pi_pos
  have hk0 : (k : ℝ) < 0 := by
    by_contra hge
    have := mul_nonneg (by positivity : (0 : ℝ) ≤ 2 * Real.pi) (not_lt.mp hge)
    linarith
  have hk1 : (-1 : ℝ) < k := by
    by_contra hle
    have := mul_le_mul_of_nonneg_left (not_lt.mp hle) (by positivity : (0 : ℝ) ≤ 2 * Real.pi)
    linarith
  have hk0' : k < 0 := by exact_mod_cast hk0
  have hk1' : -1 < k := by exact_mod_cast hk1
  omega

/-- A unit quaternion is written right unless it is nearly no turn at all. -/
theorem denotes_unit_iff (h1 : qnorm tf.transform.rotation = 1) : Denotes tf hz
    ↔ Vec3.norm (qvector tf.transform.rotation) = 0
      ∨ exactMath.epsilon ≤ Vec3.norm (qvector tf.transform.rotation) := by
  have hs := norm_qvector_sq tf.transform.rotation
  rw [h1] at hs
  have hs0 := Vec3.norm_nonneg (qvector tf.transform.rotation)
  -- for a unit quaternion what the source divides by is the length of the vector part
  have hden : √(1 - tf.transform.rotation.w ^ 2) = Vec3.norm (qvector tf.transform.rotation) := by
    rw [← Real.sqrt_sq hs0, hs]
    norm_num
  have hw : |tf.transform.rotation.w| ≤ 1 := by
    rw [← sq_le_one_iff_abs_le_one]
    nlinarith
  by_cases h : Vec3.norm (qvector tf.transform.rotation) = 0
  · exact ⟨fun _ => .inl h, fun _ => denotes_of_no_axis hw h⟩
  · have hpos : 0 < Vec3.norm (qvector tf.transform.rotation) := lt_of_le_of_ne hs0 (Ne.symm h)
    rw [denotes_axis_iff hw h, h1, div_one]
    unfold axisAngle
    dsimp only
    rw [hden, h1, div_one]
    by_cases he : Vec3.norm (qvector tf.transform.rotation) < exactMath.epsilon
    · -- a vector part below epsilon is written undivided, which turns by another angle
      rw [if_pos he]
      constructor
      · intro hm
        exact absurd (angle_of_matrix_eq hm) (angle_ne_of_short hpos hs he)
      · rintro (h0 | hge)
        · exact absurd h0 h
        · exact absurd he (not_lt.mpr hge)
    · rw [if_neg he, mul_div_cancel_right₀ _ h]
      exact ⟨fun _ => .inr (not_lt.mp he), fun _ => rfl⟩

/-- A quaternion that is too long at its scalar part has no rotation vector. -/
theorem transformNumbers_none (hw : 1 < |tf.transform.rotation.w|) :
    transformNumbers exactMath tf = none := by
  unfold transformNumbers
  rw [rotationVector_none hw]
  rfl

theorem qnorm_stretched {k : ℝ} (hk : 0 < k) (rot : SPRotation ℝ) :
    qnorm ⟨k * rot.x, k * rot.y, k * rot.z, k * rot.w⟩ = k * qnorm rot := by
  have hsq : (k * rot.w) ^ 2 + (k * rot.x) ^ 2 + (k * rot.y) ^ 2 + (k * rot.z) ^ 2
      = k ^ 2 * (rot.w ^ 2 + rot.x ^ 2 + rot.y ^ 2 + rot.z ^ 2) := by ring
  unfold qnorm
  dsimp only
  rw [hsq, Real.sqrt_mul (sq_nonneg k), Real.sqrt_sq hk.le]

theorem qvector_stretched (k : ℝ) (rot : SPRotation ℝ) :
    qvector ⟨k * rot.x, k * rot.y, k * rot.z, k * rot.w⟩ = k • qvector rot := by
  ext i
  fin_cases i <;> rfl

/-- A half turn has one rotation vector, however long its quaternion. -/
theorem rotationVector_stretched {k : ℝ} (hk : 0 < k) (hz : ¬ IsZero rot) (hw : rot.w = 0) :
    rotationVector exactMath ⟨k * rot.x, k * rot.y, k * rot.z, k * rot.w⟩
      = rotationVector exactMath rot := by
  have hkw : k * rot.w = rot.w := by rw [hw, mul_zero]
  have hn0 := (qnorm_pos hz).ne'
  have hz' : ¬ IsZero ⟨k * rot.x, k * rot.y, k * rot.z, k * rot.w⟩ := by
    rintro ⟨-, hx, hy, hz'⟩
    refine hz ⟨hw, ?_, ?_, ?_⟩
    · exact (mul_eq_zero.mp hx).resolve_left hk.ne'
    · exact (mul_eq_zero.mp hy).resolve_left hk.ne'
    · exact (mul_eq_zero.mp hz').resolve_left hk.ne'
  have hu : unscaled ⟨k * rot.x, k * rot.y, k * rot.z, k * rot.w⟩ = unscaled rot := by
    unfold unscaled
    rw [qnorm_stretched hk, qvector_stretched, smul_smul]
    dsimp only
    rw [hkw]
    congr 1
    field_simp
  rw [rotationVector_eq hz' (abs_le_one_of_half_turn (hkw.trans hw)),
    rotationVector_eq hz (abs_le_one_of_half_turn hw), hu]
  dsimp only
  rw [hkw]

/--
What is written survives in full, any length of the quaternion included, only where it is a
half turn. A unit quaternion is written right unless its vector part is shorter than the
smallest step of a number and not nothing; one that is longer than one at its scalar part is
not written in numbers at all.
-/
theorem kept_iff_half_turn (tf : SPTransformStamped ℝ)
    (hz : ¬ IsZero tf.transform.rotation) :
    (IsKept tf hz ↔ tf.transform.rotation.w = 0)
    ∧ (qnorm tf.transform.rotation = 1 → (Denotes tf hz ∧ ReadsBack tf hz
        ↔ Vec3.norm (qvector tf.transform.rotation) = 0
          ∨ exactMath.epsilon ≤ Vec3.norm (qvector tf.transform.rotation)))
    ∧ (1 < |tf.transform.rotation.w| → transformNumbers exactMath tf = none) := by
  refine ⟨⟨?_, ?_⟩, ?_, transformNumbers_none⟩
  · intro h
    by_contra hw
    have hpos : 0 < |tf.transform.rotation.w| := abs_pos.mpr hw
    -- twice too long at its scalar part
    have hs := h.stretch (2 / |tf.transform.rotation.w|) (by positivity)
    have hlong : 1 < |(stretched (2 / |tf.transform.rotation.w|) tf).transform.rotation.w| := by
      show 1 < |2 / |tf.transform.rotation.w| * tf.transform.rotation.w|
      rw [abs_mul, abs_div, abs_abs, div_mul_cancel₀ _ hpos.ne']
      norm_num
    obtain ⟨v, hv, -⟩ := h.denotes
    rw [transformNumbers_none hlong, hv] at hs
    cases hs
  · intro hw
    have hd : Denotes tf hz := denotes_of_half_turn hw
    refine ⟨hd, ?_, hd.reads_back⟩
    intro k hk
    unfold transformNumbers
    exact congrArg (Option.map _) (rotationVector_stretched hk hz hw)
  · intro h1
    have hunit : Denotes tf hz ↔ _ := denotes_unit_iff h1
    rw [← hunit]
    exact ⟨fun h => h.1, fun h => ⟨h, h.reads_back⟩⟩

/-- A transform that turns and does not shift. -/
def turnOnly (rot : SPRotation ℝ) : SPTransformStamped ℝ where
  activeTransform := true
  enableTransform := true
  timeStamp := 0
  parentFrameId := "base_link"
  childFrameId := "goal"
  transform := ⟨⟨0, 0, 0⟩, rot⟩
  metadata := none

theorem half_turn_kept : IsKept (turnOnly ⟨1, 0, 0, 0⟩) fun h => one_ne_zero h.2.1 :=
  (kept_iff_half_turn (turnOnly ⟨1, 0, 0, 0⟩) fun h => one_ne_zero h.2.1).1.mpr rfl

theorem long_not_zero : ¬ IsZero (turnOnly ⟨0, 0, 0, 1 + (1 / 2) ^ 52⟩).transform.rotation := by
  rintro ⟨h0, -⟩
  have hpos : (0 : ℝ) < 1 + (1 / 2) ^ 52 := by norm_num
  exact hpos.ne' h0

/-- No turn at all, by a quaternion one rounding step too long: no number comes of it. -/
theorem long_quaternion_lost : ¬ IsKept (turnOnly ⟨0, 0, 0, 1 + (1 / 2) ^ 52⟩) long_not_zero := by
  intro h
  have hlong : (1 : ℝ) < |1 + (1 / 2) ^ 52| := lt_of_lt_of_le (by norm_num) (le_abs_self _)
  obtain ⟨v, hv, -⟩ := h.denotes
  rw [transformNumbers_none hlong] at hv
  cases hv

end

end UrRedisDriver.Proof
