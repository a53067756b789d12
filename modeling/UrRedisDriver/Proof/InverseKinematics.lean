import UrRedisDriver.Trajectory.Kinematics

/-!
# What a branch of the inverse kinematics reaches

`T14 = T01⁻¹ * T * (T45 * T56)⁻¹` is what joints 2, 3 and 4 have to bring about. They can
bring about a turn about the axis of joint 1 followed by a quarter turn, and a shift that a
two-link arm spans in a plane at distance `d4`. With `theta1`, `theta5` and `theta6` chosen
as they are, `T14` is of that kind.
-/

namespace UrRedisDriver.Proof

open UrRedisDriver UnitQuaternion Matrix
open Real (sin cos pi)
open scoped Literals

noncomputable section

variable {dh : DhParameters} {T : Pose}

/-! ## One link -/

/-- The turn of one link. -/
theorem dhTransform_matrix (θ d a α : ℝ) : matrix (dhTransform θ d a α).rot
    = !![cos θ, -sin θ * cos α, sin θ * sin α;
         sin θ, cos θ * cos α, -cos θ * sin α;
         0, sin α, cos α] := by
  simp only [dhTransform, Pose.rotation, Pose.translation, Motion.mul_rot, mul_one, matrix_mul,
    matrix_zAxis, matrix_xAxis]
  ext i j
  fin_cases i <;> fin_cases j <;> simp [Matrix.mul_apply, Fin.sum_univ_three]

/-- The shift of one link. -/
theorem dhTransform_trans (θ d a α : ℝ) :
    (dhTransform θ d a α).trans = ![a * cos θ, a * sin θ, d] := by
  simp only [dhTransform, Pose.rotation, Pose.translation, Motion.mul_trans, Motion.mul_rot,
    mul_one, smul_zero, zero_add, add_zero]
  ext i
  rw [Pi.add_apply, smul_apply, smul_apply, matrix_zAxis]
  fin_cases i <;> simp [mul_comm]

/-- Motions are the same if their matrices and their shifts are. -/
theorem same_of_matrix {p q : Pose} (hr : matrix p.rot = matrix q.rot)
    (ht : p.trans = q.trans) : Motion.Same p q :=
  Motion.same_iff.mpr ⟨smul_eq_iff.mpr hr, ht⟩

/-- A whole turn of a joint changes nothing. -/
theorem dhTransform_turns (θ d a α : ℝ) (k : ℤ) :
    Motion.Same (dhTransform (θ + k * (2 * pi)) d a α) (dhTransform θ d a α) := by
  apply same_of_matrix
  · rw [dhTransform_matrix, dhTransform_matrix, Real.cos_add_int_mul_two_pi,
      Real.sin_add_int_mul_two_pi]
  · rw [dhTransform_trans, dhTransform_trans, Real.cos_add_int_mul_two_pi,
      Real.sin_add_int_mul_two_pi]

/-! ## The whole arm -/

theorem forwardKinematics_eq (q : Joints ℝ) : forwardKinematics dh q
    = dh.link q 0 * dh.link q 1 * dh.link q 2 * dh.link q 3 * dh.link q 4 * dh.link q 5 := by
  have h : List.finRange 6 = [0, 1, 2, 3, 4, 5] := by decide
  simp only [forwardKinematics, h, List.foldl_cons, List.foldl_nil, one_mul]

/-- Configurations that are whole turns apart put the flange in one place. -/
theorem forwardKinematics_turns {q q' : Joints ℝ}
    (h : ∀ i, ∃ k : ℤ, q' i = q i + k * (2 * pi)) :
    Motion.Same (forwardKinematics dh q') (forwardKinematics dh q) := by
  have hlink : ∀ i, Motion.Same (dh.link q' i) (dh.link q i) := by
    intro i
    obtain ⟨k, hk⟩ := h i
    have hturn := dhTransform_turns (q i) (dh.row i).1 (dh.row i).2.1 (dh.row i).2.2 k
    rwa [← hk] at hturn
  rw [forwardKinematics_eq, forwardKinematics_eq]
  exact ((((((hlink 0).mul (hlink 1)).mul (hlink 2)).mul (hlink 3)).mul (hlink 4)).mul (hlink 5))

/-- The turn of joints 2, 3 and 4. -/
theorem planar_matrix (dh : DhParameters) (θ2 θ3 θ4 : ℝ) :
    matrix (dhTransform θ2 0 dh.a2 0 * dhTransform θ3 0 dh.a3 0
      * dhTransform θ4 dh.d4 0 (pi / 2)).rot
    = !![cos (θ2 + θ3 + θ4), 0, sin (θ2 + θ3 + θ4);
         sin (θ2 + θ3 + θ4), 0, -cos (θ2 + θ3 + θ4);
         0, 1, 0] := by
  simp only [Motion.mul_rot, matrix_mul, dhTransform_matrix, Real.cos_pi_div_two,
    Real.sin_pi_div_two, Real.cos_zero, Real.sin_zero, Real.cos_add, Real.sin_add]
  ext i j
  fin_cases i <;> fin_cases j <;>
    simp [Matrix.mul_apply, Fin.sum_univ_three, -mul_eq_mul_right_iff] <;> ring

/-- The shift of joints 2, 3 and 4. -/
theorem planar_trans (dh : DhParameters) (θ2 θ3 θ4 : ℝ) :
    (dhTransform θ2 0 dh.a2 0 * dhTransform θ3 0 dh.a3 0
      * dhTransform θ4 dh.d4 0 (pi / 2)).trans
    = ![dh.a2 * cos θ2 + dh.a3 * cos (θ2 + θ3), dh.a2 * sin θ2 + dh.a3 * sin (θ2 + θ3),
        dh.d4] := by
  ext i
  simp only [Motion.mul_trans, Motion.mul_rot, Pi.add_apply, smul_apply, matrix_mul,
    dhTransform_matrix, dhTransform_trans, Real.cos_zero, Real.sin_zero, Real.cos_add,
    Real.sin_add]
  fin_cases i <;> simp [Matrix.mul_apply, Fin.sum_univ_three] <;> ring

/-! ## What is left for joints 2, 3 and 4 -/

/-- The axis `j` of the target along the axis of joint 2. -/
def along (T : Pose) (θ1 : ℝ) (j : Fin 3) : ℝ :=
  sin θ1 * matrix T.rot 0 j - cos θ1 * matrix T.rot 1 j

/-- `theta1`, `theta5` and `theta6` are right: the wrist is where, and turned as, it has to be. -/
structure WristSolved (dh : DhParameters) (T : Pose) (θ1 θ5 θ6 : ℝ) : Prop where
  centre : T.trans 0 * sin θ1 - T.trans 1 * cos θ1 = dh.d4 + dh.d6 * cos θ5
  normal : along T θ1 0 = sin θ5 * cos θ6
  orient : along T θ1 1 = -(sin θ5 * sin θ6)
  approach : along T θ1 2 = cos θ5

/-- The turn of the last two joints. -/
theorem wrist_matrix (dh : DhParameters) (θ5 θ6 : ℝ) :
    matrix (dhTransform θ5 dh.d5 0 (-pi / 2) * dhTransform θ6 dh.d6 0 0).rot
    = !![cos θ5 * cos θ6, -(cos θ5 * sin θ6), -sin θ5;
         sin θ5 * cos θ6, -(sin θ5 * sin θ6), cos θ5;
         -sin θ6, -cos θ6, 0] := by
  have hc : cos (-pi / 2) = 0 := by rw [neg_div, Real.cos_neg, Real.cos_pi_div_two]
  have hs : sin (-pi / 2) = -1 := by rw [neg_div, Real.sin_neg, Real.sin_pi_div_two]
  simp only [Motion.mul_rot, matrix_mul, dhTransform_matrix, hc, hs, Real.cos_zero, Real.sin_zero]
  ext i j
  fin_cases i <;> fin_cases j <;> simp [Matrix.mul_apply, Fin.sum_univ_three]

/-- The shift of the last two joints. -/
theorem wrist_trans (dh : DhParameters) (θ5 θ6 : ℝ) :
    (dhTransform θ5 dh.d5 0 (-pi / 2) * dhTransform θ6 dh.d6 0 0).trans
    = ![-sin θ5 * dh.d6, cos θ5 * dh.d6, dh.d5] := by
  have hc : cos (-pi / 2) = 0 := by rw [neg_div, Real.cos_neg, Real.cos_pi_div_two]
  have hs : sin (-pi / 2) = -1 := by rw [neg_div, Real.sin_neg, Real.sin_pi_div_two]
  ext i
  simp only [Motion.mul_trans, Pi.add_apply, smul_apply, dhTransform_matrix, dhTransform_trans,
    hc, hs]
  fin_cases i <;> simp

/-- The shift of the last two joints undone. -/
theorem wrist_inv_trans (dh : DhParameters) (θ5 θ6 : ℝ) :
    let B := dhTransform θ5 dh.d5 0 (-pi / 2) * dhTransform θ6 dh.d6 0 0
    B.rot⁻¹ • B.trans = ![-(sin θ6 * dh.d5), -(cos θ6 * dh.d5), dh.d6] := by
  intro B
  have hone := Real.sin_sq_add_cos_sq θ5
  ext i
  rw [smul_apply, matrix_inv, wrist_matrix, wrist_trans]
  fin_cases i
  · simp
    ring
  · simp
    ring
  · simp
    linear_combination dh.d6 * hone

section T14

variable {θ1 θ5 θ6 : ℝ}

/-- The first joint undone. -/
theorem shoulder_inv_apply (dh : DhParameters) (θ1 : ℝ) (v : Vec3) :
    ((dhTransform θ1 dh.d1 0 (pi / 2)).rot⁻¹ • v) 2 = sin θ1 * v 0 - cos θ1 * v 1 := by
  rw [smul_apply, matrix_inv, dhTransform_matrix]
  simp
  ring

/-- The axis of joint 2 in the coordinates of the target is a row of the wrist's turn. -/
theorem WristSolved.row (h : WristSolved dh T θ1 θ5 θ6) :
    matrix ((dhTransform θ1 dh.d1 0 (pi / 2)).rot⁻¹ * T.rot) 2
      = matrix (dhTransform θ5 dh.d5 0 (-pi / 2) * dhTransform θ6 dh.d6 0 0).rot 1 := by
  have hn := h.normal
  have ho := h.orient
  have ha := h.approach
  simp only [along] at hn ho ha
  ext j
  rw [matrix_mul, matrix_inv, Matrix.mul_apply, Fin.sum_univ_three, wrist_matrix,
    dhTransform_matrix]
  fin_cases j <;> simp <;> linarith

/-- Joints 2, 3 and 4 are left with a turn that takes the second axis to the third. -/
theorem WristSolved.t14_row (h : WristSolved dh T θ1 θ5 θ6) :
    matrix (t14 dh T θ1 θ5 θ6).rot 2 = ![0, 1, 0] := by
  let B := dhTransform θ5 dh.d5 0 (-pi / 2) * dhTransform θ6 dh.d6 0 0
  have hrot : (t14 dh T θ1 θ5 θ6).rot
      = (dhTransform θ1 dh.d1 0 (pi / 2)).rot⁻¹ * T.rot * B.rot⁻¹ := rfl
  ext j
  have hBB : (matrix B.rot * (matrix B.rot)ᵀ) 1 j = (1 : Matrix (Fin 3) (Fin 3) ℝ) 1 j := by
    rw [matrix_mul_transpose]
  rw [hrot, matrix_mul, matrix_inv, Matrix.mul_apply, h.row, ← Matrix.mul_apply, hBB]
  fin_cases j <;> rfl

/-- Joints 2, 3 and 4 are left with a shift that ends in the plane of the two links. -/
theorem WristSolved.t14_depth (h : WristSolved dh T θ1 θ5 θ6) :
    (t14 dh T θ1 θ5 θ6).trans 2 = dh.d4 := by
  let A := dhTransform θ1 dh.d1 0 (pi / 2)
  let B := dhTransform θ5 dh.d5 0 (-pi / 2) * dhTransform θ6 dh.d6 0 0
  have htrans : (t14 dh T θ1 θ5 θ6).trans
      = (A.rot⁻¹ * T.rot) • -(B.rot⁻¹ • B.trans) + (A.rot⁻¹ • T.trans + -(A.rot⁻¹ • A.trans)) :=
    rfl
  -- the depth along the fourth axis: what the wrist takes off and what the shoulder adds
  have hwrist : ((A.rot⁻¹ * T.rot) • -(B.rot⁻¹ • B.trans)) 2 = -(cos θ5 * dh.d6) := by
    rw [smul_row h.row, smul_neg, smul_inv_smul, wrist_trans]
    rfl
  have hbase : (A.rot⁻¹ • A.trans) 2 = 0 := by
    rw [shoulder_inv_apply, dhTransform_trans]
    simp
  have hcentre : (A.rot⁻¹ • T.trans) 2 = dh.d4 + dh.d6 * cos θ5 := by
    rw [shoulder_inv_apply, ← h.centre]
    ring
  rw [htrans, Pi.add_apply, Pi.add_apply, Pi.neg_apply, hwrist, hbase, hcentre]
  ring

/-- What is left of a pose without a turn straight ahead of the shoulder. -/
theorem t14_ahead (dh : DhParameters) (v : Vec3) (θ5 θ6 : ℝ) :
    (t14 dh ⟨1, v⟩ 0 θ5 θ6).trans 0 = v 0 + sin θ6 * dh.d5
      ∧ (t14 dh ⟨1, v⟩ 0 θ5 θ6).trans 1 = v 2 - dh.d6 - dh.d1 := by
  let A := dhTransform 0 dh.d1 0 (pi / 2)
  let B := dhTransform θ5 dh.d5 0 (-pi / 2) * dhTransform θ6 dh.d6 0 0
  have htrans : (t14 dh ⟨1, v⟩ 0 θ5 θ6).trans
      = (A.rot⁻¹ * 1) • -(B.rot⁻¹ • B.trans) + (A.rot⁻¹ • v + -(A.rot⁻¹ • A.trans)) :=
    rfl
  have hA : matrix A.rot = !![1, 0, 0; 0, 0, -1; 0, 1, 0] := by
    rw [dhTransform_matrix]
    simp
  rw [htrans, wrist_inv_trans, mul_one]
  simp only [Pi.add_apply, Pi.neg_apply, smul_apply, matrix_inv, hA, A, dhTransform_trans]
  constructor
  · simp
    ring
  · simp
    ring

end T14

/-! ## The choices of a branch -/

/-- Two choices, unless none are left. -/
theorem mem_choices {p : Prop} [Decidable p] {x y θ : ℝ} (h : θ ∈ if p then [] else [x, y]) :
    ¬ p ∧ (θ = x ∨ θ = y) := by
  by_cases hp : p
  · rw [if_pos hp] at h
    cases h
  · rw [if_neg hp] at h
    exact ⟨hp, List.mem_pair.mp h⟩

/-- Both angles of a cosine have it. -/
theorem cos_choice {c θ : ℝ} (hc : |c| ≤ 1)
    (h : θ = Real.arccos (Angle.clamp c (-1) 1) ∨ θ = -Real.arccos (Angle.clamp c (-1) 1)) :
    cos θ = c := by
  rcases h with rfl | rfl
  · exact Angle.cos_arccos_clamp hc
  · rw [Real.cos_neg, Angle.cos_arccos_clamp hc]

/-! ## The planar arm -/

/-- Joints 2, 3 and 4 bring about what is left for them. -/
theorem planar_same {t : Pose} {θ3 : ℝ} (hrow : matrix t.rot 2 = ![0, 1, 0])
    (hdepth : t.trans 2 = dh.d4) (h2 : dh.a2 ≠ 0) (h3 : dh.a3 ≠ 0)
    (hθ3 : θ3 ∈ theta3Branches dh t) (hc3 : |c3Raw dh t| ≤ 1) :
    Motion.Same (dhTransform (theta2 dh t θ3) 0 dh.a2 0 * dhTransform θ3 0 dh.a3 0
      * dhTransform (theta234 t - theta2 dh t θ3 - θ3) dh.d4 0 (pi / 2)) t := by
  have hcos : cos θ3 = c3Raw dh t := cos_choice hc3 (mem_choices hθ3).2
  -- the elbow spans the distance to the wrist
  have hreach : t.trans 0 ^ 2 + t.trans 1 ^ 2
      = dh.a2 ^ 2 + dh.a3 ^ 2 + 2 * dh.a2 * dh.a3 * cos θ3 := by
    rw [hcos, c3Raw]
    field_simp
    ring
  obtain ⟨hx, hy⟩ := Angle.twoLink hreach
  -- and joint 4 makes up the turn
  obtain ⟨hmatrix, hone⟩ := matrix_of_row hrow
  have h234 : theta234 t = Angle.atan2 (matrix t.rot 1 0) (matrix t.rot 0 0) := by
    rw [theta234, matrix_mul, matrix_xAxis]
    simp [Matrix.mul_apply, Fin.sum_univ_three]
  have hone' : matrix t.rot 0 0 ^ 2 + matrix t.rot 1 0 ^ 2 = 1 ^ 2 := hone.trans (one_pow 2).symm
  have hcos234 : cos (theta234 t) = matrix t.rot 0 0 := by
    rw [h234, ← one_mul (cos _), Angle.mul_cos_atan2 zero_le_one hone']
  have hsin234 : sin (theta234 t) = matrix t.rot 1 0 := by
    rw [h234, ← one_mul (sin _), Angle.mul_sin_atan2 zero_le_one hone']
  have hsum : theta2 dh t θ3 + θ3 + (theta234 t - theta2 dh t θ3 - θ3) = theta234 t := by ring
  apply same_of_matrix
  · rw [planar_matrix, hsum, hcos234, hsin234]
    exact hmatrix.symm
  · rw [planar_trans, theta2, hx, hy]
    ext i
    fin_cases i
    · rfl
    · rfl
    · exact hdepth.symm

/-! ## The wrist -/

/-- `theta1` puts the wrist centre at distance `d4` from the plane of the arm. -/
theorem theta1_centre {θ1 : ℝ} (h : θ1 ∈ theta1Branches dh T) :
    (T.trans 0 - dh.d6 * matrix T.rot 0 2) * sin θ1
      - (T.trans 1 - dh.d6 * matrix T.rot 1 2) * cos θ1 = dh.d4 := by
  let x := T.trans 0 - dh.d6 * matrix T.rot 0 2
  let y := T.trans 1 - dh.d6 * matrix T.rot 1 2
  let r := √(x * x + y * y)
  let base := Angle.atan2 x (-y)
  obtain ⟨hr, hchoice⟩ := mem_choices (h : θ1 ∈ if r < |dh.d4| then [] else
    [base + Real.arccos (Angle.clamp (dh.d4 / r) (-1) 1),
      base - Real.arccos (Angle.clamp (dh.d4 / r) (-1) 1)])
  have hr0 : 0 ≤ r := Real.sqrt_nonneg _
  -- polar coordinates of the wrist centre, seen from above
  have hxy : (-y) ^ 2 + x ^ 2 = r ^ 2 := by
    rw [Real.sq_sqrt (add_nonneg (mul_self_nonneg x) (mul_self_nonneg y))]
    ring
  have hcos : r * cos base = -y := Angle.mul_cos_atan2 hr0 hxy
  have hsin : r * sin base = x := Angle.mul_sin_atan2 hr0 hxy
  have habs : |dh.d4 / r| ≤ 1 := by
    rw [abs_div, abs_of_nonneg hr0]
    exact div_le_one_of_le₀ (not_lt.mp hr) hr0
  have hphi : cos (θ1 - base) = dh.d4 / r := by
    refine cos_choice habs (hchoice.imp ?_ ?_)
    · intro hθ; rw [hθ]; ring
    · intro hθ; rw [hθ]; ring
  have hd4 : r * (dh.d4 / r) = dh.d4 := by
    by_cases h0 : r = 0
    · -- on the axis of the base the source divides by zero, but only where the offset is none
      have : dh.d4 = 0 := abs_eq_zero.mp (le_antisymm (h0 ▸ not_lt.mp hr) (abs_nonneg _))
      rw [this, h0, zero_mul]
    · exact mul_div_cancel₀ _ h0
  calc x * sin θ1 - y * cos θ1 = r * cos (θ1 - base) := by
        rw [Real.cos_sub]
        linear_combination -sin θ1 * hsin - cos θ1 * hcos
    _ = dh.d4 := by rw [hphi, hd4]

/-- The axes of the target along a direction square to one. -/
theorem along_sq (T : Pose) (θ1 : ℝ) :
    along T θ1 0 ^ 2 + along T θ1 1 ^ 2 + along T θ1 2 ^ 2 = 1 := by
  have h00 := dot_rows T.rot 0 0
  have h11 := dot_rows T.rot 1 1
  have h01 := dot_rows T.rot 0 1
  rw [Matrix.one_apply_eq] at h00 h11
  rw [Matrix.one_apply_ne (by decide)] at h01
  simp only [along]
  linear_combination sin θ1 ^ 2 * h00 + cos θ1 ^ 2 * h11 - 2 * sin θ1 * cos θ1 * h01
    + Real.sin_sq_add_cos_sq θ1

/-- The source's choice of `theta6`, with the sign of `sin theta5` divided out. -/
theorem theta6_eq {θ1 θ5 : ℝ} (hs : ¬ |sin θ5| < singularEps) (hcos : along T θ1 2 = cos θ5) :
    sin θ5 * cos (theta6 T θ1 θ5) = along T θ1 0
      ∧ sin θ5 * sin (theta6 T θ1 θ5) = -along T θ1 1 := by
  let sign : ℝ := if sin θ5 > 0 then 1 else -1
  have hsign : sign * |sin θ5| = sin θ5 ∧ sign ^ 2 = 1 := by
    by_cases hpos : sin θ5 > 0
    · have h1 : sign = 1 := if_pos hpos
      rw [h1, abs_of_pos hpos]
      norm_num
    · have h1 : sign = -1 := if_neg hpos
      rw [h1, abs_of_nonpos (not_lt.mp hpos)]
      norm_num
  have hθ : theta6 T θ1 θ5
      = Angle.atan2 (sign * -along T θ1 1) (sign * along T θ1 0) := by
    have h1 : -matrix T.rot 0 1 * sin θ1 + matrix T.rot 1 1 * cos θ1 = -along T θ1 1 := by
      rw [along]; ring
    have h0 : matrix T.rot 0 0 * sin θ1 - matrix T.rot 1 0 * cos θ1 = along T θ1 0 := by
      rw [along]; ring
    rw [theta6]
    simp only [if_neg hs, h1, h0]
    rfl
  -- the axis of joint 2 has length one, which leaves `|sin θ5|` for its other two coordinates
  have hnorm : (sign * along T θ1 0) ^ 2 + (sign * -along T θ1 1) ^ 2 = |sin θ5| ^ 2 := by
    have h := along_sq T θ1
    rw [hcos] at h
    rw [sq_abs]
    linear_combination (along T θ1 0 ^ 2 + along T θ1 1 ^ 2) * hsign.2 + h
      - Real.sin_sq_add_cos_sq θ5
  have hc := Angle.mul_cos_atan2 (abs_nonneg _) hnorm
  have hsn := Angle.mul_sin_atan2 (abs_nonneg _) hnorm
  rw [← hθ] at hc hsn
  constructor
  · rw [← hsign.1, mul_assoc, hc]
    linear_combination along T θ1 0 * hsign.2
  · rw [← hsign.1, mul_assoc, hsn]
    linear_combination -along T θ1 1 * hsign.2

/-- The choices for joints 1, 5 and 6 solve the wrist, short of a clamped cosine and of a wrist
that is nearly straight. -/
theorem wristSolved {θ1 θ5 : ℝ} (h6 : dh.d6 ≠ 0) (hθ1 : θ1 ∈ theta1Branches dh T)
    (hθ5 : θ5 ∈ theta5Branches dh T θ1) (hc5 : |c5Raw dh T θ1| ≤ 1)
    (hs5 : sin θ5 = 0 ∨ singularEps ≤ |sin θ5|) :
    WristSolved dh T θ1 θ5 (theta6 T θ1 θ5) := by
  have hcos : cos θ5 = c5Raw dh T θ1 := cos_choice hc5 (mem_choices hθ5).2
  have hcentre := theta1_centre hθ1
  have h5 : T.trans 0 * sin θ1 - T.trans 1 * cos θ1 - dh.d4 = dh.d6 * cos θ5 := by
    rw [hcos, c5Raw, mul_div_cancel₀ _ h6]
  have happroach : along T θ1 2 = cos θ5 := by
    apply mul_left_cancel₀ h6
    rw [along]
    linear_combination h5 - hcentre
  rcases hs5 with hs | hs
  · -- a straight wrist: nothing of the other two axes is along the axis of joint 2
    have hsq := along_sq T θ1
    have hone := Real.sin_sq_add_cos_sq θ5
    rw [happroach] at hsq
    rw [hs] at hone
    have h0 : along T θ1 0 = 0 := by nlinarith [sq_nonneg (along T θ1 0), sq_nonneg (along T θ1 1)]
    have h1 : along T θ1 1 = 0 := by nlinarith [sq_nonneg (along T θ1 0), sq_nonneg (along T θ1 1)]
    exact ⟨by linarith, by rw [h0, hs, zero_mul], by rw [h1, hs, zero_mul, neg_zero], happroach⟩
  · obtain ⟨hn, ho⟩ := theta6_eq (not_lt.mpr hs) happroach
    exact ⟨by linarith, hn.symm, by rw [ho, neg_neg], happroach⟩

/-! ## Every branch -/

/-- The six angles of a branch put the flange at the target. -/
theorem branch_same {θ1 θ5 θ3 : ℝ} (hw : WristSolved dh T θ1 θ5 (theta6 T θ1 θ5))
    (h2 : dh.a2 ≠ 0) (h3 : dh.a3 ≠ 0)
    (hθ3 : θ3 ∈ theta3Branches dh (t14 dh T θ1 θ5 (theta6 T θ1 θ5)))
    (hc3 : |c3Raw dh (t14 dh T θ1 θ5 (theta6 T θ1 θ5))| ≤ 1) :
    Motion.Same (forwardKinematics dh (branch dh T θ1 θ5 θ3)) T := by
  let A := dhTransform θ1 dh.d1 0 (pi / 2)
  let B5 := dhTransform θ5 dh.d5 0 (-pi / 2)
  let B6 := dhTransform (theta6 T θ1 θ5) dh.d6 0 0
  let t := t14 dh T θ1 θ5 (theta6 T θ1 θ5)
  have hplanar := planar_same hw.t14_row hw.t14_depth h2 h3 hθ3 hc3
  have hT : A * t * (B5 * B6) = T := by
    have ht : t = A⁻¹ * T * (B5 * B6)⁻¹ := rfl
    rw [ht]
    group
  -- base and wrist are undone on both sides, the planar arm between them is solved
  have hsame := ((Motion.Same.refl A).mul hplanar).mul (Motion.Same.refl (B5 * B6))
  rw [hT] at hsame
  rw [forwardKinematics_eq]
  convert hsame using 1
  simp only [← mul_assoc]
  rfl

/-! ## Whole turns -/

/-- Two angles, joint by joint, whole turns apart. -/
def TurnsApart (q q' : Joints ℝ) : Prop := ∀ i, ∃ k : ℤ, q' i = q i + k * (2 * pi)

theorem TurnsApart.trans {q q' q'' : Joints ℝ} (h : TurnsApart q q') (h' : TurnsApart q' q'') :
    TurnsApart q q'' := by
  intro i
  obtain ⟨k, hk⟩ := h i
  obtain ⟨k', hk'⟩ := h' i
  refine ⟨k + k', ?_⟩
  rw [hk', hk]
  push_cast
  ring

/-- Wrapping takes off whole turns. -/
theorem wrapToPi_turns (a : ℝ) : ∃ k : ℤ, wrapToPi a = a + k * (2 * pi) := by
  let n := Angle.trunc ((a + pi) / (2 * pi))
  have hrem : Angle.rem (a + pi) (2 * pi) = a + pi - 2 * pi * n := rfl
  unfold wrapToPi
  rw [hrem]
  dsimp only
  -- the remainder takes off whole turns, and one is put back where it has come out negative
  by_cases h : a + pi - 2 * pi * n ≤ 0
  · refine ⟨-n + 1, ?_⟩
    rw [if_pos h]
    push_cast
    ring
  · refine ⟨-n, ?_⟩
    rw [if_neg h]
    push_cast
    ring

/-- A wrapped angle lies in `(-pi, pi]`. -/
theorem wrapToPi_mem (a : ℝ) : -pi < wrapToPi a ∧ wrapToPi a ≤ pi := by
  have hpi := Real.pi_pos
  have h2 : 0 < 2 * pi := by linarith
  unfold wrapToPi
  dsimp only
  rcases le_or_gt 0 (a + pi) with hx | hx
  · obtain ⟨hlo, hhi⟩ := Angle.rem_of_nonneg h2 hx
    by_cases h : Angle.rem (a + pi) (2 * pi) ≤ 0
    · rw [if_pos h]
      constructor <;> linarith
    · rw [if_neg h]
      constructor <;> linarith
  · obtain ⟨hlo, hhi⟩ := Angle.rem_of_neg h2 hx
    rw [if_pos hhi]
    constructor <;> linarith

/-- An angle in `(-pi, pi]` is left alone. -/
theorem wrapToPi_of_mem {a : ℝ} (hlo : -pi < a) (hhi : a ≤ pi) : wrapToPi a = a := by
  have hpi := Real.pi_pos
  unfold wrapToPi
  dsimp only
  rcases lt_or_eq_of_le hhi with hlt | heq
  · rw [Angle.rem_of_lt (by linarith) (by linarith), if_neg (by linarith)]
    ring
  · have h2 : a + pi = 2 * pi := by rw [heq]; ring
    rw [h2, Angle.rem_self (by linarith), if_pos le_rfl, heq]
    ring

theorem mem_inverseKinematics {q : Joints ℝ} : q ∈ inverseKinematics dh T ↔
    ∃ θ1 ∈ theta1Branches dh T, ∃ θ5 ∈ theta5Branches dh T θ1,
      ∃ θ3 ∈ theta3Branches dh (t14 dh T θ1 θ5 (theta6 T θ1 θ5)),
        wrapToPi ∘ branch dh T θ1 θ5 θ3 = q := by
  simp only [inverseKinematics, List.mem_flatMap, List.mem_map]

/--
**Soundness of the closed form.** Where neither cosine had to be clamped and the wrist is not
nearly straight without being straight, the choice puts the flange at the target.
-/
theorem choice_same {θ1 θ5 θ3 : ℝ} (h6 : dh.d6 ≠ 0) (h2 : dh.a2 ≠ 0) (h3 : dh.a3 ≠ 0)
    (hθ1 : θ1 ∈ theta1Branches dh T) (hθ5 : θ5 ∈ theta5Branches dh T θ1)
    (hθ3 : θ3 ∈ theta3Branches dh (t14 dh T θ1 θ5 (theta6 T θ1 θ5)))
    (hc5 : |c5Raw dh T θ1| ≤ 1) (hc3 : |c3Raw dh (t14 dh T θ1 θ5 (theta6 T θ1 θ5))| ≤ 1)
    (hs5 : sin θ5 = 0 ∨ singularEps ≤ |sin θ5|) :
    Motion.Same (forwardKinematics dh (wrapToPi ∘ branch dh T θ1 θ5 θ3)) T := by
  have hw := wristSolved h6 hθ1 hθ5 hc5 hs5
  have hbranch := branch_same hw h2 h3 hθ3 hc3
  exact (forwardKinematics_turns fun i => wrapToPi_turns _).trans hbranch

/-- The turns tried for a joint. -/
theorem mem_expandTurns {n : Nat} {sol lower upper q : Fin n → ℝ} :
    q ∈ expandTurns sol lower upper ↔ ∀ i, (∃ turn ∈ ([-1, 0, 1] : List ℝ),
      q i = sol i + turn * 2 * pi) ∧ lower i ≤ q i ∧ q i ≤ upper i := by
  induction n with
  | zero =>
      rw [expandTurns, List.mem_singleton]
      exact ⟨fun _ i => i.elim0, fun _ => funext fun i => i.elim0⟩
  | succ n ih =>
      simp only [expandTurns, List.mem_flatMap, List.mem_map]
      constructor
      · intro h
        obtain ⟨v, ⟨turn, hturn, hv⟩, hq⟩ := h
        -- a value out of range contributes nothing to the list
        by_cases hin : v ≥ lower 0 ∧ v ≤ upper 0
        · rw [if_pos hin] at hq
          obtain ⟨r, hr, rfl⟩ := List.mem_map.mp hq
          intro i
          refine Fin.cases ?_ ?_ i
          · exact ⟨⟨turn, hturn, hv.symm⟩, hin⟩
          · exact ih.mp hr
        · rw [if_neg hin] at hq
          cases hq
      · intro h
        obtain ⟨⟨turn, hturn, hv⟩, hin⟩ := h 0
        refine ⟨q 0, ⟨turn, hturn, hv.symm⟩, ?_⟩
        rw [if_pos hin]
        exact List.mem_map.mpr ⟨Fin.tail q, ih.mpr fun i => h i.succ, Fin.cons_self_tail q⟩

theorem turnsApart_of_expandTurns {sol lower upper q : Joints ℝ}
    (h : q ∈ expandTurns sol lower upper) : TurnsApart sol q := by
  intro i
  obtain ⟨⟨turn, hturn, hv⟩, -⟩ := mem_expandTurns.mp h i
  have hk : ∃ k : ℤ, turn = k := by
    simp only [List.mem_cons, List.not_mem_nil, or_false] at hturn
    rcases hturn with rfl | rfl | rfl
    · exact ⟨-1, by norm_num⟩
    · exact ⟨0, by norm_num⟩
    · exact ⟨1, by norm_num⟩
  obtain ⟨k, rfl⟩ := hk
  exact ⟨k, by rw [hv]; ring⟩

end

end UrRedisDriver.Proof
