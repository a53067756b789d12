import UrRedisDriver.Proof.Ahead
import UrRedisDriver.Proof.Planner
import Mathlib.Algebra.Order.BigOperators.Group.List

/-!
# What the inverse kinematics lists

No more than eight configurations, each of which puts the flange where it was asked for as
long as nothing was clamped on the way. And all there are, up to whole turns, but for the
last joint of a wrist that is nearly straight.
-/

namespace UrRedisDriver.Proof

open UrRedisDriver UnitQuaternion Matrix
open Real (sin cos pi)
open scoped Literals

noncomputable section

variable {dh : DhParameters} {T : Pose} {q : Joints ℝ} {θ1 θ5 θ6 θ3 : ℝ}

/-! ## Nothing but what was asked for -/

/-- The configuration is listed for these choices of `theta1`, `theta5` and `theta3`. -/
structure ListedBy (dh : DhParameters) (T : Pose) (θ1 θ5 θ3 : ℝ) (q : Joints ℝ) : Prop where
  theta1 : θ1 ∈ theta1Branches dh T
  theta5 : θ5 ∈ theta5Branches dh T θ1
  theta3 : θ3 ∈ theta3Branches dh (t14 dh T θ1 θ5 (theta6 T θ1 θ5))
  wrapped : wrapToPi ∘ branch dh T θ1 θ5 θ3 = q

/-- Neither cosine of the branch had to be clamped. -/
def Unclamped (dh : DhParameters) (T : Pose) (θ1 θ5 : ℝ) : Prop :=
  |c5Raw dh T θ1| ≤ 1 ∧ |c3Raw dh (t14 dh T θ1 θ5 (theta6 T θ1 θ5))| ≤ 1

theorem exists_listedBy (h : q ∈ inverseKinematics dh T) :
    ∃ θ1 θ5 θ3, ListedBy dh T θ1 θ5 θ3 q := by
  obtain ⟨θ1, hθ1, θ5, hθ5, θ3, hθ3, hq⟩ := mem_inverseKinematics.mp h
  exact ⟨θ1, θ5, θ3, hθ1, hθ5, hθ3, hq⟩

theorem ListedBy.mem (h : ListedBy dh T θ1 θ5 θ3 q) : q ∈ inverseKinematics dh T :=
  mem_inverseKinematics.mpr ⟨θ1, h.theta1, θ5, h.theta5, θ3, h.theta3, h.wrapped⟩

theorem ListedBy.turnsApart (h : ListedBy dh T θ1 θ5 θ3 q) :
    TurnsApart (branch dh T θ1 θ5 θ3) q := by
  intro i
  rw [← h.wrapped]
  exact wrapToPi_turns _

theorem length_choices {p : Prop} [Decidable p] (x y : ℝ) :
    (if p then [] else [x, y]).length ≤ 2 := by
  split
  · exact Nat.zero_le 2
  · exact le_rfl

theorem length_flatMap_le {α β : Type} {l : List α} {f : α → List β} {m n : Nat}
    (hl : l.length ≤ m) (hf : ∀ a, (f a).length ≤ n) : (l.flatMap f).length ≤ m * n := by
  rw [List.length_flatMap]
  have hsum := List.sum_le_card_nsmul (l.map fun a => (f a).length) n
    (List.forall_mem_map.mpr fun a _ => hf a)
  rw [List.length_map, smul_eq_mul] at hsum
  exact hsum.trans (Nat.mul_le_mul_right n hl)

/-- Two choices three times. -/
theorem length_inverseKinematics (dh : DhParameters) (T : Pose) :
    (inverseKinematics dh T).length ≤ 8 := by
  have h1 : (theta1Branches dh T).length ≤ 2 := length_choices ..
  have h5 : ∀ θ1, (theta5Branches dh T θ1).length ≤ 2 := fun _ => length_choices ..
  have h3 : ∀ t, (theta3Branches dh t).length ≤ 2 := fun _ => length_choices ..
  refine length_flatMap_le (m := 2) (n := 4) h1 fun θ1 => ?_
  refine length_flatMap_le (m := 2) (n := 2) (h5 θ1) fun θ5 => ?_
  rw [List.length_map]
  exact h3 _

/--
Soundness, branch by branch. The two links may be of one length: a folded arm reaches the
shoulder in every direction.
-/
theorem listed_reaches (dh : DhParameters) (T : Pose) (h6 : dh.d6 ≠ 0) (h2 : dh.a2 ≠ 0)
    (h3 : dh.a3 ≠ 0) :
    (∀ q ∈ inverseKinematics dh T, ∃ θ1 θ5 θ3, ListedBy dh T θ1 θ5 θ3 q)
      ∧ (∀ θ1 θ5 θ3 q, ListedBy dh T θ1 θ5 θ3 q → Unclamped dh T θ1 θ5 →
          sin θ5 = 0 ∨ singularEps ≤ |sin θ5| → Motion.Same (forwardKinematics dh q) T)
      ∧ (inverseKinematics dh T).length ≤ 8 := by
  refine ⟨fun q => exists_listedBy, ?_, length_inverseKinematics dh T⟩
  intro θ1 θ5 θ3 q hq hclamp hs5
  rw [← hq.wrapped]
  exact choice_same h6 h2 h3 hq.theta1 hq.theta5 hq.theta3 hclamp.1 hclamp.2 hs5

theorem front_reached : ∃ q ∈ inverseKinematics ur20 (poseFromArray frontPose),
    Motion.Same (forwardKinematics ur20 q) (poseFromArray frontPose)
      ∧ (inverseKinematics ur20 (poseFromArray frontPose)).length ≤ 8 := by
  have hreach : |elbow ur20 1.5906| ≤ 1 :=
    abs_le.mpr ⟨by linarith [front_elbow.1], front_elbow.2⟩
  obtain ⟨q, hq, -, -⟩ := front_ahead.reached front_elbow.1 front_elbow.2
  obtain ⟨hlisted, hsound, hlength⟩ := listed_reaches ur20 (poseFromArray frontPose)
    (by norm_num [ur20]) (by norm_num [ur20]) (by norm_num [ur20])
  obtain ⟨θ1, θ5, θ3, hby⟩ := hlisted q hq
  obtain ⟨hc5, hc3, hs5⟩ := front_ahead.unclamped hreach hby.theta1 hby.theta5
  exact ⟨q, hq, hsound θ1 θ5 θ3 q hby ⟨hc5, hc3⟩ (.inr hs5), hlength⟩

/-! ## All there are -/

/-- The pose is that of a configuration. -/
def At (dh : DhParameters) (T : Pose) (q : Joints ℝ) : Prop :=
  Motion.Same T (forwardKinematics dh q)

theorem At.split (h : At dh T q) : Motion.Same ((dhTransform (q 0) dh.d1 0 (pi / 2))⁻¹ * T)
    (dhTransform (q 1) 0 dh.a2 0 * dhTransform (q 2) 0 dh.a3 0 * dhTransform (q 3) dh.d4 0 (pi / 2)
      * (dhTransform (q 4) dh.d5 0 (-pi / 2) * dhTransform (q 5) dh.d6 0 0)) := by
  have hsame := (Motion.Same.refl (dhTransform (q 0) dh.d1 0 (pi / 2))⁻¹).mul h
  rw [forwardKinematics_eq] at hsame
  convert hsame using 1
  have hlink : dh.link q 0 = dhTransform (q 0) dh.d1 0 (pi / 2) := rfl
  rw [← hlink]
  have hgroup : (dh.link q 0)⁻¹
      * (dh.link q 0 * dh.link q 1 * dh.link q 2 * dh.link q 3 * dh.link q 4 * dh.link q 5)
      = dh.link q 1 * dh.link q 2 * dh.link q 3 * (dh.link q 4 * dh.link q 5) := by group
  rw [hgroup]
  rfl

/-- At the pose of a configuration, its wrist is where it has to be. -/
theorem At.wristSolved (h : At dh T q) : WristSolved dh T (q 0) (q 4) (q 5) := by
  let A := dhTransform (q 0) dh.d1 0 (pi / 2)
  let P := dhTransform (q 1) 0 dh.a2 0 * dhTransform (q 2) 0 dh.a3 0
    * dhTransform (q 3) dh.d4 0 (pi / 2)
  let B := dhTransform (q 4) dh.d5 0 (-pi / 2) * dhTransform (q 5) dh.d6 0 0
  obtain ⟨hrot, htrans⟩ := Motion.same_iff.mp h.split
  have hmatrix : matrix (A.rot⁻¹ * T.rot) = matrix (P.rot * B.rot) := smul_eq_iff.mp hrot
  -- the axis of joint 2 in the coordinates of the target
  have hrow : ∀ j, along T (q 0) j = matrix B.rot 1 j := by
    intro j
    have hj := congrFun (congrFun hmatrix 2) j
    rw [matrix_mul, matrix_inv, Matrix.mul_apply, Fin.sum_univ_three, dhTransform_matrix,
      matrix_mul, Matrix.mul_apply, Fin.sum_univ_three, planar_matrix] at hj
    simp at hj
    rw [along]
    linarith
  have hcentre := congrFun htrans 2
  have hleft : (A⁻¹ * T).trans 2 = T.trans 0 * sin (q 0) - T.trans 1 * cos (q 0) := by
    have hbase : (A.rot⁻¹ • A.trans) 2 = 0 := by
      rw [shoulder_inv_apply, dhTransform_trans]
      simp
    have hT : (A⁻¹ * T).trans = A.rot⁻¹ • T.trans + -(A.rot⁻¹ • A.trans) := rfl
    rw [hT, Pi.add_apply, Pi.neg_apply, hbase, shoulder_inv_apply]
    ring
  have hright : (P * B).trans 2 = dh.d4 + dh.d6 * cos (q 4) := by
    have hP : (P * B).trans = P.rot • B.trans + P.trans := rfl
    rw [hP, Pi.add_apply, smul_apply, planar_matrix, planar_trans, wrist_trans]
    simp
    ring
  have hB := wrist_matrix dh (q 4) (q 5)
  refine ⟨hleft.symm.trans (hcentre.trans hright), ?_, ?_, ?_⟩
  · rw [hrow, hB]
    rfl
  · rw [hrow, hB]
    rfl
  · rw [hrow, hB]
    rfl

theorem sin_eq_of_coe {a b : ℝ} (h : (a : Real.Angle) = b) : sin a = sin b :=
  congrArg Real.Angle.sin h

theorem cos_eq_of_coe {a b : ℝ} (h : (a : Real.Angle) = b) : cos a = cos b :=
  congrArg Real.Angle.cos h

/-- Whole turns of the joints do not matter to the wrist. -/
theorem WristSolved.turned {θ1' θ5' θ6' : ℝ} (h : WristSolved dh T θ1 θ5 θ6)
    (h1 : (θ1' : Real.Angle) = θ1) (h5 : (θ5' : Real.Angle) = θ5)
    (h6 : (θ6' : Real.Angle) = θ6) : WristSolved dh T θ1' θ5' θ6' := by
  -- the equations see the angles through sine and cosine only
  have halong : ∀ j, along T θ1' j = along T θ1 j := by
    intro j
    rw [along, along, sin_eq_of_coe h1, cos_eq_of_coe h1]
  constructor
  · rw [sin_eq_of_coe h1, cos_eq_of_coe h1, cos_eq_of_coe h5]
    exact h.centre
  · rw [halong, sin_eq_of_coe h5, cos_eq_of_coe h6]
    exact h.normal
  · rw [halong, sin_eq_of_coe h5, sin_eq_of_coe h6]
    exact h.orient
  · rw [halong, cos_eq_of_coe h5]
    exact h.approach

theorem mem_of_choice {p : Prop} [Decidable p] {x y θ : ℝ} (hp : ¬ p)
    (h : (θ : Real.Angle) = x ∨ (θ : Real.Angle) = y) :
    ∃ θ' ∈ (if p then [] else [x, y] : List ℝ), (θ' : Real.Angle) = θ := by
  rw [if_neg hp]
  rcases h with h | h
  · exact ⟨x, List.mem_cons_self, h.symm⟩
  · exact ⟨y, List.mem_cons_of_mem _ List.mem_cons_self, h.symm⟩

/-- The angle of joint 1 is among the choices. -/
theorem WristSolved.theta1 (h : WristSolved dh T θ1 θ5 θ6) (h4 : dh.d4 ≠ 0) :
    ∃ θ ∈ theta1Branches dh T, (θ : Real.Angle) = θ1 := by
  let x := T.trans 0 - dh.d6 * matrix T.rot 0 2
  let y := T.trans 1 - dh.d6 * matrix T.rot 1 2
  let r := √(x * x + y * y)
  let base := Angle.atan2 x (-y)
  have hr0 : 0 ≤ r := Real.sqrt_nonneg _
  have hxy : (-y) ^ 2 + x ^ 2 = r ^ 2 := by
    rw [Real.sq_sqrt (add_nonneg (mul_self_nonneg x) (mul_self_nonneg y))]
    ring
  have hcos : r * cos base = -y := Angle.mul_cos_atan2 hr0 hxy
  have hsin : r * sin base = x := Angle.mul_sin_atan2 hr0 hxy
  -- the wrist centre is at distance `d4` from the plane of the arm
  have hplane : r * cos (θ1 - base) = dh.d4 := by
    have hcentre := h.centre
    have happroach := h.approach
    rw [along] at happroach
    rw [Real.cos_sub]
    linear_combination cos θ1 * hcos + sin θ1 * hsin + hcentre - dh.d6 * happroach
  have hr : r ≠ 0 := by
    intro h0
    rw [h0, zero_mul] at hplane
    exact h4 hplane.symm
  have hle : ¬ r < |dh.d4| := by
    rw [← hplane, abs_mul, abs_of_nonneg hr0, not_lt]
    exact mul_le_of_le_one_right hr0 (Real.abs_cos_le_one _)
  have hphi : cos (θ1 - base) = dh.d4 / r := by
    rw [← hplane, mul_div_cancel_left₀ _ hr]
  refine mem_of_choice hle ?_
  -- the two ways round to the wrist centre are the two choices
  rcases Angle.coe_arccos_clamp hphi with hc | hc
  · left
    rw [Real.Angle.coe_sub] at hc
    rw [Real.Angle.coe_add, ← hc]
    abel
  · right
    rw [Real.Angle.coe_sub] at hc
    rw [Real.Angle.coe_sub, sub_eq_add_neg, ← hc]
    abel

/-- The cosine of joint 5 is the one worked out for it. -/
theorem WristSolved.cos5 (h : WristSolved dh T θ1 θ5 θ6) (h6 : dh.d6 ≠ 0) :
    cos θ5 = c5Raw dh T θ1 := by
  rw [c5Raw, h.centre, add_sub_cancel_left, mul_div_cancel_left₀ _ h6]

/-- The angle of joint 5 is among the choices. -/
theorem WristSolved.theta5 (h : WristSolved dh T θ1 θ5 θ6) (h6 : dh.d6 ≠ 0) :
    ∃ θ ∈ theta5Branches dh T θ1, (θ : Real.Angle) = θ5 := by
  have hcos := h.cos5 h6
  have hle : ¬ |c5Raw dh T θ1| > 1 + reachTolerance := by
    rw [← hcos, reachTolerance]
    linarith [Real.abs_cos_le_one θ5]
  refine mem_of_choice hle ?_
  rw [Real.Angle.coe_neg]
  exact Angle.coe_arccos_clamp hcos

/-- The angle of joint 6 is the one found, if the wrist is far enough from straight. -/
theorem WristSolved.theta6 (h : WristSolved dh T θ1 θ5 θ6) (hs : singularEps ≤ |sin θ5|) :
    (theta6 T θ1 θ5 : Real.Angle) = θ6 := by
  obtain ⟨hc, hsn⟩ := theta6_eq (not_lt.mpr hs) h.approach
  rw [h.normal] at hc
  rw [h.orient, neg_neg] at hsn
  have hne : sin θ5 ≠ 0 := by
    intro h0
    rw [h0, abs_zero, singularEps] at hs
    norm_num at hs
  exact Real.Angle.cos_sin_inj (mul_left_cancel₀ hne hc) (mul_left_cancel₀ hne hsn)

/-- A wrist nearly straight is told to turn its last joint to zero. -/
theorem theta6_singular (hs : |sin θ5| < singularEps) : UrRedisDriver.theta6 T θ1 θ5 = 0 := by
  unfold UrRedisDriver.theta6
  exact if_pos hs

/-! ### Joints 2, 3 and 4 -/

section Planar

variable {t : Pose} {φ2 φ3 φ4 : ℝ}

/-- What joints 2, 3 and 4 bring about at these angles. -/
def PlanarAt (dh : DhParameters) (t : Pose) (φ2 φ3 φ4 : ℝ) : Prop :=
  Motion.Same t (dhTransform φ2 0 dh.a2 0 * dhTransform φ3 0 dh.a3 0
    * dhTransform φ4 dh.d4 0 (pi / 2))

theorem dhTransform_coe {θ θ' : ℝ} (h : (θ : Real.Angle) = θ') (d a α : ℝ) :
    Motion.Same (dhTransform θ d a α) (dhTransform θ' d a α) := by
  apply same_of_matrix
  · rw [dhTransform_matrix, dhTransform_matrix, sin_eq_of_coe h, cos_eq_of_coe h]
  · rw [dhTransform_trans, dhTransform_trans, sin_eq_of_coe h, cos_eq_of_coe h]

/-- What is left for them at the pose of a configuration is what they do there. -/
theorem At.planar (h : At dh T q) (h1 : (θ1 : Real.Angle) = q 0) (h5 : (θ5 : Real.Angle) = q 4)
    (h6 : (θ6 : Real.Angle) = q 5) : PlanarAt dh (t14 dh T θ1 θ5 θ6) (q 1) (q 2) (q 3) := by
  let P := dhTransform (q 1) 0 dh.a2 0 * dhTransform (q 2) 0 dh.a3 0
    * dhTransform (q 3) dh.d4 0 (pi / 2)
  let B := dhTransform (q 4) dh.d5 0 (-pi / 2) * dhTransform (q 5) dh.d6 0 0
  have hshoulder := (dhTransform_coe h1 dh.d1 0 (pi / 2)).inv
  have hwrist := ((dhTransform_coe h5 dh.d5 0 (-pi / 2)).mul (dhTransform_coe h6 dh.d6 0 0)).inv
  have hleft := (hshoulder.mul (Motion.Same.refl T)).trans h.split
  have hsame := hleft.mul hwrist
  have hgroup : P * B * B⁻¹ = P := mul_inv_cancel_right P B
  rwa [hgroup] at hsame

theorem PlanarAt.trans (h : PlanarAt dh t φ2 φ3 φ4) :
    t.trans 0 = dh.a2 * cos φ2 + dh.a3 * cos (φ2 + φ3)
      ∧ t.trans 1 = dh.a2 * sin φ2 + dh.a3 * sin (φ2 + φ3) := by
  have htrans := (Motion.same_iff.mp h).2
  rw [planar_trans] at htrans
  exact ⟨congrFun htrans 0, congrFun htrans 1⟩

/-- The cosine of joint 3 is the one worked out for it: the law of cosines for the two links. -/
theorem PlanarAt.cos3 (h : PlanarAt dh t φ2 φ3 φ4) (h2 : dh.a2 ≠ 0) (h3 : dh.a3 ≠ 0) :
    cos φ3 = c3Raw dh t := by
  obtain ⟨hx, hy⟩ := h.trans
  rw [c3Raw, hx, hy, Real.cos_add, Real.sin_add]
  field_simp
  linear_combination -(dh.a3 * (sin φ3 ^ 2 + cos φ3 ^ 2) * dh.a3 + dh.a2 ^ 2
    + 2 * dh.a2 * dh.a3 * cos φ3) * Real.sin_sq_add_cos_sq φ2
    - dh.a3 ^ 2 * Real.sin_sq_add_cos_sq φ3

/-- The angle of joint 3 is among the choices. -/
theorem PlanarAt.theta3 (h : PlanarAt dh t φ2 φ3 φ4) (h2 : dh.a2 ≠ 0) (h3 : dh.a3 ≠ 0) :
    ∃ θ ∈ theta3Branches dh t, (θ : Real.Angle) = φ3 := by
  have hcos := h.cos3 h2 h3
  have hle : ¬ |c3Raw dh t| > 1 + reachTolerance := by
    rw [← hcos, reachTolerance]
    linarith [Real.abs_cos_le_one φ3]
  refine mem_of_choice hle ?_
  rw [Real.Angle.coe_neg]
  exact Angle.coe_arccos_clamp hcos

/-- The angle of joint 2 is the one found. -/
theorem PlanarAt.theta2 (h : PlanarAt dh t φ2 φ3 φ4) (hne : |dh.a2| ≠ |dh.a3|)
    (h3 : (θ3 : Real.Angle) = φ3) : (theta2 dh t θ3 : Real.Angle) = φ2 := by
  obtain ⟨hx, hy⟩ := h.trans
  rw [UrRedisDriver.theta2, hx, hy, sin_eq_of_coe h3, cos_eq_of_coe h3]
  exact Angle.coe_twoLink hne

/-- The three angles together are what is found. -/
theorem PlanarAt.theta234 (h : PlanarAt dh t φ2 φ3 φ4) :
    (theta234 t : Real.Angle) = (φ2 + φ3 + φ4 : ℝ) := by
  have hmatrix := smul_eq_iff.mp (Motion.same_iff.mp h).1
  rw [planar_matrix] at hmatrix
  have hfirst : UrRedisDriver.theta234 t
      = Angle.atan2 (sin (φ2 + φ3 + φ4)) (cos (φ2 + φ3 + φ4)) := by
    rw [UrRedisDriver.theta234, matrix_mul, matrix_xAxis, hmatrix]
    simp [Matrix.mul_apply, Fin.sum_univ_three]
  rw [hfirst]
  exact Angle.coe_atan2 one_pos (one_mul _) (one_mul _)

end Planar

/-! ### The whole branch -/

/-- The lengths that have to be there, and links of different length. -/
structure Proper (dh : DhParameters) : Prop where
  d4 : dh.d4 ≠ 0
  d6 : dh.d6 ≠ 0
  a2 : dh.a2 ≠ 0
  a3 : dh.a3 ≠ 0
  links : |dh.a2| ≠ |dh.a3|

theorem proper_of_neg (h4 : 0 < dh.d4) (h6 : 0 < dh.d6) (h2 : dh.a2 < dh.a3) (h3 : dh.a3 < 0) :
    Proper dh := by
  refine ⟨h4.ne', h6.ne', (h2.trans h3).ne, h3.ne, ?_⟩
  rw [abs_of_neg (h2.trans h3), abs_of_neg h3]
  exact fun he => h2.ne (neg_injective he)

theorem forModel_proper {model : String} (h : DhParameters.forModel model = some dh) :
    Proper dh := by
  unfold DhParameters.forModel at h
  repeat
    split at h
    · cases h
      apply proper_of_neg <;> norm_num
  cases h

/-- The wrist is far enough from straight, or its last joint is at zero but for whole turns. -/
def WristFound (q : Joints ℝ) : Prop :=
  singularEps ≤ |sin (q 4)| ∨ (q 5 : Real.Angle) = 0

theorem turn_of_coe {a b : ℝ} (h : (a : Real.Angle) = b) : ∃ k : ℤ, b = a + k * (2 * pi) := by
  obtain ⟨k, hk⟩ := Real.Angle.angle_eq_iff_two_pi_dvd_sub.mp h.symm
  exact ⟨k, by linarith⟩

theorem coe_of_turn {a b : ℝ} (h : ∃ k : ℤ, b = a + k * (2 * pi)) : (a : Real.Angle) = b := by
  obtain ⟨k, hk⟩ := h
  exact (Real.Angle.angle_eq_iff_two_pi_dvd_sub.mpr ⟨k, by rw [hk]; ring⟩).symm

/-- With joints 1, 5, 6 and 3 chosen as they are in a configuration of the pose, the branch is
that configuration, up to whole turns. -/
theorem At.branch (h : At dh T q) (hdh : Proper dh) (h1 : (θ1 : Real.Angle) = q 0)
    (h5 : (θ5 : Real.Angle) = q 4) (h6 : (UrRedisDriver.theta6 T θ1 θ5 : Real.Angle) = q 5)
    (h3 : (θ3 : Real.Angle) = q 2) (i : Fin 6) :
    (UrRedisDriver.branch dh T θ1 θ5 θ3 i : Real.Angle) = q i := by
  have hplanar := h.planar h1 h5 h6
  have h2 := hplanar.theta2 hdh.links h3
  fin_cases i
  · exact h1
  · exact h2
  · exact h3
  · -- the fourth angle is what the sum of the three leaves over
    have h4 : ((theta234 (t14 dh T θ1 θ5 (UrRedisDriver.theta6 T θ1 θ5))
        - theta2 dh (t14 dh T θ1 θ5 (UrRedisDriver.theta6 T θ1 θ5)) θ3 - θ3 : ℝ) : Real.Angle)
        = q 3 := by
      rw [Real.Angle.coe_sub, Real.Angle.coe_sub, hplanar.theta234, h2, h3, Real.Angle.coe_add,
        Real.Angle.coe_add]
      abel
    exact h4
  · exact h5
  · exact h6

/-- A configuration is listed for its own pose, up to whole turns. -/
theorem At.listed (h : At dh T q) (hdh : Proper dh) (hq : WristFound q) :
    ∃ sol ∈ inverseKinematics dh T, TurnsApart sol q := by
  obtain ⟨θ1, hθ1, h1⟩ := h.wristSolved.theta1 hdh.d4
  have hw1 := h.wristSolved.turned h1 rfl rfl
  obtain ⟨θ5, hθ5, h5⟩ := hw1.theta5 hdh.d6
  -- a wrist nearly straight gives no angle for joint 6, and zero is filled in
  have h6 : (theta6 T θ1 θ5 : Real.Angle) = q 5 := by
    by_cases hs : singularEps ≤ |sin θ5|
    · exact (hw1.turned rfl h5 rfl).theta6 hs
    · rw [theta6_singular (not_le.mp hs), Real.Angle.coe_zero]
      refine (hq.resolve_left ?_).symm
      rwa [← sin_eq_of_coe h5]
  obtain ⟨θ3, hθ3, h3⟩ := (h.planar h1 h5 h6).theta3 hdh.a2 hdh.a3
  have hby : ListedBy dh T θ1 θ5 θ3 (wrapToPi ∘ UrRedisDriver.branch dh T θ1 θ5 θ3) :=
    ⟨hθ1, hθ5, hθ3, rfl⟩
  refine ⟨_, hby.mem, fun i => turn_of_coe ?_⟩
  rw [← coe_of_turn (hby.turnsApart i)]
  exact h.branch hdh h1 h5 h6 h3 i

/-- An angle is known from its cosine and the side it is bent to. -/
theorem coe_of_cos {a b : ℝ} (hcos : cos a = cos b) (hsin : 0 < sin a * sin b) :
    (a : Real.Angle) = b := by
  rcases Real.Angle.cos_eq_iff_coe_eq_or_eq_neg.mp hcos with h | h
  · exact h
  · have hneg : sin a = -sin b := by
      rw [← Real.sin_neg]
      exact sin_eq_of_coe (by rw [h, Real.Angle.coe_neg])
    rw [hneg] at hsin
    linarith [mul_self_nonneg (sin b)]

/-- The branch that has joint 1 where a configuration of the pose has it, and joints 5 and 3
bent to the same side, is that configuration's. -/
theorem At.coe_of_listed {sol q' : Joints ℝ} (h : At dh T q) (hdh : Proper dh)
    (hs : singularEps ≤ |sin (q 4)|) (hsol : sol ∈ inverseKinematics dh T)
    (hturns : TurnsApart sol q') (h1 : (q' 0 : Real.Angle) = q 0)
    (h5 : 0 < sin (q' 4) * sin (q 4)) (h3 : 0 < sin (q' 2) * sin (q 2)) (i : Fin 6) :
    (q' i : Real.Angle) = q i := by
  obtain ⟨θ1, θ5, θ3, hby⟩ := exists_listedBy hsol
  have hangle : ∀ i, (UrRedisDriver.branch dh T θ1 θ5 θ3 i : Real.Angle) = q' i := fun i =>
    (coe_of_turn (hby.turnsApart i)).trans (coe_of_turn (hturns i))
  have h1' : (θ1 : Real.Angle) = q 0 := (hangle 0).trans h1
  -- of the two angles of either cosine, the side it is bent to decides
  have hw1 := h.wristSolved.turned h1' rfl rfl
  have hc5 : |c5Raw dh T θ1| ≤ 1 := by
    rw [← hw1.cos5 hdh.d6]
    exact Real.abs_cos_le_one _
  have h5' : (θ5 : Real.Angle) = q 4 := by
    refine coe_of_cos ((cos_choice hc5 (mem_choices hby.theta5).2).trans (hw1.cos5 hdh.d6).symm) ?_
    rwa [show sin θ5 = sin (q' 4) from sin_eq_of_coe (hangle 4)]
  have hs' : singularEps ≤ |sin θ5| := by rwa [sin_eq_of_coe h5']
  have h6' := (hw1.turned rfl h5' rfl).theta6 hs'
  have hplanar := h.planar h1' h5' h6'
  have hc3 : |c3Raw dh (t14 dh T θ1 θ5 (theta6 T θ1 θ5))| ≤ 1 := by
    rw [← hplanar.cos3 hdh.a2 hdh.a3]
    exact Real.abs_cos_le_one _
  have h3' : (θ3 : Real.Angle) = q 2 := by
    refine coe_of_cos ((cos_choice hc3 (mem_choices hby.theta3).2).trans
      (hplanar.cos3 hdh.a2 hdh.a3).symm) ?_
    rwa [show sin θ3 = sin (q' 2) from sin_eq_of_coe (hangle 2)]
  rw [← hangle i]
  exact h.branch hdh h1' h5' h6' h3' i

/-- Nothing else is, where the wrist is nearly straight. -/
theorem wristFound_of_listed {sol : Joints ℝ} (h : sol ∈ inverseKinematics dh T)
    (hq : TurnsApart sol q) : WristFound q := by
  obtain ⟨θ1, θ5, θ3, hby⟩ := exists_listedBy h
  have hangle : ∀ i, (branch dh T θ1 θ5 θ3 i : Real.Angle) = q i := fun i =>
    (coe_of_turn (hby.turnsApart i)).trans (coe_of_turn (hq i))
  have h5 : (θ5 : Real.Angle) = q 4 := hangle 4
  have h6 : (theta6 T θ1 θ5 : Real.Angle) = q 5 := hangle 5
  by_cases hs : singularEps ≤ |sin θ5|
  · left
    rwa [← sin_eq_of_coe h5]
  · right
    rw [← h6, theta6_singular (not_le.mp hs), Real.Angle.coe_zero]

/-! ## The pose the arm is at -/

theorem configurationDistance_self (a : Joints ℝ) : configurationDistance a a = 0 := by
  simp [configurationDistance, List.ofFn_succ]

theorem configurationDistance_comm (a b : Joints ℝ) :
    configurationDistance a b = configurationDistance b a := by
  simp only [configurationDistance, abs_sub_comm]

theorem le_configurationDistance (a b : Joints ℝ) (i : Fin 6) :
    branchWeights i * |a i - b i| ≤ configurationDistance a b :=
  le_foldl_max (.inr (List.mem_ofFn.mpr ⟨i, rfl⟩))

theorem configurationDistance_le {a b : Joints ℝ} {x : ℝ}
    (h : ∀ i, branchWeights i * |a i - b i| ≤ x) : configurationDistance a b ≤ x := by
  have hx : 0 ≤ x := (mul_nonneg (by norm_num [branchWeights]) (abs_nonneg _)).trans (h 0)
  simp [configurationDistance, List.ofFn_succ]
  exact ⟨⟨⟨⟨⟨⟨hx, h 0⟩, h 1⟩, h 2⟩, h 3⟩, h 4⟩, h 5⟩

/-- The distance is a norm of the difference, the weighted moves' largest. -/
theorem configurationDistance_eq (a b : Joints ℝ) : configurationDistance a b
    = Finset.univ.sup' Finset.univ_nonempty fun i => branchWeights i * |a i - b i| := by
  apply le_antisymm
  · exact configurationDistance_le fun i =>
      Finset.le_sup' (fun i => branchWeights i * |a i - b i|) (Finset.mem_univ i)
  · exact Finset.sup'_le _ _ fun i _ => le_configurationDistance a b i

theorem configurationDistance_triangle (a b c : Joints ℝ) :
    configurationDistance a c ≤ configurationDistance a b + configurationDistance b c := by
  refine configurationDistance_le fun i => ?_
  have hweight : 0 ≤ branchWeights i := by
    fin_cases i <;> norm_num [branchWeights]
  calc branchWeights i * |a i - c i|
      ≤ branchWeights i * (|a i - b i| + |b i - c i|) :=
        mul_le_mul_of_nonneg_left (abs_sub_le ..) hweight
    _ = branchWeights i * |a i - b i| + branchWeights i * |b i - c i| := mul_add ..
    _ ≤ configurationDistance a b + configurationDistance b c :=
        add_le_add (le_configurationDistance ..) (le_configurationDistance ..)

/-- The distance of configurations is zero for no two different ones. -/
theorem eq_of_configurationDistance {a b : Joints ℝ} (h : configurationDistance a b ≤ 0) :
    a = b := by
  funext i
  have hterm := le_configurationDistance a b i
  have hweight : 0 < branchWeights i := by
    fin_cases i <;> norm_num [branchWeights]
  have habs : |a i - b i| ≤ 0 := by
    by_contra hpos
    linarith [mul_pos hweight (not_le.mp hpos)]
  exact sub_eq_zero.mp (abs_nonpos_iff.mp habs)

/-- A configuration on the list is the one nearest itself. -/
theorem selectNearest_self {sols : List (Joints ℝ)} (h : q ∈ sols) :
    selectNearest sols q = some q := by
  unfold selectNearest
  cases hm : sols.argmin fun s => configurationDistance s q with
  | none =>
      rw [List.argmin_eq_none.mp hm] at h
      cases h
  | some m =>
      have hle := List.le_of_mem_argmin h hm
      rw [configurationDistance_self] at hle
      rw [eq_of_configurationDistance hle]

/-- No more than a turn lies between an angle within two turns and the same one wrapped. -/
theorem turn_of_mem {a b : ℝ} (ha : -pi < a ∧ a ≤ pi) (hb : -(2 * pi) ≤ b ∧ b ≤ 2 * pi)
    (h : ∃ k : ℤ, b = a + k * (2 * pi)) :
    ∃ turn ∈ ([-1, 0, 1] : List ℝ), b = a + turn * 2 * pi := by
  have hpi := Real.pi_pos
  obtain ⟨k, hk⟩ := h
  -- an angle within pi and one within two pi are less than two turns apart
  have hlo : -2 < k := by
    by_contra hle
    have hk' : (k : ℝ) ≤ -2 := by exact_mod_cast not_lt.mp hle
    nlinarith
  have hhi : k < 2 := by
    by_contra hge
    have hk' : (2 : ℝ) ≤ k := by exact_mod_cast not_lt.mp hge
    nlinarith
  refine ⟨k, ?_, by rw [hk]; ring⟩
  obtain rfl | rfl | rfl : k = -1 ∨ k = 0 ∨ k = 1 := by omega
  · simp
  · simp
  · simp

/-- Within two turns, whole turns are made up for. -/
theorem mem_expandTurns_of_turnsApart {limits : Limits ℝ} {sol : Joints ℝ}
    (hsol : sol ∈ inverseKinematics dh T) (h : TurnsApart sol q)
    (hspan : ∀ i, -(2 * pi) ≤ q i ∧ q i ≤ 2 * pi)
    (hq : ∀ i, limits.positionMin i ≤ q i ∧ q i ≤ limits.positionMax i) :
    q ∈ expandTurns sol limits.positionMin limits.positionMax := by
  obtain ⟨θ1, θ5, θ3, hby⟩ := exists_listedBy hsol
  refine mem_expandTurns.mpr fun i => ⟨turn_of_mem ?_ (hspan i) (h i), hq i⟩
  rw [← hby.wrapped]
  exact wrapToPi_mem _

/-- A configuration is on the list for its own pose. -/
theorem At.mem_filtered {limits : Limits ℝ} (h : At dh T q) (hdh : Proper dh) (hw : WristFound q)
    (hspan : ∀ i, -(2 * pi) ≤ q i ∧ q i ≤ 2 * pi)
    (hq : ∀ i, limits.positionMin i ≤ q i ∧ q i ≤ limits.positionMax i) :
    q ∈ inverseKinematicsFiltered dh T limits.positionMin limits.positionMax := by
  obtain ⟨sol, hsol, hturns⟩ := h.listed hdh hw
  exact List.mem_flatMap.mpr ⟨sol, hsol, mem_expandTurns_of_turnsApart hsol hturns hspan hq⟩

/--
Asked for the pose it is at, the arm stays where it is, exactly if its wrist is far enough
from straight or its last joint is at zero but for whole turns.
-/
theorem resolvePose_seed_iff {model : String} (dh : DhParameters) (limits : Limits ℝ)
    (q : Joints ℝ) (index : Nat) (hmodel : DhParameters.forModel model = some dh)
    (hspan : ∀ i, -(2 * pi) ≤ limits.positionMin i ∧ limits.positionMax i ≤ 2 * pi)
    (hq : ∀ i, limits.positionMin i ≤ q i ∧ q i ≤ limits.positionMax i) :
    resolvePose dh limits (forwardKinematics dh q) q index = .ok q
      ↔ singularEps ≤ |sin (q 4)| ∨ ∃ k : ℤ, q 5 = k * (2 * pi) := by
  have hzero : (q 5 : Real.Angle) = 0 ↔ ∃ k : ℤ, q 5 = k * (2 * pi) := by
    constructor
    · intro h
      obtain ⟨k, hk⟩ := turn_of_coe (a := 0) h.symm
      exact ⟨k, by rw [hk, zero_add]⟩
    · rintro ⟨k, hk⟩
      exact (coe_of_turn (a := 0) ⟨k, by rw [hk, zero_add]⟩).symm
  rw [← hzero]
  constructor
  · -- found: then the wrist was listed, which fails for a singular wrist off whole turns
    intro h
    obtain ⟨sol, hsol, hturns, -⟩ := resolvePose_ok h
    exact wristFound_of_listed hsol hturns
  · intro h
    have hat : At dh (forwardKinematics dh q) q := Motion.Same.refl _
    obtain ⟨sol, hsol, -⟩ := hat.listed (forModel_proper hmodel) h
    -- listed and in range, it is its own nearest neighbour
    have hmem := hat.mem_filtered (forModel_proper hmodel) h
      (fun i => ⟨(hspan i).1.trans (hq i).1, (hq i).2.trans (hspan i).2⟩) hq
    unfold resolvePose
    dsimp only
    rw [if_neg (List.ne_nil_of_mem hsol), selectNearest_self hmem]
    rfl

/-- Two turns either way for every joint. -/
def fullTurns : Limits ℝ :=
  ⟨fun _ => -(2 * pi), fun _ => 2 * pi, fun _ => 1, fun _ => 1⟩

/-- The home position, with the last joint turned. -/
def turnedHome (turn : ℝ) : Joints ℝ := ![0, -1.5707, 0, -1.5707, 0, turn]

theorem turnedHome_mem {turn : ℝ} (h0 : 0 ≤ turn) (h1 : turn ≤ 1) (i : Fin 6) :
    fullTurns.positionMin i ≤ turnedHome turn i ∧ turnedHome turn i ≤ fullTurns.positionMax i := by
  have hbound : -2 ≤ turnedHome turn i ∧ turnedHome turn i ≤ 2 := by
    fin_cases i <;> constructor <;> norm_num [turnedHome] <;> linarith
  have hpi := Real.pi_gt_three
  have hmin : fullTurns.positionMin i = -(2 * pi) := rfl
  have hmax : fullTurns.positionMax i = 2 * pi := rfl
  constructor <;> linarith

theorem resolvePose_home :
    resolvePose ur20 fullTurns (forwardKinematics ur20 (turnedHome 0)) (turnedHome 0) 0
      = .ok (turnedHome 0) :=
  (resolvePose_seed_iff ur20 fullTurns (turnedHome 0) 0 forModel_ur20
    (fun _ => ⟨le_rfl, le_rfl⟩) (turnedHome_mem le_rfl zero_le_one)).mpr
      (.inr ⟨0, by simp [turnedHome]⟩)

/-- The last joint is turned back to zero. -/
theorem not_resolvePose_seed : (∀ i, fullTurns.positionMin i ≤ turnedHome 1 i
      ∧ turnedHome 1 i ≤ fullTurns.positionMax i)
    ∧ resolvePose ur20 fullTurns (forwardKinematics ur20 (turnedHome 1)) (turnedHome 1) 0
      ≠ .ok (turnedHome 1) := by
  refine ⟨turnedHome_mem zero_le_one le_rfl, fun h => ?_⟩
  obtain ⟨sol, hsol, hturns, -⟩ := resolvePose_ok h
  rcases wristFound_of_listed hsol hturns with hs | hs
  · have h4 : turnedHome 1 4 = 0 := rfl
    rw [h4, Real.sin_zero, abs_zero, singularEps] at hs
    norm_num at hs
  · have h5 : turnedHome 1 5 = 1 := rfl
    have hsin := sin_eq_of_coe (hs.trans Real.Angle.coe_zero.symm)
    rw [h5, Real.sin_zero] at hsin
    exact (Real.sin_pos_of_pos_of_lt_pi one_pos (by linarith [Real.pi_gt_three])).ne' hsin

end

end UrRedisDriver.Proof
