import Mathlib.Algebra.Group.Action.Basic
import Mathlib.Algebra.GroupWithZero.Action.Defs
import Mathlib.Tactic.Abel

/-!
# Motions of a space

A motion turns a point by an element of a group and then shifts it. Motions compose and
invert as maps do, and two of them that move every point alike denote the same motion,
whatever they are made of: that is the equality that counts where the group has more
elements than there are turns, as unit quaternions do.
-/

/-- A turn followed by a shift. -/
@[ext]
structure Motion (G V : Type*) where
  rot : G
  trans : V

namespace Motion

variable {G V : Type*} [Group G] [AddCommGroup V]

instance : One (Motion G V) := ⟨⟨1, 0⟩⟩

@[simp] theorem one_rot : (1 : Motion G V).rot = 1 := rfl

@[simp] theorem one_trans : (1 : Motion G V).trans = 0 := rfl

variable [DistribMulAction G V]

instance : Mul (Motion G V) := ⟨fun p q => ⟨p.rot * q.rot, p.rot • q.trans + p.trans⟩⟩

instance : Inv (Motion G V) := ⟨fun p => ⟨p.rot⁻¹, -(p.rot⁻¹ • p.trans)⟩⟩

/-- What a motion does to a point. -/
instance : SMul (Motion G V) V := ⟨fun p x => p.rot • x + p.trans⟩

@[simp] theorem mul_rot (p q : Motion G V) : (p * q).rot = p.rot * q.rot := rfl

@[simp] theorem mul_trans (p q : Motion G V) :
    (p * q).trans = p.rot • q.trans + p.trans := rfl

@[simp] theorem inv_rot (p : Motion G V) : p⁻¹.rot = p.rot⁻¹ := rfl

@[simp] theorem inv_trans (p : Motion G V) : p⁻¹.trans = -(p.rot⁻¹ • p.trans) := rfl

theorem smul_def (p : Motion G V) (x : V) : p • x = p.rot • x + p.trans := rfl

instance : Group (Motion G V) where
  mul_assoc p q r := by
    ext1
    · exact mul_assoc ..
    · simp only [mul_trans, mul_rot, mul_smul, smul_add]
      abel
  one_mul p := by ext1 <;> simp
  mul_one p := by ext1 <;> simp
  inv_mul_cancel p := by ext1 <;> simp

instance : MulAction (Motion G V) V where
  one_smul x := by simp [smul_def]
  mul_smul p q x := by
    simp only [smul_def, mul_rot, mul_trans, mul_smul, smul_add]
    abel

/-- Two motions that move every point alike. -/
def Same (p q : Motion G V) : Prop := ∀ x : V, p • x = q • x

theorem Same.refl (p : Motion G V) : Same p p := fun _ => rfl

theorem Same.symm {p q : Motion G V} (h : Same p q) : Same q p := fun x => (h x).symm

theorem Same.trans {p q r : Motion G V} (h : Same p q) (h' : Same q r) : Same p r :=
  fun x => (h x).trans (h' x)

theorem Same.mul {p p' q q' : Motion G V} (h : Same p p') (h' : Same q q') :
    Same (p * q) (p' * q') := fun x => by
  rw [mul_smul, mul_smul, h', h]

theorem Same.inv {p q : Motion G V} (h : Same p q) : Same p⁻¹ q⁻¹ := fun x => by
  rw [inv_smul_eq_iff, h, smul_inv_smul]

/-- Motions are the same exactly if they turn alike and shift alike. -/
theorem same_iff {p q : Motion G V} :
    Same p q ↔ (∀ x : V, p.rot • x = q.rot • x) ∧ p.trans = q.trans := by
  constructor
  · intro h
    have htrans : p.trans = q.trans := by simpa [smul_def] using h 0
    exact ⟨fun x => by simpa [smul_def, htrans] using h x, htrans⟩
  · rintro ⟨hrot, htrans⟩ x
    rw [smul_def, smul_def, hrot, htrans]

/-- Appending a motion changes nothing only if that motion moves nothing. -/
theorem mul_same_left {p q : Motion G V} : Same (p * q) p ↔ Same q 1 := by
  constructor
  · intro h x
    have hx := h x
    rw [mul_smul] at hx
    rw [one_smul]
    exact smul_left_cancel p hx
  · intro h x
    rw [mul_smul, h, one_smul]

end Motion
