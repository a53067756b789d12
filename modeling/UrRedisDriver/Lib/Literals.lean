import Mathlib.Algebra.GroupWithZero.Nat
import Mathlib.Data.Nat.Cast.Defs

/-!
# Literals

The facts that the literals of a number type and of a finite type rest on, each under a name:
a literal is then read the same way wherever it stands.
-/

namespace Literals

scoped instance two : Nat.AtLeastTwo 2 := ⟨Nat.le_refl 2⟩

scoped instance three : Nat.AtLeastTwo 3 := ⟨by decide⟩

scoped instance four : Nat.AtLeastTwo 4 := ⟨by decide⟩

/-- Coordinates. -/
scoped instance threeAxes : NeZero 3 := ⟨Nat.succ_ne_zero 2⟩

/-- Joints. -/
scoped instance sixJoints : NeZero 6 := ⟨Nat.succ_ne_zero 5⟩

end Literals
