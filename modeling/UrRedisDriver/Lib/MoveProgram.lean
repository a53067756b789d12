import Mathlib.Logic.Nontrivial.Defs

/-!
# Programs of moves

A program tells an arm where to go, one place after the other. A place is given outright or
worked out from where the arm is by then and from a pose noted before. Between two moves the
program may ask the controller something, and ends if the answer is no.

What the controller answers and where a move leaves the arm is a parameter: a move may be
stopped on its way. A program is independent of its start if, whatever the controller does,
the places it tells the arm to go to are the same from everywhere.
-/

/-- Somewhere to go, over the poses `P` and the places `T` a move can be given. -/
inductive Place (P T : Type*)
  | fixed (t : T)
  /-- Worked out from where the arm is and from the pose noted last. -/
  | seen (f : P → P → T)

/-- One instruction. -/
inductive Instr (P T Q : Type*)
  /-- Ask the controller, about a place perhaps, and go on only if it says yes. -/
  | ask (q : Q) (about : Option (Place P T))
  /-- Note the pose the arm has. -/
  | note
  | move (dest : Place P T)

/-- How a run of a program goes: by the number of the instruction, what is answered and where
the arm is left. -/
structure Controller (P T Q : Type*) where
  answer : Nat → Q → Option T → Bool
  arrives : Nat → P → T → P

variable {P T Q : Type*}

namespace Place

/-- The place, once the arm is at `here` and has noted `noted`. -/
def resolve (here noted : P) : Place P T → T
  | fixed t => t
  | seen f => f here noted

/-- Given outright. -/
def isFixed : Place P T → Bool
  | fixed _ => true
  | seen _ => false

theorem resolve_of_isFixed {dest : Place P T} (h : dest.isFixed = true) (p m p' m' : P) :
    dest.resolve p m = dest.resolve p' m' := by
  cases dest with
  | fixed t => rfl
  | seen f => cases h

end Place

namespace Instr

/-- Nothing in the instruction is worked out from a pose of the arm. -/
def isFixed : Instr P T Q → Bool
  | ask _ about => about.all Place.isFixed
  | note => true
  | move dest => dest.isFixed

end Instr

/-- The places a program tells the arm to go to, from its `n`-th instruction on. -/
def told (c : Controller P T Q) : Nat → P → P → List (Instr P T Q) → List T
  | _, _, _, [] => []
  | n, here, noted, .ask q about :: rest =>
      if c.answer n q (about.map (Place.resolve here noted)) then told c (n + 1) here noted rest
      else []
  | n, here, _, .note :: rest => told c (n + 1) here here rest
  | n, here, noted, .move dest :: rest =>
      dest.resolve here noted
        :: told c (n + 1) (c.arrives n here (dest.resolve here noted)) noted rest

/-- Whatever the controller does, the arm is told to go to the same places from everywhere. -/
def StartIndependent (prog : List (Instr P T Q)) : Prop :=
  ∀ (c : Controller P T Q) (p₁ p₂ : P), told c 0 p₁ p₁ prog = told c 0 p₂ p₂ prog

/-- A program without a place that is worked out on the way. -/
theorem told_of_isFixed {prog : List (Instr P T Q)} (h : ∀ i ∈ prog, i.isFixed = true)
    (c : Controller P T Q) (n : Nat) (p₁ m₁ p₂ m₂ : P) :
    told c n p₁ m₁ prog = told c n p₂ m₂ prog := by
  induction prog generalizing n p₁ m₁ p₂ m₂ with
  | nil => rfl
  | cons i rest ih =>
      have hi : i.isFixed = true := h i (List.mem_cons_self ..)
      have ih' := ih fun j hj => h j (List.mem_cons_of_mem i hj)
      cases i with
      | ask q about =>
          -- what is asked about is a fixed place, so the answer does not depend on where the arm
          -- is
          have habout : about.map (Place.resolve p₁ m₁) = about.map (Place.resolve p₂ m₂) := by
            cases about with
            | none => rfl
            | some dest => exact congrArg some (Place.resolve_of_isFixed hi ..)
          unfold told
          rw [habout, ih' (n + 1) p₁ m₁ p₂ m₂]
      -- noting the place changes the mark, which no fixed place refers to
      | note => exact ih' (n + 1) p₁ p₁ p₂ p₂
      | move dest =>
          unfold told
          rw [Place.resolve_of_isFixed hi p₁ m₁ p₂ m₂]
          exact congrArg _ (ih' ..)

theorem startIndependent_of_isFixed {prog : List (Instr P T Q)}
    (h : ∀ i ∈ prog, i.isFixed = true) : StartIndependent prog :=
  fun c p₁ p₂ => told_of_isFixed h c 0 p₁ p₁ p₂ p₂

/-- Where the first move goes. -/
def firstMove : List (Instr P T Q) → Option (Place P T)
  | [] => none
  | .move dest :: _ => some dest
  | _ :: rest => firstMove rest

/-- A controller that says yes to everything and moves nothing. -/
def Controller.yes : Controller P T Q := ⟨fun _ _ _ => true, fun _ p _ => p⟩

/-- Asked nothing it says no to, the arm is told to go where the first move goes. -/
theorem told_yes_head {prog : List (Instr P T Q)} {dest : Place P T}
    (h : firstMove prog = some dest)
    (n : Nat) (p : P) : (told Controller.yes n p p prog).head? = some (dest.resolve p p) := by
  induction prog generalizing n with
  | nil => cases h
  | cons i rest ih =>
      cases i with
      -- the controller says yes, so the program goes on to its first move
      | ask q about => exact ih h (n + 1)
      | note => exact ih h (n + 1)
      | move dest' =>
          cases h
          rfl

/-- A program whose first move goes to different places from two poses. -/
theorem not_startIndependent {prog : List (Instr P T Q)} {f : P → P → T} {p₁ p₂ : P}
    (h : firstMove prog = some (.seen f)) (hf : f p₁ p₁ ≠ f p₂ p₂) : ¬ StartIndependent prog := by
  intro hprog
  have hhead := congrArg List.head? (hprog Controller.yes p₁ p₂)
  rw [told_yes_head h, told_yes_head h] at hhead
  exact hf (Option.some.inj hhead)
