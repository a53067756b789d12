import UrRedisDriver.Interfaces.Prepare

/-!
# Two decoders of one kind of value

The waypoint decoder and the decoder of the request itself both read vectors of numbers.
The first takes an integer for the number it is; the second takes whatever its default has
in that place.
-/

namespace UrRedisDriver.Proof

open UrRedisDriver CommandServer

variable {F : Type} [Field F]

/-- What the waypoint decoder accepts is made of floats and integers. -/
theorem numbers_cons {v : SPValue F} {vs : List (SPValue F)} {xs : List F}
    (h : SPValue.numbers (v :: vs) = some xs) :
    ∃ x xs', v.number = some x ∧ SPValue.numbers vs = some xs' ∧ xs = x :: xs' := by
  obtain ⟨x, hx, h'⟩ := Option.bind_eq_some_iff.mp h
  obtain ⟨xs', hxs, rfl⟩ := Option.map_eq_some_iff.mp h'
  exact ⟨x, xs', hx, hxs, rfl⟩

/-- One element: an integer needs the default to have the same number in its place. -/
theorem elementOr_number {v : SPValue F} {x : F} (h : v.number = some x) (d : List F) (i : Nat) :
    elementOr d i v = .ok x ↔ ∀ n : Int, v = .int64 (some n) → d[i]? = some (n : F) := by
  cases v with
  | float64 y =>
      cases h
      refine iff_of_true rfl ?_
      intro n hn
      cases hn
  | int64 m =>
      have hm : m.map (fun k : ℤ => (k : F)) = some x := h
      obtain ⟨n, rfl, rfl⟩ := Option.map_eq_some_iff.mp hm
      -- an integer is taken from the defaults, whose lack is the panic
      have helement : elementOr d i (.int64 (some n)) = .ofOption d[i]? Stop.panic := rfl
      rw [helement, Except.ofOption_eq_ok]
      constructor
      · intro hd k hk
        cases hk
        exact hd
      · intro hd
        exact hd n rfl
  | _ => cases h

theorem map_cons_eq_ok {ε α : Type} {e : Except ε (List α)} {x : α} {xs : List α} :
    e.map (fun l => x :: l) = .ok (x :: xs) ↔ e = .ok xs := by
  cases e with
  | error e =>
      refine iff_of_false ?_ ?_
      · intro h; cases h
      · intro h; cases h
  | ok l =>
      constructor
      · intro h; cases h; rfl
      · intro h; cases h; rfl

/-- The elements from the `i`-th on, against the default from its `i`-th component on. -/
theorem extractFrom_numbers {vs : List (SPValue F)} {xs : List F}
    (h : SPValue.numbers vs = some xs) (d : List F) (i : Nat) :
    extractFrom d i vs = .ok xs
      ↔ ∀ (j : Nat) (n : Int), vs[j]? = some (.int64 (some n)) → d[i + j]? = some (n : F) := by
  induction vs generalizing i xs with
  | nil =>
      cases h
      refine iff_of_true rfl ?_
      intro j n hj
      cases hj
  | cons v vs ih =>
      obtain ⟨x, xs', hx, hxs, rfl⟩ := numbers_cons h
      have hhead := elementOr_number hx d i
      have htail := ih hxs (i + 1)
      have hsplit : extractFrom d i (v :: vs) = .ok (x :: xs')
          ↔ elementOr d i v = .ok x ∧ extractFrom d (i + 1) vs = .ok xs' := by
        constructor
        · intro hok
          obtain ⟨y, hy, hrest⟩ := Except.bind_eq_ok.mp hok
          have hxy : x = y := by
            cases hr : extractFrom d (i + 1) vs with
            | error e => rw [hr] at hrest; cases hrest
            | ok l => rw [hr] at hrest; cases hrest; rfl
          subst hxy
          exact ⟨hy, map_cons_eq_ok.mp hrest⟩
        · intro hok
          exact Except.bind_eq_ok.mpr ⟨x, hok.1, map_cons_eq_ok.mpr hok.2⟩
      -- the head is element `i`, and the tail starts at element `i + 1`
      rw [hsplit, hhead, htail]
      constructor
      · intro hboth j n hj
        cases j with
        | zero => exact hboth.1 n (Option.some.inj hj)
        | succ j =>
            have := hboth.2 j n hj
            rwa [Nat.add_right_comm] at this
      · intro hall
        constructor
        · intro n hn
          exact hall 0 n (congrArg some hn)
        · intro j n hj
          have := hall (j + 1) n hj
          rwa [Nat.add_right_comm]

/--
**The two decoders.** On an array that the waypoint decoder accepts, the decoder of the
request returns the same numbers if and only if its default has the number of every integer
element in the place of that element.
-/
theorem extractF64Array_eq_iff {state : SPState F} {k : String} {vs : List (SPValue F)}
    {xs : List F} (hk : state k = some (.array (some vs)))
    (hv : SPValue.f64Vec (.array (some vs)) = some xs) (defaultArr : List F) :
    extractF64Array state k defaultArr = .ok xs
      ↔ ∀ (i : Nat) (n : Int), vs[i]? = some (.int64 (some n)) →
          defaultArr[i]? = some (n : F) := by
  have hextract : extractF64Array state k defaultArr = extractFrom defaultArr 0 vs := by
    unfold extractF64Array getValue
    rw [hk]
    rfl
  rw [hextract, extractFrom_numbers hv]
  simp only [Nat.zero_add]

/-- A joint vector with one integer in it. -/
def mixedJoints (n : Int) : List (SPValue ℚ) :=
  [ .float64 (some (1 / 2)), .int64 (some n), .float64 (some 0), .float64 (some 0),
    .float64 (some 0), .float64 (some 0)]

/-- A request with that vector. -/
def mixedState (n : Int) : SPState ℚ := fun k =>
  if k = "robot_joint_positions" then some (.array (some (mixedJoints n))) else none

theorem extractF64Array_zeros :
    extractF64Array (mixedState 0) "robot_joint_positions" (List.replicate 6 0)
      = .ok [1 / 2, 0, 0, 0, 0, 0] := by
  have hk : mixedState 0 "robot_joint_positions" = some (.array (some (mixedJoints 0))) := rfl
  refine (extractF64Array_eq_iff hk rfl _).mpr ?_
  intro i n hi
  -- the one integer is the second element
  rcases i with _ | _ | _ | _ | _ | _ | i
  · cases hi
  · cases hi
    rfl
  all_goals cases hi

/-- The waypoint decoder reads `-1` there; the request's decoder reads the home position. -/
theorem extractF64Array_home :
    SPValue.f64Vec (.array (some (mixedJoints (-1)))) = some [1 / 2, -1, 0, 0, 0, 0]
      ∧ extractF64Array (mixedState (-1)) "robot_joint_positions" safeHomeJointState
        = .ok [1 / 2, -(15707 / 10000), 0, 0, 0, 0] := by
  decide +kernel

end UrRedisDriver.Proof
