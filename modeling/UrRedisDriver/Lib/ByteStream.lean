import Mathlib.Data.List.Basic
import Mathlib.Tactic.Common

/-!
# Byte streams

One connection, as the side that reads it sees it: the bytes that arrive in time, and what
becomes of a read that asks for more. Reads, slices and subtractions that a program may ask
too much of are partial, so that what it never does wrong can be said.
-/

/-- What a read past the last byte comes to. -/
inductive StreamEnd
  /-- The peer is gone, or the connection is broken. -/
  | failed (e : String)
  /-- Nothing arrives any more. -/
  | silent
  deriving DecidableEq, Repr

/-- The bytes of a connection that are still to be read. -/
structure ByteStream where
  bytes : List UInt8
  ending : StreamEnd
  deriving DecidableEq, Repr

namespace ByteStream

/-- `read_exact` under a timeout, whose own error is `timedOut`. -/
def readExact (s : ByteStream) (n : Nat) (timedOut : String) :
    Except String (List UInt8 × ByteStream) :=
  if n ≤ s.bytes.length then .ok (s.bytes.take n, { s with bytes := s.bytes.drop n })
  else match s.ending with
    | .failed e => .error e
    | .silent => .error timedOut

/-- A read takes what it asks for off the front. -/
theorem readExact_append (l r : List UInt8) (ending : StreamEnd) (timedOut : String) :
    readExact ⟨l ++ r, ending⟩ l.length timedOut = .ok (l, ⟨r, ending⟩) := by
  have hl : l.length ≤ (l ++ r).length := by
    rw [List.length_append]
    omega
  unfold readExact
  rw [if_pos hl, List.take_left, List.drop_left]

/-- A read that asks for more than there is fails. -/
theorem readExact_short {s : ByteStream} {n : Nat} (h : s.bytes.length < n) (timedOut : String) :
    ∃ e, s.readExact n timedOut = .error e := by
  unfold readExact
  rw [if_neg (by omega)]
  cases s.ending with
  | failed e => exact ⟨e, rfl⟩
  | silent => exact ⟨timedOut, rfl⟩

/-- The number that bytes denote, the first of them the greatest. -/
def fromBeBytes (l : List UInt8) : Nat := l.foldl (fun n b => 256 * n + b.toNat) 0

/-- Unsigned subtraction; `none` is an underflow. -/
def checkedSub (a b : Nat) : Option Nat := if b ≤ a then some (a - b) else none

/-- The elements from `a` up to `b`; `none` is out of bounds. -/
def slice {α : Type} (l : List α) (a b : Nat) : Option (List α) :=
  if a ≤ b ∧ b ≤ l.length then some ((l.drop a).take (b - a)) else none

/-- Within the bounds, a slice is as long as it says. -/
theorem slice_eq_some {α : Type} {l : List α} {a b : Nat} (hab : a ≤ b) (hb : b ≤ l.length) :
    ∃ part, slice l a b = some part ∧ part.length = b - a := by
  refine ⟨(l.drop a).take (b - a), if_pos ⟨hab, hb⟩, ?_⟩
  rw [List.length_take_of_le]
  rw [List.length_drop]
  omega

example : fromBeBytes [0, 0, 4, 196] = 1220 := by decide

end ByteStream
