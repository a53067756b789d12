import Mathlib.Data.List.Infix
import Mathlib.Logic.Function.Basic

/-!
# A list worked off in passes

A list is worked off in numbered passes. Each pass is issued a list of its own and reports,
one after the other, the entries of that list it has done. The passes skip nothing if every
list they are issued is a suffix of the original one and each entry before it has been
reported by an earlier pass.
-/

/-- What is known of a list that is being worked off. -/
structure Course (α : Type*) where
  original : List α
  /-- The list each pass was issued. -/
  issued : Nat → Option (List α)
  /-- How many entries of its list each pass has reported. -/
  reported : Nat → Nat

namespace Course

variable {α : Type*}

/-- Nothing issued yet. -/
def start (L : List α) : Course α where
  original := L
  issued := fun _ => none
  reported := fun _ => 0

/-- Issue a list to a pass. -/
def issue (c : Course α) (n : Nat) (l : List α) : Course α :=
  { c with issued := Function.update c.issued n (some l) }

/-- One more entry reported by a pass. -/
def report (c : Course α) (n : Nat) : Course α :=
  { c with reported := Function.update c.reported n (c.reported n + 1) }

@[simp] theorem issue_original (c : Course α) (n : Nat) (l : List α) :
    (c.issue n l).original = c.original := rfl

@[simp] theorem issue_reported (c : Course α) (n : Nat) (l : List α) :
    (c.issue n l).reported = c.reported := rfl

@[simp] theorem issue_issued_self (c : Course α) (n : Nat) (l : List α) :
    (c.issue n l).issued n = some l := Function.update_self ..

theorem issue_issued_ne (c : Course α) {n m : Nat} (l : List α) (h : m ≠ n) :
    (c.issue n l).issued m = c.issued m := Function.update_of_ne h ..

@[simp] theorem report_original (c : Course α) (n : Nat) :
    (c.report n).original = c.original := rfl

@[simp] theorem report_issued (c : Course α) (n : Nat) : (c.report n).issued = c.issued := rfl

@[simp] theorem report_reported_self (c : Course α) (n : Nat) :
    (c.report n).reported n = c.reported n + 1 := Function.update_self ..

theorem le_report_reported (c : Course α) (n m : Nat) :
    c.reported m ≤ (c.report n).reported m := by
  by_cases h : m = n
  · subst h
    rw [report_reported_self]
    exact Nat.le_succ _
  · exact (Function.update_of_ne h ..).ge

/-- The entry of the original list that a list issued as one of its suffixes starts with. -/
def offset (c : Course α) (l : List α) : Nat := c.original.length - l.length

/-- Entry `j` of the original list has been reported by a pass before `n`. -/
def Done (c : Course α) (n j : Nat) : Prop :=
  ∃ m < n, ∃ l, c.issued m = some l ∧ ∃ k < c.reported m, j = c.offset l + k

/-- What pass `n` may be issued: a suffix, everything before it done. -/
structure Covers (c : Course α) (n : Nat) (l : List α) : Prop where
  suffix : l <:+ c.original
  done : ∀ j < c.offset l, c.Done n j

/-- No pass was issued a list that leaves out an entry no pass before it has reported. -/
def Sound (c : Course α) : Prop := ∀ n l, c.issued n = some l → c.Covers n l

theorem sound_start (L : List α) : (start L).Sound := by
  intro n l h
  cases h

theorem covers_start (L : List α) (n : Nat) : (start L).Covers n L where
  suffix := List.suffix_refl L
  done j hj := by
    rw [offset, start, Nat.sub_self] at hj
    exact absurd hj (Nat.not_lt_zero j)

/-- What has been done stays done when a pass that had none is issued a list. -/
theorem Covers.issue {c : Course α} {n m : Nat} {l l' : List α} (h : c.Covers n l)
    (hm : c.issued m = none) : (c.issue m l').Covers n l where
  suffix := h.suffix
  done j hj := by
    obtain ⟨p, hp, l₀, hl₀, k, hk, hjk⟩ := h.done j hj
    have hne : p ≠ m := by
      intro he
      rw [he, hm] at hl₀
      cases hl₀
    exact ⟨p, hp, l₀, (c.issue_issued_ne l' hne).trans hl₀, k, hk, hjk⟩

/-- And when a pass reports one more. -/
theorem Covers.report {c : Course α} {n : Nat} {l : List α} (h : c.Covers n l) (m : Nat) :
    (c.report m).Covers n l where
  suffix := h.suffix
  done j hj := by
    obtain ⟨p, hp, l₀, hl₀, k, hk, hjk⟩ := h.done j hj
    exact ⟨p, hp, l₀, hl₀, k, lt_of_lt_of_le hk (c.le_report_reported m p), hjk⟩

theorem Sound.issue {c : Course α} {n : Nat} {l : List α} (h : c.Sound)
    (hn : c.issued n = none) (hl : c.Covers n l) : (c.issue n l).Sound := by
  intro m l' hm
  by_cases he : m = n
  · subst he
    rw [issue_issued_self] at hm
    cases hm
    exact hl.issue hn
  · rw [issue_issued_ne c l he] at hm
    exact (h m l' hm).issue hn

theorem Sound.report {c : Course α} (h : c.Sound) (n : Nat) : (c.report n).Sound :=
  fun m l hm => (h m l hm).report n

/--
**The next pass.** A pass that was issued a list and has reported its first `m` entries may be
followed by one that is issued the rest.
-/
theorem Covers.drop {c : Course α} {n m : Nat} {l : List α} (h : c.Covers n l)
    (hn : c.issued n = some l) (hr : m ≤ c.reported n) (hm : m ≤ l.length) :
    c.Covers (n + 1) (l.drop m) where
  suffix := (List.drop_suffix m l).trans h.suffix
  done j hj := by
    have hlen : l.length ≤ c.original.length := h.suffix.length_le
    have hoff : c.offset (l.drop m) = c.offset l + m := by
      unfold offset
      rw [List.length_drop]
      omega
    rw [hoff] at hj
    by_cases hlt : j < c.offset l
    · obtain ⟨p, hp, rest⟩ := h.done j hlt
      exact ⟨p, Nat.lt_succ_of_lt hp, rest⟩
    · exact ⟨n, Nat.lt_succ_self n, l, hn, j - c.offset l, by omega, by omega⟩

end Course
