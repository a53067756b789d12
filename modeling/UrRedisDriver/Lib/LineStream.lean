import Mathlib.Data.List.Basic

/-!
# A connection on which lines are answered by lines

One side writes symbols; the other side cuts them into lines and gives one reply to each
line, in order. Everything received and everything replied is kept, so the `n`-th reply is
the one to the `n`-th line. Whoever writes one line and reads one reply at a time always
reads the reply to its own line; `Idle` and `Busy` are the two states of that discipline.
-/

variable {α β : Type*}

structure LineStream (α β : Type*) where
  /-- The symbols of a line that is not over. -/
  pending : List α := []
  lines : List (List α) := []
  replies : List β := []
  /-- How many replies have been read. -/
  taken : Nat := 0
  deriving DecidableEq

namespace LineStream

variable (brk : α → Bool)

/-- One symbol received. A line ends at a symbol that `brk` accepts. -/
def push (s : LineStream α β) (c : α) : LineStream α β :=
  if brk c then { s with pending := [], lines := s.lines ++ [s.pending] }
  else { s with pending := s.pending ++ [c] }

def write (s : LineStream α β) (l : List α) : LineStream α β := l.foldl (push brk) s

/-- A reply to the oldest line that has none. -/
def answer (s : LineStream α β) (b : β) : Option (LineStream α β) :=
  if s.replies.length < s.lines.length then some { s with replies := s.replies ++ [b] } else none

/-- Read the oldest reply not read yet. -/
def read (s : LineStream α β) : Option (β × LineStream α β) :=
  s.replies[s.taken]?.map fun b => (b, { s with taken := s.taken + 1 })

variable {brk} {s s' : LineStream α β} {l : List α} {b : β} {e : α}

@[simp] theorem write_nil : s.write brk [] = s := rfl

@[simp] theorem write_cons (c : α) : s.write brk (c :: l) = (s.push brk c).write brk l := rfl

theorem write_append (l' : List α) : s.write brk (l ++ l') = (s.write brk l).write brk l' :=
  List.foldl_append ..

theorem push_end (he : brk e = true) :
    s.push brk e = { s with pending := [], lines := s.lines ++ [s.pending] } := by
  rw [push, if_pos he]

theorem write_unbroken (hl : ∀ c ∈ l, brk c = false) :
    s.write brk l = { s with pending := s.pending ++ l } := by
  induction l generalizing s with
  | nil => simp
  | cons c l ih =>
      have hc : brk c = false := hl c (List.mem_cons_self ..)
      rw [write_cons, ih fun d hd => hl d (List.mem_cons_of_mem _ hd)]
      simp [push, hc]

/-- A line and its end make one line more. -/
theorem write_line (hl : ∀ c ∈ l, brk c = false) (he : brk e = true) :
    s.write brk (l ++ [e]) = { s with pending := [], lines := s.lines ++ [s.pending ++ l] } := by
  rw [write_append, write_unbroken hl, write_cons, write_nil, push_end he]

/-- Every line end makes one line more. -/
theorem length_lines_write :
    (s.write brk l).lines.length = s.lines.length + l.countP brk := by
  induction l generalizing s with
  | nil => simp
  | cons c l ih =>
      rw [write_cons, ih, List.countP_cons]
      by_cases hc : brk c = true
      · simp [push, hc]; omega
      · simp [push, hc]

theorem write_frame : (s.write brk l).replies = s.replies ∧ (s.write brk l).taken = s.taken := by
  induction l generalizing s with
  | nil => exact ⟨rfl, rfl⟩
  | cons c l ih =>
      rw [write_cons, ih.1, ih.2, push]
      split <;> exact ⟨rfl, rfl⟩

theorem answer_eq (h : s.answer b = some s') : s' = { s with replies := s.replies ++ [b] } := by
  unfold answer at h
  split at h <;> cases h
  rfl

theorem read_eq (h : s.read = some (b, s')) :
    s.replies[s.taken]? = some b ∧ s' = { s with taken := s.taken + 1 } := by
  obtain ⟨c, hc, he⟩ := Option.map_eq_some_iff.mp h
  cases he
  exact ⟨hc, rfl⟩

/-! ## One line at a time -/

/-- Every line has been answered, and the answers have been read. -/
structure Idle (s : LineStream α β) : Prop where
  pending : s.pending = []
  replies : s.replies.length = s.lines.length
  taken : s.taken = s.lines.length

/-- The answer to the last line has not been read. -/
structure Busy (s : LineStream α β) : Prop where
  pending : s.pending = []
  taken : s.taken + 1 = s.lines.length
  lower : s.taken ≤ s.replies.length
  upper : s.replies.length ≤ s.lines.length

theorem idle_new : Idle (α := α) (β := β) {} := ⟨rfl, rfl, rfl⟩

/-- Writing from `Idle` is in step exactly if what is written is one line. -/
theorem Idle.write_iff (h : s.Idle) (he : brk e = true) :
    (s.write brk (l ++ [e])).Busy ↔ ∀ c ∈ l, brk c = false := by
  constructor
  · intro hb
    have hlen := hb.taken
    rw [write_frame.2, length_lines_write, h.taken] at hlen
    -- one line more means one break, and that is the last character
    have hcount : l.countP brk = 0 := by
      simp only [List.countP_append, List.countP_singleton, he, if_true] at hlen
      omega
    simpa using List.countP_eq_zero.mp hcount
  · intro hl
    rw [write_line hl he]
    refine ⟨rfl, ?_, h.taken ▸ Nat.le_of_eq h.replies.symm, ?_⟩
    · simp [h.taken]
    · simp [h.replies]

theorem Idle.write (h : s.Idle) (hl : ∀ c ∈ l, brk c = false) (he : brk e = true) :
    (s.write brk (l ++ [e])).Busy ∧ (s.write brk (l ++ [e])).lines = s.lines ++ [l] := by
  refine ⟨(h.write_iff he).mpr hl, ?_⟩
  rw [write_line hl he, h.pending, List.nil_append]

theorem Idle.answer (h : s.Idle) : s.answer b = none := by
  rw [LineStream.answer, if_neg]
  exact Nat.not_lt_of_le (Nat.le_of_eq h.replies.symm)

theorem Busy.answer (h : s.Busy) (ha : s.answer b = some s') : s'.Busy := by
  -- an answer is given to a line that has none yet
  have hlt : s.replies.length < s.lines.length := by
    unfold LineStream.answer at ha
    split at ha
    · assumption
    · cases ha
  rw [answer_eq ha]
  have hlower := h.lower
  exact ⟨h.pending, h.taken, by simp; omega, by simp; omega⟩

/-- What is read from `Busy` is the reply to the last line. -/
theorem Busy.read (h : s.Busy) (hr : s.read = some (b, s')) :
    s'.Idle ∧ s'.lines = s.lines ∧ s.replies[s.lines.length - 1]? = some b := by
  obtain ⟨hb, rfl⟩ := read_eq hr
  have htaken := h.taken
  have hlt := (List.getElem?_eq_some_iff.mp hb).1
  have hupper := h.upper
  refine ⟨⟨h.pending, ?_, htaken⟩, rfl, ?_⟩
  · dsimp only
    omega
  · rw [← htaken]
    exact hb

end LineStream
