import Mathlib.Data.List.DropRight
import Mathlib.Data.List.Infix
import Mathlib.Data.Rat.Defs
import Mathlib.Data.String.Basic
import Mathlib.Algebra.Order.Field.Rat

/-!
# Text, as Rust's `str` treats it

The handful of `str` methods a line protocol is written with, over the characters of a
string. Lean's own `String` functions differ from them where it matters (which
characters are white space, what a line ending is), so they are spelled out here.
-/

namespace Text

/-- `char::is_whitespace`: the Unicode `White_Space` property. -/
def isWhitespace (c : Char) : Bool :=
  let n := c.toNat
  (9 ≤ n && n ≤ 13) || n == 0x20 || n == 0x85 || n == 0xA0 || n == 0x1680
    || (0x2000 ≤ n && n ≤ 0x200A) || n == 0x2028 || n == 0x2029 || n == 0x202F
    || n == 0x205F || n == 0x3000

/-- A check of every character, in the form it is computed in. -/
theorem forall_not_of_all {p : Char → Bool} {l : List Char} (h : l.all (fun c => !p c) = true) :
    ∀ c ∈ l, p c = false := by
  intro c hc
  simpa using List.all_eq_true.mp h c hc

/-- The line endings a line protocol can be broken by. -/
def isLineBreak (c : Char) : Bool := c == '\n' || c == '\r'

/-- White space dropped from both ends. -/
def trimChars (l : List Char) : List Char :=
  (l.dropWhile isWhitespace).rdropWhile isWhitespace

/-- `str::trim`. -/
def trim (s : String) : String := String.ofList (trimChars s.toList)

@[simp] theorem toList_trim (s : String) : (trim s).toList = trimChars s.toList := by
  simp [trim]

/-- Text that neither starts nor ends with white space is left alone. -/
theorem trimChars_of_ends {l : List Char} (hh : ∀ c ∈ l.head?, isWhitespace c = false)
    (ht : ∀ c ∈ l.getLast?, isWhitespace c = false) : trimChars l = l := by
  cases l with
  | nil => rfl
  | cons a l =>
      have hd : (a :: l).dropWhile isWhitespace = a :: l := by
        rw [List.dropWhile_cons, if_neg]
        simpa using hh a (by simp)
      rw [trimChars, hd, List.rdropWhile_eq_self_iff]
      intro hne
      have := ht ((a :: l).getLast hne) (List.getLast?_eq_getLast_of_ne_nil hne)
      simpa using this

/-- What trimming leaves starts with something other than white space. -/
theorem head_trimChars {l : List Char} {c : Char} (h : c ∈ (trimChars l).head?) :
    isWhitespace c = false := by
  have hp : trimChars l <+: l.dropWhile isWhitespace := List.rdropWhile_prefix _ _
  cases hd : l.dropWhile isWhitespace with
  | nil => rw [hd, List.prefix_nil] at hp; rw [hp] at h; simp at h
  | cons a t =>
      have ha : isWhitespace a = false := by
        have := List.head_dropWhile_not isWhitespace (l := l) (by rw [hd]; simp)
        simpa [hd] using this
      rw [hd] at hp
      cases ht : trimChars l with
      | nil => rw [ht] at h; simp at h
      | cons b u =>
          rw [ht] at h hp
          -- trimming the end keeps the first character of what trimming the start has left
          have hb : b = a := (List.cons_prefix_cons.mp hp).1
          have hc : b = c := by simpa using h
          rw [← hc, hb, ha]

/-- And ends with something other than white space. -/
theorem getLast_trimChars {l : List Char} {c : Char} (h : c ∈ (trimChars l).getLast?) :
    isWhitespace c = false := by
  have hne : trimChars l ≠ [] := by intro h0; rw [h0] at h; simp at h
  have := List.rdropWhile_last_not isWhitespace (l.dropWhile isWhitespace) hne
  rw [List.getLast?_eq_getLast_of_ne_nil hne] at h
  have hc : (trimChars l).getLast hne = c := by simpa using h
  rw [← hc]
  simpa [trimChars] using this

@[simp] theorem trimChars_trimChars (l : List Char) : trimChars (trimChars l) = trimChars l :=
  trimChars_of_ends (fun _ h => head_trimChars h) (fun _ h => getLast_trimChars h)

theorem mem_of_mem_trimChars {l : List Char} {c : Char} (h : c ∈ trimChars l) : c ∈ l := by
  have h1 : c ∈ l.dropWhile isWhitespace := (List.rdropWhile_prefix _ _).subset h
  exact (List.dropWhile_suffix _).subset h1

/-- White space in front of trimmed text is what trimming drops. -/
theorem trimChars_cons {l : List Char} {c : Char} (hc : isWhitespace c = true) :
    trimChars (c :: l) = trimChars l := by
  rw [trimChars, List.dropWhile_cons, if_pos hc, trimChars]

/-- White space on both sides is what trimming drops. -/
theorem trimChars_pad {a b l : List Char} (ha : ∀ c ∈ a, isWhitespace c = true)
    (hb : ∀ c ∈ b, isWhitespace c = true) : trimChars (a ++ l ++ b) = trimChars l := by
  induction a with
  | cons c a ih =>
      rw [List.cons_append, List.cons_append, trimChars_cons (ha c (by simp))]
      exact ih fun d hd => ha d (by simp [hd])
  | nil =>
      -- the front is gone; at the back the padding is white space to the end
      have hr : ∀ x : List Char, (x ++ b).rdropWhile isWhitespace = x.rdropWhile isWhitespace := by
        intro x
        rw [List.rdropWhile, List.reverse_append, List.dropWhile_append_of_pos, List.rdropWhile]
        intro c hc
        exact hb c (List.mem_reverse.mp hc)
      rw [List.nil_append, trimChars, trimChars, List.dropWhile_append]
      split
      · rename_i he
        rw [List.isEmpty_iff.mp he, List.dropWhile_eq_nil_iff.mpr hb]
      · rw [hr]

/-- Trimming drops white space and nothing else. -/
theorem exists_pad (l : List Char) : ∃ a b, (∀ c ∈ a, isWhitespace c = true)
    ∧ (∀ c ∈ b, isWhitespace c = true) ∧ l = a ++ trimChars l ++ b := by
  refine ⟨l.takeWhile isWhitespace, (l.dropWhile isWhitespace).rtakeWhile isWhitespace, ?_, ?_, ?_⟩
  · intro c hc
    exact List.mem_takeWhile_imp hc
  · intro c hc
    exact List.mem_rtakeWhile_imp hc
  · rw [trimChars, List.append_assoc, List.rdropWhile_append_rtakeWhile,
      List.takeWhile_append_dropWhile]

/--
`char::to_lowercase`, as far as an ASCII keyword can tell. The Kelvin sign is the one
character outside ASCII whose lower case is a single ASCII letter; every other one has a
lower case that is not made of ASCII characters alone, so it is left as it is.
-/
def lowerChar (c : Char) : Char := if c.toNat = 0x212A then 'k' else c.toLower

/-- `str::to_lowercase`. -/
def toLowercase (s : String) : String := String.ofList (s.toList.map lowerChar)

/-- `str::to_ascii_uppercase`. -/
def toAsciiUppercase (s : String) : String := String.ofList (s.toList.map Char.toUpper)

/-- `str::to_ascii_lowercase`. -/
def toAsciiLowercase (s : String) : String := String.ofList (s.toList.map Char.toLower)

/-- `str::rsplit_once`, for a single character. -/
def rsplitOnce (s : String) (c : Char) : Option (String × String) :=
  if c ∈ s.toList then
    let tail := s.toList.rtakeWhile (· != c)
    some (String.ofList (s.toList.take (s.toList.length - tail.length - 1)), String.ofList tail)
  else none

/-- Text is cut at its last separator. -/
theorem rsplitOnce_append {s : String} {a b : List Char} {c : Char}
    (hs : s.toList = a ++ c :: b) (hb : c ∉ b) :
    rsplitOnce s c = some (String.ofList a, String.ofList b) := by
  -- taken from the right, everything up to the separator is `b`
  have ht : (a ++ c :: b).rtakeWhile (· != c) = b := by
    have hp : ∀ d ∈ b.reverse, (d != c) = true := by
      intro d hd
      rw [List.mem_reverse] at hd
      simp only [bne_iff_ne]
      intro he
      exact hb (he ▸ hd)
    rw [List.rtakeWhile, List.reverse_append, List.reverse_cons, List.append_assoc,
      List.takeWhile_append_of_pos hp]
    simp
  unfold rsplitOnce
  rw [hs, if_pos (by simp)]
  dsimp only
  rw [ht]
  have hl : (a ++ c :: b).length - b.length - 1 = a.length := by
    rw [List.length_append, List.length_cons]
    omega
  rw [hl, List.take_left]

theorem rsplitOnce_of_not_mem {s : String} {c : Char} (h : c ∉ s.toList) :
    rsplitOnce s c = none := if_neg h

theorem eq_of_rsplitOnce {s a b : String} {c : Char} (h : rsplitOnce s c = some (a, b)) :
    s = a ++ String.singleton c ++ b := by
  have hc : c ∈ s.toList := by
    by_contra hc
    rw [rsplitOnce_of_not_mem hc] at h
    cases h
  -- the last separator is the first one of the reversed text
  obtain ⟨l, m, hl, hm⟩ := List.eq_append_cons_of_mem (List.mem_reverse.mpr hc)
  have hs : s.toList = m.reverse ++ c :: l.reverse := by
    rw [← List.reverse_reverse s.toList, hl]
    simp
  rw [rsplitOnce_append hs (by simpa using hm)] at h
  cases h
  rw [← String.toList_inj, hs]
  simp

/-- What stands behind the last separator holds no other. -/
theorem not_mem_of_rsplitOnce {s : String} {c : Char} {p : String × String}
    (h : rsplitOnce s c = some p) : c ∉ p.2.toList := by
  unfold rsplitOnce at h
  split at h
  · rw [← Option.some.inj h]
    intro hc
    rw [String.toList_ofList] at hc
    have := List.mem_rtakeWhile_imp hc
    simp at this
  · cases h

/-- The first of `str::split_whitespace`. -/
def firstWord (s : String) : Option String :=
  match (s.toList.dropWhile isWhitespace).takeWhile (fun c => !isWhitespace c) with
  | [] => none
  | w => some (String.ofList w)

/-- The first word of text that starts with one. -/
theorem firstWord_append {s : String} {w l : List Char} {c : Char} (hs : s.toList = w ++ c :: l)
    (hw : w ≠ []) (hn : ∀ d ∈ w, isWhitespace d = false) (hc : isWhitespace c = true) :
    firstWord s = some (String.ofList w) := by
  unfold firstWord
  have hd : (w ++ c :: l).dropWhile isWhitespace = w ++ c :: l := by
    cases w with
    | nil => exact absurd rfl hw
    | cons d w =>
        rw [List.cons_append, List.dropWhile_cons, if_neg]
        rw [hn d (by simp)]
        simp
  have ht : (w ++ c :: l).takeWhile (fun d => !isWhitespace d) = w := by
    rw [List.takeWhile_append_of_pos (by intro d hd; rw [hn d hd]; rfl), List.takeWhile_cons, hc]
    simp
  rw [hs, hd, ht]
  cases w with
  | nil => exact absurd rfl hw
  | cons d w => rfl

/-- The white space around text does not change its first word. -/
theorem firstWord_trim (s : String) : firstWord (trim s) = firstWord s := by
  have hl : trimChars s.toList ++ (s.toList.dropWhile isWhitespace).rtakeWhile isWhitespace
      = s.toList.dropWhile isWhitespace := by
    rw [trimChars, List.rdropWhile_append_rtakeWhile]
  have hh : (trimChars s.toList).dropWhile isWhitespace = trimChars s.toList := by
    cases ht : trimChars s.toList with
    | nil => rfl
    | cons a t =>
        have ha := head_trimChars (l := s.toList) (c := a) (by rw [ht]; rfl)
        rw [List.dropWhile_cons, if_neg (by rw [ha]; simp)]
  -- what trimming takes off the end begins no word
  have hw : ((s.toList.dropWhile isWhitespace).rtakeWhile isWhitespace).takeWhile
      (fun c => !isWhitespace c) = [] := by
    cases hr : (s.toList.dropWhile isWhitespace).rtakeWhile isWhitespace with
    | nil => rfl
    | cons a t =>
        have ha := List.mem_rtakeWhile_imp (p := isWhitespace)
          (l := s.toList.dropWhile isWhitespace) (x := a) (by rw [hr]; simp)
        rw [List.takeWhile_cons, ha]
        rfl
  have ht : (trimChars s.toList).takeWhile (fun c => !isWhitespace c)
      = (s.toList.dropWhile isWhitespace).takeWhile (fun c => !isWhitespace c) := by
    rw [← hl, List.takeWhile_append, hw, List.append_nil]
    split
    · rename_i hlen
      exact (List.takeWhile_prefix _).eq_of_length hlen
    · rfl
  unfold firstWord
  rw [toList_trim, hh, ht]

/-- `str::split_whitespace`. -/
def splitWhitespace (s : String) : List String :=
  ((s.toList.splitOnP isWhitespace).filter (· ≠ [])).map String.ofList

/-- `str::eq_ignore_ascii_case`. -/
def eqIgnoreAsciiCase (s t : String) : Bool := toAsciiLowercase s == toAsciiLowercase t

/-- `str::splitn(2, char::is_whitespace)`: the text before the first white space, and the rest. -/
def splitAtWhitespace (s : String) : String × Option String :=
  let head := s.toList.takeWhile (fun c => !isWhitespace c)
  match s.toList.drop head.length with
  | [] => (String.ofList head, none)
  | _ :: rest => (String.ofList head, some (String.ofList rest))

/-- `str::contains`, for a string. -/
def contains (s t : String) : Bool := decide (t.toList <:+: s.toList)

/-- `str::starts_with`. -/
def startsWith (s t : String) : Bool := t.toList.isPrefixOf s.toList

/-- `str::ends_with`. -/
def endsWith (s t : String) : Bool := t.toList.isSuffixOf s.toList

/-- The number a non-empty run of decimal digits denotes. -/
def digits : List Char → Option Nat
  | [] => none
  | l => l.foldl (fun acc c => acc.bind fun n =>
      if c.isDigit then some (10 * n + (c.toNat - '0'.toNat)) else none) (some 0)

/-- The first value a 64-bit `usize` cannot hold. -/
def usizeBound : Nat := 2 ^ 64

/-- `str::parse::<usize>`: an optional `+`, then digits, refused when they overflow. -/
def parseUsize (s : String) : Option Nat :=
  let ds := match s.toList with
    | '+' :: rest => rest
    | l => l
  (digits ds).bind fun n => if n < usizeBound then some n else none

/-- `str::lines`, over characters: cut at every `\n`, with a trailing `\r` dropped. -/
def splitLines : List Char → List Char → List (List Char)
  | acc, [] => if acc.isEmpty then [] else [acc.reverse]
  | acc, c :: cs =>
      if c = '\n' then
        let line := if acc.head? = some '\r' then acc.tail else acc
        line.reverse :: splitLines [] cs
      else splitLines (c :: acc) cs

/-- `str::lines`. -/
def lines (s : String) : List String := (splitLines [] s.toList).map String.ofList

/-- `str::strip_prefix`, for a character. -/
def stripPrefix (s : String) (c : Char) : Option String :=
  match s.toList with
  | a :: l => if a = c then some (String.ofList l) else none
  | [] => none

theorem stripPrefix_eq_some {s t : String} {c : Char} :
    stripPrefix s c = some t ↔ s.toList = c :: t.toList := by
  unfold stripPrefix
  cases hs : s.toList with
  | nil => simp
  | cons a l =>
      by_cases h : a = c
      · simp [h, ← String.toList_inj]
      · simp [h]

/-- `str::strip_suffix`, for a character. -/
def stripSuffix (s : String) (c : Char) : Option String :=
  if s.toList.getLast? = some c then some (String.ofList s.toList.dropLast) else none

theorem stripSuffix_eq_some {s t : String} {c : Char} :
    stripSuffix s c = some t ↔ s.toList = t.toList ++ [c] := by
  unfold stripSuffix
  constructor
  · intro h
    split at h
    · rename_i hc
      rw [← Option.some.inj h, String.toList_ofList]
      exact (List.dropLast_append_getLast? c hc).symm
    · cases h
  · intro h
    rw [h, if_pos (List.getLast?_concat), List.dropLast_concat, String.ofList_toList]

/-- `str::split`, at a character. -/
def split (s : String) (c : Char) : List String := (s.toList.splitOn c).map String.ofList

/-- `str::trim_end_matches`, for a character. -/
def trimEndMatches (s : String) (c : Char) : String :=
  String.ofList (s.toList.rdropWhile (· == c))

/-- An optional sign, and whether it was a minus. -/
def sign : List Char → Bool × List Char
  | '-' :: l => (true, l)
  | '+' :: l => (false, l)
  | l => (false, l)

/-- Digits around an optional point: their value, and how many stand behind the point. -/
def mantissa (l : List Char) : Option (Nat × Nat) :=
  let whole := l.takeWhile (· != '.')
  match l.drop whole.length with
  | [] => (digits whole).map (·, 0)
  | _ :: frac => (digits (whole ++ frac)).map (·, frac.length)

/-- A decimal exponent; a number without one has exponent zero. -/
def exponent : List Char → Option Int
  | [] => some 0
  | _ :: l =>
      let (neg, ds) := sign l
      (digits ds).map fun n => if neg then -(n : Int) else n

/--
`str::parse::<f64>` of the literals that stand for a finite number, without the rounding.
The words for infinity and for what is not a number have no value here and are refused.
-/
def parseDecimal (s : String) : Except String Rat :=
  if s.isEmpty then .error "cannot parse float from empty string"
  else
    let (neg, body) := sign s.toList
    let number := body.takeWhile fun c => c != 'e' && c != 'E'
    match mantissa number, exponent (body.drop number.length) with
    | some (n, k), some e =>
        let x : Rat := (n : Rat) * (10 : Rat) ^ (e - k)
        .ok (if neg then -x else x)
    | _, _ => .error "invalid float literal"

example : lines "a\r\nb\n" = ["a", "b"] := by decide
example : parseUsize "+12" = some 12 ∧ parseUsize "-1" = none := by decide
example : trim " \ta b\n" = "a b" := by decide
example : parseDecimal "-1.5e2" = .ok (-150) := by decide +kernel
example : parseDecimal "." = .error "invalid float literal" := by decide +kernel

end Text
