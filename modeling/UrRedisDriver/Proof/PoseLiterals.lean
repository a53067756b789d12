import UrRedisDriver.Core.PoseText

/-!
# Pose literals are read exactly

The reader takes white space off, a `p`, white space again and a pair of brackets, and reads
what is left between commas. What it takes is a grammar, and the text of six numbers belongs
to it however it is spaced.
-/

namespace UrRedisDriver.Proof

variable {K : Type}

/-- White space and nothing else. -/
abbrev Blank (l : List Char) : Prop := ∀ c ∈ l, Text.isWhitespace c = true

/-- A string that is, trimmed, an optional `p`, white space and these parts in brackets. -/
structure HasParts (s : String) (parts : List (List Char)) : Prop where
  shape : ∃ p mid, (p = [] ∨ p = ['p']) ∧ Blank mid
    ∧ Text.trimChars s.toList = p ++ mid ++ '[' :: ([','].intercalate parts ++ [']'])
  nonempty : parts ≠ []
  no_comma : ∀ part ∈ parts, ',' ∉ part

/-- Text that is, trimmed, the literal of a number. -/
def IsNumeral (num : NumberText K) (part : List Char) : Prop :=
  ∃ x, num.parse (Text.trim (String.ofList part)) = .ok x

/-! ## The brackets -/

theorem blank_nil : Blank [] := fun _ hc => absurd hc List.not_mem_nil

/-- A closing bracket is not white space. -/
theorem trimChars_closed {c : Char} (l : List Char) (hc : Text.isWhitespace c = false) :
    Text.trimChars (c :: (l ++ [']'])) = c :: (l ++ [']']) := by
  -- nothing is trimmed: neither end is white space
  refine Text.trimChars_of_ends ?_ ?_
  · intro d hd
    cases hd
    exact hc
  · intro d hd
    have hl : (c :: (l ++ [']'])).getLast? = some ']' := by
      rw [← List.cons_append, List.getLast?_concat]
    rw [hl] at hd
    cases hd
    decide

/-- Trimmed text does not start with white space. -/
theorem blank_start_eq_nil {l mid r : List Char} (hm : Blank mid)
    (h : Text.trimChars l = mid ++ r) : mid = [] := by
  cases mid with
  | nil => rfl
  | cons c mid =>
      have hc : Text.isWhitespace c = false := Text.head_trimChars (l := l) (by rw [h]; rfl)
      rw [hm c (by simp)] at hc
      cases hc

/-- Nor does it end with it. -/
theorem blank_end_eq_nil {l r b : List Char} (hb : Blank b)
    (h : Text.trimChars l = r ++ b) : b = [] := by
  cases hg : b.getLast? with
  | none => exact List.getLast?_eq_none_iff.mp hg
  | some c =>
      -- a last character of the blank rest would be white space that trimming has left
      have hl : c ∈ (Text.trimChars l).getLast? := by
        rw [h, List.getLast?_append, hg]
        rfl
      have hc := Text.getLast_trimChars hl
      rw [hb c (List.mem_of_getLast? hg)] at hc
      cases hc

/-- What is opened and closed by the brackets. -/
theorem brackets_eq_some {t body : String} :
    (Text.stripPrefix (Text.trim t) '[').bind (Text.stripSuffix · ']') = some body
      ↔ Text.trimChars t.toList = '[' :: (body.toList ++ [']']) := by
  rw [Option.bind_eq_some_iff]
  constructor
  · rintro ⟨r, hr, hb⟩
    rw [Text.stripPrefix_eq_some, Text.toList_trim] at hr
    rw [Text.stripSuffix_eq_some] at hb
    rw [hr, hb]
  · intro h
    refine ⟨String.ofList (body.toList ++ [']']), ?_, ?_⟩
    · rw [Text.stripPrefix_eq_some, Text.toList_trim, h, String.toList_ofList]
    · rw [Text.stripSuffix_eq_some, String.toList_ofList]

theorem poseBody_eq_some {s body : String} : poseBody s = some body
    ↔ ∃ p mid, (p = [] ∨ p = ['p']) ∧ Blank mid
      ∧ Text.trimChars s.toList = p ++ mid ++ '[' :: (body.toList ++ [']']) := by
  unfold poseBody
  dsimp only
  cases hp : Text.stripPrefix (Text.trim s) 'p' with
  | none =>
      rw [Option.getD_none, brackets_eq_some, Text.toList_trim, Text.trimChars_trimChars]
      constructor
      · intro h
        exact ⟨[], [], .inl rfl, blank_nil, h⟩
      · rintro ⟨p, mid, rfl | rfl, hm, h⟩
        · rw [List.nil_append] at h
          have hn := blank_start_eq_nil hm h
          rwa [hn] at h
        · have hs : Text.stripPrefix (Text.trim s) 'p'
              = some (String.ofList (mid ++ '[' :: (body.toList ++ [']']))) := by
            rw [Text.stripPrefix_eq_some, Text.toList_trim, h, String.toList_ofList]
            rfl
          rw [hs] at hp
          cases hp
  | some rest =>
      rw [Text.stripPrefix_eq_some, Text.toList_trim] at hp
      rw [Option.getD_some, brackets_eq_some]
      constructor
      · intro h
        obtain ⟨a, b, ha, hb, hr⟩ := Text.exists_pad rest.toList
        have hbn : b = [] := by
          refine blank_end_eq_nil (l := s.toList) (r := 'p' :: (a ++ Text.trimChars rest.toList))
            hb ?_
          rw [hp, List.cons_append, ← hr]
        rw [hbn, List.append_nil, h] at hr
        exact ⟨['p'], a, .inr rfl, ha, by rw [hp, hr]; rfl⟩
      · rintro ⟨p, mid, rfl | rfl, hm, h⟩
        · rw [List.nil_append] at h
          have hn := blank_start_eq_nil hm h
          rw [hn, hp] at h
          exact absurd (List.cons.inj h).1 (by decide)
        · rw [hp] at h
          have hr : rest.toList = mid ++ '[' :: (body.toList ++ [']']) ++ [] := by
            rw [List.append_nil]
            exact (List.cons.inj h).2
          rw [hr, Text.trimChars_pad hm blank_nil, trimChars_closed _ (by decide)]

/-! ## The parts -/

/-- No piece of a split list has the separator in it. -/
theorem not_mem_of_mem_splitOn {α : Type} [DecidableEq α] {c : α} {l piece : List α}
    (h : piece ∈ l.splitOn c) : c ∉ piece := by
  induction l generalizing piece with
  | nil =>
      rw [List.splitOn_nil, List.mem_singleton] at h
      rw [h]
      simp
  | cons a l ih =>
      rw [List.splitOn_cons_eq_if_modifyHead] at h
      split at h
      · obtain rfl | h := List.mem_cons.mp h
        · simp
        · exact ih h
      · rename_i hac
        cases hl : l.splitOn c with
        | nil => exact absurd hl (List.splitOn_ne_nil c l)
        | cons q rest =>
            rw [hl, List.modifyHead_cons] at h
            obtain rfl | h := List.mem_cons.mp h
            · intro hc
              obtain rfl | hc := List.mem_cons.mp hc
              · exact hac (beq_self_eq_true _)
              · exact ih (by rw [hl]; simp) hc
            · exact ih (by rw [hl]; exact List.mem_cons_of_mem _ h)

/-- The parts are what the body is split into. -/
theorem hasParts_iff {s : String} {parts : List (List Char)} : HasParts s parts
    ↔ ∃ body, poseBody s = some body ∧ body.toList.splitOn ',' = parts := by
  constructor
  · intro h
    obtain ⟨p, mid, hp, hm, ht⟩ := h.shape
    refine ⟨String.ofList ([','].intercalate parts), ?_, ?_⟩
    · rw [poseBody_eq_some, String.toList_ofList]
      exact ⟨p, mid, hp, hm, ht⟩
    · rw [String.toList_ofList]
      exact List.splitOn_intercalate ',' h.no_comma h.nonempty
  · rintro ⟨body, hb, rfl⟩
    exact {
      shape := by
        rw [List.intercalate_splitOn]
        exact poseBody_eq_some.mp hb
      nonempty := List.splitOn_ne_nil ',' _
      no_comma := fun part hpart => not_mem_of_mem_splitOn hpart }

/-- The parts are read one by one. -/
theorem poseComponents_ok_iff {num : NumberText K} {s : String} {parts : List String} {seen : Nat}
    {xs : List K} (h6 : seen + xs.length = 6) : poseComponents num s seen parts = .ok xs
      ↔ List.Forall₂ (fun part x => num.parse (Text.trim part) = .ok x) parts xs := by
  induction parts generalizing seen xs with
  | nil =>
      rw [List.forall₂_nil_left_iff, poseComponents, Except.ok.injEq]
      exact eq_comm
  | cons part parts ih =>
      cases xs with
      | nil =>
          -- all six are read: one part more is refused, whatever it says
          have hs : seen = 6 := by simpa using h6
          rw [poseComponents, if_pos hs]
          constructor
          · intro h; cases h
          · intro h; cases h
      | cons x xs =>
          rw [List.length_cons] at h6
          -- the part is read, and then the rest with one more seen
          have hs : seen ≠ 6 := by omega
          rw [poseComponents, if_neg hs, List.forall₂_cons,
            ← @ih (seen + 1) xs (by omega)]
          cases num.parse (Text.trim part) with
          | error e => simp
          | ok y =>
              cases poseComponents num s (seen + 1) parts with
              | error e => simp [Except.map]
              | ok ys => simp [Except.map]

theorem Joints.ofList?_eq_some {xs : List K} {v : Joints K} (h : Joints.ofList? xs = some v) :
    xs = List.ofFn v := by
  unfold Joints.ofList? at h
  split at h
  · rename_i h6
    rw [← Option.some.inj h]
    refine List.ext_get (by rw [List.length_ofFn, h6]) ?_
    intro n h₁ h₂
    rw [List.get_ofFn]
    rfl
  · cases h

/-- A string is read as the numbers its six parts are read as. -/
theorem parsePoseString_ok_iff {num : NumberText K} {s : String} {v : Joints K} :
    parsePoseString num s = .ok v ↔ ∃ parts, HasParts s parts
      ∧ List.Forall₂ (fun part x => num.parse (Text.trim (String.ofList part)) = .ok x) parts
          (List.ofFn v) := by
  have h6 : 0 + (List.ofFn v).length = 6 := by rw [List.length_ofFn]
  rw [parsePoseString_ok]
  constructor
  · rintro ⟨body, xs, hb, hxs, hv⟩
    rw [Joints.ofList?_eq_some hv, poseComponents_ok_iff h6, Text.split,
      List.forall₂_map_left_iff] at hxs
    exact ⟨body.toList.splitOn ',', hasParts_iff.mpr ⟨body, hb, rfl⟩, hxs⟩
  · rintro ⟨parts, hp, hf⟩
    obtain ⟨body, hb, rfl⟩ := hasParts_iff.mp hp
    refine ⟨body, List.ofFn v, hb, ?_, Joints.ofList?_ofFn v⟩
    rw [poseComponents_ok_iff h6, Text.split, List.forall₂_map_left_iff]
    exact hf

/-- A string has its parts once. -/
theorem HasParts.unique {s : String} {parts parts' : List (List Char)} (h : HasParts s parts)
    (h' : HasParts s parts') : parts = parts' := by
  obtain ⟨body, hb, hp⟩ := hasParts_iff.mp h
  obtain ⟨body', hb', hp'⟩ := hasParts_iff.mp h'
  rw [hb] at hb'
  rw [← hp, ← hp', Option.some.inj hb']

/-- Every part has a value exactly if there is a list of their values. -/
theorem exists_forall₂_iff {α β : Type} {R : α → β → Prop} {l : List α} :
    (∃ xs, List.Forall₂ R l xs) ↔ ∀ a ∈ l, ∃ b, R a b := by
  induction l with
  | nil => exact ⟨fun _ a ha => absurd ha (by simp), fun _ => ⟨[], .nil⟩⟩
  | cons a l ih =>
      constructor
      · rintro ⟨_, _ | ⟨hab, hl⟩⟩ c hc
        obtain rfl | hc := List.mem_cons.mp hc
        · exact ⟨_, hab⟩
        · exact ih.mp ⟨_, hl⟩ c hc
      · intro h
        obtain ⟨b, hb⟩ := h a (by simp)
        obtain ⟨xs, hxs⟩ := ih.mpr fun c hc => h c (List.mem_cons_of_mem _ hc)
        exact ⟨b :: xs, .cons hb hxs⟩

/-- Six parts, each the literal of a number, and nothing less or more, are read. -/
theorem parsePoseString_accepts_iff {num : NumberText K} {s : String} :
    (∃ v, parsePoseString num s = .ok v) ↔ ∃ parts, HasParts s parts
      ∧ parts.length = 6 ∧ ∀ part ∈ parts, IsNumeral num part := by
  constructor
  · rintro ⟨v, hv⟩
    obtain ⟨parts, hp, hf⟩ := parsePoseString_ok_iff.mp hv
    have h6 : parts.length = 6 := by rw [hf.length_eq, List.length_ofFn]
    exact ⟨parts, hp, h6, exists_forall₂_iff.mp ⟨_, hf⟩⟩
  · rintro ⟨parts, hp, h6, hn⟩
    -- six parts that are numbers give six numbers, which is a pose
    obtain ⟨xs, hxs⟩ := exists_forall₂_iff.mpr hn
    have hl : xs.length = 6 := by rw [← hxs.length_eq, h6]
    have hv : Joints.ofList? xs = some fun i => xs.get (i.cast hl.symm) := dif_pos hl
    rw [Joints.ofList?_eq_some hv] at hxs
    exact ⟨_, parsePoseString_ok_iff.mpr ⟨parts, hp, hxs⟩⟩

/-! ## The text of six numbers -/

/-- A number whose text is read back as that number, and is one word without a comma. -/
structure RoundTrips (num : NumberText K) (x : K) : Prop where
  parse_display : num.parse (num.display x) = .ok x
  one_word : ∀ c ∈ (num.display x).toList, Text.isWhitespace c = false
  no_comma : ',' ∉ (num.display x).toList

/-- The `p`, and the white space in and around a literal. -/
structure Spacing where
  leading : Bool
  before : List Char
  between : List Char
  after : List Char
  left : Fin 6 → List Char
  right : Fin 6 → List Char
  before_blank : Blank before
  between_blank : Blank between
  after_blank : Blank after
  left_blank : ∀ i, Blank (left i)
  right_blank : ∀ i, Blank (right i)

namespace Spacing

/-- A component between its white space. -/
def part (sp : Spacing) (num : NumberText K) (v : Joints K) (i : Fin 6) : List Char :=
  sp.left i ++ (num.display (v i)).toList ++ sp.right i

/-- The literal of six numbers, spaced. -/
def text (sp : Spacing) (num : NumberText K) (v : Joints K) : String :=
  String.ofList (sp.before ++ ((if sp.leading then ['p'] else []) ++ sp.between
    ++ '[' :: ([','].intercalate (List.ofFn (sp.part num v)) ++ [']'])) ++ sp.after)

/-- The leading `p` and no white space. -/
def tight : Spacing where
  leading := true
  before := []
  between := []
  after := []
  left _ := []
  right _ := []
  before_blank := blank_nil
  between_blank := blank_nil
  after_blank := blank_nil
  left_blank _ := blank_nil
  right_blank _ := blank_nil

variable {num : NumberText K} {v : Joints K}

/-- The formatter leaves no white space. -/
theorem text_tight : tight.text num v = poseToString num v := by
  let digits (i : Fin 6) := (num.display (v i)).toList
  -- with no spacing at all each part is the digits alone
  have hparts : List.ofFn (tight.part num v)
      = [digits 0, digits 1, digits 2, digits 3, digits 4, digits 5] := by
    have hpart : tight.part num v = digits := by
      funext i
      exact List.append_nil _
    rw [hpart]
    rfl
  have htext : (tight.text num v).toList
      = 'p' :: '[' :: ([','].intercalate (List.ofFn (tight.part num v)) ++ [']']) := by
    rw [text, String.toList_ofList]
    exact List.append_nil _
  rw [← String.toList_inj, htext, hparts]
  unfold poseToString poseText
  simp [List.intercalate, digits]

theorem part_noComma (sp : Spacing) (hv : ∀ i, RoundTrips num (v i)) (i : Fin 6) :
    ',' ∉ sp.part num v i := by
  -- a comma is no white space, and none is among the digits by the round trip
  have hb : ∀ l, Blank l → ',' ∉ l := by
    intro l hl hc
    have := hl _ hc
    revert this
    decide
  unfold part
  rw [List.mem_append, List.mem_append, not_or, not_or]
  exact ⟨⟨hb _ (sp.left_blank i), (hv i).no_comma⟩, hb _ (sp.right_blank i)⟩

/-- A component is read as its number. -/
theorem parse_part (sp : Spacing) (hv : ∀ i, RoundTrips num (v i)) (i : Fin 6) :
    num.parse (Text.trim (String.ofList (sp.part num v i))) = .ok (v i) := by
  have ht : Text.trim (String.ofList (sp.part num v i)) = num.display (v i) := by
    unfold Text.trim part
    rw [String.toList_ofList, Text.trimChars_pad (sp.left_blank i) (sp.right_blank i),
      Text.trimChars_of_ends, String.ofList_toList]
    · intro c hc
      exact (hv i).one_word c (List.mem_of_mem_head? hc)
    · intro c hc
      exact (hv i).one_word c (List.mem_of_getLast? hc)
  rw [ht, (hv i).parse_display]

/-- However it is spaced, the literal has the six components for its parts. -/
theorem hasParts (sp : Spacing) (hv : ∀ i, RoundTrips num (v i)) :
    HasParts (sp.text num v) (List.ofFn (sp.part num v)) where
  nonempty := by simp
  no_comma := by
    intro p hp
    obtain ⟨i, rfl⟩ := List.mem_ofFn.mp hp
    exact sp.part_noComma hv i
  -- the outer blanks are trimmed away; the `p` may be there or not
  shape := by
    unfold text
    rw [String.toList_ofList, Text.trimChars_pad sp.before_blank sp.after_blank]
    cases sp.leading with
    | true =>
        refine ⟨['p'], sp.between, .inr rfl, sp.between_blank, ?_⟩
        have hl : (if true = true then ['p'] else []) ++ sp.between ++ '['
              :: ([','].intercalate (List.ofFn (sp.part num v)) ++ [']'])
            = 'p' :: (sp.between ++ '[' :: [','].intercalate (List.ofFn (sp.part num v))
              ++ [']']) := by simp
        rw [hl, trimChars_closed _ (by decide)]
        simp
    | false =>
        refine ⟨[], [], .inl rfl, blank_nil, ?_⟩
        have hl : (if false = true then ['p'] else []) ++ sp.between ++ '['
              :: ([','].intercalate (List.ofFn (sp.part num v)) ++ [']'])
            = sp.between ++ '[' :: ([','].intercalate (List.ofFn (sp.part num v)) ++ [']'])
              ++ [] := by simp
        rw [hl, Text.trimChars_pad sp.between_blank blank_nil, trimChars_closed _ (by decide)]
        rfl

/-- However it is spaced, the literal is read as its numbers. -/
theorem parse_text (sp : Spacing) (hv : ∀ i, RoundTrips num (v i)) :
    parsePoseString num (sp.text num v) = .ok v := by
  refine parsePoseString_ok_iff.mpr ⟨_, sp.hasParts hv, ?_⟩
  rw [List.forall₂_iff_get]
  refine ⟨by rw [List.length_ofFn, List.length_ofFn], ?_⟩
  intro n h₁ h₂
  rw [List.get_ofFn, List.get_ofFn]
  exact sp.parse_part hv _

end Spacing

theorem parse_poseToString {num : NumberText K} {v : Joints K}
    (hv : ∀ i, RoundTrips num (v i)) : parsePoseString num (poseToString num v) = .ok v := by
  rw [← Spacing.text_tight]
  exact Spacing.tight.parse_text hv

/-- What is not taken is refused. -/
theorem error_of_not_ok {s : String} {num : NumberText K}
    (h : ¬ ∃ v, parsePoseString num s = .ok v) : ∃ e, parsePoseString num s = .error e := by
  cases hp : parsePoseString num s with
  | error e => exact ⟨e, rfl⟩
  | ok v => exact absurd ⟨v, hp⟩ h

/--
The literal of six numbers is read as those numbers, however it is spaced. A string is read
exactly if it has six parts in brackets and each of them is the literal of a number, so another
number of parts is refused, and so is a blank part.
-/
theorem poseLiterals_exact (num : NumberText K) :
    (∀ v : Joints K, (∀ i, RoundTrips num (v i)) →
      parsePoseString num (poseToString num v) = .ok v
        ∧ ∀ sp : Spacing, parsePoseString num (sp.text num v) = .ok v)
    ∧ (∀ s, (∃ v, parsePoseString num s = .ok v) ↔ ∃ parts, HasParts s parts
        ∧ parts.length = 6 ∧ ∀ part ∈ parts, IsNumeral num part)
    ∧ (∀ s parts, HasParts s parts → parts.length ≠ 6 → ∃ e, parsePoseString num s = .error e)
    ∧ ((∀ x, num.parse "" ≠ .ok x) → ∀ s parts, HasParts s parts → (∃ part ∈ parts, Blank part)
        → ∃ e, parsePoseString num s = .error e) := by
  refine ⟨?_, ?_, ?_, ?_⟩
  · intro v hv
    exact ⟨parse_poseToString hv, fun sp => sp.parse_text hv⟩
  · intro s
    exact parsePoseString_accepts_iff
  · intro s parts hp h6
    apply error_of_not_ok
    intro hv
    obtain ⟨parts', hp', h6', -⟩ := parsePoseString_accepts_iff.mp hv
    -- the parts of a literal are determined, so no other reading has six of them
    rw [hp.unique hp'] at h6
    exact h6 h6'
  · rintro he s parts hp ⟨part, hpart, hb⟩
    apply error_of_not_ok
    intro hv
    obtain ⟨parts', hp', -, hn⟩ := parsePoseString_accepts_iff.mp hv
    rw [hp.unique hp'] at hpart
    obtain ⟨x, hx⟩ := hn part hpart
    -- a blank part is the empty text once trimmed
    have ht : Text.trim (String.ofList part) = "" := by
      have hp := Text.trimChars_pad (l := []) hb blank_nil
      rw [List.append_nil, List.append_nil] at hp
      unfold Text.trim
      rw [String.toList_ofList, hp]
      rfl
    rw [ht] at hx
    exact he x hx

/-- Decimals, and three numbers as they are written. -/
def threeDecimals : NumberText ℚ where
  parse := Text.parseDecimal
  display x := if x = 3 / 2 then "1.5" else if x = -1 / 4 then "-0.25" else "0"
  fixed4 _ := ""

theorem threeDecimals_read : parsePoseString threeDecimals
      (poseToString threeDecimals ![0, 3 / 2, -1 / 4, 0, 3 / 2, 0])
    = .ok ![0, 3 / 2, -1 / 4, 0, 3 / 2, 0] := by
  refine ((poseLiterals_exact threeDecimals).1 _ ?_).1
  have h0 : RoundTrips threeDecimals 0 :=
    ⟨by decide +kernel, Text.forall_not_of_all (by decide +kernel), by decide +kernel⟩
  have h1 : RoundTrips threeDecimals (3 / 2) :=
    ⟨by decide +kernel, Text.forall_not_of_all (by decide +kernel), by decide +kernel⟩
  have h2 : RoundTrips threeDecimals (-1 / 4) :=
    ⟨by decide +kernel, Text.forall_not_of_all (by decide +kernel), by decide +kernel⟩
  intro i
  fin_cases i
  · exact h0
  · exact h1
  · exact h2
  · exact h0
  · exact h1
  · exact h0

end UrRedisDriver.Proof
