import UrRedisDriver.Core.DashboardTypes

/-!
# What a label costs the answer behind it

Every reply is cut at its last colon. A mode has no colon of its own, so any label in front
of it is dropped and nothing else. A program path may have one, and then the cut falls
inside the answer.
-/

namespace UrRedisDriver.Proof

/-- Trimmed text without a colon is its own payload. -/
theorem payloadOf_bare {t : String} (hc : ':' ∉ t.toList) (ht : Text.trim t = t) :
    payloadOf t = t := by
  unfold payloadOf
  rw [Text.rsplitOnce_of_not_mem hc]
  exact ht

/-- A label is dropped, whatever it says. -/
theorem payloadOf_label {l t : String} (hc : ':' ∉ t.toList) (ht : Text.trim t = t) :
    payloadOf (l ++ ": " ++ t) = t := by
  have hs : (l ++ ": " ++ t).toList = l.toList ++ ':' :: ' ' :: t.toList := by
    rw [String.toList_append, String.toList_append, List.append_assoc]
    rfl
  have hb : ':' ∉ ' ' :: t.toList := by simpa using hc
  unfold payloadOf
  -- the last colon is the one of the label
  rw [Text.rsplitOnce_append hs hb]
  calc Text.trim (String.ofList (' ' :: t.toList))
      = Text.trim t := by
        unfold Text.trim
        rw [String.toList_ofList, Text.trimChars_cons (by decide)]
    _ = t := ht

/-- What is left of a reply has no colon in it. -/
theorem colon_not_mem_payloadOf (r : String) : ':' ∉ (payloadOf r).toList := by
  intro h
  unfold payloadOf at h
  -- what stands after the last colon, or a reply without any
  split at h
  · rename_i hr
    rw [Text.toList_trim] at h
    exact Text.not_mem_of_rsplitOnce hr (Text.mem_of_mem_trimChars h)
  · rename_i hr
    rw [Text.toList_trim] at h
    have hm := Text.mem_of_mem_trimChars h
    unfold Text.rsplitOnce at hr
    rw [if_pos hm] at hr
    cases hr

/-- The flag is the first word, as long as no colon comes after it. -/
theorem parseFlag_word {w p : String} (hw : w.toList ≠ [])
    (hn : ∀ c ∈ w.toList, Text.isWhitespace c = false) (hcw : ':' ∉ w.toList)
    (hcp : ':' ∉ p.toList) :
    parseFlag (w ++ " " ++ p) = Text.eqIgnoreAsciiCase w "true" := by
  have hs : (w ++ " " ++ p).toList = w.toList ++ ' ' :: p.toList := by
    rw [String.toList_append, String.toList_append, List.append_assoc]
    rfl
  have hc : ':' ∉ (w ++ " " ++ p).toList := by
    rw [hs]
    simp only [List.mem_append, List.mem_cons, not_or]
    exact ⟨hcw, by decide, hcp⟩
  -- no colon: the payload is the whole reply, and its first word the flag
  have hp : payloadOf (w ++ " " ++ p) = Text.trim (w ++ " " ++ p) := by
    unfold payloadOf
    rw [Text.rsplitOnce_of_not_mem hc]
  unfold parseFlag
  rw [hp, Text.firstWord_trim, Text.firstWord_append hs hw hn (by decide), String.ofList_toList]

/-! ## The modes -/

/-- A reader that knows every mode by its name, whatever label stands in front of it. -/
structure ReadsNames {M : Type} (asStr : M → String) (parse : String → M) : Prop where
  labelled : ∀ (l : String) (m : M), parse (l ++ ": " ++ asStr m) = m
  bare : ∀ m : M, parse (asStr m) = m

/-- A reader that looks at the payload alone drops every label. -/
theorem ReadsNames.of_payload {M : Type} {asStr : M → String} {parse : String → M}
    (hp : ∀ r r', payloadOf r = payloadOf r' → parse r = parse r')
    (hc : ∀ m, ':' ∉ (asStr m).toList) (ht : ∀ m, Text.trim (asStr m) = asStr m)
    (hb : ∀ m, parse (asStr m) = m) : ReadsNames asStr parse where
  bare := hb
  labelled l m := by
    have h : payloadOf (l ++ ": " ++ asStr m) = payloadOf (asStr m) := by
      rw [payloadOf_label (hc m) (ht m), payloadOf_bare (hc m) (ht m)]
    rw [hp _ _ h, hb m]

theorem robotMode_readsNames : ReadsNames RobotMode.asStr RobotMode.parse := by
  refine ReadsNames.of_payload ?_ ?_ ?_ ?_
  · intro r r' h
    unfold RobotMode.parse
    rw [h]
  · intro m; cases m <;> decide
  · intro m; cases m <;> decide
  · intro m; cases m <;> decide

theorem safetyMode_readsNames : ReadsNames SafetyMode.asStr SafetyMode.parse := by
  refine ReadsNames.of_payload ?_ ?_ ?_ ?_
  · intro r r' h
    unfold SafetyMode.parse
    rw [h]
  · intro m; cases m <;> decide
  · intro m; cases m <;> decide
  · intro m; cases m <;> decide

theorem safetyStatus_readsNames : ReadsNames SafetyStatus.asStr SafetyStatus.parse := by
  refine ReadsNames.of_payload ?_ ?_ ?_ ?_
  · intro r r' h
    unfold SafetyStatus.parse
    rw [h]
  · intro m; cases m <;> decide
  · intro m; cases m <;> decide
  · intro m; cases m <;> decide

theorem operationalMode_readsNames : ReadsNames OperationalMode.asStr OperationalMode.parse := by
  refine ReadsNames.of_payload ?_ ?_ ?_ ?_
  · intro r r' h
    unfold OperationalMode.parse
    rw [h]
  · intro m; cases m <;> decide
  · intro m; cases m <;> decide
  · intro m; cases m <;> decide

/-! ## The replies -/

/-- The label is gone and the answer is whole, where the answer names the program `p`. -/
structure LabelsStripped (p : String) : Prop where
  loaded : DashboardCommand.getLoadedProgram.parseReply ("Loaded program: " ++ p) = some (.text p)
  saved : DashboardCommand.isProgramSaved.parseReply ("true " ++ p) = some (.flag true)
  unsaved : DashboardCommand.isProgramSaved.parseReply ("false " ++ p) = some (.flag false)
  robotMode : ReadsNames RobotMode.asStr RobotMode.parse
  safetyMode : ReadsNames SafetyMode.asStr SafetyMode.parse
  safetyStatus : ReadsNames SafetyStatus.asStr SafetyStatus.parse
  operationalMode : ReadsNames OperationalMode.asStr OperationalMode.parse

/-- A program is named in full exactly if its name has no colon. -/
theorem parseReply_loaded_iff {p : String} (hp : Text.trim p = p) :
    DashboardCommand.getLoadedProgram.parseReply ("Loaded program: " ++ p) = some (.text p)
      ↔ ':' ∉ p.toList := by
  have hr : DashboardCommand.getLoadedProgram.parseReply ("Loaded program: " ++ p)
      = some (.text (payloadOf ("Loaded program: " ++ p))) := rfl
  rw [hr, Option.some.injEq, DashboardValue.text.injEq]
  constructor
  · intro h
    rw [← h]
    exact colon_not_mem_payloadOf _
  · intro hc
    exact payloadOf_label (l := "Loaded program") hc hp

/--
The labels are stripped without touching the answer exactly where the program's path or name
has no colon in it.
-/
theorem labelsStripped_iff_no_colon {p : String} (hp : Text.trim p = p) :
    LabelsStripped p ↔ ':' ∉ p.toList := by
  constructor
  · intro h
    exact (parseReply_loaded_iff hp).mp h.loaded
  · intro hc
    have ht : parseFlag ("true" ++ " " ++ p) = true := by
      rw [parseFlag_word (by decide) (Text.forall_not_of_all (by decide)) (by decide) hc]
      decide
    have hf : parseFlag ("false" ++ " " ++ p) = false := by
      rw [parseFlag_word (by decide) (Text.forall_not_of_all (by decide)) (by decide) hc]
      decide
    -- the other replies carry words of the controller, which have no colon
    exact {
      loaded := (parseReply_loaded_iff hp).mpr hc
      saved := congrArg (fun b => some (DashboardValue.flag b)) ht
      unsaved := congrArg (fun b => some (DashboardValue.flag b)) hf
      robotMode := robotMode_readsNames
      safetyMode := safetyMode_readsNames
      safetyStatus := safetyStatus_readsNames
      operationalMode := operationalMode_readsNames }

theorem labelsStripped_plain : LabelsStripped "/programs/cell 2.urp" :=
  (labelsStripped_iff_no_colon (by decide)).mpr (by decide)

/-- A colon in the path: the program is reported under half its name, and as never saved. -/
theorem labels_not_stripped : ¬ ∀ p : String, Text.trim p = p
    → (∀ c ∈ p.toList, Text.isLineBreak c = false) → LabelsStripped p := by
  intro h
  have hl := (h "/programs/cell:2.urp" (by decide) (Text.forall_not_of_all (by decide))).loaded
  have hr : DashboardCommand.getLoadedProgram.parseReply "Loaded program: /programs/cell:2.urp"
      = some (.text "2.urp") := by decide
  have he := hr.symm.trans hl
  revert he
  decide

end UrRedisDriver.Proof
