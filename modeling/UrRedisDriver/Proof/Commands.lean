import UrRedisDriver.Proof.Replies
import Mathlib

/-!
# Which dashboard requests are accepted

The documentation names the commands and says what argument each of them takes. The parser
goes by the same names, but hands two of the arguments to readers made for something else:
the mode to one that reads what the controller answers, with its label, and the type of a
flight report to one that takes whatever it does not know for the default.
-/

namespace UrRedisDriver.Proof

open DashboardCommand

/-- The case of ASCII letters apart, text is the same in upper case if it is in lower case. -/
theorem eqIgnoreAsciiCase_iff {s t : String} :
    Text.eqIgnoreAsciiCase s t = true ↔ Text.toAsciiUppercase s = Text.toAsciiUppercase t := by
  -- the source compares in lower case and matches modes in upper case: either undoes the other
  have hu : ∀ l : List Char, (l.map Char.toLower).map Char.toUpper = l.map Char.toUpper := by
    intro l
    rw [List.map_map]
    exact List.map_congr_left fun c _ => Char.toUpper_toLower_eq_toUpper c
  have hl : ∀ l : List Char, (l.map Char.toUpper).map Char.toLower = l.map Char.toLower := by
    intro l
    rw [List.map_map]
    exact List.map_congr_left fun c _ => Char.toLower_toUpper_eq_toLower c
  unfold Text.eqIgnoreAsciiCase Text.toAsciiLowercase Text.toAsciiUppercase
  rw [beq_iff_eq, String.ofList_inj, String.ofList_inj]
  constructor
  · intro h
    rw [← hu, h, hu]
  · intro h
    rw [← hl, h, hl]

/-! ## The documented commands -/

/-- The forms an argument comes in. -/
inductive ArgForm
  /-- There is none; what is sent as one is ignored. -/
  | plain (cmd : DashboardCommand)
  /-- Any text, blank or not. -/
  | text (mk : String → DashboardCommand)
  /-- Any text that is not blank. -/
  | required (mk : String → DashboardCommand)
  | mode
  | report

/-- The documented commands, and the argument each of them takes. -/
def documented : List (String × ArgForm) :=
  [("stop", .plain stop),
   ("pause", .plain pause),
   ("resume", .plain resume),
   ("play", .plain play),
   ("power_on", .plain powerOn),
   ("power_off", .plain powerOff),
   ("brake_release", .plain brakeRelease),
   ("unlock_protective_stop", .plain unlockProtectiveStop),
   ("reset_protective_stop", .plain unlockProtectiveStop),
   ("close_safety_popup", .plain closeSafetyPopup),
   ("close_popup", .plain closePopup),
   ("restart_safety", .plain restartSafety),
   ("load", .required load),
   ("load_installation", .required loadInstallation),
   ("set_operational_mode", .mode),
   ("get_operational_mode", .plain getOperationalMode),
   ("clear_operational_mode", .plain clearOperationalMode),
   ("popup", .text popup),
   ("add_to_log", .text addToLog),
   ("shutdown", .plain shutdown),
   ("generate_flight_report", .report),
   ("generate_support_file", .required generateSupportFile),
   ("safety_status", .plain safetyStatus),
   ("safety_mode", .plain safetyMode),
   ("robot_mode", .plain robotMode),
   ("program_state", .plain programState),
   ("is_program_running", .plain isProgramRunning),
   ("is_program_saved", .plain isProgramSaved),
   ("is_in_remote_control", .plain isInRemoteControl),
   ("get_loaded_program", .plain getLoadedProgram),
   ("get_robot_model", .plain getRobotModel),
   ("get_serial_number", .plain getSerialNumber),
   ("polyscope_version", .plain polyscopeVersion),
   ("version", .plain version)]

/-- The command an argument asks for, by the documentation. The argument is trimmed. -/
def ArgForm.Asks (arg : String) : ArgForm → DashboardCommand → Prop
  | plain c, cmd => cmd = c
  | text mk, cmd => cmd = mk arg
  | required mk, cmd => arg ≠ "" ∧ cmd = mk arg
  | mode, cmd => ∃ m w, OperationalMode.wire m = some w ∧ Text.eqIgnoreAsciiCase arg w = true
      ∧ cmd = setOperationalMode m
  | report, cmd => (arg = "" ∧ cmd = generateFlightReport .system)
      ∨ ∃ t : FlightReportType, Text.eqIgnoreAsciiCase arg t.wire = true
        ∧ cmd = generateFlightReport t

/-- The request is well formed, and asks for this command. -/
def Asks (name arg : String) (cmd : DashboardCommand) : Prop :=
  ∃ form, documented.lookup (Text.toLowercase (Text.trim name)) = some form
    ∧ form.Asks (Text.trim arg) cmd

/-! ## What the parser takes -/

/-- The command the parser makes of an argument of each form, if it takes it. -/
def ArgForm.read (arg : String) : ArgForm → Option DashboardCommand
  | plain cmd => some cmd
  | text mk => some (mk arg)
  | required mk => if arg = "" then none else some (mk arg)
  | mode =>
      if (OperationalMode.parse arg).wire.isNone then none
      else some (setOperationalMode (OperationalMode.parse arg))
  | report => some (generateFlightReport (FlightReportType.parse arg))

theorem requireArg_toOption (name arg what : String) (mk : String → DashboardCommand) :
    (requireArg name arg what mk).toOption = (ArgForm.required mk).read arg := by
  unfold requireArg ArgForm.read
  split <;> rfl

theorem lookup_documented_none {n : String} (h : ∀ p ∈ documented, n ≠ p.1) :
    documented.lookup n = none := by
  rw [List.lookup_eq_none_iff]
  intro p hp
  simpa using h p hp

/-- The parser goes by the documented names, and by nothing else. -/
theorem parse_toOption (name arg : String) : (DashboardCommand.parse name arg).toOption
    = (documented.lookup (Text.toLowercase (Text.trim name))).bind
        (ArgForm.read (Text.trim arg)) := by
  unfold DashboardCommand.parse
  generalize Text.toLowercase (Text.trim name) = n
  generalize Text.trim arg = a
  dsimp only
  split
  -- the three commands that need an argument, the mode, and a name that is not in the table
  case h_13 => exact requireArg_toOption _ _ _ _
  case h_14 => exact requireArg_toOption _ _ _ _
  case h_15 =>
    have hd : documented.lookup "set_operational_mode" = some .mode := rfl
    rw [hd, Option.bind_some, ArgForm.read]
    split <;> rfl
  case h_31 => exact requireArg_toOption _ _ _ _
  case h_35 =>
    have hd : documented.lookup n = none := by
      apply lookup_documented_none
      simp only [documented, List.forall_mem_cons]
      and_intros
      all_goals first | assumption | simp
    rw [hd]
    rfl
  all_goals exact rfl

theorem parse_ok_iff {name arg : String} {cmd : DashboardCommand} :
    DashboardCommand.parse name arg = .ok cmd ↔ ∃ form,
      documented.lookup (Text.toLowercase (Text.trim name)) = some form
        ∧ form.read (Text.trim arg) = some cmd := by
  have h : DashboardCommand.parse name arg = .ok cmd
      ↔ (DashboardCommand.parse name arg).toOption = some cmd := by
    cases DashboardCommand.parse name arg with
    | error e => simp [Except.toOption]
    | ok c => simp [Except.toOption]
  rw [h, parse_toOption, Option.bind_eq_some_iff]

/-! ## Reading a mode -/

/-- A mode with a wire spelling is read where the payload is that spelling. -/
theorem parse_mode_iff {r w : String} {m : OperationalMode} (hw : m.wire = some w) :
    OperationalMode.parse r = m ↔ Text.eqIgnoreAsciiCase (payloadOf r) w = true := by
  rw [eqIgnoreAsciiCase_iff]
  unfold OperationalMode.parse
  cases m with
  | manual =>
      cases hw
      have hm : Text.toAsciiUppercase "manual" = "MANUAL" := by decide
      rw [hm]
      split <;> simp_all
  | automatic =>
      cases hw
      have hm : Text.toAsciiUppercase "automatic" = "AUTOMATIC" := by decide
      rw [hm]
      split <;> simp_all
  | none => cases hw
  | unknown => cases hw

/-- The parser takes an argument for the mode its payload spells. -/
theorem read_mode_iff {a : String} {cmd : DashboardCommand} :
    ArgForm.mode.read a = some cmd ↔ ∃ m w, OperationalMode.wire m = some w
      ∧ Text.eqIgnoreAsciiCase (payloadOf a) w = true ∧ cmd = setOperationalMode m := by
  unfold ArgForm.read
  constructor
  · intro h
    cases hw : (OperationalMode.parse a).wire with
    | none => rw [hw] at h; cases h
    | some w =>
        rw [hw] at h
        exact ⟨_, w, hw, (parse_mode_iff hw).mp rfl, (Option.some.inj h).symm⟩
  · rintro ⟨m, w, hw, he, rfl⟩
    rw [(parse_mode_iff hw).mpr he, hw]
    rfl

/-- No spelling of a mode has a colon in it. -/
theorem colon_not_mem_of_mode {a w : String} {m : OperationalMode} (hw : m.wire = some w)
    (h : Text.eqIgnoreAsciiCase a w = true) : ':' ∉ a.toList := by
  intro hc
  rw [eqIgnoreAsciiCase_iff] at h
  have hm : ':' ∈ (Text.toAsciiUppercase a).toList := by
    unfold Text.toAsciiUppercase
    rw [String.toList_ofList]
    exact List.mem_map.mpr ⟨':', hc, by decide⟩
  rw [h] at hm
  -- a colon is no letter, so folding the case keeps it
  revert hm
  cases m with
  | manual => cases hw; decide
  | automatic => cases hw; decide
  | none => cases hw
  | unknown => cases hw

/-- A label in front of the mode, which the parser drops. -/
def LabelledMode (arg : String) : Prop :=
  ':' ∈ arg.toList ∧ ∃ m w, OperationalMode.wire m = some w
    ∧ Text.eqIgnoreAsciiCase (payloadOf arg) w = true

theorem read_mode_asks_iff {a : String} (ht : Text.trim a = a) :
    (∀ cmd, ArgForm.mode.read a = some cmd ↔ ArgForm.mode.Asks a cmd) ↔ ¬ LabelledMode a := by
  constructor
  · intro h hl
    obtain ⟨hc, m, w, hw, he⟩ := hl
    obtain ⟨m', w', hw', he', -⟩ := (h _).mp (read_mode_iff.mpr ⟨m, w, hw, he, rfl⟩)
    exact colon_not_mem_of_mode hw' he' hc
  · intro h cmd
    rw [read_mode_iff]
    -- what stands after a colon is taken for the mode, label or not
    by_cases hc : ':' ∈ a.toList
    · constructor
      · rintro ⟨m, w, hw, he, -⟩
        exact absurd ⟨hc, m, w, hw, he⟩ h
      · rintro ⟨m, w, hw, he, -⟩
        exact absurd hc (colon_not_mem_of_mode hw he)
    · rw [payloadOf_bare hc ht]
      exact Iff.rfl

/-! ## Reading the type of a report -/

/-- A type of report that is spelled out is read as that. -/
theorem parse_report_of_wire {a : String} {t : FlightReportType} (ht : Text.trim a = a)
    (h : Text.eqIgnoreAsciiCase a t.wire = true) : FlightReportType.parse a = t := by
  unfold Text.eqIgnoreAsciiCase at h
  rw [beq_iff_eq] at h
  unfold FlightReportType.parse
  rw [ht, h]
  cases t <;> decide

/-- Something that is neither blank nor a type of report. -/
def UnknownReport (arg : String) : Prop :=
  arg ≠ "" ∧ ∀ t : FlightReportType, Text.eqIgnoreAsciiCase arg t.wire = false

theorem read_report_asks_iff {a : String} (ht : Text.trim a = a) :
    (∀ cmd, ArgForm.report.read a = some cmd ↔ ArgForm.report.Asks a cmd)
      ↔ ¬ UnknownReport a := by
  constructor
  · rintro h ⟨hne, hu⟩
    obtain ⟨he, -⟩ | ⟨t, hw, -⟩ := (h _).mp rfl
    · exact hne he
    · rw [hu t] at hw
      cases hw
  · intro h cmd
    have hread : ArgForm.report.read a = some cmd
        ↔ cmd = generateFlightReport (FlightReportType.parse a) := by
      unfold ArgForm.read
      rw [Option.some.injEq]
      exact eq_comm
    rw [hread]
    constructor
    · intro hc
      by_cases he : a = ""
      · subst he
        exact .inl ⟨rfl, hc⟩
      · obtain ⟨t, hw⟩ : ∃ t : FlightReportType, Text.eqIgnoreAsciiCase a t.wire = true := by
          -- a word that names no report is read as the one for the system
          by_contra hn
          refine h ⟨he, fun t => ?_⟩
          rw [Bool.eq_false_iff]
          exact fun hw => hn ⟨t, hw⟩
        exact .inr ⟨t, hw, by rw [hc, parse_report_of_wire ht hw]⟩
    · rintro (⟨rfl, hc⟩ | ⟨t, hw, hc⟩)
      · exact hc
      · rw [hc, parse_report_of_wire ht hw]

/-! ## The request -/

theorem read_asks_iff {a : String} (ht : Text.trim a = a) (form : ArgForm) :
    (∀ cmd, form.read a = some cmd ↔ form.Asks a cmd)
      ↔ (form = .mode → ¬ LabelledMode a) ∧ (form = .report → ¬ UnknownReport a) := by
  cases form with
  | plain c => simp [ArgForm.read, ArgForm.Asks, eq_comm]
  | text mk => simp [ArgForm.read, ArgForm.Asks, eq_comm]
  | required mk => simp [ArgForm.read, ArgForm.Asks, eq_comm]
  | mode => simpa using read_mode_asks_iff ht
  | report => simpa using read_report_asks_iff ht

theorem mem_documented {n : String} {form : ArgForm} (h : documented.lookup n = some form) :
    (n, form) ∈ documented := by
  obtain ⟨l, l', hl, -⟩ := List.lookup_eq_some_iff.mp h
  rw [hl]
  simp

theorem lookup_mode_iff {n : String} :
    documented.lookup n = some .mode ↔ n = "set_operational_mode" := by
  constructor
  · intro h
    have hm := mem_documented h
    simpa [documented] using hm
  · rintro rfl
    rfl

theorem lookup_report_iff {n : String} :
    documented.lookup n = some .report ↔ n = "generate_flight_report" := by
  constructor
  · intro h
    have hm := mem_documented h
    simpa [documented] using hm
  · rintro rfl
    rfl

/--
A request is taken exactly for the command it is documented to ask for, unless it sets the
operational mode by a labelled mode, or asks for a type of flight report there is not.
-/
theorem parse_ok_iff_asks (name arg : String) :
    (∀ cmd, DashboardCommand.parse name arg = .ok cmd ↔ Asks name arg cmd)
      ↔ (Text.toLowercase (Text.trim name) = "set_operational_mode"
            → ¬ LabelledMode (Text.trim arg))
        ∧ (Text.toLowercase (Text.trim name) = "generate_flight_report"
            → ¬ UnknownReport (Text.trim arg)) := by
  have ht : Text.trim (Text.trim arg) = Text.trim arg := by
    unfold Text.trim
    rw [String.toList_ofList, Text.trimChars_trimChars]
  rw [← lookup_mode_iff, ← lookup_report_iff]
  simp only [parse_ok_iff, Asks]
  cases hd : documented.lookup (Text.toLowercase (Text.trim name)) with
  | none => simp
  | some form =>
      simp only [Option.some.injEq, exists_eq_left']
      exact read_asks_iff ht form

/-- A label is taken off the mode, and a word that names no report asks for the default. -/
theorem parse_takes_unasked :
    ¬ (∀ cmd, DashboardCommand.parse "set_operational_mode" "not yet: manual" = .ok cmd
        ↔ Asks "set_operational_mode" "not yet: manual" cmd)
    ∧ ¬ (∀ cmd, DashboardCommand.parse "generate_flight_report" "contoller" = .ok cmd
        ↔ Asks "generate_flight_report" "contoller" cmd) := by
  constructor
  · intro h
    obtain ⟨form, hl, ha⟩ := (h (setOperationalMode .manual)).mp (by decide)
    -- a label in front of the mode is skipped, though nothing was asked by it
    have hm : form = .mode := by
      have hd : documented.lookup (Text.toLowercase (Text.trim "set_operational_mode"))
          = some .mode := lookup_mode_iff.mpr (by decide)
      rw [hd] at hl
      exact (Option.some.inj hl).symm
    subst hm
    obtain ⟨m, w, hw, he, -⟩ := ha
    exact colon_not_mem_of_mode hw he (by decide)
  · intro h
    obtain ⟨form, hl, ha⟩ := (h (generateFlightReport .system)).mp (by decide)
    -- a misspelt report is taken for the one of the system
    have hm : form = .report := by
      have hd : documented.lookup (Text.toLowercase (Text.trim "generate_flight_report"))
          = some .report := lookup_report_iff.mpr (by decide)
      rw [hd] at hl
      exact (Option.some.inj hl).symm
    subst hm
    obtain ⟨he, -⟩ | ⟨t, he, -⟩ := ha
    · revert he
      decide
    · revert he
      cases t <;> decide

end UrRedisDriver.Proof
