import UrRedisDriver.Proof.Tool
import UrRedisDriver.Trajectory.Store

/-!
# The store as a map

Every name has a file of its own in the trajectory directory, and a save changes that file
alone. It leaves the new trajectory there, or what was there before; but the file is truncated
before it is written, so a write that fails in between leaves neither.
-/

namespace UrRedisDriver.Proof

open UrRedisDriver FileTree
open scoped Literals

noncomputable section

variable {env : PlannerEnv} {toJson : StoredTrajectory → Except String String} {d d' : Disk}
  {s : Saving} {name path : String}

/-! ## Names and files -/

/-- The file a name stands for. -/
def fileOf (name : String) : String := name ++ ".json"

/-- Where it is. -/
def placeOf (env : PlannerEnv) (name : String) : List String :=
  components env.trajectoryDirPath ++ [fileOf name]

theorem fileOf_eq (name : String) : fileOf name = name ++ "." ++ "json" := by
  rw [String.append_assoc]
  rfl

theorem validateName_ok : validateName name = .ok () ↔
    name ≠ "" ∧ name.utf8ByteSize ≤ 128 ∧ name.toList.all nameChar = true
      ∧ Text.contains name ".." = false ∧ Text.startsWith name "." = false := by
  unfold validateName
  by_cases h1 : name = ""
  · rw [if_pos (by simp [h1])]
    exact iff_of_false (by simp) fun h => absurd h1 h.1
  · rw [if_neg (by simpa using h1)]
    by_cases h2 : name.utf8ByteSize > 128
    · rw [if_pos h2]
      exact iff_of_false (by simp) fun h => absurd h.2.1 (not_le.mpr h2)
    · rw [if_neg h2]
      cases h3 : name.toList.all nameChar <;> cases h4 : Text.contains name ".." <;>
        cases h5 : Text.startsWith name "." <;> simp [h1, not_lt.mp h2]

theorem getLast_fileOf (name : String) : (fileOf name).toList.getLast? = some 'n' := by
  unfold fileOf
  rw [String.toList_append]
  exact List.getLast?_append_of_ne_nil _ (by decide)

theorem not_mem_fileOf {c : Char} (h : validateName name = .ok ()) (hc : nameChar c = false) :
    c ∉ (fileOf name).toList := by
  have hchars := (validateName_ok.mp h).2.2.1
  have hjson : ".json".toList.all nameChar = true := by decide
  unfold fileOf
  rw [String.toList_append]
  intro hmem
  rcases List.mem_append.mp hmem with hmem | hmem
  · exact absurd (List.all_eq_true.mp hchars _ hmem) (by simp [hc])
  · exact absurd (List.all_eq_true.mp hjson _ hmem) (by simp [hc])

/-- A name that is accepted names a file in whatever directory it is looked up in. -/
theorem isPlain_fileOf (h : validateName name = .ok ()) : IsPlain (fileOf name) := by
  have hne : ∀ text : String, text.toList.getLast? ≠ some 'n' → fileOf name ≠ text := by
    intro text ht he
    rw [← he] at ht
    exact ht (getLast_fileOf name)
  exact ⟨not_mem_fileOf h (by decide), hne _ (by decide), hne _ (by decide), hne _ (by decide)⟩

theorem fileOf_injective : Function.Injective fileOf :=
  fun _ _ h => (String.append_left_inj _).mp h

theorem pathFor_ok : env.pathFor name = .ok path ↔
    validateName name = .ok () ∧ path = join env.trajectoryDirPath (fileOf name) := by
  unfold PlannerEnv.pathFor join fileOf PlannerEnv.trajectoryDirPath
  rw [Except.bind_eq_ok]
  dsimp only
  rw [String.append_assoc]
  constructor
  · rintro ⟨u, hu, hp⟩
    cases hp
    exact ⟨hu, rfl⟩
  · rintro ⟨hu, rfl⟩
    exact ⟨(), hu, rfl⟩

theorem components_pathFor (h : env.pathFor name = .ok path) :
    components path = placeOf env name := by
  obtain ⟨hv, rfl⟩ := pathFor_ok.mp h
  exact components_join (isPlain_fileOf hv)

theorem pathFor_nonempty (h : env.pathFor name = .ok path) : path ≠ "" := by
  intro he
  have hc := components_pathFor h
  rw [he] at hc
  have hl := congrArg List.length hc
  simp [placeOf, components, Text.startsWith] at hl

theorem jsonStem_fileOf (h : name ≠ "") : jsonStem (fileOf name) = some name := by
  unfold jsonStem
  rw [fileOf_eq, if_pos (extension_append h (by decide) (by decide)),
    fileStem_append h (by decide) (by decide)]

/-- A file is listed under the name it belongs to. -/
theorem jsonStem_eq_some {file : String} (h : jsonStem file = some name) :
    name ≠ "" ∧ file = fileOf name := by
  have hfile : file = fileOf name := by
    unfold jsonStem at h
    split at h
    · rename_i hx
      rw [fileOf_eq]
      exact eq_of_extension h hx
    · cases h
  refine ⟨?_, hfile⟩
  intro he
  rw [hfile, he] at h
  exact absurd h (by decide)

/-! ## What is loaded -/

theorem find_pathFor (h : env.pathFor name = .ok path) :
    d.find path = d.nodeAt (placeOf env name) := by
  rw [Disk.find, if_neg (by simpa using pathFor_nonempty h), components_pathFor h]

/-- Loading a name sees its own file and nothing else. -/
theorem load_congr (h : d'.nodeAt (placeOf env name) = d.nodeAt (placeOf env name)) :
    (env.onDisk d').load name = (env.onDisk d).load name := by
  unfold PlannerEnv.load
  cases hp : env.pathFor name with
  | error e =>
      have he : ∀ d, (env.onDisk d).pathFor name = .error e := fun _ => hp
      rw [he, he]
      rfl
  | ok path =>
      have hpath : ∀ d, (env.onDisk d).pathFor name = .ok path := fun _ => hp
      -- both disks have the same bytes at the one place that is read
      have hread : d'.readToString path = d.readToString path :=
        Disk.readToString_congr (by rw [find_pathFor hp, find_pathFor hp, h])
      have hload : (env.onDisk d').loadPath path = (env.onDisk d).loadPath path := by
        unfold PlannerEnv.loadPath
        show ((d'.readToString path).mapError _).bind _ = ((d.readToString path).mapError _).bind _
        rw [hread]
        rfl
      rw [hpath, hpath]
      exact hload

theorem load_ok {stored : StoredTrajectory} : (env.onDisk d).load name = .ok stored ↔
    ∃ path text, env.pathFor name = .ok path ∧ d.readToString path = .ok text
      ∧ env.parseStored text = .ok stored ∧ stored.schemaVersion = schemaVersion := by
  unfold PlannerEnv.load PlannerEnv.loadPath
  constructor
  · intro h
    obtain ⟨path, hp, h⟩ := Except.bind_eq_ok.mp h
    obtain ⟨text, ht, h⟩ := Except.bind_eq_ok.mp h
    obtain ⟨stored', hs, h⟩ := Except.bind_eq_ok.mp h
    split at h
    · cases h
    · rename_i hv
      cases h
      exact ⟨path, text, hp, Except.mapError_eq_ok.mp ht, Except.mapError_eq_ok.mp hs,
        not_not.mp hv⟩
  · rintro ⟨path, text, hp, ht, hs, hv⟩
    refine Except.bind_eq_ok.mpr ⟨path, hp, ?_⟩
    refine Except.bind_eq_ok.mpr ⟨text, Except.mapError_eq_ok.mpr ht, ?_⟩
    exact Except.bind_eq_ok.mpr ⟨stored, Except.mapError_eq_ok.mpr hs, if_neg (not_not.mpr hv)⟩

/-- What was written under a name is loaded from there. -/
theorem load_written {json : String} {stored : StoredTrajectory}
    (hv : validateName name = .ok ())
    (hf : d.nodeAt (placeOf env name) = some (.file json.toByteArray))
    (hp : env.parseStored json = .ok stored) (hs : stored.schemaVersion = schemaVersion) :
    (env.onDisk d).load name = .ok stored := by
  have hpath : env.pathFor name = .ok (join env.trajectoryDirPath (fileOf name)) :=
    pathFor_ok.mpr ⟨hv, rfl⟩
  refine load_ok.mpr ⟨_, json, hpath, ?_, hp, hs⟩
  rw [Disk.readToString_file ((find_pathFor hpath).trans hf), Disk.textOf_toByteArray]

/-! ## What is listed -/

/-- The directory has an entry for a name. -/
def HasEntry (env : PlannerEnv) (d : Disk) (name : String) : Prop :=
  name ≠ "" ∧ d.nodeAt (placeOf env name) ≠ none

variable {fault : Option Disk.DirFault} {names : List String}

theorem extension_fileOf (h : name ≠ "") : extension (fileOf name) = some "json" := by
  rw [fileOf_eq]
  exact extension_append h (by decide) (by decide)

theorem not_anchor_placeOf (h : name ≠ "") : (placeOf env name).all isAnchor = false := by
  have hne : ∀ text : String, extension text ≠ some "json" → fileOf name ≠ text := by
    intro text ht he
    exact ht (he ▸ extension_fileOf h)
  have hslash : fileOf name ≠ "/" := hne _ (by decide)
  have hdots : fileOf name ≠ ".." := hne _ (by decide)
  rw [placeOf, List.all_append, List.all_cons]
  simp [isAnchor, hslash, hdots]

/-- The entries that are listed under a name. -/
theorem hasEntry_iff : HasEntry env d name ↔
    ∃ file ∈ d.entries (components env.trajectoryDirPath), jsonStem file = some name := by
  constructor
  · rintro ⟨hne, hplace⟩
    refine ⟨fileOf name, Disk.mem_entries.mpr ?_, jsonStem_fileOf hne⟩
    exact (Disk.mem_nodes (not_anchor_placeOf hne)).mpr hplace
  · rintro ⟨file, hf, hstem⟩
    obtain ⟨hne, rfl⟩ := jsonStem_eq_some hstem
    exact ⟨hne, (Disk.mem_nodes (not_anchor_placeOf hne)).mp (Disk.mem_entries.mp hf)⟩

theorem find_dir (hdir : env.trajectoryDirPath ≠ "") :
    d.find env.trajectoryDirPath = d.nodeAt (components env.trajectoryDirPath) := by
  rw [Disk.find, if_neg (by simpa using hdir)]

/-- A directory that is there is listed, if nothing disturbs the reading. -/
theorem list_returns (hdir : env.trajectoryDirPath ≠ "")
    (hd : d.nodeAt (components env.trajectoryDirPath) = some .directory) :
    ∃ names, env.list d none = .ok names := by
  rw [← find_dir hdir] at hd
  have hpresent : d.present env.trajectoryDirPath = true := by
    rw [Disk.present, hd]
    rfl
  unfold PlannerEnv.list
  dsimp only
  rw [if_neg (by simp [hpresent]), Disk.readDir_ok.mpr ⟨hd, rfl, rfl⟩]
  exact ⟨_, rfl⟩

/-- Distinct names come out of sorting in strict order. -/
theorem sorted_lt (hn : names.Nodup) :
    (names.mergeSort fun a b => decide (a ≤ b)).Pairwise (· < ·) := by
  have hle : (names.mergeSort fun a b => decide (a ≤ b)).Pairwise
      fun a b => decide (a ≤ b) = true := by
    refine List.pairwise_mergeSort ?_ ?_ names
    · intro a b c hab hbc
      exact decide_eq_true (le_trans (of_decide_eq_true hab) (of_decide_eq_true hbc))
    · intro a b
      simpa using le_total a b
  refine (hle.and ((List.mergeSort_perm _ _).nodup_iff.mpr hn)).imp ?_
  rintro a b ⟨h, hne⟩
  exact lt_of_le_of_ne (of_decide_eq_true h) hne

/-- What is listed are the names that have an entry, each once and in order. -/
theorem list_ok (hdir : env.trajectoryDirPath ≠ "") (h : env.list d fault = .ok names) :
    names.Pairwise (· < ·) ∧ ∀ name, name ∈ names ↔ HasEntry env d name := by
  unfold PlannerEnv.list at h
  dsimp only at h
  cases hf : d.find env.trajectoryDirPath with
  | none =>
      rw [if_pos (by simp [Disk.present, hf])] at h
      cases h
      refine ⟨List.Pairwise.nil, fun name => iff_of_false List.not_mem_nil ?_⟩
      intro hentry
      obtain ⟨file, hmem, -⟩ := hasEntry_iff.mp hentry
      -- an entry has the directory above it
      have habove := d.rooted _ (Disk.mem_entries.mp hmem)
      rw [List.dropLast_concat] at habove
      rw [find_dir hdir, Disk.nodeAt, habove] at hf
      cases hf
  | some node =>
      rw [if_neg (by simp [Disk.present, hf])] at h
      cases hr : d.readDir env.trajectoryDirPath fault with
      | error f =>
          rw [hr] at h
          cases f <;> cases h
      | ok files =>
          obtain ⟨-, -, hfiles⟩ := Disk.readDir_ok.mp hr
          rw [hr] at h
          cases h
          have hnodup : (files.filterMap jsonStem).Nodup := by
            rw [hfiles]
            refine List.Nodup.filterMap ?_ (Disk.entries_nodup _)
            intro a b name ha hb
            rw [(jsonStem_eq_some ha).2, (jsonStem_eq_some hb).2]
          refine ⟨sorted_lt hnodup, fun name => ?_⟩
          rw [List.mem_mergeSort, List.mem_filterMap, hfiles, hasEntry_iff]

/-! ## What a save does -/

/-- The call comes as far as writing the file. -/
structure Begins (env : PlannerEnv) (toJson : StoredTrajectory → Except String String) (d : Disk)
    (s : Saving) : Prop where
  name : validateName s.name = .ok ()
  directory : (d.createDirAll s.refuseDir (components env.trajectoryDirPath)).1 = .ok ()
  text : ∃ json, toJson s.stored = .ok json
  place : d.nodeAt (placeOf env s.name) ≠ some .directory

/-- The trajectory directory of two disks has the same in it. -/
def SameStore (env : PlannerEnv) (d d' : Disk) : Prop :=
  ∀ file, d'.nodeAt (components env.trajectoryDirPath ++ [file])
    = d.nodeAt (components env.trajectoryDirPath ++ [file])

theorem SameStore.load (h : SameStore env d d') (name : String) :
    (env.onDisk d').load name = (env.onDisk d).load name := load_congr (h _)

theorem sameStore_createDirAll (env : PlannerEnv) (d : Disk)
    (refuse : List String → Option String) :
    SameStore env d (d.createDirAll refuse (components env.trajectoryDirPath)).2 :=
  fun _ => Disk.createDirAll_below (by simp)

/-- A call that does not come that far is an error, and nothing has happened. -/
theorem save_refused (h : ¬ Begins env toJson d s) :
    (∃ e, (env.save toJson d s).1 = .error e) ∧ SameStore env d (env.save toJson d s).2 := by
  unfold PlannerEnv.save
  cases hp : env.pathFor s.name with
  | error e => exact ⟨⟨e, rfl⟩, fun _ => rfl⟩
  | ok path =>
      have hsame := sameStore_createDirAll env d s.refuseDir
      dsimp only
      rw [components_pathFor hp, placeOf, List.dropLast_concat]
      rcases hc : d.createDirAll s.refuseDir (components env.trajectoryDirPath) with ⟨made, d₁⟩
      rw [hc] at hsame
      cases made with
      -- each refusal comes before the file is opened
      | error e => exact ⟨⟨_, rfl⟩, hsame⟩
      | ok u =>
          cases hj : toJson s.stored with
          | error e => exact ⟨⟨_, rfl⟩, hsame⟩
          | ok json =>
              have hplace : d₁.nodeAt (placeOf env s.name) = some .directory := by
                -- what is left to stand in the way is a directory at the place of the file
                by_contra hne
                refine h ⟨(pathFor_ok.mp hp).1, by rw [hc], ⟨json, hj⟩, ?_⟩
                rwa [placeOf, ← hsame]
              dsimp only
              rw [← placeOf, Disk.write_directory hplace]
              exact ⟨⟨_, rfl⟩, hsame⟩

/-- A call that comes that far writes the file, in a directory that is there. -/
theorem save_begins (h : Begins env toJson d s) :
    ∃ json d₁, toJson s.stored = .ok json ∧ SameStore env d d₁
      ∧ d₁.nodeAt (placeOf env s.name).dropLast = some .directory
      ∧ d₁.nodeAt (placeOf env s.name) ≠ some .directory
      ∧ (env.save toJson d s).2 = (d₁.write (placeOf env s.name) json.toByteArray s.write).2
      ∧ match (d₁.write (placeOf env s.name) json.toByteArray s.write).1 with
        | .ok () => ∃ path, (env.save toJson d s).1 = .ok path
        | .error _ => ∃ e, (env.save toJson d s).1 = .error e := by
  obtain ⟨json, hj⟩ := h.text
  have hp : env.pathFor s.name = .ok (join env.trajectoryDirPath (fileOf s.name)) :=
    pathFor_ok.mpr ⟨h.name, rfl⟩
  have hdrop : (placeOf env s.name).dropLast = components env.trajectoryDirPath :=
    List.dropLast_concat
  have hsame := sameStore_createDirAll env d s.refuseDir
  refine ⟨json, _, hj, hsame, by rw [hdrop, Disk.createDirAll_ok h.directory], ?_, ?_⟩
  · rw [placeOf, hsame]
    exact h.place
  · have hc := h.directory
    unfold PlannerEnv.save
    rw [hp]
    dsimp only
    rw [components_pathFor hp, hdrop]
    -- from here on the outcome is that of the one write
    rcases hr : d.createDirAll s.refuseDir (components env.trajectoryDirPath) with ⟨made, d₁⟩
    rw [hr] at hc
    cases hc
    dsimp only
    rw [hj]
    dsimp only
    rcases d₁.write (placeOf env s.name) json.toByteArray s.write with ⟨written, d₂⟩
    cases written with
    | error e => exact ⟨rfl, _, rfl⟩
    | ok u => exact ⟨rfl, _, rfl⟩

/-- The writing is cut short, after the file was truncated. -/
def CutShort (env : PlannerEnv) (toJson : StoredTrajectory → Except String String) (d : Disk)
    (s : Saving) : Prop :=
  Begins env toJson d s ∧ ∃ kept e, s.write = .cutShort kept e

/-- The files of the other names are as they were. -/
def OthersKept (env : PlannerEnv) (d d' : Disk) (name : String) : Prop :=
  ∀ file ≠ fileOf name, d'.nodeAt (components env.trajectoryDirPath ++ [file])
    = d.nodeAt (components env.trajectoryDirPath ++ [file])

/-- What a call of `save` can come to. -/
inductive SaveOutcome (env : PlannerEnv) (toJson : StoredTrajectory → Except String String)
    (d : Disk) (s : Saving) : Prop
  | written (json : String) (hv : validateName s.name = .ok ()) (hj : toJson s.stored = .ok json)
      (hcut : ¬ CutShort env toJson d s) (hres : ∃ path, (env.save toJson d s).1 = .ok path)
      (hplace : (env.save toJson d s).2.nodeAt (placeOf env s.name)
        = some (.file json.toByteArray))
      (hothers : OthersKept env d (env.save toJson d s).2 s.name)
  | cut (json : String) (kept : Nat) (hv : validateName s.name = .ok ())
      (hj : toJson s.stored = .ok json) (hcut : CutShort env toJson d s)
      (hres : ∃ e, (env.save toJson d s).1 = .error e)
      (hplace : (env.save toJson d s).2.nodeAt (placeOf env s.name)
        = some (.file (Disk.partOf json.toByteArray kept)))
      (hothers : OthersKept env d (env.save toJson d s).2 s.name)
  | untouched (hcut : ¬ CutShort env toJson d s) (hres : ∃ e, (env.save toJson d s).1 = .error e)
      (hsame : SameStore env d (env.save toJson d s).2)

theorem save_outcome (env : PlannerEnv) (toJson : StoredTrajectory → Except String String)
    (d : Disk) (s : Saving) : SaveOutcome env toJson d s := by
  by_cases h : Begins env toJson d s
  · obtain ⟨json, d₁, hj, hsame, hparent, hplace, hdisk, hres⟩ := save_begins h
    have hwrite := Disk.write_at json.toByteArray s.write hparent hplace
    have hothers : OthersKept env d (env.save toJson d s).2 s.name := by
      intro file hne
      rw [hdisk, Disk.write_other, hsame]
      intro he
      exact hne (List.singleton_inj.mp (List.append_cancel_left he))
    -- the write is done, did not come to open the file, or broke off in it
    cases hw : s.write with
    | done =>
        rw [hw] at hwrite hdisk hres
        rw [hwrite.1] at hres
        refine .written json h.name hj ?_ hres (hdisk ▸ hwrite.2) hothers
        rintro ⟨-, kept, e, he⟩
        rw [hw] at he
        cases he
    | notOpened e =>
        rw [hw] at hwrite hdisk hres
        rw [hwrite] at hdisk hres
        refine .untouched ?_ hres (hdisk ▸ hsame)
        rintro ⟨-, kept, e', he⟩
        rw [hw] at he
        cases he
    | cutShort kept e =>
        rw [hw] at hwrite hdisk hres
        rw [hwrite.1] at hres
        exact .cut json kept h.name hj ⟨h, kept, e, hw⟩ hres (hdisk ▸ hwrite.2) hothers
  · obtain ⟨hres, hsame⟩ := save_refused h
    exact .untouched (fun hcut => h hcut.1) hres hsame

/-! ## The laws of the store -/

/-- What `serde_json` does with one record, all of whose numbers are finite. -/
structure SerdeExact (toJson : StoredTrajectory → Except String String)
    (fromStr : String → Except String StoredTrajectory) (stored : StoredTrajectory) : Prop where
  round_trip : ∀ json, toJson stored = .ok json → fromStr json = .ok stored
  nonempty : ∀ json, toJson stored = .ok json → 0 < json.toByteArray.size
  /-- The text of a record does not end before the record does. -/
  cut_refused : ∀ json k text, toJson stored = .ok json → k < json.toByteArray.size →
    text.toByteArray = json.toByteArray.extract 0 k → ∃ e, fromStr text = .error e

/-- What holds of a store, whatever is in it, when a trajectory is saved. -/
structure StoreLaws (env : PlannerEnv) (toJson : StoredTrajectory → Except String String)
    (d : Disk) (s : Saving) : Prop where
  /-- A name that is accepted stands for a file of the trajectory directory, -/
  inside : ∀ name path, env.pathFor name = .ok path →
    ∃ file, IsPlain file ∧ components path = components env.trajectoryDirPath ++ [file]
  /-- and not for that of another name. -/
  apart : ∀ name name' path path', env.pathFor name = .ok path → env.pathFor name' = .ok path' →
    components path = components path' → name = name'
  saves : ∀ path, (env.save toJson d s).1 = .ok path →
    ∃ stored, (env.onDisk (env.save toJson d s).2).load s.name = .ok stored
      ∧ stored.trajectory = s.trajectory
  others : ∀ name ≠ s.name,
    (env.onDisk (env.save toJson d s).2).load name = (env.onDisk d).load name
  keeps : ¬ CutShort env toJson d s → ∀ e, (env.save toJson d s).1 = .error e →
    ∀ name, (env.onDisk (env.save toJson d s).2).load name = (env.onDisk d).load name
  /-- A write that fails after the file was truncated leaves nothing that can be loaded. -/
  loses : CutShort env toJson d s → (∃ e, (env.save toJson d s).1 = .error e)
    ∧ ∃ e, (env.onDisk (env.save toJson d s).2).load s.name = .error e
  /-- What is listed is what was there and what has been written, each once and in order. -/
  lists : env.trajectoryDirPath ≠ "" → ∀ fault names,
    env.list (env.save toJson d s).2 fault = .ok names →
      names.Pairwise (· < ·) ∧ ∀ name, name ∈ names ↔ HasEntry env d name
        ∨ name = s.name
          ∧ ((∃ path, (env.save toJson d s).1 = .ok path) ∨ CutShort env toJson d s)
  listed : env.trajectoryDirPath ≠ "" → ∀ path, (env.save toJson d s).1 = .ok path →
    ∃ names, env.list (env.save toJson d s).2 none = .ok names

theorem pathFor_inside (h : env.pathFor name = .ok path) :
    ∃ file, IsPlain file ∧ components path = components env.trajectoryDirPath ++ [file] :=
  ⟨fileOf name, isPlain_fileOf (pathFor_ok.mp h).1, components_pathFor h⟩

theorem pathFor_apart {name' path' : String} (h : env.pathFor name = .ok path)
    (h' : env.pathFor name' = .ok path') (hc : components path = components path') :
    name = name' := by
  rw [components_pathFor h, components_pathFor h'] at hc
  have hfile := List.append_cancel_left hc
  exact fileOf_injective (List.singleton_inj.mp hfile)

theorem OthersKept.load (h : OthersKept env d d' s.name) (hne : name ≠ s.name) :
    (env.onDisk d').load name = (env.onDisk d).load name :=
  load_congr (h _ fun he => hne (fileOf_injective he))

/-- A file that holds a part of a record is refused. -/
theorem load_cut {json : String} {kept : Nat} {stored : StoredTrajectory}
    (hs : SerdeExact toJson env.parseStored stored) (hj : toJson stored = .ok json)
    (hf : d.nodeAt (placeOf env name) = some (.file (Disk.partOf json.toByteArray kept))) :
    ∃ e, (env.onDisk d).load name = .error e := by
  cases hl : (env.onDisk d).load name with
  | error e => exact ⟨e, rfl⟩
  | ok stored' =>
      obtain ⟨path, text, hp, ht, hparse, -⟩ := load_ok.mp hl
      rw [Disk.readToString_file ((find_pathFor hp).trans hf)] at ht
      obtain ⟨k, hk, hpart⟩ := Disk.partOf_eq (hs.nonempty json hj) kept
      obtain ⟨e, he⟩ := hs.cut_refused json k text hj hk (hpart ▸ Disk.textOf_ok ht)
      rw [he] at hparse
      cases hparse

/-- No save changes what is under another name. -/
theorem save_load_other (hne : name ≠ s.name) :
    (env.onDisk (env.save toJson d s).2).load name = (env.onDisk d).load name := by
  cases save_outcome env toJson d s with
  | written json hv hj hcut hres hplace hothers => exact hothers.load hne
  | cut json kept hv hj hcut hres hplace hothers => exact hothers.load hne
  | untouched hcut hres hsame => exact hsame.load name

/-- A save that returns a path has written its file. -/
theorem save_ok (hok : (env.save toJson d s).1 = .ok path) :
    ∃ json, validateName s.name = .ok () ∧ toJson s.stored = .ok json
      ∧ (env.save toJson d s).2.nodeAt (placeOf env s.name) = some (.file json.toByteArray) := by
  have herr : ¬ ∃ e, (env.save toJson d s).1 = .error e := by
    rintro ⟨e, he⟩
    rw [hok] at he
    cases he
  cases save_outcome env toJson d s with
  | written json hv hj hcut hres hplace hothers => exact ⟨json, hv, hj, hplace⟩
  | cut json kept hv hj hcut hres hplace hothers => exact absurd hres herr
  | untouched hcut hres hsame => exact absurd hres herr

theorem save_load (hs : SerdeExact toJson env.parseStored s.stored)
    (hok : (env.save toJson d s).1 = .ok path) :
    (env.onDisk (env.save toJson d s).2).load s.name = .ok s.stored := by
  obtain ⟨json, hv, hj, hplace⟩ := save_ok hok
  exact load_written hv hplace (hs.round_trip json hj) rfl

theorem save_keeps {e : String} (hcut : ¬ CutShort env toJson d s)
    (he : (env.save toJson d s).1 = .error e) (name : String) :
    (env.onDisk (env.save toJson d s).2).load name = (env.onDisk d).load name := by
  cases save_outcome env toJson d s with
  | written json hv hj _ hres hplace hothers =>
      obtain ⟨path, hok⟩ := hres
      rw [he] at hok
      cases hok
  | cut json kept hv hj h hres hplace hothers => exact absurd h hcut
  | untouched _ hres hsame => exact hsame.load name

theorem save_loses (hs : SerdeExact toJson env.parseStored s.stored)
    (hcut : CutShort env toJson d s) : (∃ e, (env.save toJson d s).1 = .error e)
      ∧ ∃ e, (env.onDisk (env.save toJson d s).2).load s.name = .error e := by
  cases save_outcome env toJson d s with
  | written json hv hj h hres hplace hothers => exact absurd hcut h
  | cut json kept hv hj _ hres hplace hothers => exact ⟨hres, load_cut hs hj hplace⟩
  | untouched h hres hsame => exact absurd hcut h

/-- The entries after a save that has written the file, in whole or in part. -/
theorem hasEntry_of_place (hv : validateName s.name = .ok ())
    (hplace : d'.nodeAt (placeOf env s.name) ≠ none) (hothers : OthersKept env d d' s.name) :
    HasEntry env d' name ↔ HasEntry env d name ∨ name = s.name := by
  have hne := (validateName_ok.mp hv).1
  by_cases he : name = s.name
  · rw [he]
    exact iff_of_true ⟨hne, hplace⟩ (.inr rfl)
  · unfold HasEntry
    rw [placeOf, hothers _ fun h => he (fileOf_injective h)]
    simp [he]

theorem save_entries : HasEntry env (env.save toJson d s).2 name ↔ HasEntry env d name
    ∨ name = s.name ∧ ((∃ path, (env.save toJson d s).1 = .ok path) ∨ CutShort env toJson d s) := by
  cases save_outcome env toJson d s with
  | written json hv hj hcut hres hplace hothers =>
      rw [hasEntry_of_place hv (by rw [hplace]; simp) hothers]
      simp [hres]
  | cut json kept hv hj hcut hres hplace hothers =>
      -- a file that was cut short is listed all the same
      rw [hasEntry_of_place hv (by rw [hplace]; simp) hothers]
      simp [hcut]
  | untouched hcut hres hsame =>
      obtain ⟨e, he⟩ := hres
      unfold HasEntry
      rw [placeOf, hsame]
      simp [hcut, he]

/-- A file that was saved is in a directory. -/
theorem save_directory (hok : (env.save toJson d s).1 = .ok path) :
    (env.save toJson d s).2.nodeAt (components env.trajectoryDirPath) = some .directory := by
  obtain ⟨json, hv, -, hplace⟩ := save_ok hok
  have hmem := (Disk.mem_nodes (not_anchor_placeOf (validateName_ok.mp hv).1)).mpr
    (by rw [hplace]; simp)
  have habove := (env.save toJson d s).2.rooted _ hmem
  rwa [placeOf, List.dropLast_concat] at habove

/--
**The store as a map.** Every name has a file of its own in the trajectory directory. A save
that returns a path has put the trajectory there and one that returns an error has changed
nothing, unless the write was cut short; then the file is listed and cannot be loaded.
-/
theorem save_laws (hs : SerdeExact toJson env.parseStored s.stored) :
    StoreLaws env toJson d s where
  inside := fun _ _ => pathFor_inside
  apart := fun _ _ _ _ => pathFor_apart
  saves := fun _ hok => ⟨s.stored, save_load hs hok, rfl⟩
  others := fun _ => save_load_other
  keeps := fun hcut _ => save_keeps hcut
  loses := save_loses hs
  lists := by
    intro hdir fault names hl
    obtain ⟨hsorted, hmem⟩ := list_ok hdir hl
    exact ⟨hsorted, fun name => (hmem name).trans save_entries⟩
  listed := fun hdir _ hok => list_returns hdir (save_directory hok)

/-! ## A file cut short -/

/-- Six times the same number, as `serde_json` lays an array out. -/
def sixLines (indent number : String) : String :=
  "[\n" ++ ",\n".intercalate (List.replicate 6 (indent ++ "  " ++ number)) ++ "\n" ++ indent ++ "]"

/-- A trajectory that goes nowhere. -/
def idleTrajectory : PlannedTrajectory where
  robotModel := "ur20"
  startJointPositions := 0
  waypoints := []
  durationEstimate := 0
  limits := ⟨fun _ => -4, fun _ => 4, fun _ => 2, fun _ => 4⟩
  warnings := []

def idleText : String :=
  "\x7b\n" ++ "\n".intercalate ["  \"schema_version\": 1,", "  \"name\": \"idle\",",
    "  \"created_unix_seconds\": 0,", "  \"request\": null,", "  \"trajectory\": \x7b",
    "    \"robot_model\": \"ur20\",",
    "    \"start_joint_positions\": " ++ sixLines "    " "0.0" ++ ",", "    \"waypoints\": [],",
    "    \"duration_estimate\": 0.0,", "    \"limits\": \x7b",
    "      \"position_min\": " ++ sixLines "      " "-4.0" ++ ",",
    "      \"position_max\": " ++ sixLines "      " "4.0" ++ ",",
    "      \"velocity_max\": " ++ sixLines "      " "2.0" ++ ",",
    "      \"acceleration_max\": " ++ sixLines "      " "4.0", "    \x7d,",
    "    \"warnings\": []", "  \x7d", "\x7d"]

def idleToJson (_ : StoredTrajectory) : Except String String := .ok idleText

/-- A save of it. -/
def idleSaving (write : Disk.WriteOutcome) : Saving where
  name := "idle"
  trajectory := idleTrajectory
  request := none
  clock := some 0
  refuseDir := fun _ => none
  write := write

/-- A process that reads that text and no other. -/
def idleEnv : PlannerEnv :=
  { bench with
    parseStored := fun text => if text = idleText then .ok (idleSaving .done).stored
      else .error "EOF while parsing a value at line 1 column 0" }

theorem idle_parse (write : Disk.WriteOutcome) :
    idleEnv.parseStored idleText = .ok (idleSaving write).stored := by
  unfold idleEnv
  dsimp only
  rw [if_pos rfl]
  rfl

theorem idle_serde (write : Disk.WriteOutcome) :
    SerdeExact idleToJson idleEnv.parseStored (idleSaving write).stored where
  round_trip := by
    intro json h
    obtain rfl : idleText = json := Except.ok.inj h
    exact idle_parse write
  nonempty := by
    intro json h
    obtain rfl : idleText = json := Except.ok.inj h
    rw [idleText, String.toByteArray_append, ByteArray.size_append]
    exact Nat.add_pos_left (by decide) _
  cut_refused := by
    intro json k text h hk ht
    obtain rfl : idleText = json := Except.ok.inj h
    refine ⟨_, if_neg ?_⟩
    -- a proper part of the text is shorter than the text
    intro he
    rw [he] at ht
    have hsize := congrArg ByteArray.size ht
    rw [ByteArray.size_extract] at hsize
    omega

/-- A disk with a copy of it under another name. -/
def copiedDisk : Disk :=
  (idleEnv.save idleToJson Disk.empty { idleSaving .done with name := "wait" }).2

theorem copy_load : (idleEnv.onDisk copiedDisk).load "wait" = .ok (idleSaving .done).stored := by
  have hok : (idleEnv.save idleToJson Disk.empty { idleSaving .done with name := "wait" }).1
      = .ok "trajectories/wait.json" := by rfl
  obtain ⟨json, hv, hj, hplace⟩ := save_ok hok
  obtain rfl : idleText = json := Except.ok.inj hj
  exact load_written hv hplace (idle_parse .done) rfl

theorem copied_result :
    (idleEnv.save idleToJson copiedDisk (idleSaving .done)).1 = .ok "trajectories/idle.json" := by
  rfl

/-- Saving the trajectory beside its copy: both can be loaded afterwards. -/
theorem save_laws_idle :
    (idleEnv.save idleToJson copiedDisk (idleSaving .done)).1 = .ok "trajectories/idle.json"
      ∧ StoreLaws idleEnv idleToJson copiedDisk (idleSaving .done)
      ∧ (idleEnv.onDisk (idleEnv.save idleToJson copiedDisk (idleSaving .done)).2).load "wait"
        = .ok (idleSaving .done).stored := by
  have hlaws : StoreLaws idleEnv idleToJson copiedDisk (idleSaving .done) :=
    save_laws (idle_serde .done)
  refine ⟨copied_result, hlaws, ?_⟩
  rw [hlaws.others "wait" (by decide), copy_load]

theorem idle_result :
    (idleEnv.save idleToJson Disk.empty (idleSaving .done)).1 = .ok "trajectories/idle.json" := by
  rfl

/-- The disk after it was saved. -/
def idleDisk : Disk := (idleEnv.save idleToJson Disk.empty (idleSaving .done)).2

theorem idle_place :
    idleDisk.nodeAt (placeOf idleEnv "idle") = some (.file idleText.toByteArray) := by
  obtain ⟨json, -, hj, hplace⟩ := save_ok idle_result
  obtain rfl : idleText = json := Except.ok.inj hj
  exact hplace

theorem idle_begins (write : Disk.WriteOutcome) :
    Begins idleEnv idleToJson idleDisk (idleSaving write) where
  name := by
    show validateName "idle" = .ok ()
    decide
  directory := by rfl
  text := ⟨idleText, rfl⟩
  place := by
    show idleDisk.nodeAt (placeOf idleEnv "idle") ≠ some .directory
    rw [idle_place]
    simp

/-- The disk is full when the trajectory is saved again. -/
def fullDisk : Saving := idleSaving (.cutShort 0 "No space left on device (os error 28)")

/-- The save is refused, and the trajectory that was there is gone. -/
theorem refused_save_loses :
    (idleEnv.onDisk idleDisk).load "idle" = .ok (idleSaving .done).stored
      ∧ (∃ e, (idleEnv.save idleToJson idleDisk fullDisk).1 = .error e)
      ∧ ∃ e, (idleEnv.onDisk (idleEnv.save idleToJson idleDisk fullDisk).2).load "idle"
        = .error e := by
  have hv : validateName "idle" = .ok () := by decide
  refine ⟨load_written hv idle_place (idle_parse .done) rfl, ?_⟩
  cases save_outcome idleEnv idleToJson idleDisk fullDisk with
  | written json hv hj hcut hres hplace hothers =>
      exact absurd ⟨idle_begins _, 0, _, rfl⟩ hcut
  | cut json kept hv hj hcut hres hplace hothers =>
      exact ⟨hres, load_cut (idle_serde _) hj hplace⟩
  | untouched hcut hres hsame => exact absurd ⟨idle_begins _, 0, _, rfl⟩ hcut

end

end UrRedisDriver.Proof
