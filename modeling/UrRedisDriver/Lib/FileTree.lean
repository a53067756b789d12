import Mathlib.Data.List.AList
import UrRedisDriver.Lib.Text

/-!
# Files and directories

Paths, taken apart as `std::path` takes them apart, and a tree of files and directories with
the operations of `std::fs` a program that keeps its state in files is written with. What the
operating system answers is an input: it may refuse a directory or a file, and a write may
end after part of the text.
-/

namespace FileTree

/-! ## Paths -/

/-- The names between the slashes of a path. A `.` names nothing. -/
def segments (l : List Char) : List String :=
  ((l.splitOn '/').map String.ofList).filter fun s => s != "" && s != "."

/-- `Path::components`, without the `.` a path may start with. -/
def components (path : String) : List String :=
  (if Text.startsWith path "/" then ["/"] else []) ++ segments path.toList

/-- `Path::join`, with a relative path. -/
def join (dir file : String) : String :=
  (if dir.isEmpty || Text.endsWith dir "/" then dir else dir ++ "/") ++ file

/-- `Path::parent`, as it is displayed. -/
def parentText (path : String) : String :=
  let names := Text.split path '/'
  let above := names.dropLast.rdropWhile fun s => s == "" || s == "."
  if !above.isEmpty then "/".intercalate above
  else if Text.startsWith path "/" then "/"
  else if names.head? = some "." then "."
  else ""

/-- A file name is cut at its last dot, unless that is what it starts with. -/
def splitAtDot (file : String) : Option String × Option String :=
  if file = ".." then (some file, none)
  else match Text.rsplitOnce file '.' with
    | none => (none, some file)
    | some (before, after) => if before = "" then (some file, none) else (some before, some after)

/-- `Path::file_stem`. -/
def fileStem (file : String) : Option String := (splitAtDot file).1.or (splitAtDot file).2

/-- `Path::extension`. -/
def extension (file : String) : Option String :=
  (splitAtDot file).1.bind fun _ => (splitAtDot file).2

/-- A name that stands for an entry of the directory it is looked up in. -/
structure IsPlain (file : String) : Prop where
  no_slash : '/' ∉ file.toList
  nonempty : file ≠ ""
  not_dot : file ≠ "."
  not_dots : file ≠ ".."

theorem segments_append (l m : List Char) :
    segments (l ++ '/' :: m) = segments l ++ segments m := by
  unfold segments
  rw [List.splitOn_append_cons_self, List.map_append, List.filter_append]

theorem segments_plain {file : String} (h : IsPlain file) : segments file.toList = [file] := by
  unfold segments
  rw [List.splitOn_eq_singleton h.no_slash, List.map_singleton, String.ofList_toList]
  have h1 := h.nonempty
  have h2 := h.not_dot
  simp [h1, h2]

@[simp] theorem segments_nil : segments [] = [] := by
  simp [segments]

theorem startsWith_slash (s : String) :
    Text.startsWith s "/" = decide (s.toList.head? = some '/') := by
  have htext : "/".toList = ['/'] := rfl
  unfold Text.startsWith
  rw [htext]
  cases s.toList with
  | nil => rfl
  | cons c l =>
      rw [Bool.eq_iff_iff, List.isPrefixOf_iff_prefix, decide_eq_true_iff, List.cons_prefix_cons,
        List.head?_cons, Option.some_inj]
      exact ⟨fun h => h.1.symm, fun h => ⟨h.symm, List.nil_prefix⟩⟩

/-- A plain name is one component more. -/
theorem components_join {dir file : String} (h : IsPlain file) :
    components (join dir file) = components dir ++ [file] := by
  have htext : "/".toList = ['/'] := rfl
  unfold components
  rw [startsWith_slash, startsWith_slash]
  by_cases hempty : dir = ""
  · have hhead : file.toList.head? ≠ some '/' := fun hc => h.no_slash (List.mem_of_mem_head? hc)
    have hjoin : join dir file = file := by
      rw [hempty, join, if_pos (by simp), String.empty_append]
    rw [hjoin, hempty, segments_plain h]
    simp [hhead]
  · have hne : dir.toList ≠ [] := fun h0 => hempty (String.toList_inj.mp h0)
    -- the separator is put in only where the directory does not end in one
    by_cases hend : ['/'] <:+ dir.toList
    · obtain ⟨m, hm⟩ := hend
      have hjoin : (join dir file).toList = m ++ '/' :: file.toList := by
        have hif : Text.endsWith dir "/" = true :=
          List.isSuffixOf_iff_suffix.mpr ⟨m, by rw [htext, hm]⟩
        rw [join, if_pos (by simp [hif]), String.toList_append, ← hm, List.append_assoc,
          List.singleton_append]
      have hhead : (m ++ '/' :: file.toList).head? = (m ++ ['/']).head? := by
        cases m <;> rfl
      rw [hjoin, ← hm, hhead, segments_append, segments_append, segments_plain h, segments_nil,
        List.append_nil, List.append_assoc]
    · have hjoin : (join dir file).toList = dir.toList ++ '/' :: file.toList := by
        have hif : Text.endsWith dir "/" = false := by
          rw [← Bool.not_eq_true]
          exact fun hc => hend (List.isSuffixOf_iff_suffix.mp hc)
        rw [join, if_neg (by simp [hif, hempty]), String.toList_append, String.toList_append,
          htext, List.append_assoc, List.singleton_append]
      rw [hjoin, List.head?_append_of_ne_nil _ hne, segments_append, segments_plain h,
        List.append_assoc]

theorem splitAtDot_append {stem ext : String} (hs : stem ≠ "") (he : '.' ∉ ext.toList)
    (hx : ext ≠ "") : splitAtDot (stem ++ "." ++ ext) = (some stem, some ext) := by
  have hcut : Text.rsplitOnce (stem ++ "." ++ ext) '.' = some (stem, ext) := by
    rw [Text.rsplitOnce_append (a := stem.toList) (b := ext.toList) (by simp) he,
      String.ofList_toList, String.ofList_toList]
  -- the last character is one of the extension, which has no dot
  have hdots : stem ++ "." ++ ext ≠ ".." := by
    intro h
    have hl := congrArg String.toList h
    rw [String.toList_append, String.toList_append] at hl
    have hlast := congrArg List.getLast? hl
    have hxl : ext.toList ≠ [] := fun h0 => hx (String.toList_inj.mp h0)
    rw [List.getLast?_append_of_ne_nil _ hxl, List.getLast?_eq_getLast_of_ne_nil hxl] at hlast
    have hdot : ext.toList.getLast hxl = '.' := by simpa using hlast
    exact he (hdot ▸ List.getLast_mem hxl)
  unfold splitAtDot
  rw [if_neg hdots, hcut]
  exact if_neg hs

theorem eq_of_splitAtDot {file stem ext : String} (h : splitAtDot file = (some stem, some ext)) :
    file = stem ++ "." ++ ext := by
  unfold splitAtDot at h
  split at h
  · cases h
  · split at h
    · cases h
    · rename_i before after hcut
      split at h
      · cases h
      · cases h
        exact Text.eq_of_rsplitOnce hcut

/-- What the stem and the extension of a file name say about it. -/
theorem eq_of_extension {file stem ext : String} (hs : fileStem file = some stem)
    (he : extension file = some ext) : file = stem ++ "." ++ ext := by
  unfold fileStem at hs
  unfold extension at he
  obtain ⟨before, hb, ha⟩ := Option.bind_eq_some_iff.mp he
  rw [hb] at hs
  cases hs
  exact eq_of_splitAtDot (Prod.ext hb ha)

theorem fileStem_append {stem ext : String} (hs : stem ≠ "") (he : '.' ∉ ext.toList)
    (hx : ext ≠ "") : fileStem (stem ++ "." ++ ext) = some stem := by
  rw [fileStem, splitAtDot_append hs he hx]
  rfl

theorem extension_append {stem ext : String} (hs : stem ≠ "") (he : '.' ∉ ext.toList)
    (hx : ext ≠ "") : extension (stem ++ "." ++ ext) = some ext := by
  rw [extension, splitAtDot_append hs he hx]
  rfl

/-! ## The tree -/

/-- What stands at a path. -/
inductive Node
  | file (bytes : ByteArray)
  | directory

instance (n : Option Node) : Decidable (n = some .directory) :=
  match n with
  | some .directory => isTrue rfl
  | some (.file _) => isFalse fun h => by cases h
  | none => isFalse fun h => by cases h

/-- A component that leads somewhere in every tree. -/
def isAnchor (component : String) : Bool := component == "/" || component == ".."

/-- What a list of nodes has at a path. -/
def nodeIn (nodes : AList fun _ : List String => Node) (path : List String) : Option Node :=
  if path.all isAnchor then some .directory else nodes.lookup path

/--
Files and directories, by the components of the path they are reached under, in the order a
directory is read in.
-/
structure Disk where
  nodes : AList fun _ : List String => Node
  /-- Everything is in a directory. -/
  rooted : ∀ path ∈ nodes, nodeIn nodes path.dropLast = some .directory

namespace Disk

def nodeAt (d : Disk) (path : List String) : Option Node := nodeIn d.nodes path

/-- A disk with nothing on it. -/
def empty : Disk where
  nodes := ∅
  rooted := fun path hp => absurd hp (AList.notMem_empty path)

variable {d : Disk} {path q : List String} {n : Node}

theorem mem_nodes (h : path.all isAnchor = false) : path ∈ d.nodes ↔ d.nodeAt path ≠ none := by
  rw [nodeAt, nodeIn, if_neg (by simp [h]), Ne, AList.lookup_eq_none, not_not]

theorem not_anchor (h : d.nodeAt path ≠ some .directory) : path.all isAnchor = false := by
  rw [← Bool.not_eq_true]
  intro ha
  exact h (if_pos ha)

theorem nodeIn_insert (ha : path.all isAnchor = false) (nodes : AList fun _ : List String => Node) :
    nodeIn (nodes.insert path n) q = if q = path then some n else nodeIn nodes q := by
  unfold nodeIn
  by_cases hq : q = path
  · rw [if_pos hq, hq, if_neg (by simp [ha]), AList.lookup_insert]
  · rw [if_neg hq, AList.lookup_insert_ne hq]

/-- A node in a directory, in place of what was there if that was a file. -/
def put (d : Disk) (path : List String) (n : Node)
    (hparent : d.nodeAt path.dropLast = some .directory) (hp : d.nodeAt path ≠ some .directory) :
    Disk where
  nodes := d.nodes.insert path n
  rooted := by
    intro q hq
    have hne : ∀ r, d.nodeAt r = some .directory → r ≠ path := by
      intro r hr he
      exact hp (he ▸ hr)
    have hold : d.nodeAt q.dropLast = some .directory := by
      rcases (AList.mem_insert d.nodes).mp hq with rfl | hq
      · exact hparent
      · exact d.rooted q hq
    rw [nodeIn_insert (not_anchor hp), if_neg (hne _ hold)]
    exact hold

theorem nodeAt_put (hparent : d.nodeAt path.dropLast = some .directory)
    (hp : d.nodeAt path ≠ some .directory) :
    (d.put path n hparent hp).nodeAt q = if q = path then some n else d.nodeAt q :=
  nodeIn_insert (not_anchor hp) d.nodes

/-! ## What `std::fs` does with it -/

/-- What stands at a path, given as text. No text names nothing. -/
def find (d : Disk) (path : String) : Option Node :=
  if path.isEmpty then none else d.nodeAt (components path)

/-- `Path::exists`. -/
def present (d : Disk) (path : String) : Bool := (d.find path).isSome

/-- The text the bytes of a file are read as. -/
def textOf (bytes : ByteArray) : Except String String :=
  match String.fromUTF8? bytes with
  | some text => .ok text
  | none => .error "stream did not contain valid UTF-8"

/-- `std::fs::read_to_string`. -/
def readToString (d : Disk) (path : String) : Except String String :=
  match d.find path with
  | none => .error "No such file or directory (os error 2)"
  | some .directory => .error "Is a directory (os error 21)"
  | some (.file bytes) => textOf bytes

/-- One directory of those a path leads through, made where it is missing. -/
def createDir (d : Disk) (refuse : List String → Option String) (last : Bool)
    (path : List String) : Except String Unit × Disk :=
  match h : d.nodeAt path with
  | some .directory => (.ok (), d)
  | some (.file _) =>
      (.error (if last then "File exists (os error 17)" else "Not a directory (os error 20)"), d)
  | none =>
      match refuse path with
      | some e => (.error e, d)
      | none =>
          if hparent : d.nodeAt path.dropLast = some .directory then
            (.ok (), d.put path .directory hparent (by rw [h]; simp))
          else (.error "No such file or directory (os error 2)", d)

/-- The directories of a list, in order. -/
def createDirs (refuse : List String → Option String) :
    Disk → List (List String) → Except String Unit × Disk
  | d, [] => (.ok (), d)
  | d, path :: paths =>
      match d.createDir refuse paths.isEmpty path with
      | (.error e, d) => (.error e, d)
      | (.ok (), d) => createDirs refuse d paths

/-- `std::fs::create_dir_all`, where the system refuses some directories. -/
def createDirAll (refuse : List String → Option String) (d : Disk) (path : List String) :
    Except String Unit × Disk := d.createDirs refuse path.inits

/-- How the system goes along with a `std::fs::write`. -/
inductive WriteOutcome
  | done
  /-- The file cannot be opened for writing. -/
  | notOpened (e : String)
  /-- The file is truncated, and the writing ends in an error with some of the bytes written. -/
  | cutShort (kept : Nat) (e : String)

/-- The bytes of a write that was cut short. One that wrote them all reports no error. -/
def partOf (bytes : ByteArray) (kept : Nat) : ByteArray :=
  bytes.extract 0 (min kept (bytes.size - 1))

/-- `std::fs::write`. -/
def write (d : Disk) (path : List String) (bytes : ByteArray) (outcome : WriteOutcome) :
    Except String Unit × Disk :=
  if hp : d.nodeAt path = some .directory then (.error "Is a directory (os error 21)", d)
  else if hparent : d.nodeAt path.dropLast = some .directory then
    match outcome with
    | .done => (.ok (), d.put path (.file bytes) hparent hp)
    | .notOpened e => (.error e, d)
    | .cutShort kept e => (.error e, d.put path (.file (partOf bytes kept)) hparent hp)
  else (.error "No such file or directory (os error 2)", d)

/-- The names in a directory. -/
def entries (d : Disk) (dir : List String) : List String :=
  d.nodes.keys.filterMap fun path => if path.dropLast = dir then path.getLast? else none

/-- Why a directory is not read to its end. -/
inductive DirFault
  | cannotOpen (e : String)
  | badEntry (e : String)

/-- `std::fs::read_dir`, gone through to its end. -/
def readDir (d : Disk) (dir : String) (fault : Option DirFault) : Except DirFault (List String) :=
  match d.find dir with
  | none => .error (.cannotOpen "No such file or directory (os error 2)")
  | some (.file _) => .error (.cannotOpen "Not a directory (os error 20)")
  | some .directory =>
      match fault with
      | some f => .error f
      | none => .ok (d.entries (components dir))

/-! ## What it leaves -/

theorem mem_entries {dir : List String} {file : String} :
    file ∈ d.entries dir ↔ dir ++ [file] ∈ d.nodes := by
  unfold entries
  rw [List.mem_filterMap, AList.mem_keys]
  constructor
  · rintro ⟨p, hp, hf⟩
    split at hf
    · rename_i hdir
      rwa [← hdir, List.dropLast_append_getLast? file hf]
    · cases hf
  · intro h
    refine ⟨_, h, ?_⟩
    rw [if_pos List.dropLast_concat, List.getLast?_concat]

theorem entries_nodup (dir : List String) : (d.entries dir).Nodup := by
  refine List.Nodup.filterMap ?_ d.nodes.keys_nodup
  intro p p' file hp hp'
  -- parent and last part determine a path
  split at hp
  · split at hp'
    · rename_i hd hd'
      rw [← List.dropLast_append_getLast? file hp, ← List.dropLast_append_getLast? file hp', hd,
        hd']
    · cases hp'
  · cases hp

theorem readDir_ok {dir : String} {fault : Option DirFault} {files : List String} :
    d.readDir dir fault = .ok files
      ↔ d.find dir = some .directory ∧ fault = none ∧ files = d.entries (components dir) := by
  unfold readDir
  cases hf : d.find dir with
  | none => simp
  | some node =>
      cases node with
      | file bytes => simp
      | directory => cases fault <;> simp [eq_comm]

/-- A directory is refused, or it is there afterwards and all else is as it was. -/
theorem createDir_cases (d : Disk) (refuse : List String → Option String) (last : Bool)
    (path : List String) :
    (∃ e, d.createDir refuse last path = (.error e, d))
      ∨ ∃ d' : Disk, d.createDir refuse last path = (.ok (), d')
        ∧ d'.nodeAt path = some .directory
        ∧ ∀ q, q ≠ path ∨ d.nodeAt q = some .directory → d'.nodeAt q = d.nodeAt q := by
  unfold createDir
  split
  · rename_i hdir
    exact .inr ⟨d, rfl, hdir, fun q _ => rfl⟩
  · exact .inl ⟨_, rfl⟩
  · -- nothing is there: the directory is made if its parent is one and nothing refuses
    rename_i hnone
    split
    · exact .inl ⟨_, rfl⟩
    · split
      · refine .inr ⟨_, rfl, ?_, ?_⟩
        · rw [nodeAt_put, if_pos rfl]
        · intro q hq
          have hne : q ≠ path := by
            rcases hq with hq | hq
            · exact hq
            · intro he
              rw [he, hnone] at hq
              cases hq
          rw [nodeAt_put, if_neg hne]
      · exact .inl ⟨_, rfl⟩

/-- Making directories leaves everything else, and every directory, as it was. -/
theorem createDirs_nodeAt {refuse : List String → Option String} {paths : List (List String)}
    (hq : q ∉ paths ∨ d.nodeAt q = some .directory) :
    (d.createDirs refuse paths).2.nodeAt q = d.nodeAt q := by
  induction paths generalizing d with
  | nil => rfl
  | cons path paths ih =>
      unfold createDirs
      obtain ⟨e, he⟩ | ⟨d', he, -, hkeep⟩ := createDir_cases d refuse paths.isEmpty path
      · -- what was made before the refusal stays, and this place was none of it
        rw [he]
      · have hsame : d'.nodeAt q = d.nodeAt q :=
          hkeep q (hq.imp_left fun h hm => h (hm ▸ List.mem_cons_self))
        have hrest : q ∉ paths ∨ d'.nodeAt q = some .directory := by
          rw [hsame]
          exact hq.imp_left fun h hm => h (List.mem_cons_of_mem _ hm)
        rw [he]
        exact (ih hrest).trans hsame

theorem createDirs_ok {refuse : List String → Option String} {paths : List (List String)}
    (h : (d.createDirs refuse paths).1 = .ok ()) :
    ∀ p ∈ paths, (d.createDirs refuse paths).2.nodeAt p = some .directory := by
  induction paths generalizing d with
  | nil => exact fun p hp => absurd hp List.not_mem_nil
  | cons path paths ih =>
      unfold createDirs at h ⊢
      obtain ⟨e, he⟩ | ⟨d', he, hdir, -⟩ := createDir_cases d refuse paths.isEmpty path
      · rw [he] at h
        cases h
      · rw [he] at h ⊢
        intro p hp
        rcases List.mem_cons.mp hp with rfl | hp
        · -- once there, a directory is left alone by the rest
          exact (createDirs_nodeAt (.inr hdir)).trans hdir
        · exact ih h p hp

/-- Nothing below the directory changes when it is made. -/
theorem createDirAll_below {refuse : List String → Option String} {dir below : List String}
    (hb : below ≠ []) :
    (d.createDirAll refuse dir).2.nodeAt (dir ++ below) = d.nodeAt (dir ++ below) := by
  refine createDirs_nodeAt (.inl ?_)
  rw [List.mem_inits]
  intro hp
  have hlen := hp.length_le
  rw [List.length_append] at hlen
  have : 0 < below.length := List.length_pos_of_ne_nil hb
  omega

theorem createDirAll_ok {refuse : List String → Option String} {dir : List String}
    (h : (d.createDirAll refuse dir).1 = .ok ()) :
    (d.createDirAll refuse dir).2.nodeAt dir = some .directory :=
  createDirs_ok h dir ((List.mem_inits _ _).mpr List.prefix_rfl)

/-- A write changes at most the file it is to. -/
theorem write_other {bytes : ByteArray} {outcome : WriteOutcome} (hq : q ≠ path) :
    (d.write path bytes outcome).2.nodeAt q = d.nodeAt q := by
  unfold write
  split
  · rfl
  · split
    · cases outcome with
      | done => rw [nodeAt_put, if_neg hq]
      -- only a file that was opened is touched
      | notOpened e => rfl
      | cutShort kept e => rw [nodeAt_put, if_neg hq]
    · rfl

/-- What a write into a directory leaves. -/
theorem write_at (bytes : ByteArray) (outcome : WriteOutcome)
    (hparent : d.nodeAt path.dropLast = some .directory) (hp : d.nodeAt path ≠ some .directory) :
    match outcome with
    | .done => (d.write path bytes outcome).1 = .ok ()
        ∧ (d.write path bytes outcome).2.nodeAt path = some (.file bytes)
    | .notOpened e => d.write path bytes outcome = (.error e, d)
    | .cutShort kept e => (d.write path bytes outcome).1 = .error e
        ∧ (d.write path bytes outcome).2.nodeAt path = some (.file (partOf bytes kept)) := by
  unfold write
  rw [dif_neg hp, dif_pos hparent]
  cases outcome with
  | done => exact ⟨rfl, by rw [nodeAt_put, if_pos rfl]⟩
  | notOpened e => rfl
  | cutShort kept e => exact ⟨rfl, by rw [nodeAt_put, if_pos rfl]⟩

theorem write_directory {bytes : ByteArray} {outcome : WriteOutcome}
    (hp : d.nodeAt path = some .directory) :
    d.write path bytes outcome = (.error "Is a directory (os error 21)", d) := dif_pos hp

theorem partOf_eq {bytes : ByteArray} (h : 0 < bytes.size) (kept : Nat) :
    ∃ k < bytes.size, partOf bytes kept = bytes.extract 0 k :=
  ⟨min kept (bytes.size - 1), by omega, rfl⟩

/-- Text that was written is read again. -/
@[simp] theorem textOf_toByteArray (text : String) : textOf text.toByteArray = .ok text := by
  have htext : String.fromUTF8? text.toByteArray = some text := by
    rw [String.fromUTF8?, dif_pos text.isValidUTF8]
    rfl
  rw [textOf, htext]

theorem textOf_ok {bytes : ByteArray} {text : String} (h : textOf bytes = .ok text) :
    text.toByteArray = bytes := by
  unfold textOf String.fromUTF8? at h
  by_cases hb : bytes.IsValidUTF8
  · rw [dif_pos hb] at h
    cases h
    rfl
  · rw [dif_neg hb] at h
    cases h

theorem readToString_file {path : String} {bytes : ByteArray}
    (h : d.find path = some (.file bytes)) : d.readToString path = textOf bytes := by
  unfold readToString
  rw [h]

/-- Reading sees nothing but the file that is read. -/
theorem readToString_congr {d' : Disk} {path : String} (h : d'.find path = d.find path) :
    d'.readToString path = d.readToString path := by
  unfold readToString
  rw [h]

end Disk

end FileTree
