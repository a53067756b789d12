import UrRedisDriver.Driver.RtFrames

/-!
# The realtime stream stays in sync

A frame is read whole or not at all: its prefix says how many bytes belong to it, and that
many are taken, understood or not. By induction, any number of frames in a row is read as
those frames, and what comes after them is read as if they had never been there.
-/

namespace UrRedisDriver.Proof

open ByteStream

/-- A frame on the wire: a prefix that counts itself, and a body that fills it. -/
structure Frame where
  header : List UInt8
  body : List UInt8
  header_length : header.length = 4
  counts : fromBeBytes header = body.length + 4
  nonempty : 0 < body.length
  bounded : body.length + 4 ≤ rtMaxFrameSize

namespace Frame

def bytes (f : Frame) : List UInt8 := f.header ++ f.body

/-- The length its prefix says. -/
def size (f : Frame) : Nat := fromBeBytes f.header

/-- What reading it yields: its body, if it is of the size the parser understands. -/
def yield (f : Frame) : Option (List UInt8) := if f.size = rtFrameSize then some f.body else none

theorem length_bytes (f : Frame) : f.bytes.length = f.size := by
  unfold bytes size
  rw [List.length_append, f.header_length, f.counts, Nat.add_comm]

end Frame

/-- Bytes that do not start with a frame: too few, a size out of range, or a body cut short. -/
def Broken (bytes : List UInt8) : Prop :=
  bytes.length < 4
    ∨ fromBeBytes (bytes.take 4) ≤ 4
    ∨ rtMaxFrameSize < fromBeBytes (bytes.take 4)
    ∨ bytes.length < fromBeBytes (bytes.take 4)

/-- Bytes start with a frame, or they are broken. -/
theorem frame_or_broken (bytes : List UInt8) :
    Broken bytes ∨ ∃ (f : Frame) (rest : List UInt8), bytes = f.bytes ++ rest := by
  by_cases h : Broken bytes
  · exact .inl h
  · simp only [Broken, not_or, not_lt, not_le] at h
    obtain ⟨h4, hlo, hhi, hlen⟩ := h
    have hbody : ((bytes.drop 4).take (fromBeBytes (bytes.take 4) - 4)).length
        = fromBeBytes (bytes.take 4) - 4 :=
      List.length_take_of_le (by rw [List.length_drop]; omega)
    right
    -- what is neither cut short nor out of bounds is a frame
    let f : Frame := {
      header := bytes.take 4
      body := (bytes.drop 4).take (fromBeBytes (bytes.take 4) - 4)
      header_length := List.length_take_of_le h4
      counts := by rw [hbody]; omega
      nonempty := by rw [hbody]; omega
      bounded := by rw [hbody]; omega }
    refine ⟨f, (bytes.drop 4).drop (fromBeBytes (bytes.take 4) - 4), ?_⟩
    show bytes = bytes.take 4 ++ (bytes.drop 4).take _ ++ (bytes.drop 4).drop _
    rw [List.append_assoc, List.take_append_drop, List.take_append_drop]

/-! ## One frame -/

/-- A frame is read whole, and nothing of what follows it. -/
theorem readFrame_frame (f : Frame) (rest : List UInt8) (ending : StreamEnd) :
    readFrame ⟨f.bytes ++ rest, ending⟩ = some (.ok (f.yield, ⟨rest, ending⟩)) := by
  have hp : readExact ⟨f.bytes ++ rest, ending⟩ 4 "timed out reading frame length"
      = .ok (f.header, ⟨f.body ++ rest, ending⟩) := by
    unfold Frame.bytes
    rw [List.append_assoc, ← f.header_length, readExact_append]
  have hb : readExact ⟨f.body ++ rest, ending⟩ f.body.length "timed out reading frame body"
      = .ok (f.body, ⟨rest, ending⟩) := readExact_append ..
  -- the length counts its own four bytes, so both checks of the source pass
  have hsize : ¬ (f.body.length + 4 ≤ 4 ∨ f.body.length + 4 > rtMaxFrameSize) := by
    have := f.nonempty
    have := f.bounded
    omega
  have hsub : checkedSub (f.body.length + 4) 4 = some f.body.length := by
    unfold checkedSub
    rw [if_pos (by omega), Nat.add_sub_cancel]
  unfold readFrame
  rw [hp]
  dsimp only
  rw [f.counts, if_neg hsize, hsub, Option.map_some, hb]
  unfold Frame.yield Frame.size
  rw [f.counts]
  by_cases h : f.body.length + 4 = rtFrameSize
  · simp [h]
  · simp [h]

/-- Broken bytes are an error. -/
theorem readFrame_broken {bytes : List UInt8} (h : Broken bytes) (ending : StreamEnd) :
    ∃ e, readFrame ⟨bytes, ending⟩ = some (.error e) := by
  unfold readFrame
  -- too short for the length, refused by it, or too short for the body
  by_cases h4 : bytes.length < 4
  · obtain ⟨e, he⟩ := readExact_short (s := ⟨bytes, ending⟩) h4 "timed out reading frame length"
    rw [he]
    exact ⟨e, rfl⟩
  · have hp : readExact ⟨bytes, ending⟩ 4 "timed out reading frame length"
        = .ok (bytes.take 4, ⟨bytes.drop 4, ending⟩) := if_pos (not_lt.mp h4)
    rw [hp]
    dsimp only
    by_cases hr : fromBeBytes (bytes.take 4) ≤ 4 ∨ fromBeBytes (bytes.take 4) > rtMaxFrameSize
    · rw [if_pos hr]
      exact ⟨_, rfl⟩
    · rw [if_neg hr]
      have hlen : (bytes.drop 4).length < fromBeBytes (bytes.take 4) - 4 := by
        unfold Broken at h
        rw [List.length_drop]
        omega
      have hsub : checkedSub (fromBeBytes (bytes.take 4)) 4
          = some (fromBeBytes (bytes.take 4) - 4) := if_pos (by omega)
      obtain ⟨e, he⟩ := readExact_short (s := ⟨bytes.drop 4, ending⟩) hlen
        "timed out reading frame body"
      rw [hsub, Option.map_some, he]
      exact ⟨e, rfl⟩

/-- No prefix makes the subtraction underflow. -/
theorem readFrame_total (stream : ByteStream) : readFrame stream ≠ none := by
  obtain ⟨bytes, ending⟩ := stream
  obtain h | ⟨f, rest, rfl⟩ := frame_or_broken bytes
  · obtain ⟨e, he⟩ := readFrame_broken h ending
    rw [he]
    simp
  · rw [readFrame_frame]
    simp

/-- A body that is handed on is that of a frame of the size the parser understands. -/
theorem length_of_yielded {s t : ByteStream} {buf : List UInt8}
    (h : readFrame s = some (.ok (some buf, t))) : buf.length + 4 = rtFrameSize := by
  obtain ⟨bytes, ending⟩ := s
  -- only a frame of the expected size is yielded, every other one is skipped
  obtain hb | ⟨f, rest, rfl⟩ := frame_or_broken bytes
  · obtain ⟨e, he⟩ := readFrame_broken hb ending
    rw [he] at h
    cases h
  · rw [readFrame_frame] at h
    have hy : f.yield = some buf := by
      injection h with h
      injection h with h
      exact (Prod.mk.inj h).1
    unfold Frame.yield at hy
    split at hy
    · rename_i hs
      rw [← Option.some.inj hy, ← f.counts]
      exact hs
    · cases hy

/-! ## The offsets -/

section Decode

variable {F : Type} (num : RtNumbers F)

theorem readAt_isSome (buf : List UInt8) (a : Nat) (h : a + 8 ≤ buf.length) :
    ∃ x, readAt num buf a (a + 8) = some x := by
  obtain ⟨part, hp, hl⟩ := slice_eq_some (l := buf) (Nat.le_add_right a 8) h
  have h8 : part.length = 8 := by omega
  refine ⟨num.fromBeBytes part, ?_⟩
  unfold readAt
  rw [hp, Option.bind_some, readF64, if_pos h8]

theorem readSix_isSome (buf : List UInt8) (base : Nat) (h : base + 48 ≤ buf.length) :
    ∃ xs, readSix num buf base = some xs := by
  -- the six numbers are the eight bytes each from `base` on
  have hm : ∀ l : List Nat, (∀ i ∈ l, i < 6) → ∃ xs,
      l.mapM (fun i => readAt num buf (base + i * 8) (base + i * 8 + 8)) = some xs := by
    intro l
    induction l with
    | nil => exact fun _ => ⟨[], rfl⟩
    | cons i l ih =>
        intro hl
        have hi : i < 6 := hl i (by simp)
        obtain ⟨x, hx⟩ := readAt_isSome num buf (base + i * 8) (by omega)
        obtain ⟨xs, hxs⟩ := ih fun j hj => hl j (List.mem_cons_of_mem _ hj)
        exact ⟨x :: xs, by rw [List.mapM_cons, hx, hxs]; rfl⟩
  exact hm (List.range 6) fun i hi => List.mem_range.mp hi

/-- All that is read of a body lies within it. -/
theorem decodeFrame_isSome {buf : List UInt8} (h : buf.length + 4 = rtFrameSize) :
    ∃ f, decodeFrame num buf = some f := by
  have hlen : buf.length = 1216 := by
    unfold rtFrameSize at h
    omega
  obtain ⟨joints, h1⟩ := readSix_isSome num buf 248 (by omega)
  obtain ⟨speeds, h2⟩ := readSix_isSome num buf 296 (by omega)
  obtain ⟨tcpPose, h3⟩ := readSix_isSome num buf 440 (by omega)
  obtain ⟨forces, h4⟩ := readSix_isSome num buf 536 (by omega)
  obtain ⟨inputs, h5⟩ := readAt_isSome num buf 680 (by omega)
  obtain ⟨robotMode, h6⟩ := readAt_isSome num buf 752 (by omega)
  obtain ⟨safetyMode, h7⟩ := readAt_isSome num buf 808 (by omega)
  obtain ⟨scaling, h8⟩ := readAt_isSome num buf 936 (by omega)
  obtain ⟨outputs, h9⟩ := readAt_isSome num buf 1040 (by omega)
  obtain ⟨program, h10⟩ := readAt_isSome num buf 1048 (by omega)
  -- every offset of the source lies within the 1216 bytes
  unfold decodeFrame
  rw [h1, h2, h3, h4, h5, h6, h7, h8, h9, h10]
  exact ⟨_, rfl⟩

end Decode

/-! ## A connection -/

/-- Successive reads on one connection. -/
def readFrames : Nat → ByteStream → Option (Except String (List (Option (List UInt8)) × ByteStream))
  | 0, s => some (.ok ([], s))
  | n + 1, s => do
      match ← readFrame s with
      | .error e => return .error e
      | .ok (frame, s) =>
          match ← readFrames n s with
          | .error e => return .error e
          | .ok (frames, s) => return .ok (frame :: frames, s)

/-- Frames in a row are read as those frames, and what follows them is left. -/
theorem readFrames_frames (fs : List Frame) (rest : List UInt8) (ending : StreamEnd) :
    readFrames fs.length ⟨fs.flatMap Frame.bytes ++ rest, ending⟩
      = some (.ok (fs.map Frame.yield, ⟨rest, ending⟩)) := by
  induction fs with
  | nil => rfl
  | cons f fs ih =>
      rw [List.flatMap_cons, List.append_assoc, List.length_cons, readFrames, readFrame_frame]
      simp only [Option.bind_eq_bind, Option.bind_some, ih]
      rfl

/-- Broken bytes after them are an error. -/
theorem readFrames_broken (fs : List Frame) {rest : List UInt8} (h : Broken rest)
    (ending : StreamEnd) :
    ∃ e, readFrames (fs.length + 1) ⟨fs.flatMap Frame.bytes ++ rest, ending⟩
      = some (.error e) := by
  induction fs with
  | nil =>
      obtain ⟨e, he⟩ := readFrame_broken h ending
      refine ⟨e, ?_⟩
      show readFrames 1 ⟨rest, ending⟩ = _
      rw [readFrames, he]
      rfl
  | cons f fs ih =>
      -- what comes before is read first, so the error is the one of the broken rest
      obtain ⟨e, he⟩ := ih
      refine ⟨e, ?_⟩
      rw [List.flatMap_cons, List.append_assoc, List.length_cons, readFrames, readFrame_frame]
      simp only [Option.bind_eq_bind, Option.bind_some, he]
      rfl

/--
However many frames arrive in a row, each is read whole and yields its body exactly if it is
of the size the parser understands; what follows them is read as it stands, and is an error
if it is broken. No read underflows, and nothing is read outside a body that was yielded.
-/
theorem rtFraming_in_sync {F : Type} (num : RtNumbers F) :
    (∀ (fs : List Frame) (rest : List UInt8) (ending : StreamEnd),
      readFrames fs.length ⟨fs.flatMap Frame.bytes ++ rest, ending⟩
        = some (.ok (fs.map Frame.yield, ⟨rest, ending⟩)))
    ∧ (∀ f : Frame, f.bytes.length = f.size)
    ∧ (∀ (fs : List Frame) (rest : List UInt8) (ending : StreamEnd), Broken rest →
      ∃ e, readFrames (fs.length + 1) ⟨fs.flatMap Frame.bytes ++ rest, ending⟩
        = some (.error e))
    ∧ (∀ stream, readFrame stream ≠ none)
    ∧ (∀ s t buf, readFrame s = some (.ok (some buf, t)) →
      ∃ f, decodeFrame num buf = some f) := by
  refine ⟨readFrames_frames, Frame.length_bytes, ?_, readFrame_total, ?_⟩
  · intro fs rest ending h
    exact readFrames_broken fs h ending
  · intro s t buf h
    exact decodeFrame_isSome num (length_of_yielded h)

/-- The smallest frame there is. -/
def smallFrame : Frame where
  header := [0, 0, 0, 5]
  body := [7]
  header_length := rfl
  counts := rfl
  nonempty := by decide
  bounded := by decide

/-- A prefix that counts nothing but itself, behind a frame that is read. -/
theorem small_then_broken : ∃ e, readFrames 2
    ⟨[smallFrame].flatMap Frame.bytes ++ [0, 0, 0, 4], .silent⟩ = some (.error e) :=
  (rtFraming_in_sync (⟨fun _ => 0, fun _ => 0, fun _ => 0⟩ : RtNumbers Nat)).2.2.1
    [smallFrame] [0, 0, 0, 4] .silent (.inr (.inl (by decide)))

end UrRedisDriver.Proof
