import UrRedisDriver.Driver.RealtimeReader
import UrRedisDriver.Lib.ByteStream

/-!
# Realtime frames, byte by byte

`read_frame`, and what `realtime_reader` takes out of the body of a frame. A frame starts with
its own length, which counts itself; the offsets are into the body, four bytes below those of
the packet. `none` stands for a panic: a subtraction that underflows, a slice out of bounds.
-/

namespace UrRedisDriver

/-- Size of the RT frame this parser understands. -/
def rtFrameSize : Nat := 1220

/-- Upper bound on a frame length before it is treated as a desynced stream. -/
def rtMaxFrameSize : Nat := 8192

/--
Read one length-prefixed RT frame. An error means the socket is unusable; no body means the
frame was read and discarded.
-/
def readFrame (stream : ByteStream) :
    Option (Except String (Option (List UInt8) × ByteStream)) :=
  match stream.readExact 4 "timed out reading frame length" with
  | .error e => some (.error e)
  | .ok (sizeBytes, stream) =>
      let msgSize := ByteStream.fromBeBytes sizeBytes
      if msgSize ≤ 4 ∨ msgSize > rtMaxFrameSize then
        some (.error s!"implausible frame length: {msgSize}")
      else
        (ByteStream.checkedSub msgSize 4).map fun n =>
          match stream.readExact n "timed out reading frame body" with
          | .error e => .error e
          | .ok (buf, stream) =>
              if msgSize ≠ rtFrameSize then .ok (none, stream) else .ok (some buf, stream)

/-! ## The body of a frame -/

/-- What is taken from the number formats. -/
structure RtNumbers (F : Type) where
  /-- `f64::from_be_bytes` -/
  fromBeBytes : List UInt8 → F
  /-- `as u32` -/
  toU32 : F → Nat
  /-- `as i32` -/
  toI32 : F → Int

section Decode

variable {F : Type}

/-- `read_f64`, which copies eight bytes. -/
def readF64 (num : RtNumbers F) (slice : List UInt8) : Option F :=
  if slice.length = 8 then some (num.fromBeBytes slice) else none

/-- `read_f64(&buf[a..b])` -/
def readAt (num : RtNumbers F) (buf : List UInt8) (a b : Nat) : Option F :=
  (ByteStream.slice buf a b).bind (readF64 num)

/-- Six numbers in a row. -/
def readSix (num : RtNumbers F) (buf : List UInt8) (base : Nat) : Option (List F) :=
  (List.range 6).mapM fun i => readAt num buf (base + i * 8) (base + i * 8 + 8)

/-- What `realtime_reader` takes out of the body of a frame. -/
def decodeFrame (num : RtNumbers F) (buf : List UInt8) : Option (RtFrame F) := do
  let joints ← readSix num buf 248
  let speeds ← readSix num buf 296
  let tcpPose ← readSix num buf 440
  let forces ← readSix num buf 536
  let digitalInputs ← readAt num buf 680 688
  let robotMode ← readAt num buf 752 760
  let safetyMode ← readAt num buf 808 816
  let speedScaling ← readAt num buf 936 944
  let digitalOutputs ← readAt num buf 1040 1048
  let programStateRaw ← readAt num buf 1048 1056
  return {
    joints := joints
    speeds := speeds
    tcpPose := tcpPose
    forces := forces
    digitalInputs := num.toU32 digitalInputs
    digitalOutputs := num.toU32 digitalOutputs
    robotMode := num.toI32 robotMode
    safetyMode := num.toI32 safetyMode
    speedScaling := speedScaling
    programStateRaw := num.toI32 programStateRaw }

end Decode

end UrRedisDriver
