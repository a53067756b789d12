import UrRedisDriver.Shared

/-!
# The realtime stream

`realtime_reader`, from decoded frames on. A safety stop is handled in a second critical
section, after the one that stores the frame.
-/

namespace UrRedisDriver

/-- What is decoded out of one frame. -/
structure RtFrame (F : Type) where
  joints : List F
  speeds : List F
  tcpPose : List F
  forces : List F
  digitalInputs : Nat
  digitalOutputs : Nat
  robotMode : Int
  safetyMode : Int
  speedScaling : F
  programStateRaw : Int

/-- Where `realtime_reader` is. -/
inductive RtPhase
  /-- Connecting for the first time. -/
  | starting
  | reading
  /-- Stored a frame whose safety mode aborts a goal. -/
  | aborting
  | reconnecting
  deriving DecidableEq, Repr

/-- What the operation `realtime_reader` was waiting on resolved to. -/
inductive RtInput (F : Type)
  | connect
  | frame (f : RtFrame F)
  /-- A frame of another layout. -/
  | skip
  | fail
  /-- The critical section that aborts the goal. -/
  | abort

namespace RealtimeReader

variable {F : Type}

/-- Store a frame. -/
def store (ds : DriverState F) (f : RtFrame F) : DriverState F :=
  { ds with
    jointValues := f.joints, jointSpeeds := f.speeds, tcpPose := f.tcpPose, forces := f.forces
    robotMode := f.robotMode, safetyMode := f.safetyMode, speedScaling := f.speedScaling
    programStateRaw := f.programStateRaw, digitalInputs := f.digitalInputs
    digitalOutputs := f.digitalOutputs }

/-- One step of `realtime_reader`. -/
def step (s : Shared F) (p : RtPhase) (i : RtInput F) : Option (Shared F × RtPhase) :=
  match p, i with
  | .starting, .connect =>
      some ({ s with localAddr := true, ds := { s.ds with connected := true } }, .reading)
  | .reading, .frame f =>
      some ({ s with ds := store s.ds f },
        if safetyModeAbortsGoal f.safetyMode then .aborting else .reading)
  | .reading, .skip => some (s, .reading)
  -- What was measured last is left standing.
  | .reading, .fail =>
      some ({ s with ds := { s.ds with connected := false } }, .reconnecting)
  | .reconnecting, .connect =>
      some ({ s with ds := { s.ds with connected := true } }, .reading)
  -- A second lock after the one that stored the frame.
  | .aborting, .abort => some ((s.resolveGoal false .safetyStop).clearGoal, .reading)
  | _, _ => none

end RealtimeReader

end UrRedisDriver
