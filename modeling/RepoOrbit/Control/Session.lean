import RepoOrbit.Camera.Controller

/-!
# Sessions of hand control

A session lets hands control a camera (`ControlSession`). Each of its runs opens a
tracker and has two loops: one reads hands and has their gestures handled, the
other displays frames. A run stops when it is told to, when the hands have been
away for too long, and when no more pictures come; it ends when both loops have,
and then closes the tracker, forgets the hands and gives the camera back. A read
that is under way is waited for.

The loops take turns, and a turn is one event (`SessionEvent`); its time comes
with it. A run that fails ends at once, without waiting for its loops: they may
still take turns afterwards.
-/

namespace RepoOrbit

/-- A failure of something that a session relies on. -/
inductive Mishap where
  /-- A tracker that fails: the kind of failure and what it says. -/
  | tracker (kind message : String)
  | miscount (count : LandmarkMiscount)
  | pose (fault : PoseFault)
  /-- Frames that are to follow each other at no rate. -/
  | noRate
  deriving DecidableEq, Repr

/-- What is said of a failure. -/
def Mishap.message : Mishap → String
  | .tracker _ message => message
  | .miscount count => count.message
  | .pose fault => fault.message
  | .noRate => "float division by zero"

/-- How a run ended. -/
inductive RunEnd where
  | finished
  | unopened (message : String)
  | cancelled
  | failed (m : Mishap)
  deriving DecidableEq, Repr

/-- Where a run stands. -/
inductive RunPhase where
  | running
  /-- It ends as soon as the read under way has. -/
  | closing (how : RunEnd)
  | ended (how : RunEnd)
  deriving DecidableEq, Repr

/-- A run: where it stands, whether its loops have been told to stop, which of
the loops still go on, and whether there is a read that its loops wait for. -/
structure SessionRun where
  phase : RunPhase
  isStopped : Bool
  detects : Bool
  animates : Bool
  isReading : Bool
  deriving DecidableEq, Repr

/-- What comes of opening a tracker. -/
inductive TrackerOpening where
  | opened
  | refused (message : String)
  /-- There is not even a tracker. -/
  | unbuilt (message : String)
  deriving DecidableEq, Repr

/-- What a read gives: hands, or none if no more pictures come. -/
abbrev ReadResult (α : Type) := Except Mishap (Option (List (Observation α)))

/-- A session: its hands, its camera, and all its runs so far. -/
structure ControlSession (α : Type) where
  hands : Interpreter α
  camera : CameraController α
  runs : List SessionRun

/-- What a session does that is seen outside of it. -/
inductive SessionAct (α : Type) where
  | trackerOpened (run : Nat)
  | readBegun (run : Nat)
  /-- The tracker was still reading, and was waited for. -/
  | readAwaited (run : Nat)
  | trackerClosed (run : Nat)
  /-- An event was handled; this is the camera afterwards. -/
  | handled (now : α) (event : GestureEvent α) (camera : CameraController α)
  | displayed (run : Nat) (pose : CameraPose α)
  | told (call : CameraCall α)

/-- What happens to a session. -/
inductive SessionEvent (α : Type) where
  | start (opening : TrackerOpening) (now : α)
  /-- The detection loop of a run takes its first turn. -/
  | look (run : Nat)
  | readEnded (run : Nat) (result : ReadResult α) (now : α)
  /-- The animation loop of a run takes a turn. -/
  | frame (run : Nat) (now : α)
  /-- The animation loop of a run cannot go on. -/
  | breakDown (run : Nat) (m : Mishap)
  | stop (run : Nat)
  | cancel (run : Nat)

namespace SessionRun

/-- A run that has just opened its tracker. -/
def opened : SessionRun := ⟨.running, false, true, true, false⟩

/-- A run that did not get that far. -/
def unopened (message : String) : SessionRun := ⟨.ended (.unopened message), false, false, false, false⟩

/-- Whether a run has ended, and how. -/
def end? (r : SessionRun) : Option RunEnd :=
  match r.phase with
  | .ended how => some how
  | _ => none

/-- Whether there is nobody left to read for a run: it failed, and ended with that. -/
def isForsaken (r : SessionRun) : Bool :=
  match r.phase with
  | .ended (.failed _) => true
  | _ => false

/-- Stop both loops; the detection loop does not look again. -/
def leaveDetecting (r : SessionRun) : SessionRun := { r with detects := false, isStopped := true }

/-- Stop both loops; the animation loop shows no more frames. -/
def leaveAnimating (r : SessionRun) : SessionRun := { r with animates := false, isStopped := true }

end SessionRun

variable {α : Type} [Scalar α]

/-- A session and what it has just done. -/
abbrev Acting (α : Type) := ControlSession α × List (SessionAct α)

namespace ControlSession

/-- A session before its first run. -/
def initial : ControlSession α := ⟨.initial, .initial, []⟩

/-- Put a run in its place. -/
def setRun (s : ControlSession α) (i : Nat) (r : SessionRun) : ControlSession α :=
  { s with runs := s.runs.set i r }

/-- End a run: close the tracker once it does not read, forget the hands, give the
camera back. -/
def finish (s : ControlSession α) (i : Nat) (r : SessionRun) (how : RunEnd) : Acting α :=
  let (camera, _, calls) := s.camera.deactivate
  let s := { s with hands := .initial, camera }
  let awaited := if r.isReading then [SessionAct.readAwaited i] else []
  (s.setRun i { r with phase := .ended how }, awaited ++ .trackerClosed i :: calls.map .told)

/-- End a run as soon as it does not read. -/
def close (s : ControlSession α) (i : Nat) (r : SessionRun) (how : RunEnd) : Acting α :=
  if r.isReading then (s.setRun i { r with phase := .closing how }, []) else s.finish i r how

/-- End a run because something failed, if nothing else has ended it. -/
def fail (s : ControlSession α) (i : Nat) (r : SessionRun) (m : Mishap) : Acting α :=
  if r.phase = .running then s.close i r (.failed m) else (s.setRun i r, [])

/-- End a run if both its loops have ended. -/
def joinLoops (s : ControlSession α) (i : Nat) (r : SessionRun) : Acting α :=
  if r.phase = .running && !r.detects && !r.animates then s.finish i r .finished else (s.setRun i r, [])

/-- Begin a run. -/
def start (s : ControlSession α) (opening : TrackerOpening) (now : α) : Acting α :=
  let i := s.runs.length
  match opening with
  | .unbuilt message => ({ s with runs := s.runs ++ [.unopened message] }, [])
  | .refused message =>
    ({ s with runs := s.runs ++ [.unopened message] }, [.trackerOpened i, .trackerClosed i])
  | .opened =>
    let (camera, calls) := s.camera.activate now
    ({ s with camera, runs := s.runs ++ [.opened] }, .trackerOpened i :: calls.map .told)

/-- Read on, unless the run has been stopped or the camera given back. The detection
loop breaks off if there is nobody left to read. -/
def look (s : ControlSession α) (i : Nat) (r : SessionRun) : Acting α :=
  if r.isStopped || !s.camera.isControlling then s.joinLoops i r.leaveDetecting
  else if r.isForsaken then (s.setRun i { r with detects := false }, [])
  else (s.setRun i { r with isReading := true }, [.readBegun i])

/-- Have an event handled. -/
def handle (a : Acting α) (event : GestureEvent α) (now : α) : Acting α :=
  let (s, acts) := a
  let (camera, calls) := s.camera.handle event now
  ({ s with camera }, acts ++ calls.map .told ++ [.handled now event camera])

/-- Have the gestures of the hands in a picture handled. -/
def see (s : ControlSession α) (hands : List (Observation α)) (now : α) : Acting α :=
  let (state, events) := s.hands.process hands
  let s := { s with hands := state }
  events.foldl (fun a e => handle a e now) (s, [])

/-- Do one thing after another. -/
def andThen (a : Acting α) (next : ControlSession α → Acting α) : Acting α :=
  let (s, acts) := next a.1
  (s, a.2 ++ acts)

/-- The detection loop of a run takes what has been read. -/
def takeRead (s : ControlSession α) (i : Nat) (r : SessionRun) (result : ReadResult α) (now : α) : Acting α :=
  if !r.detects then (s.setRun i r, [])
  else
    match result with
    | .error m => s.fail i { r with detects := false } m
    | .ok none => s.joinLoops i r.leaveDetecting
    | .ok (some hands) => andThen (s.see hands now) fun s => s.look i r

/-- End a run that was waiting for its read to end. -/
def settle (s : ControlSession α) (i : Nat) (phase : RunPhase) : Acting α :=
  match phase, s.runs[i]? with
  | .closing how, some r => s.finish i r how
  | _, _ => (s, [])

/-- The animation loop of a run takes a turn. -/
def animate (s : ControlSession α) (i : Nat) (r : SessionRun) (now : α) : Acting α :=
  if r.isStopped then s.joinLoops i { r with animates := false }
  else
    let f := s.camera.frame now
    let s := { s with camera := f.controller }
    let told := f.calls.map SessionAct.told
    match f.pose with
    | .ok (some pose) => (s.setRun i r, told ++ [.displayed i pose])
    | .ok none => andThen (s, told) fun s => s.joinLoops i r.leaveAnimating
    | .error fault =>
      andThen (s, told) fun s => s.fail i { r with animates := false } (.pose fault)

/-- Cancel a run: its loops end where they are. One that is cancelled while it
waits for its read to end gives up everything. -/
def cancel (s : ControlSession α) (i : Nat) (r : SessionRun) : Acting α :=
  match r.phase with
  | .running => s.close i { r with detects := false, animates := false } .cancelled
  | .closing _ => (s.setRun i { r with phase := .ended .cancelled }, [])
  | .ended _ => (s, [])

/-- Do something with a run, if there is such a run. -/
def withRun (s : ControlSession α) (i : Nat) (f : SessionRun → Acting α) : Acting α :=
  match s.runs[i]? with
  | some r => f r
  | none => (s, [])

/-- Take an event. -/
def step (s : ControlSession α) : SessionEvent α → Acting α
  | .start opening now => s.start opening now
  | .look i => s.withRun i fun r => if r.detects && !r.isReading then s.look i r else (s, [])
  | .readEnded i result now =>
    s.withRun i fun r =>
      if r.isReading then
        andThen (s.takeRead i { r with isReading := false } result now) fun s => s.settle i r.phase
      else (s, [])
  | .frame i now => s.withRun i fun r => if r.animates then s.animate i r now else (s, [])
  | .breakDown i m =>
    s.withRun i fun r => if r.animates then s.fail i { r with animates := false } m else (s, [])
  | .stop i => s.withRun i fun r => (s.setRun i { r with isStopped := true }, [])
  | .cancel i => s.withRun i fun r => s.cancel i r

end ControlSession

end RepoOrbit
