import RepoOrbit.CommandLine.Outcome
import RepoOrbit.Text.Json

/-!
# The command that lets hands control the camera

`control` runs a session and prints poses, and what the renderer is told, one JSON
value a line.
-/

namespace RepoOrbit.CommandLine

/-- What the command is asked for. -/
structure ControlRequest where
  cameraIndex : Int
  model : String
  framesPerSecond : Float

/-- The hands for a command: those written down, or what comes of opening a
tracker. -/
def handsFor (s : Surroundings) (r : ControlRequest) : HandsScript :=
  match s.hands with
  | some script => script
  | none =>
    match (HandTracker.initial.turnOn ⟨r.cameraIndex, Path.ofString r.model, 0.5⟩ s.vision 0).1 with
    | .ok _ => ⟨.opened, []⟩
    | .error fault => ⟨.refused fault.message, []⟩

/-- What is printed of something that a session does. -/
def lineOf : SessionAct Float → Option Value
  | .told call => some call.toValue
  | .displayed _ pose => some pose.toValue
  | _ => none

/-- Run a session. -/
def control (s : Surroundings) (r : ControlRequest) : Outcome :=
  let hands := handsFor s r
  let script : ControlScript :=
    { reads := hands.reads, framesPerSecond := r.framesPerSecond, opening := hands.opening, runs := 1
      stopAt := none, cancelAt := none, ahead := 0 }
  let rehearsal := ControlRehearsal.complete script
  let acts := rehearsal.acts.toList.map (·.2)
  let lines := acts.filterMap lineOf
  let o : Outcome :=
    { s.nothing with
      lines, out := String.join (lines.map fun v => v.onLine ++ "\n")
      session := some ⟨r.cameraIndex, r.model, acts⟩ }
  match rehearsal.lastEnd? with
  | some (.unopened message) => o.end (.reported message)
  | some (.failed mishap) => o.end (.crashed (.session mishap))
  | _ => o

end RepoOrbit.CommandLine
