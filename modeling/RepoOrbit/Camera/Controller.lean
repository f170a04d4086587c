import RepoOrbit.Camera.Pose
import RepoOrbit.Gesture.Interpreter

/-!
# The camera in the hands

A camera is idle, or hands control it (`CameraController`). Gestures move targets,
and what is displayed goes part of the way to them with every frame. A drag is
anchored where it begins (`DragAnchor`): each further gesture of it moves the
target as far from where it was then as the hand has moved since.

A drag begins anew when the hand opens or closes, when it was missing in the
picture before, and after the camera has been centred. Gestures that share one
time belong to one picture.
-/

namespace RepoOrbit

open Scalar

/-- Whether hands control the camera. -/
inductive CameraMode where
  | idle
  | controlling
  deriving DecidableEq, Repr, Inhabited

/-- The name of a mode. -/
def CameraMode.name : CameraMode → String
  | .idle => "idle"
  | .controlling => "hand_controlling"

/-- A number that is displayed, and the one it goes to. -/
structure Smoothed (α : Type) where
  current : α
  target : α
  deriving Repr, Inhabited

/-- The five numbers of the camera. -/
structure CameraTarget (α : Type) where
  theta : Smoothed α
  phi : Smoothed α
  distance : Smoothed α
  lookX : Smoothed α
  lookY : Smoothed α
  deriving Repr, Inhabited

/-- Where a hand was when a drag began, and the two targets at that time. -/
structure DragAnchor (α : Type) where
  x : α
  y : α
  baseA : α
  baseB : α
  deriving Repr, Inhabited

/-- What the camera remembers of one hand: the drags it is in, whether it pinched,
and whether it was seen in this picture and in the one before. -/
structure HandDrag (α : Type) where
  rotate : Option (DragAnchor α)
  pan : Option (DragAnchor α)
  pinching : Option Bool
  isSeen : Bool
  wasSeen : Bool
  deriving Repr

/-- What the renderer is told. -/
inductive CameraCall (α : Type) where
  | orbitControls (enabled autoRotate : Bool)
  | flyTo (pose : CameraPose α)
  deriving Repr

/-- A camera: its mode, its numbers, the drags of both hands, the time of the
picture that is being looked at, and when a hand was last seen and the camera
last centred. -/
structure CameraController (α : Type) where
  mode : CameraMode
  target : CameraTarget α
  drags : PerRole (HandDrag α)
  passTime : Option α
  lastDetected : Option α
  lastRecenter : Option α
  deriving Repr

variable {α : Type} [Scalar α]

def cameraSmoothing : α := 0.1

/-- The least time between two centrings, in seconds. -/
def recenterCooldown : α := 1.5

/-- The time without hands after which the camera is released, in seconds. -/
def idleTimeout : α := 3.0

def rotateScaleX : α := pi
def rotateScaleY : α := pi / 2.0
def panScale : α := 150.0

/-- A number that is displayed as it is. -/
def Smoothed.at (x : α) : Smoothed α := ⟨x, x⟩

/-- Go part of the way to the target. -/
def Smoothed.step (factor : α) (s : Smoothed α) : Smoothed α :=
  { s with current := s.current + (s.target - s.current) * factor }

namespace CameraTarget

/-- The camera as it is before anyone has moved it. -/
def initial : CameraTarget α :=
  ⟨.at defaultTheta, .at defaultPhi, .at defaultDistance, .at 0.0, .at 0.0⟩

/-- Go part of the way to all targets. -/
def step (factor : α) (t : CameraTarget α) : CameraTarget α :=
  ⟨t.theta.step factor, t.phi.step factor, t.distance.step factor, t.lookX.step factor,
    t.lookY.step factor⟩

/-- The pose that is displayed. -/
def pose (t : CameraTarget α) : Except PoseFault (CameraPose α) :=
  orbitPose t.theta.current t.phi.current t.distance.current t.lookX.current t.lookY.current

end CameraTarget

/-- The two targets of a drag when the hand is at a place. -/
def DragAnchor.apply (a : DragAnchor α) (x y scaleA scaleB : α) : α × α :=
  (a.baseA + (x - a.x) * scaleA, a.baseB + (y - a.y) * scaleB)

namespace HandDrag

/-- A hand of which nothing is remembered. -/
def none : HandDrag α := ⟨.none, .none, .none, false, false⟩

/-- End the drags of a hand. -/
def dropAnchors (d : HandDrag α) : HandDrag α := { d with rotate := .none, pan := .none }

/-- Begin another picture. -/
def nextPass (d : HandDrag α) : HandDrag α := { d with wasSeen := d.isSeen, isSeen := false }

/-- See a hand: if it was missing before, its drags end. -/
def enter (d : HandDrag α) : HandDrag α :=
  let d := if d.wasSeen || d.isSeen then d else { d.dropAnchors with pinching := .none }
  { d with isSeen := true }

/-- Note whether a hand pinches: when that changes, its drags end. -/
def pinch (d : HandDrag α) (isPinching : Bool) : HandDrag α :=
  if d.pinching = some isPinching then d else { d.dropAnchors with pinching := some isPinching }

end HandDrag

namespace CameraController

/-- A camera that nobody controls. -/
def initial : CameraController α := ⟨.idle, .initial, ⟨.none, .none⟩, none, none, none⟩

/-- Whether hands control the camera. -/
def isControlling (c : CameraController α) : Bool := c.mode = .controlling

/-- Give the camera to the hands. -/
def activate (c : CameraController α) (now : α) : CameraController α × List (CameraCall α) :=
  if c.isControlling then (c, [])
  else ({ c with mode := .controlling, lastDetected := some now }, [.orbitControls false false])

/-- Take the camera from the hands; tells whether they had it. -/
def deactivate (c : CameraController α) : CameraController α × Bool × List (CameraCall α) :=
  if c.isControlling then
    ({ c with
        mode := .idle, target := .initial, drags := ⟨.none, .none⟩
        passTime := none, lastDetected := none, lastRecenter := none },
      true, [.orbitControls true true, .flyTo overviewPose])
  else (c, false, [])

/-- Take the camera from the hands if none has been seen for long enough. -/
def checkTimeout (c : CameraController α) (now : α) : CameraController α × Bool × List (CameraCall α) :=
  match c.isControlling, c.lastDetected with
  | true, some last => if atMost idleTimeout (now - last) then c.deactivate else (c, false, [])
  | _, _ => (c, false, [])

/-- Whether the camera was centred too short a time ago to be centred again. -/
def isCooling (c : CameraController α) (now : α) : Bool :=
  match c.lastRecenter with
  | some last => less (now - last) recenterCooldown
  | none => false

/-- Turn the camera back to the middle; how near it is stays. -/
def recenter (c : CameraController α) (now : α) : CameraController α × Bool :=
  if c.isCooling now then (c, false)
  else
    let t := c.target
    ({ c with
        lastRecenter := some now
        target := { t with
          theta.target := defaultTheta, phi.target := defaultPhi
          lookX.target := 0.0, lookY.target := 0.0 }
        drags := c.drags.map HandDrag.dropAnchors },
      true)

/-! ## Gestures -/

/-- Change what is remembered of a hand. -/
def modifyDrag (c : CameraController α) (r : Role) (f : HandDrag α → HandDrag α) : CameraController α :=
  { c with drags := c.drags.set r (f (c.drags.get r)) }

/-- Note that a hand is seen at a time. -/
def enterPass (c : CameraController α) (r : Role) (now : α) : CameraController α :=
  let isSame := match c.passTime with
    | some t => same now t
    | none => false
  let c := if isSame then c else { c with drags := c.drags.map HandDrag.nextPass, passTime := some now }
  c.modifyDrag r HandDrag.enter

/-- Turn and raise the camera by a drag. -/
def rotate (c : CameraController α) (g : HandGesture α) : CameraController α :=
  let t := c.target
  let anchor := ((c.drags.get g.role).rotate).getD ⟨g.panX, g.panY, t.theta.target, t.phi.target⟩
  let (theta, phi) := anchor.apply g.panX g.panY rotateScaleX rotateScaleY
  let c := c.modifyDrag g.role fun d => { d with rotate := some anchor }
  { c with target := { t with theta.target := theta, phi.target := clamp phi (-maxPhi) maxPhi } }

/-- Move the point that the camera looks at by a drag. -/
def pan (c : CameraController α) (g : HandGesture α) : CameraController α :=
  let t := c.target
  let anchor := ((c.drags.get g.role).pan).getD ⟨g.panX, g.panY, t.lookX.target, t.lookY.target⟩
  let (lookX, lookY) := anchor.apply g.panX g.panY panScale panScale
  let c := c.modifyDrag g.role fun d => { d with pan := some anchor }
  { c with target := { t with lookX.target := lookX, lookY.target := lookY } }

/-- Bring the camera as near as the size of a hand says. -/
def zoom (c : CameraController α) (g : HandGesture α) : CameraController α :=
  { c with target := { c.target with distance.target := zoomDistance g.handSize } }

/-- Let a gesture move the targets: the left hand turns and zooms, the right hand
pans while it pinches and turns otherwise. -/
def applyGesture (c : CameraController α) (g : HandGesture α) : CameraController α :=
  let c := c.modifyDrag g.role fun d => d.pinch g.isPinching
  match g.role with
  | .left => (c.rotate g).zoom g
  | .right => if g.isPinching then c.pan g else c.rotate g

/-- Forget all drags and pictures. -/
def clearDrags (c : CameraController α) : CameraController α :=
  { c with drags := ⟨.none, .none⟩, passTime := none }

/-- Take an event. -/
def handle (c : CameraController α) (event : GestureEvent α) (now : α) :
    CameraController α × List (CameraCall α) :=
  if !c.isControlling then (c, [])
  else
    match event with
    | .noHands =>
      let (c, _, calls) := c.clearDrags.checkTimeout now
      (c, calls)
    | .handsJoined => (({ c with lastDetected := some now }.recenter now).1, [])
    | .gesture g => (({ c with lastDetected := some now }.enterPass g.role now).applyGesture g, [])

/-! ## Frames -/

/-- A frame: the camera, the pose displayed if hands control it, and what the
renderer is told. -/
structure Frame (α : Type) where
  controller : CameraController α
  pose : Except PoseFault (Option (CameraPose α))
  calls : List (CameraCall α)

/-- Go part of the way to the targets and display the pose. -/
def frame (c : CameraController α) (now : α) : Frame α :=
  let (c, released, calls) := c.checkTimeout now
  if released || !c.isControlling then ⟨c, .ok none, calls⟩
  else
    let c := { c with target := c.target.step cameraSmoothing }
    ⟨c, c.target.pose.map some, calls⟩

end CameraController

end RepoOrbit
