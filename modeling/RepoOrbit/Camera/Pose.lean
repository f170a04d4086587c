import RepoOrbit.Gesture.Scalar

/-!
# Poses of an orbiting camera

A camera looks at a point from a distance, turned by one angle around the point
and raised by another (`orbitPose`). Infinite angles have no pose.
-/

namespace RepoOrbit

open Scalar

/-- A point in space. -/
structure Place (α : Type) where
  x : α
  y : α
  z : α
  deriving Repr, Inhabited

/-- Where a camera is and what it looks at. -/
structure CameraPose (α : Type) where
  position : Place α
  lookAt : Place α
  deriving Repr, Inhabited

/-- An angle that has no sine. -/
inductive PoseFault where
  | infiniteAngle
  deriving DecidableEq, Repr

/-- What is said of such an angle. -/
def PoseFault.message : PoseFault → String
  | .infiniteAngle => "math domain error"

variable {α : Type} [Scalar α]

/-- The pose of a camera turned by `theta` and raised by `phi`, at a distance from
the point it looks at. -/
def poseAt (theta phi distance lookX lookY : α) : CameraPose α where
  position :=
    ⟨lookX + distance * cos phi * sin theta, lookY + distance * sin phi, distance * cos phi * cos theta⟩
  lookAt := ⟨lookX, lookY, 0.0⟩

/-- The pose of a camera, unless an angle is infinite. -/
def orbitPose (theta phi distance lookX lookY : α) : Except PoseFault (CameraPose α) :=
  if isInfinite theta || isInfinite phi then .error .infiniteAngle
  else .ok (poseAt theta phi distance lookX lookY)

/-! ## Bounds -/

def minDistance : α := 60.0
def maxDistance : α := 500.0
def defaultDistance : α := 300.0
def defaultTheta : α := 0.0
def defaultPhi : α := 0.2

/-- How far the camera can be raised or lowered. -/
def maxPhi : α := 0.45 * pi

/-- The size of a hand for which the camera is farthest away. -/
def handSizeFar : α := 0.12

/-- The size of a hand for which the camera is nearest. -/
def handSizeNear : α := 0.35

/-- The pose in which the whole graph is seen. -/
def overviewPose : CameraPose α := poseAt defaultTheta defaultPhi defaultDistance 0.0 0.0

/-- The distance for the size of a hand: the larger, the nearer. -/
def zoomDistance (handSize : α) : α :=
  let t := clamp ((handSize - handSizeFar) / (handSizeNear - handSizeFar)) 0.0 1.0
  maxDistance - t * (maxDistance - minDistance)

end RepoOrbit
