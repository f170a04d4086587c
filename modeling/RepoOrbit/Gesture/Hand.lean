import RepoOrbit.Gesture.Scalar

/-!
# Hands as they are seen

A hand in one picture is a label and twenty-one points (`Observation`). Its palm,
its size, the angle between thumb and forefinger, and whether it shows an open
palm are read off these points. Coordinates go from the left and from the top;
the label is that of a mirror image, so `Right` stands for the left hand.
-/

namespace RepoOrbit

/-- One of the two hands. -/
inductive Role where
  | left
  | right
  deriving DecidableEq, Repr, Inhabited

/-- The name of a hand. -/
def Role.name : Role → String
  | .left => "left"
  | .right => "right"

/-- A point in space. -/
structure Landmark (α : Type) where
  x : α
  y : α
  z : α
  deriving Inhabited, Repr

/-- The number of points of a hand. -/
def landmarkCount : Nat := 21

/-- A hand in one picture. -/
structure Observation (α : Type) where
  landmarks : Vector (Landmark α) 21
  handedness : String

/-- A list of points that are too many or too few. -/
structure LandmarkMiscount where
  count : Nat
  deriving DecidableEq, Repr

/-- What is said of too many or too few points. -/
def LandmarkMiscount.message (m : LandmarkMiscount) : String :=
  s!"expected {landmarkCount} landmarks, got {m.count}"

/-- Two numbers, as of a point in a picture. -/
structure Point (α : Type) where
  x : α
  y : α
  deriving Inhabited, Repr

namespace Observation

variable {α : Type}

/-- A hand of the given points, if their number is right. -/
def ofList (points : List (Landmark α)) (handedness : String) : Except LandmarkMiscount (Observation α) :=
  if h : points.length = 21 then .ok ⟨⟨points.toArray, by simpa using h⟩, handedness⟩
  else .error ⟨points.length⟩

/-- Whether it is the left hand. -/
def isLeft (o : Observation α) : Bool := o.handedness == "Right"

/-- Which hand it is. -/
def role (o : Observation α) : Role := if o.isLeft then .left else .right

variable (o : Observation α)

/-! The points by name. -/

def wrist : Landmark α := o.landmarks[0]
def thumbTip : Landmark α := o.landmarks[4]
def indexBase : Landmark α := o.landmarks[5]
def indexTip : Landmark α := o.landmarks[8]
def middleBase : Landmark α := o.landmarks[9]
def middleTip : Landmark α := o.landmarks[12]
def ringBase : Landmark α := o.landmarks[13]
def smallBase : Landmark α := o.landmarks[17]

/-- The points around the palm. -/
def palmPoints : List (Landmark α) := [o.wrist, o.indexBase, o.middleBase, o.ringBase, o.smallBase]

/-- The tip and the middle joint of each finger but the thumb. -/
def fingers : List (Landmark α × Landmark α) :=
  [(o.landmarks[8], o.landmarks[6]), (o.landmarks[12], o.landmarks[10]),
    (o.landmarks[16], o.landmarks[14]), (o.landmarks[20], o.landmarks[18])]

variable [Scalar α]

end Observation

open Scalar

variable {α : Type} [Scalar α]

/-- The distance of two points in the picture. -/
def Landmark.distanceTo (a b : Landmark α) : α := Scalar.distance (a.x - b.x) (a.y - b.y)

/-- The mean of five numbers. -/
def mean5 (a b c d e : α) : α := (a + b + c + d + e) / 5.0

namespace Observation

/-- The middle of the palm. -/
def palmCenter (o : Observation α) : Point α where
  x := mean5 o.wrist.x o.indexBase.x o.middleBase.x o.ringBase.x o.smallBase.x
  y := mean5 o.wrist.y o.indexBase.y o.middleBase.y o.ringBase.y o.smallBase.y

/-- The size of the hand: from the wrist to the tip of the middle finger. -/
def size (o : Observation α) : α := o.wrist.distanceTo o.middleTip

/-- The direction from the tip of the thumb to that of the forefinger. -/
def knobAngle (o : Observation α) : α :=
  Scalar.angle (o.indexTip.y - o.thumbTip.y) (o.indexTip.x - o.thumbTip.x)

/-- The distance between the tips of thumb and forefinger, as a part of the hand's
size; none if the hand has no size or the number is not finite. -/
def pinch? (o : Observation α) : Option α :=
  if less 0.0 o.size then
    let p := o.thumbTip.distanceTo o.indexTip / o.size
    if Scalar.isFinite p then some p else none
  else none

/-- How many fingers are stretched upwards. -/
def stretchedFingers (o : Observation α) : Nat := o.fingers.countP fun f => less f.1.y f.2.y

/-- On which side of the forefinger the small finger lies, seen from the wrist;
positive if it lies clockwise. -/
def palmTurn (o : Observation α) : α :=
  (o.indexBase.x - o.wrist.x) * (o.smallBase.y - o.wrist.y) -
    (o.indexBase.y - o.wrist.y) * (o.smallBase.x - o.wrist.x)

/-- Whether the hand shows an open palm, fingers upwards. -/
def showsPalm (o : Observation α) : Bool :=
  !less o.wrist.y o.middleBase.y && 3 ≤ o.stretchedFingers &&
    if o.isLeft then less o.palmTurn 0.0 else less 0.0 o.palmTurn

end Observation

/-- How close the palms of joined hands are. -/
def joinDistance : α := 0.15

/-- Whether two palms are joined. -/
def palmsTogether (a b : Point α) : Bool := less (Scalar.distance (a.x - b.x) (a.y - b.y)) joinDistance

end RepoOrbit
