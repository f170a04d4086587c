import RepoOrbit.Gesture.Hand

/-!
# Numbers with a limit

Hands and the camera over numbers that are exact up to a limit and infinite beyond it
(`Limited`). All that is done with them can be computed. Angles and lengths are taken
roughly: the angle of a point is its slope, and its distance is measured along the axes.
-/

namespace RepoOrbit

/-- A number that is exact, or beyond the limit. -/
inductive Limited where
  | exact (q : Rat)
  | infinite
  deriving DecidableEq

namespace Limited

/-- The largest number that is not infinite. -/
def limit : Rat := 1000

/-- A number that is infinite if it is too large. -/
def of (q : Rat) : Limited := if -limit ≤ q ∧ q ≤ limit then .exact q else .infinite

/-- Do something with a number. -/
def map (f : Rat → Rat) : Limited → Limited
  | .exact a => of (f a)
  | .infinite => .infinite

/-- Do something with two numbers. -/
def map₂ (f : Rat → Rat → Rat) : Limited → Limited → Limited
  | .exact a, .exact b => of (f a b)
  | _, _ => .infinite

/-- Compare two numbers. -/
def compare (p : Rat → Rat → Bool) : Limited → Limited → Bool
  | .exact a, .exact b => p a b
  | _, _ => false

/-- How far a number is from zero. -/
def size (q : Rat) : Rat := if q < 0 then -q else q

instance : Scalar Limited where
  add := map₂ (· + ·)
  sub := map₂ (· - ·)
  mul := map₂ (· * ·)
  div := map₂ (· / ·)
  neg := map (- ·)
  ofScientific m s e := of (OfScientific.ofScientific m s e)
  less := compare fun a b => a < b
  same := compare fun a b => a = b
  isFinite a := a ≠ .infinite
  isInfinite a := a = .infinite
  pi := of 3.141592653589793
  sin := map fun q => q - q * q * q / 6
  cos := map fun q => 1 - q * q / 2
  angle := map₂ fun y x => y / x
  distance := map₂ fun a b => size a + size b
  turns _ := 1

/-- The left hand with its palm to the camera and its fingers upwards. -/
def openHand (x : Limited) : Observation Limited :=
  let base : Landmark Limited := ⟨x, 0.4, 0.0⟩
  let joint : Landmark Limited := ⟨x, 0.3, 0.0⟩
  let tip : Landmark Limited := ⟨x, 0.1, 0.0⟩
  ⟨#v[⟨x, 0.9, 0.0⟩, base, base, base, tip, ⟨x + 0.1, 0.4, 0.0⟩, joint, joint, tip, base, joint, joint, tip,
    base, joint, joint, tip, ⟨x - 0.1, 0.4, 0.0⟩, joint, joint, tip], "Right"⟩

/-- The right hand with its palm to the camera and its fingers upwards: the left one in a
mirror. -/
def openRightHand (x : Limited) : Observation Limited :=
  ⟨(openHand x).landmarks.map fun p => { p with x := x + x - p.x }, "Left"⟩

end Limited

end RepoOrbit
