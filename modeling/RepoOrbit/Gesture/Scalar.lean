import RepoOrbit.Decimal.Binary

/-!
# Numbers for gestures and the camera

Everything about hands and the camera is written over any kind of number with
the operations of `Scalar`, so that it can be run on floats and studied on exact
numbers. Comparisons give truth values, and a number that is none is neither less
than nor the same as anything.
-/

namespace RepoOrbit

/-- What is needed of a kind of number. -/
class Scalar (α : Type) extends Add α, Sub α, Mul α, Div α, Neg α, OfScientific α where
  less : α → α → Bool
  same : α → α → Bool
  /-- Neither infinite nor no number. -/
  isFinite : α → Bool
  isInfinite : α → Bool
  pi : α
  sin : α → α
  cos : α → α
  /-- The angle at which a point lies, given its second coordinate and its first. -/
  angle : α → α → α
  /-- The distance of a point from the origin. -/
  distance : α → α → α
  /-- No fewer than the full turns that an angle is longer than half a turn. -/
  turns : α → Nat

namespace Scalar

variable {α : Type} [Scalar α]

/-- Less or the same. -/
def atMost (a b : α) : Bool := less a b || same a b

/-- The number of the way `t` from `a` to `b`. -/
def blend (a b t : α) : α := a + (b - a) * t

/-- The number in the range from `low` to `high` that is nearest to `x`. -/
def clamp (x low high : α) : α :=
  let top := if less x high then x else high
  if less low top then top else low

/-- A full turn. -/
def fullTurn : α := 2.0 * pi

/-- Take full turns off an angle until it is at most half a turn. -/
def unwind : Nat → α → α
  | 0, d => d
  | n + 1, d => if less pi d then unwind n (d - fullTurn) else d

/-- Add full turns to an angle until it is at least half a turn back. -/
def rewind : Nat → α → α
  | 0, d => d
  | n + 1, d => if less d (-pi) then rewind n (d + fullTurn) else d

/-- The way from the angle `b` to the angle `a`, half a turn at most. -/
def angleDelta (a b : α) : α :=
  let d := unwind (turns (a - b)) (a - b)
  rewind (turns (-d)) d

end Scalar

/-! ## Floats -/

namespace FloatScalar

/-- The float nearest to `n · 2^e`, or to a number a little above it if `more` is
set. Of the digits of `n` as many are kept as are needed to round. -/
def nearest (n : Nat) (e : Int) (more : Bool) : Float :=
  let spare := n.log2 - 60
  let rest : Nat := if more || n % Nat.pow 2 spare != 0 then 1 else 0
  Float.scaleB (Float.ofNat (2 * (n / Nat.pow 2 spare) + rest)) (e + spare - 1)

/-- The float nearest to the length of `(a, b)`: both are brought to one power of
two, the squares are added exactly, and the root is taken with many more digits
than a float has. -/
def length (a b : Float) : Float :=
  if a.isInf || b.isInf then 1 / 0
  else
    match BinaryFloat.ofFloat? a, BinaryFloat.ofFloat? b with
    | some x, some y =>
      let low := if x.exponent ≤ y.exponent then x.exponent else y.exponent
      let m := x.mantissa * Nat.pow 2 (x.exponent - low).toNat
      let n := y.mantissa * Nat.pow 2 (y.exponent - low).toNat
      let square := (m * m + n * n) * Nat.pow 2 256
      let root := square.sqrt
      nearest root (low - 128) (root * root != square)
    | _, _ => 0 / 0

/-- The number of full turns in an angle, rounded up; none for angles so long
that a turn does not change them. -/
def turns (x : Float) : Nat :=
  if x.abs < 9007199254740992.0 && 0 < x then (x / 6.0).toUInt64.toNat + 1 else 0

end FloatScalar

instance : Scalar Float where
  less a b := a < b
  same a b := a == b
  isFinite := Float.isFinite
  isInfinite := Float.isInf
  pi := 3.141592653589793
  sin := Float.sin
  cos := Float.cos
  angle := Float.atan2
  distance := FloatScalar.length
  turns := FloatScalar.turns

end RepoOrbit
