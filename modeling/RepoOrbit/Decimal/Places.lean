import RepoOrbit.Decimal.Binary

/-!
# Decimals with a set number of places

* `fixed`: a set number of places behind the point;
* `scientific`: one digit before the point, a set number behind it and the power
  of ten, signed and of two digits at least;
* `general`: six digits in whichever of the two forms suits the size, without
  zeros at the end.

The exact value is rounded to the nearest, a half to the even digit.
-/

namespace RepoOrbit.Decimal

open BinaryFloat

/-- Decimal digits of a number, with zeros in front up to a width. -/
def padded (width n : Nat) : List Char :=
  let digits := Nat.toDigits 10 n
  List.replicate (width - digits.length) '0' ++ digits

/-- The digits of a number with a point before the last `places`. -/
def withPoint (places n : Nat) : List Char :=
  let digits := padded (places + 1) n
  let cut := digits.length - places
  digits.take cut ++ if places = 0 then [] else '.' :: digits.drop cut

/-- The sign in front of a number. -/
def sign (negative : Bool) : List Char := if negative then ['-'] else []

/-- The words for what has no digits. -/
def nonFinite (x : Float) : String := if x.isNaN then "nan" else if x < 0 then "-inf" else "inf"

/-- The power of ten of the first digit of `numerator / denominator`. -/
def leadingPower (numerator denominator : Nat) : Int :=
  if denominator ≤ numerator then (digitCount (numerator / denominator) : Int) - 1
  else -(digitCount ((denominator + numerator - 1) / numerator - 1) : Int)

/-- The first digits of a number above zero, `places` of them behind the first,
and the power of ten of the first. -/
def leadingDigits (x : BinaryFloat) (places : Nat) : Nat × Int :=
  let (n, d) := x.quotient 0
  let power := leadingPower n d
  let (n, d) := x.quotient (places - power)
  let digits := roundDiv n d
  if digits = Nat.pow 10 (places + 1) then (Nat.pow 10 places, power + 1) else (digits, power)

/-- A power of ten as it is written. -/
def powerText (power : Int) : List Char :=
  'e' :: (if power < 0 then '-' else '+') :: padded 2 power.natAbs

/-- Write with a set number of places behind the point. -/
def fixedChars (places : Nat) (x : BinaryFloat) : List Char :=
  let (n, d) := x.quotient places
  sign x.negative ++ withPoint places (roundDiv n d)

/-- Write with one digit before the point and a power of ten. -/
def scientificChars (places : Nat) (x : BinaryFloat) : List Char :=
  let (digits, power) := if x.mantissa = 0 then (0, 0) else leadingDigits x places
  sign x.negative ++ withPoint places digits ++ powerText power

/-- Drop the zeros behind the point, and a point that nothing follows. -/
def trimZeros (text : List Char) : List Char :=
  if text.contains '.' then
    match text.reverse.dropWhile (· == '0') with
    | '.' :: whole => whole.reverse
    | kept => kept.reverse
  else text

/-- Write six digits at most. -/
def generalChars (x : BinaryFloat) : List Char :=
  let (digits, power) := if x.mantissa = 0 then (0, 0) else leadingDigits x 5
  if -4 ≤ power ∧ power < 6 then trimZeros (fixedChars (5 - power).toNat x)
  else sign x.negative ++ trimZeros (withPoint 5 digits) ++ powerText power

/-- Write a float with a set number of places behind the point. -/
def fixed (places : Nat) (x : Float) : String :=
  match ofFloat? x with
  | some b => String.ofList (fixedChars places b)
  | none => nonFinite x

/-- Write a float with one digit before the point and a power of ten. -/
def scientific (places : Nat) (x : Float) : String :=
  match ofFloat? x with
  | some b => String.ofList (scientificChars places b)
  | none => nonFinite x

/-- Write six digits of a float at most. -/
def general (x : Float) : String :=
  match ofFloat? x with
  | some b => String.ofList (generalChars b)
  | none => nonFinite x

end RepoOrbit.Decimal
