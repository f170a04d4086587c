import RepoOrbit.Decimal.Places

/-!
# The shortest decimal of a float

The decimals that round to a float fill an interval around it (`Neighbourhood`).
`shortestDigits` takes the fewest digits with which a decimal lies in it, and of
two such decimals the nearer one. `shortest` writes them: with a point and a digit
on either side of it for sizes from 10^-4 to below 10^16, with a power of ten
otherwise.
-/

namespace RepoOrbit.Decimal

open BinaryFloat

/-- The numbers that round to a float, in quarters of its last place: from `low`
to `high`, the ends included if `closed`. -/
structure Neighbourhood where
  low : Nat
  high : Nat
  closed : Bool
  deriving DecidableEq, Repr

/-- The interval of a float. Below a power of two floats lie twice as close. -/
def neighbourhood (x : BinaryFloat) : Neighbourhood :=
  let below := if x.mantissa = Nat.pow 2 52 ∧ -1074 < x.exponent then 1 else 2
  ⟨4 * x.mantissa - below, 4 * x.mantissa + 2, x.mantissa % 2 = 0⟩

/-- The quotient `quarters · 2^(exponent - 2) · 10^tens` of two naturals. -/
def quarters (exponent : Int) (n : Nat) (tens : Int) : Nat × Nat :=
  BinaryFloat.quotient ⟨false, n, exponent - 2⟩ tens

/-- Whether the decimal `digits · 10^-tens` rounds to a float. -/
def rounds (x : BinaryFloat) (tens : Int) (digits : Nat) : Bool :=
  let i := neighbourhood x
  let (low, lowUnit) := quarters x.exponent i.low tens
  let (high, highUnit) := quarters x.exponent i.high tens
  if i.closed then low ≤ digits * lowUnit && digits * highUnit ≤ high
  else low < digits * lowUnit && digits * highUnit < high

/-- The decimal with digits down to `10^-tens` that rounds to a float: one of the
two neighbours of the float, the nearer one if both do. -/
def onGrid? (x : BinaryFloat) (tens : Int) : Option Nat :=
  let (n, d) := x.quotient tens
  let down := n / d
  let near := roundDiv n d
  if rounds x tens near then some near
  else if rounds x tens down then some down
  else if rounds x tens (down + 1) then some (down + 1)
  else none

/-- The fewest digits, and the power of ten of the last of them. More than
seventeen are never needed. -/
def shortestDigits (x : BinaryFloat) : Nat × Int :=
  let (n, d) := x.quotient 0
  let first := leadingPower n d
  let found := (List.range 17).findSome? fun (more : Nat) =>
    (onGrid? x (more - first)).map fun digits => (digits, first - more)
  found.getD (0, 0)

/-- Digits without zeros at the end, and the power of ten of the first. -/
def leading (digits : Nat) (last : Int) : List Char × Int :=
  let text := Nat.toDigits 10 digits
  ((text.reverse.dropWhile (· == '0')).reverse, last + text.length - 1)

/-- Write digits of which the first has a power of ten. -/
def positional (digits : List Char) (power : Int) : List Char :=
  if power < 0 then '0' :: '.' :: List.replicate (-power - 1).toNat '0' ++ digits
  else
    let whole := power.toNat + 1
    let padded := digits ++ List.replicate (whole - digits.length) '0'
    let fraction := padded.drop whole
    padded.take whole ++ '.' :: if fraction.isEmpty then ['0'] else fraction

/-- Write digits with one of them before the point, and the power of ten. -/
def withPower (digits : List Char) (power : Int) : List Char :=
  let fraction := digits.drop 1
  digits.take 1 ++ (if fraction.isEmpty then [] else '.' :: fraction) ++ powerText power

/-- Write a float with as few digits as tell it from all others. -/
def shortestChars (x : BinaryFloat) : List Char :=
  if x.mantissa = 0 then sign x.negative ++ ['0', '.', '0']
  else
    let (digits, last) := shortestDigits x
    let (text, power) := leading digits last
    sign x.negative ++ if -4 ≤ power ∧ power < 16 then positional text power else withPower text power

/-- Write a float with as few digits as tell it from all others. -/
def shortest (x : Float) : String :=
  match ofFloat? x with
  | some b => String.ofList (shortestChars b)
  | none => nonFinite x

end RepoOrbit.Decimal
