/-!
# The exact value of a float

A finite float is `± mantissa · 2^exponent` with natural `mantissa`
(`BinaryFloat`), read off its bits. Everything that is written about floats is
worked out from this in exact arithmetic.
-/

namespace RepoOrbit

/-- The number `± mantissa · 2^exponent`. -/
structure BinaryFloat where
  negative : Bool
  mantissa : Nat
  exponent : Int
  deriving DecidableEq, Repr, Inhabited

namespace BinaryFloat

/-- The number that 64 bits stand for, unless they stand for none or for
infinity. -/
def ofBits? (bits : UInt64) : Option BinaryFloat :=
  let n := bits.toNat
  let fraction : Nat := n % Nat.pow 2 52
  let field : Nat := n / Nat.pow 2 52 % Nat.pow 2 11
  let negative := n / Nat.pow 2 63 = 1
  if field = 2047 then none
  else if field = 0 then some ⟨negative, fraction, -1074⟩
  else some ⟨negative, fraction + Nat.pow 2 52, (field : Int) - 1075⟩

/-- The exact value of a float. -/
def ofFloat? (x : Float) : Option BinaryFloat := ofBits? x.toBits

/-- The size of the number as a quotient of naturals, times a power of ten. -/
def quotient (x : BinaryFloat) (tens : Int) : Nat × Nat :=
  let numerator := x.mantissa * Nat.pow 2 x.exponent.toNat * Nat.pow 10 tens.toNat
  let denominator := Nat.pow 2 (-x.exponent).toNat * Nat.pow 10 (-tens).toNat
  (numerator, denominator)

end BinaryFloat

/-- Divide, round to the nearest and a half to the even neighbour. -/
def roundDiv (numerator denominator : Nat) : Nat :=
  let q := numerator / denominator
  let twice := 2 * (numerator % denominator)
  if twice < denominator then q
  else if denominator < twice then q + 1
  else if q % 2 = 0 then q else q + 1

/-- The number of decimal digits of a number; zero has none. -/
def digitCount (n : Nat) : Nat := if n = 0 then 0 else (Nat.toDigits 10 n).length

end RepoOrbit
