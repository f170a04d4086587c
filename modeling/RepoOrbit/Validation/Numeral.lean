/-!
# Numbers written in settings

Integers may carry a sign, single underscores between digits, zeros in front and
a point with nothing but zeros behind it (`integer?`). Numbers are decimals with
an optional exponent, or the words for infinity and for what is no number
(`number?`). White space around either is passed over.
-/

namespace RepoOrbit.Numeral

/-- White space around a numeral. -/
def isBlank (c : Char) : Bool :=
  let n := c.toNat
  (9 ≤ n && n ≤ 13) || n == 32 || n == 0x85 || n == 0xA0 || n == 0x1680 ||
    (0x2000 ≤ n && n ≤ 0x200A) || n == 0x2028 || n == 0x2029 || n == 0x202F || n == 0x205F ||
    n == 0x3000

/-- The text without the white space around it. -/
def trimmed (s : List Char) : List Char := ((s.dropWhile isBlank).reverse.dropWhile isBlank).reverse

/-- The value of decimal digits. -/
def digitsValue (s : List Char) : Nat := s.foldl (fun n c => n * 10 + (c.toNat - 48)) 0

/-- Drop the underscores between digits, if each stands alone and none ends the
text. -/
def withoutUnderscores? (s : List Char) : Option (List Char) :=
  if s.head? = some '_' || s.getLast? = some '_' then none
  else
    let pairs := s.zip (s.drop 1)
    if pairs.any fun p => p.1 == '_' && p.2 == '_' then none else some (s.filter (· != '_'))

/-- Drop the zeros in front, and underscores among them; one digit stays. -/
def withoutZeros? : List Char → Option (List Char)
  | '0' :: rest =>
    let lead := rest.takeWhile fun c => c == '0' || c == '_'
    match rest.drop lead.length with
    | [] => some [('0' :: lead).getLastD '0']
    | '.' :: fraction => some (('0' :: lead).getLastD '0' :: '.' :: fraction)
    | c :: more => if c.isDigit then some (c :: more) else none
  | c :: rest => if c.isDigit || c == '-' then some (c :: rest) else none
  | [] => none

/-- Drop a point with nothing but zeros behind it. -/
def withoutFraction (s : List Char) : List Char :=
  let whole := s.takeWhile (· != '.')
  if (s.drop (whole.length + 1)).all (· == '0') then whole else s

/-- Why a text is no integer. -/
inductive Refusal where
  | malformed
  | tooLong
  deriving DecidableEq, Repr

/-- How many digits an integer may have. -/
def digitLimit : Nat := 4300

/-- Read an integer without ornaments. -/
def plainInteger? (s : List Char) : Except Refusal Int :=
  if digitLimit < s.length then .error .tooLong
  else
    let (negative, digits) := match s with
      | '-' :: rest => (true, rest)
      | _ => (false, s)
    if digits.isEmpty || !digits.all Char.isDigit || (digits.head? = some '0' && 1 < digits.length) then
      .error .malformed
    else if negative then .ok (-(digitsValue digits : Int))
    else .ok (digitsValue digits)

/-- Read an integer. -/
def integer? (s : String) : Except Refusal Int :=
  let text := trimmed s.toList
  let unsigned := match text with
    | '+' :: '-' :: _ => none
    | '+' :: rest => some rest
    | _ => some text
  match unsigned.bind withoutZeros? |>.map withoutFraction |>.bind withoutUnderscores? with
  | some plain => plainInteger? plain
  | none => .error .malformed

/-- The float nearest to `digits · 10^exponent`. Far outside the range of floats
the power need not be worked out. -/
def scaled (digits : Nat) (exponent : Int) : Float :=
  if digits = 0 then 0
  else
    let size : Int := (Nat.log2 digits / 3 : Nat)
    if 400 < exponent then 1 / 0
    else if exponent < -(400 + size) then 0
    else if exponent < 0 then Float.ofScientific digits true exponent.natAbs
    else Float.ofScientific digits false exponent.natAbs

/-- Read a decimal with an optional exponent. -/
def unsignedDecimal? (s : List Char) : Option Float :=
  let whole := s.takeWhile Char.isDigit
  let afterWhole := s.drop whole.length
  let (fraction, afterFraction) := match afterWhole with
    | '.' :: rest =>
      let f := rest.takeWhile Char.isDigit
      (f, rest.drop f.length)
    | _ => ([], afterWhole)
  if whole.isEmpty && fraction.isEmpty then none
  else
    let value := digitsValue (whole ++ fraction)
    let shift : Int := -(fraction.length : Int)
    match afterFraction with
    | [] => some (scaled value shift)
    | e :: rest =>
      if e = 'e' ∨ e = 'E' then
        let (negative, digits) := match rest with
          | '-' :: r => (true, r)
          | '+' :: r => (false, r)
          | _ => (false, rest)
        if digits.isEmpty || !digits.all Char.isDigit then none
        else
          let n : Int := digitsValue digits
          some (scaled value (shift + if negative then -n else n))
      else none

/-- Read a number without white space and underscores. -/
def plainNumber? (s : List Char) : Option Float :=
  let (negative, rest) := match s with
    | '-' :: r => (true, r)
    | '+' :: r => (false, r)
    | _ => (false, s)
  let word := String.ofList (rest.map Char.toLower)
  let size := if word = "inf" ∨ word = "infinity" then some (1 / 0)
    else if word = "nan" then some (0 / 0)
    else unsignedDecimal? rest
  size.map fun x => if negative then -x else x

/-- Read a number. -/
def number? (s : String) : Option Float :=
  let text := trimmed s.toList
  match plainNumber? text with
  | some x => some x
  | none => (withoutUnderscores? text).bind plainNumber?

end RepoOrbit.Numeral
