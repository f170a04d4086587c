import RepoOrbit.Text.Digits
import RepoOrbit.Validation.Numeral

/-!
# Numbers on a command line

Numbers in arguments may be written in the digits of any script, with single
underscores between two digits and white space around them. An integer has a sign
or none and digits (`integer?`); a number is a decimal with an optional exponent,
or a word for infinity or for what is no number (`decimal?`).
-/

namespace RepoOrbit.CommandLine

/-- Drop the underscores, if each stands between two digits. -/
def joinDigits? : Option Char → List Char → Option (List Char)
  | _, [] => some []
  | before, '_' :: rest =>
    if before.any Char.isDigit && rest.head?.any Char.isDigit then joinDigits? (some '_') rest else none
  | _, c :: rest => (joinDigits? (some c) rest).map (c :: ·)

/-- A numeral in plain digits, without ornaments. -/
def plainNumeral? (s : String) : Option (List Char) :=
  joinDigits? none ((Numeral.trimmed s.toList).map Text.plainDigit)

/-- Read an integer. -/
def integer? (s : String) : Option Int :=
  (plainNumeral? s).bind fun text =>
    let (negative, digits) := match text with
      | '-' :: rest => (true, rest)
      | '+' :: rest => (false, rest)
      | _ => (false, text)
    if digits.isEmpty || !digits.all Char.isDigit || Numeral.digitLimit < digits.length then none
    else some (if negative then -(Numeral.digitsValue digits : Int) else Numeral.digitsValue digits)

/-- Read a number. -/
def decimal? (s : String) : Option Float := (plainNumeral? s).bind Numeral.plainNumber?

end RepoOrbit.CommandLine
