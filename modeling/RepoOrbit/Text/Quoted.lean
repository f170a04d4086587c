import RepoOrbit.Text.Printable

/-!
# Quoted text

A text shown between quotes in a message (`quoted`): single quotes, unless the
text holds single quotes and no double ones. The quote in use, backslashes and
characters that cannot be printed are escaped.
-/

namespace RepoOrbit.Text

/-- The hexadecimal digit of a number below sixteen. -/
def hexDigit (n : Nat) : Char := if n < 10 then Char.ofNat (48 + n) else Char.ofNat (87 + n)

/-- The last `width` hexadecimal digits of a number. -/
def hexDigits : Nat → Nat → List Char
  | 0, _ => []
  | width + 1, n => hexDigits width (n / 16) ++ [hexDigit (n % 16)]

/-- A character as it stands between the quotes `quote`. -/
def escapeChar (quote c : Char) : List Char :=
  if c = quote ∨ c = '\\' then ['\\', c]
  else if c = '\n' then ['\\', 'n']
  else if c = '\r' then ['\\', 'r']
  else if c = '\t' then ['\\', 't']
  else if isPrintable c then [c]
  else if c.toNat < 0x100 then '\\' :: 'x' :: hexDigits 2 c.toNat
  else if c.toNat < 0x10000 then '\\' :: 'u' :: hexDigits 4 c.toNat
  else '\\' :: 'U' :: hexDigits 8 c.toNat

/-- The quote a text is shown in. -/
def quoteFor (text : List Char) : Char :=
  if text.contains '\'' && !text.contains '"' then '"' else '\''

/-- A text between quotes. -/
def quotedChars (text : List Char) : List Char :=
  let q := quoteFor text
  q :: text.flatMap (escapeChar q) ++ [q]

/-- A text between quotes. -/
def quoted (text : String) : String := String.ofList (quotedChars text.toList)

end RepoOrbit.Text
