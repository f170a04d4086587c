import RepoOrbit.Decimal.Shortest
import RepoOrbit.Text.Quoted
import RepoOrbit.Validation.Value

/-!
# JSON

Values written as JSON, on one line (`Value.onLine`) or with an entry on each line
and two more blanks for each level (`Value.onLines`). The text is ASCII: every
other character is written by its UTF-16 units.
-/

namespace RepoOrbit

namespace Json

open Text

/-- A UTF-16 unit as an escape. -/
def unit (n : Nat) : List Char := '\\' :: 'u' :: hexDigits 4 n

/-- A character of a text. -/
def character (c : Char) : List Char :=
  let n := c.toNat
  if c = '"' ∨ c = '\\' then ['\\', c]
  else if c = '\n' then ['\\', 'n']
  else if c = '\r' then ['\\', 'r']
  else if c = '\t' then ['\\', 't']
  else if n = 8 then ['\\', 'b']
  else if n = 12 then ['\\', 'f']
  else if 0x20 ≤ n ∧ n < 0x7F then [c]
  else if n < 0x10000 then unit n
  else
    let above := n - 0x10000
    unit (0xD800 + above / 0x400) ++ unit (0xDC00 + above % 0x400)

/-- A text between quotes. -/
def text (s : String) : List Char := '"' :: s.toList.flatMap character ++ ['"']

/-- A number. -/
def number (x : Float) : List Char :=
  if x.isNaN then "NaN".toList
  else if x.isInf then (if x < 0 then "-Infinity" else "Infinity").toList
  else (Decimal.shortest x).toList

/-- An integer. -/
def integer (n : Int) : List Char := (if n < 0 then ['-'] else []) ++ Nat.toDigits 10 n.natAbs

/-- The beginning of a line at a level. -/
def newLine (level : Nat) : List Char := '\n' :: List.replicate (2 * level) ' '

/-- Where an entry at a level begins: on a line of its own, if there are lines;
after a blank otherwise, unless it is the first. -/
def separator (lines isFirst : Bool) (level : Nat) : List Char :=
  (if isFirst then [] else [',']) ++
    if lines then newLine level else if isFirst then [] else [' ']

/-- What stands between brackets, the closing one included. -/
def closed (lines : Bool) (level : Nat) (isEmpty : Bool) (close : Char) : List Char :=
  (if lines && !isEmpty then newLine level else []) ++ [close]

mutual

/-- A value whose entries stand at a level below `level`. -/
def value (lines : Bool) (level : Nat) : Value → List Char
  | .null => "null".toList
  | .bool b => (if b then "true" else "false").toList
  | .int n => integer n
  | .number x => number x
  | .text s => text s
  | .list items => '[' :: valueItems lines (level + 1) true items ++ closed lines level items.isEmpty ']'
  | .map entries =>
    '\x7b' :: valueEntries lines (level + 1) true entries ++ closed lines level entries.isEmpty '\x7d'

/-- The items of a list. -/
def valueItems (lines : Bool) (level : Nat) (isFirst : Bool) : List Value → List Char
  | [] => []
  | v :: rest => separator lines isFirst level ++ value lines level v ++ valueItems lines level false rest

/-- The entries of a map. -/
def valueEntries (lines : Bool) (level : Nat) (isFirst : Bool) : List (String × Value) → List Char
  | [] => []
  | (k, v) :: rest =>
    separator lines isFirst level ++ text k ++ [':', ' '] ++ value lines level v ++
      valueEntries lines level false rest

end

end Json

/-- A value on one line. -/
def Value.onLine (v : Value) : String := String.ofList (Json.value false 0 v)

/-- A value with an entry on each line. -/
def Value.onLines (v : Value) : String := String.ofList (Json.value true 0 v)

end RepoOrbit
