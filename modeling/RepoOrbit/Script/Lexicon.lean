import RepoOrbit.Grammar.Rule

/-!
# Tokens of scripts

Readers for the tokens of scripts: names, numbers, comments and the pieces of
strings, templates, patterns and markup. Each gives the length of the longest
reading at the start of the text.
-/

namespace RepoOrbit.Script

/-- Space separators, apart from the ASCII space. -/
def isWideSpace (c : Char) : Bool :=
  let n := c.toNat
  n == 0xA0 || n == 0x1680 || (0x2000 ≤ n && n ≤ 0x200A) || n == 0x202F || n == 0x205F || n == 0x3000

/-- Tab, line feed, vertical tab, form feed, carriage return or space. -/
def isAsciiSpace (c : Char) : Bool :=
  let n := c.toNat
  (9 ≤ n && n ≤ 13) || n == 32

/-- What may stand between tokens. -/
def isSpace (c : Char) : Bool :=
  let n := c.toNat
  isAsciiSpace c || isWideSpace c || n == 0xFEFF || n == 0x2028 || n == 0x2029 || n == 0x2060 || n == 0x200B

/-- The line separators beyond ASCII. -/
def isLineSeparator (c : Char) : Bool := c.toNat == 0x2028 || c.toNat == 0x2029

/-- The ASCII marks no name may hold. -/
def marks : List Char := ":;\x60\"'@#.,|^&<=>+-*/\\%?!~()[]\x7b\x7d".toList

/-- What a name may hold besides escapes. -/
def isNameChar (c : Char) : Bool :=
  c.isAlphanum || (c.toNat ≥ 0x20 && !isSpace c && !marks.contains c)

def isHexDigit (c : Char) : Bool :=
  c.isDigit || ('a' ≤ c && c ≤ 'f') || ('A' ≤ c && c ≤ 'F')

/-- The length of a code point escape after its backslash. -/
def codePointEscape : List Char → Option Nat
  | 'u' :: c :: rest =>
    if c.toNat = 0x7B then
      let digits := rest.takeWhile isHexDigit
      match rest.drop digits.length with
      | d :: _ => if d.toNat = 0x7D && !digits.isEmpty then some (digits.length + 3) else none
      | [] => none
    else
      let digits := (c :: rest).take 4
      if digits.length = 4 && digits.all isHexDigit then some 5 else none
  | _ => none

/-- The length of one character of a name. -/
def namePart (first : Bool) : List Char → Option Nat
  | [] => none
  | c :: rest =>
    if c = '\\' then (codePointEscape rest).map (· + 1)
    else if isNameChar c && !(first && c.isDigit) then some 1
    else none

/-- How far a name goes on. -/
def nameRest : Nat → List Char → Nat
  | 0, _ => 0
  | fuel + 1, text =>
    match namePart false text with
    | none => 0
    | some n => n + nameRest fuel (text.drop n)

/-- A name. -/
def name (text : List Char) : Option Nat :=
  (namePart true text).map fun n =>
    let rest := text.drop n
    n + nameRest (rest.length + 1) rest

/-- A private name: a hash and a name. -/
def privateName : List Char → Option Nat
  | '#' :: rest => (name rest).map (· + 1)
  | _ => none

/-- The length of digits with single underscores between them. -/
def digitsFrom (p : Char → Bool) : List Char → Nat
  | [] => 0
  | '_' :: c :: rest => if p c then digitsFrom p rest + 2 else 0
  | c :: rest => if p c then digitsFrom p rest + 1 else 0

/-- Digits with single underscores between them. -/
def digits (p : Char → Bool) : List Char → Option Nat
  | [] => none
  | c :: rest => if p c then some (digitsFrom p rest + 1) else none

/-- An exponent. -/
def exponent : List Char → Option Nat
  | 'e' :: rest | 'E' :: rest =>
    match rest with
    | '+' :: ds | '-' :: ds => (digits Char.isDigit ds).map (· + 2)
    | ds => (digits Char.isDigit ds).map (· + 1)
  | _ => none

/-- The integers that may stand before a point: zero, or digits that start with
one to nine after at most one zero. -/
def pointIntegers (text : List Char) : List Nat :=
  let positive (text : List Char) : List Nat :=
    match text with
    | c :: rest =>
      if c.isDigit && c != '0' then
        let tail := match rest with
          | '_' :: ds => (digits Char.isDigit ds).map (· + 2)
          | ds => (digits Char.isDigit ds).map (· + 1)
        1 :: tail.toList
      else []
    | [] => []
  match text with
  | '0' :: rest => 1 :: (positive rest).map (· + 1)
  | _ => positive text

/-- The longer of two lengths. -/
def longer (a b : Option Nat) : Option Nat :=
  match a, b with
  | none, b => b
  | a, none => a
  | some a, some b => some (max a b)

/-- A number in base two, eight or sixteen, or a decimal one. -/
def number (text : List Char) : Option Nat :=
  let based : Option Nat :=
    match text with
    | '0' :: x :: rest =>
      let p : Option (Char → Bool) :=
        if x = 'x' || x = 'X' then some isHexDigit
        else if x = 'b' || x = 'B' then some fun c => c = '0' || c = '1'
        else if x = 'o' || x = 'O' then some fun c => '0' ≤ c && c ≤ '7'
        else none
      (p.bind fun p => digits p rest).map (· + 2)
    | _ => none
  let plain := digits Char.isDigit text
  let big (n : Option Nat) : Option Nat :=
    n.bind fun n => match text.drop n with
      | 'n' :: _ => some (n + 1)
      | _ => none
  let after (n : Nat) : Nat := n + ((exponent (text.drop n)).getD 0)
  let pointed : Option Nat := (pointIntegers text).foldl
    (fun best n =>
      let withPoint := match text.drop n with
        | '.' :: rest => some (after (n + 1 + (digits Char.isDigit rest).getD 0))
        | _ => none
      let withExponent := (exponent (text.drop n)).map (· + n)
      longer best (longer withPoint withExponent))
    none
  let fraction : Option Nat := match text with
    | '.' :: rest => (digits Char.isDigit rest).map fun n => after (n + 1)
    | _ => none
  longer (longer based plain) (longer (longer (big based) (big plain)) (longer pointed fraction))

/-- Whether a line comment ends before this character. -/
def endsLine (c : Char) : Bool := c = '\r' || c = '\n' || isLineSeparator c

/-- How far a block comment goes, its opening already read. -/
def blockEnd : List Char → Option Nat
  | [] => none
  | ['*'] => none
  | '*' :: '/' :: _ => some 2
  | _ :: rest => (blockEnd rest).map (· + 1)

/-- A line comment or a block comment. -/
def comment : List Char → Option Nat
  | '/' :: '/' :: rest => some (2 + (rest.takeWhile fun c => !endsLine c).length)
  | '/' :: '*' :: rest => (blockEnd rest).map (· + 2)
  | _ => none

/-- The first line of a script that names its interpreter. -/
def hashBang : List Char → Option Nat
  | '#' :: '!' :: rest => some (2 + (rest.takeWhile (· != '\n')).length)
  | _ => none

/-- A run of characters that `p` allows, at least one. -/
def runOf (p : Char → Bool) (text : List Char) : Option Nat :=
  match (text.takeWhile p).length with
  | 0 => none
  | n => some n

/-- Plain text in a string that `quote` closes. -/
def stringText (quote : Char) : List Char → Option Nat :=
  runOf fun c => c != quote && c != '\\' && c != '\r' && c != '\n'

/-- An escape in a string or a template. -/
def escape : List Char → Option Nat
  | '\\' :: rest =>
    let octal := (rest.take 3).takeWhile fun c => '0' ≤ c && c ≤ '7'
    match rest with
    | [] => none
    | c :: more =>
      if !octal.isEmpty then some (1 + octal.length)
      else if c = 'x' then
        let ds := more.take 2
        if ds.length = 2 && ds.all isHexDigit then some 4 else none
      else if c = 'u' then (codePointEscape rest).map (· + 1)
      else if c = '\r' || c = '?' then
        match more with
        | d :: _ => if d = '\n' || isLineSeparator d then some 3 else some 2
        | [] => some 2
      else some 2
  | _ => none

/-- The end of a character class in a pattern, its bracket already read. -/
def classEnd : List Char → Option Nat
  | [] => none
  | ']' :: _ => some 1
  | '\\' :: c :: rest => if c = '\n' then none else (classEnd rest).map (· + 2)
  | ['\\'] => none
  | c :: rest => if c = '\n' then none else (classEnd rest).map (· + 1)

/-- The body of a pattern; a piece that does not close is left out. -/
def patternBody : Nat → List Char → Nat
  | 0, _ => 0
  | fuel + 1, text =>
    match text with
    | [] => 0
    | '[' :: rest =>
      match classEnd rest with
      | none => 0
      | some n => n + 1 + patternBody fuel (rest.drop n)
    | '\\' :: c :: rest => if c = '\n' then 0 else 2 + patternBody fuel rest
    | ['\\'] => 0
    | c :: rest => if c = '/' || c = '\n' then 0 else 1 + patternBody fuel rest

/-- The text of a pattern between its slashes. -/
def pattern (text : List Char) : Option Nat :=
  match patternBody (text.length + 1) text with
  | 0 => none
  | n => some n

/-- The letters after a pattern. -/
def patternFlags : List Char → Option Nat := runOf fun c => 'a' ≤ c && c ≤ 'z'

/-- One slash. -/
def slash : List Char → Option Nat
  | '/' :: _ => some 1
  | _ => none

/-- A character reference of markup. -/
def characterReference : List Char → Option Nat
  | '&' :: rest =>
    let closed (body : Nat) (least most : Nat) (head : Nat) (tail : List Char) : Option Nat :=
      if least ≤ body && body ≤ most then
        match tail with
        | ';' :: _ => some (head + body + 1)
        | _ => none
      else none
    match rest with
    | '#' :: x :: more =>
      if x = 'x' || x = 'X' then
        let n := (more.takeWhile isHexDigit).length
        closed n 1 6 3 (more.drop n)
      else
        let n := ((x :: more).takeWhile Char.isDigit).length
        closed n 1 5 2 ((x :: more).drop n)
    | _ =>
      let n := (rest.takeWhile Char.isAlpha).length
      closed n 1 30 1 (rest.drop n)
  | _ => none

/-- A name with a dash in it, as markup allows. -/
def dashedName : List Char → Option Nat
  | [] => none
  | c :: rest =>
    if c.isAlpha || c = '_' || c = '$' then
      let plain := (rest.takeWhile fun d => d.isAlphanum || d = '_' || d = '$').length
      match rest.drop plain with
      | '-' :: more =>
        some (plain + 2 + (more.takeWhile fun d => d.isAlphanum || d = '_' || d = '$' || d = '-').length)
      | _ => none
    else none

/-- How far the text of a markup string goes that `quote` closes. -/
def markupTextFrom (quote : Char) : List Char → Nat
  | [] => 0
  | '&' :: c :: rest => if c = '#' || c.isAlpha then 0 else markupTextFrom quote rest + 2
  | ['&'] => 0
  | c :: rest => if c = quote then 0 else markupTextFrom quote rest + 1

/-- Plain text in a markup string that `quote` closes. -/
def markupText (quote : Char) (text : List Char) : Option Nat :=
  match markupTextFrom quote text with
  | 0 => none
  | n => some n

/-- The words `static` and `get` when a line ends after them. -/
def staticGet (text : List Char) : Option Nat :=
  let word := "static".toList
  if word.isPrefixOf text then
    let a := text.drop 6
    let s := (a.takeWhile isAsciiSpace).length
    let b := a.drop s
    match b with
    | 'g' :: 'e' :: 't' :: tail =>
      let spaces := tail.takeWhile isAsciiSpace
      -- The reading ends with the last line feed of the space that follows.
      let kept := (spaces.reverse.dropWhile (· != '\n')).length
      if s > 0 && kept > 0 then some (6 + s + 3 + kept) else none
    | _ => none
  else none

end RepoOrbit.Script
