import RepoOrbit.Text.WordChar

/-!
# Imports in plain text

Three forms of import are found without parsing: `from '…'`, `import '…'` and
`require('…')` (`ImportForm`). A specifier begins with a point, has at least two
characters and holds no quote; either quote may open and either may close it.

`bodies` goes through a text from left to right and gives the specifiers of all
occurrences that do not overlap.
-/

namespace RepoOrbit

/-- A form of import as it stands in a text. -/
inductive ImportForm where
  /-- The word `from`, white space and a quoted specifier. -/
  | fromClause
  /-- The word `import`, white space and a quoted specifier. -/
  | bareImport
  /-- A call of `require` on a quoted specifier. -/
  | requireCall
  deriving DecidableEq, Repr

namespace ImportForm

open Text

/-- Whether a character is a quote of either kind. -/
def isQuote (c : Char) : Bool := c == '\'' || c == '"'

/-- Read the text `literal`; gives what follows it. -/
def afterLiteral? : List Char → List Char → Option (List Char)
  | [], text => some text
  | _ :: _, [] => none
  | x :: xs, c :: text => if x = c then afterLiteral? xs text else none

/-- What follows the white space at the start of a text. -/
def afterWhite : List Char → List Char
  | [] => []
  | c :: rest => if isWhite c then afterWhite rest else c :: rest

/-- Read a quoted specifier; gives it and what follows its closing quote. -/
def quoted? : List Char → Option (List Char × List Char)
  | open_ :: '.' :: rest =>
    if isQuote open_ then
      let tail := rest.takeWhile fun c => !isQuote c
      match tail, rest.drop tail.length with
      | [], _ => none
      | _, [] => none
      | _, _close :: after => some ('.' :: tail, after)
    else none
  | _ => none

/-- Whether a word may begin after the character `before`. -/
def wordStarts (before : Option Char) : Bool := !before.any isWordChar

/-- Read an occurrence of the form at the start of a text; gives the specifier
and what follows the occurrence. -/
def here? (form : ImportForm) (before : Option Char) (text : List Char) : Option (List Char × List Char) :=
  let worded (word : String) : Option (List Char × List Char) :=
    if !wordStarts before then none
    else
      match afterLiteral? word.toList text with
      | some (c :: rest) => if isWhite c then quoted? (afterWhite rest) else none
      | _ => none
  match form with
  | .fromClause => worded "from"
  | .bareImport => worded "import"
  | .requireCall =>
    match afterLiteral? "require(".toList text with
    | none => none
    | some rest =>
      match quoted? (afterWhite rest) with
      | none => none
      | some (body, rest) =>
        match afterWhite rest with
        | ')' :: after => some (body, after)
        | _ => none

/-- The specifiers of the occurrences in a text, the first `skip` characters of
which belong to an earlier occurrence. -/
def bodiesFrom (form : ImportForm) : Nat → Option Char → List Char → List (List Char)
  | _, _, [] => []
  | skip + 1, _, c :: rest => bodiesFrom form skip (some c) rest
  | 0, before, c :: rest =>
    match form.here? before (c :: rest) with
    | some (body, after) => body :: bodiesFrom form (rest.length - after.length) (some c) rest
    | none => bodiesFrom form 0 (some c) rest

/-- The specifiers of all occurrences in a text. -/
def bodies (form : ImportForm) (text : List Char) : List (List Char) := bodiesFrom form 0 none text

end ImportForm

end RepoOrbit
