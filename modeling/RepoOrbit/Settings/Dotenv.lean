import RepoOrbit.Text.WordChar

/-!
# Files of variables

A file of variables has one on each line, `NAME=value`, with comments behind `#`
(`Dotenv.bindings`). Names may stand in single quotes and follow the word
`export`; values may stand in quotes of either kind, over several lines and with
escapes. A line that cannot be read is passed over. `Dotenv.values` puts the
values of other variables in for `${NAME}`.
-/

namespace RepoOrbit.Dotenv

open Text

/-- A variable and its value, if it is given one. -/
structure Binding where
  name : String
  value : Option String
  deriving DecidableEq, Repr

/-- Whether a character is white space within a line. -/
def isGap (c : Char) : Bool := isWhite c && c != '\n'

/-- What follows the white space within the line. -/
def afterGap (s : List Char) : List Char := s.dropWhile isGap

/-- What follows the word `export`, if it stands alone. -/
def afterExport (s : List Char) : List Char :=
  let word := "export".toList
  if word.isPrefixOf s then
    let rest := s.drop word.length
    if rest.head?.any isGap then afterGap rest else s
  else s

/-- Read a name: nothing before a comment, and never an empty one. The outer
option tells whether it can be read. -/
def name? (s : List Char) : Option (Option String × List Char) :=
  match s with
  | '#' :: _ => some (none, s)
  | '\'' :: rest =>
    let name := rest.takeWhile (· != '\'')
    match rest.drop name.length with
    | _ :: after => if name.isEmpty then none else some (some (String.ofList name), after)
    | [] => none
  | _ =>
    let name := s.takeWhile fun c => c != '=' && c != '#' && !isWhite c
    if name.isEmpty then none else some (some (String.ofList name), s.drop name.length)

/-- The text between quotes and what follows: a quote behind a backslash does not
end it, unless no other quote does. `body` is what was read, in reverse, and
`fallback` the last such quote with what was before and after it. -/
def quotedFrom (quote : Char) (body : List Char) (fallback : Option (List Char × List Char)) :
    List Char → Option (List Char × List Char)
  | [] => fallback
  | '\\' :: c :: rest =>
    if c = quote then
      quotedFrom quote (c :: '\\' :: body) (some (('\\' :: body).reverse, rest)) rest
    else quotedFrom quote ('\\' :: body) fallback (c :: rest)
  | c :: rest => if c = quote then some (body.reverse, rest) else quotedFrom quote (c :: body) fallback rest

/-- The character an escape stands for, between the quotes `quote`. -/
def escaped? (quote c : Char) : Option Char :=
  if c = '\\' ∨ c = '\'' then some c
  else if quote = '\'' then none
  else
    match c with
    | '"' => some '"'
    | 'a' => some '\x07'
    | 'b' => some '\x08'
    | 'f' => some '\x0c'
    | 'n' => some '\n'
    | 'r' => some '\r'
    | 't' => some '\t'
    | 'v' => some '\x0b'
    | _ => none

/-- Put characters in for the escapes. -/
def unescape (quote : Char) : List Char → List Char
  | '\\' :: c :: rest =>
    match escaped? quote c with
    | some x => x :: unescape quote rest
    | none => '\\' :: unescape quote (c :: rest)
  | c :: rest => c :: unescape quote rest
  | [] => []

/-- The text before a comment: white space and a `#`. -/
def beforeComment : List Char → List Char
  | [] => []
  | c :: rest =>
    if isWhite c && (rest.dropWhile isWhite).head? == some '#' then [] else c :: beforeComment rest

/-- The text without the white space at its end. -/
def trimEnd (s : List Char) : List Char := (s.reverse.dropWhile isWhite).reverse

/-- Read a value. -/
def value? (s : List Char) : Option (List Char × List Char) :=
  match s with
  | [] => some ([], [])
  | q :: rest =>
    if q = '\'' ∨ q = '"' then
      (quotedFrom q [] none rest).map fun (body, after) => (unescape q body, after)
    else
      let line := s.takeWhile (· != '\n')
      some (trimEnd (beforeComment line), s.drop line.length)

/-- What follows the end of the line, of which at most a comment is left. -/
def afterLineEnd? (s : List Char) : Option (List Char) :=
  let s := match afterGap s with
    | '#' :: rest => rest.dropWhile (· != '\n')
    | _ => s
  match afterGap s with
  | [] => some []
  | '\n' :: rest => some rest
  | _ => none

/-- What follows the line. -/
def afterLine (s : List Char) : List Char := (s.dropWhile (· != '\n')).drop 1

/-- Read one variable and the rest of its line; what cannot be read is passed
over to the end of the line. -/
def binding (s : List Char) : Option Binding × List Char :=
  let s := s.dropWhile isWhite
  if s.isEmpty then (none, [])
  else
    let s := afterExport s
    match name? s with
    | none => (none, afterLine s)
    | some (name, s) =>
      let s := afterGap s
      let read : Option (Option (List Char)) × List Char := match s with
        | '=' :: rest =>
          let rest := afterGap rest
          match value? rest with
          | some (v, after) => (some (some v), after)
          | none => (none, rest)
        | _ => (some none, s)
      match read with
      | (none, s) => (none, afterLine s)
      | (some value, s) =>
        match afterLineEnd? s with
        | none => (none, afterLine s)
        | some rest => (name.map fun n => ⟨n, value.map String.ofList⟩, rest)

/-- The variables of a text, `limit` lines at most. -/
def bindingsFrom : Nat → List Char → List Binding
  | 0, _ => []
  | limit + 1, s =>
    if s.isEmpty then []
    else
      let (b, rest) := binding s
      b.toList ++ bindingsFrom limit rest

/-- The variables of a file; its lines end in `\n`. -/
def bindings (s : String) : List Binding := bindingsFrom (s.length + 1) s.toList

/-! ## Values of other variables -/

/-- A reference to a variable at the start of a text: its name, the value if it is
not set, and what follows. -/
def reference? : List Char → Option (String × String × List Char)
  | '$' :: '\x7b' :: rest =>
    let name := rest.takeWhile fun c => c != '\x7d' && c != ':'
    match rest.drop name.length with
    | '\x7d' :: after => some (String.ofList name, "", after)
    | ':' :: '-' :: more =>
      let default := more.takeWhile (· != '\x7d')
      match more.drop default.length with
      | _ :: after => some (String.ofList name, String.ofList default, after)
      | [] => none
    | _ => none
  | _ => none

/-- Put values in for references; the first `skip` characters belong to one that
was read already. -/
def expandFrom (lookup : String → Option (Option String)) : Nat → List Char → List Char
  | _, [] => []
  | skip + 1, _ :: rest => expandFrom lookup skip rest
  | 0, c :: rest =>
    match reference? (c :: rest) with
    | some (name, default, after) =>
      let value := match lookup name with
        | some v => v.getD ""
        | none => default
      value.toList ++ expandFrom lookup (rest.length - after.length) rest
    | none => c :: expandFrom lookup 0 rest

/-- Put values in for the references in a text. -/
def expand (lookup : String → Option (Option String)) (s : String) : String :=
  String.ofList (expandFrom lookup 0 s.toList)

/-- Set a variable; one that was set before keeps its place. -/
def setValue (vs : List (String × Option String)) (name : String) (value : Option String) :
    List (String × Option String) :=
  if vs.any (·.1 == name) then vs.map fun v => if v.1 == name then (name, value) else v
  else vs ++ [(name, value)]

/-- The values of the variables of a file, each read with the variables before it
and then those of the environment. -/
def values (environment : List (String × String)) (s : String) : List (String × Option String) :=
  (bindings s).foldl (fun vs b =>
    let lookup (name : String) : Option (Option String) :=
      match vs.lookup name with
      | some v => some v
      | none => (environment.lookup name).map some
    setValue vs b.name (b.value.map (expand lookup))) []

end RepoOrbit.Dotenv
