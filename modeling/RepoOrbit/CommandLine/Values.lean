import RepoOrbit.CommandLine.Arguments
import RepoOrbit.CommandLine.Number
import RepoOrbit.Decimal.Shortest
import RepoOrbit.Files.Tree
import RepoOrbit.Text.LowerCase

/-!
# The values of options

What the arguments of options stand for (`OptionValue`). `valuesOf` looks at the
options that were given, in the order in which they were, and then at those that
were not; the first argument that is no good is reported.
-/

namespace RepoOrbit.CommandLine

/-- What an argument stands for. -/
inductive OptionValue where
  | text (s : String)
  | integer (n : Int)
  | decimal (x : Float)
  /-- A directory by its place. -/
  | place (names : List String)
  deriving Inhabited

/-- Where a command is run: all files, the directory that relative paths are read
from, and the environment. -/
structure Whereabouts where
  files : FileTree
  home : List String
  environment : List (String × String)

/-- The place a path stands for. -/
def Whereabouts.locate (w : Whereabouts) (p : Path) : List String :=
  if p.isAbsolute then p.names else w.home ++ p.names

/-- The characters beyond ASCII that differ only in case from ASCII letters, each
with these letters. -/
def foldings : List (Char × List Char) :=
  [('\u00df', ['s', 's']), ('\u017f', ['s']), ('\u1e9e', ['s', 's']), ('\u212a', ['k']),
    ('\ufb00', ['f', 'f']), ('\ufb01', ['f', 'i']), ('\ufb02', ['f', 'l']), ('\ufb03', ['f', 'f', 'i']),
    ('\ufb04', ['f', 'f', 'l']), ('\ufb05', ['s', 't']), ('\ufb06', ['s', 't'])]

/-- A text in which letters that differ only in case are the same. -/
def folded (s : String) : String :=
  String.ofList (s.toList.flatMap fun c => (foldings.lookup c).getD (Text.lowerChar c))

/-- What an integer may be. -/
def integerName (least : Option Int) : String := if least.isSome then "integer range" else "integer"

/-- What a number may be. -/
def decimalName (least : Option Float) : String := if least.isSome then "float range" else "float"

/-- Read the argument of an option, or say what is wrong with it. -/
def read (w : Whereabouts) (kind : ArgumentKind) (argument : String) : Except String OptionValue :=
  let shown := Text.quoted argument
  let malformed (name : String) : Except String OptionValue := .error s!"{shown} is not a valid {name}."
  let below (value range : String) : Except String OptionValue :=
    .error s!"{value} is not in the range x>={range}."
  let found := w.files.find? (w.locate (Path.ofString argument))
  match kind with
  | .none | .text => .ok (.text argument)
  | .word choices =>
    match choices.find? fun c => folded c == folded argument with
    | some c => .ok (.text c)
    | none =>
      let all := ", ".intercalate (choices.map Text.quoted)
      .error s!"{shown} is not one of {all}."
  | .integer least =>
    match integer? argument, least with
    | none, _ => malformed (integerName least)
    | some n, none => .ok (.integer n)
    | some n, some low => if n < low then below (toString n) (toString low) else .ok (.integer n)
  | .decimal least =>
    match decimal? argument, least with
    | none, _ => malformed (decimalName least)
    | some x, none => .ok (.decimal x)
    | some x, some low =>
      if x < low then below (Decimal.shortest x) (Decimal.shortest low) else .ok (.decimal x)
  | .directory =>
    let place := w.files.resolve (w.locate (Path.ofString argument))
    match w.files.find? place with
    | none => .error s!"Directory {shown} does not exist."
    | some (_, .directory _) => .ok (.place place)
    | some _ => .error s!"Directory {shown} is a file."
  | .file =>
    match found with
    | some (_, .directory _) => .error s!"File {shown} is a directory."
    | _ => .ok (.text argument)

/-- The argument of an option: the one given last, or the environment variable
unless it is empty, or the usual one. -/
def argumentOf (w : Whereabouts) (given : Arguments) (o : OptionSpec) : Option String :=
  match given.argument? o.name with
  | some argument => some argument
  | none =>
    match (o.variableName.bind fun n => w.environment.lookup n).filter (· != "") with
    | some argument => some argument
    | none => o.usual

/-- The value of an option, if it has one. -/
def valueOf? (w : Whereabouts) (given : Arguments) (o : OptionSpec) :
    Except UsageFault (Option (String × OptionValue)) :=
  match argumentOf w given o with
  | some argument =>
    match read w o.kind argument with
    | .ok value => .ok (some (o.name, value))
    | .error reason => .error (.badArgument o.names reason)
  | none => if o.isRequired then .error (.optionMissing o.names) else .ok none

/-- Options in the order in which they are looked at. -/
def inOrder (options : List OptionSpec) (given : Arguments) : List OptionSpec :=
  let names := (given.options.map (·.name)).eraseDups
  names.filterMap (fun n => options.find? (·.name == n)) ++ options.filter fun o => !names.contains o.name

/-- The values of all options that have one, by name. -/
def valuesOf (w : Whereabouts) (options : List OptionSpec) (given : Arguments) :
    Except UsageFault (List (String × OptionValue)) :=
  ((inOrder options given).filter (·.takesArgument)).filterMapM (valueOf? w given)

/-- The text of an option. -/
def text? (values : List (String × OptionValue)) (name : String) : Option String :=
  match values.lookup name with
  | some (.text s) => some s
  | _ => none

end RepoOrbit.CommandLine
