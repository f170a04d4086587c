import RepoOrbit.Text.Quoted
import RepoOrbit.Text.Similar

/-!
# Options and usage

The options of a command (`OptionSpec`), and the ways in which a command line can
go against them (`UsageFault`) with what is said of each.
-/

namespace RepoOrbit.CommandLine

/-- What the argument of an option has to be. -/
inductive ArgumentKind where
  /-- The option takes no argument. -/
  | none
  | text
  /-- One of some words, in capitals or not. -/
  | word (choices : List String)
  | integer (least : Option Int)
  | decimal (least : Option Float)
  /-- A directory that exists. -/
  | directory
  /-- Anything but a directory. -/
  | file
  deriving Inhabited

/-- An option: its names, of which the last is the one it is known by; what its
argument has to be; whether it has to be given; the argument it has otherwise; and
the environment variable that stands in for it. -/
structure OptionSpec where
  names : List String
  kind : ArgumentKind := .text
  isRequired : Bool := false
  usual : Option String := none
  variableName : Option String := none
  deriving Inhabited

/-- The name an option is known by. -/
def OptionSpec.name (o : OptionSpec) : String := o.names.getLastD ""

/-- Whether the option is followed by an argument. -/
def OptionSpec.takesArgument (o : OptionSpec) : Bool :=
  match o.kind with
  | .none => false
  | _ => true

/-- Whether a name is a dash and a letter. -/
def isShort (name : String) : Bool := name.length = 2

/-- The long names of options. -/
def longNames (options : List OptionSpec) : List String :=
  options.flatMap fun o => o.names.filter fun n => !isShort n

/-- What is wrong with a command line. -/
inductive UsageFault where
  | unknownOption (name : String) (similar : List String)
  | argumentMissing (option : String)
  | argumentUnwanted (option : String)
  | optionMissing (names : List String)
  | badArgument (names : List String) (reason : String)
  | unexpectedArguments (arguments : List String)
  | commandMissing
  | unknownCommand (name : String) (similar : List String)
  deriving DecidableEq, Repr

/-- What is said of similar names: nothing if there are none. -/
def suggestion (similar : List String) : String :=
  match similar.map Text.quoted with
  | [] => ""
  | [one] => s!" Did you mean {one}?"
  | many =>
    let all := ", ".intercalate many
    s!" (Did you mean one of: {all}?)"

/-- The names of an option, each between quotes. -/
def hint (names : List String) : String := " / ".intercalate (names.map fun n => "'" ++ n ++ "'")

/-- What is said of a fault. -/
def UsageFault.message : UsageFault → String
  | .unknownOption name similar =>
    let shown := Text.quoted name
    let more := suggestion similar
    s!"No such option {shown}.{more}"
  | .argumentMissing option =>
    let shown := Text.quoted option
    s!"Option {shown} requires an argument."
  | .argumentUnwanted option =>
    let shown := Text.quoted option
    s!"Option {shown} does not take a value."
  | .optionMissing names =>
    let shown := hint names
    s!"Missing option {shown}."
  | .badArgument names reason =>
    let shown := hint names
    s!"Invalid value for {shown}: {reason}"
  | .unexpectedArguments arguments =>
    let ending := if arguments.length = 1 then "" else "s"
    let shown := " ".intercalate arguments
    s!"Got unexpected extra argument{ending} ({shown})"
  | .commandMissing => "Missing command."
  | .unknownCommand name similar =>
    let shown := Text.quoted name
    let more := suggestion similar
    s!"No such command {shown}.{more}"

/-- Whether the usage of the command is shown with the fault. -/
def UsageFault.showsUsage : UsageFault → Bool
  | .argumentMissing _ | .argumentUnwanted _ => false
  | _ => true

end RepoOrbit.CommandLine
