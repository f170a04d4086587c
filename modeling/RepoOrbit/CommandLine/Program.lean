import RepoOrbit.CommandLine.Hands
import RepoOrbit.CommandLine.Repository

/-!
# The program

The commands of the program with their options (`commands`), and `run`, which does
what a command line says.
-/

namespace RepoOrbit.CommandLine

/-- The name of the program. -/
def programName : String := "starbase"

/-- The version of the program. -/
def programVersion : String := "0.1.0"

/-- A command: its name, its options, and what it does once their values are
known. -/
structure Command where
  name : String
  options : List OptionSpec
  action : Surroundings → List (String × OptionValue) → Outcome

def helpOption : OptionSpec := { names := ["--help"], kind := .none }

def repoOption : OptionSpec := { names := ["--repo"], isRequired := true }

def tokenOption : OptionSpec := { names := ["--token"], variableName := some "GITHUB_TOKEN" }

/-- The options in front of a command. -/
def programOptions : List OptionSpec :=
  [{ names := ["-v", "--verbose"], kind := .none }, { names := ["--version"], kind := .none }, helpOption]

/-- What the options of the build command ask for. -/
def buildRequest (values : List (String × OptionValue)) : BuildRequest where
  repo := (text? values "--repo").getD ""
  sparseDir := text? values "--sparse"
  mode := ((text? values "--mode").bind ViewKind.ofName?).getD .directory
  maxFiles :=
    match values.lookup "--max" with
    | some (.integer n) => some n.toNat
    | _ => none
  out := (text? values "--out").getD ""
  token := text? values "--token"
  source :=
    match values.lookup "--path" with
    | some (.place names) => some names
    | _ => none

def buildCommand : Command where
  name := "build"
  options :=
    [repoOption, { names := ["--sparse"] },
      { names := ["--mode"], kind := .word ["directory", "file"], usual := some "directory" },
      { names := ["--max"], kind := .integer (some 1) },
      { names := ["-o", "--out"], usual := some "public/repo-graph.json" }, tokenOption,
      { names := ["--path"], kind := .directory }, helpOption]
  action s values := build s (buildRequest values)

def detectCommand : Command where
  name := "detect-src"
  options := [repoOption, tokenOption, helpOption]
  action s values := detect s ((text? values "--repo").getD "") (text? values "--token")

/-- What the options of the control command ask for. -/
def controlRequest (values : List (String × OptionValue)) : ControlRequest where
  cameraIndex :=
    match values.lookup "--camera" with
    | some (.integer n) => n
    | _ => 0
  model := (text? values "--model").getD ""
  framesPerSecond :=
    match values.lookup "--fps" with
    | some (.decimal x) => x
    | _ => 60

def controlCommand : Command where
  name := "gestures"
  options :=
    [{ names := ["--camera"], kind := .integer none, usual := some "0" },
      { names := ["--model"], kind := .file, usual := some "hand_landmarker.task" },
      { names := ["--fps"], kind := .decimal (some 1), usual := some "60.0" }, helpOption]
  action s values := control s (controlRequest values)

/-- The commands of the program. -/
def commands : List Command := [buildCommand, detectCommand, controlCommand]

/-- How a command line begins, and what may follow. -/
structure Usage where
  beginning : String
  following : String

/-- The usage of the program. -/
def programUsage : Usage := ⟨programName, "[OPTIONS] COMMAND [ARGS]..."⟩

/-- The usage of a command. -/
def Command.usage (c : Command) : Usage := ⟨programName ++ " " ++ c.name, "[OPTIONS]"⟩

/-- The usage as it is shown. -/
def Usage.text (u : Usage) : String := s!"Usage: {u.beginning} {u.following}\n"

/-- End because of a fault in the command line. -/
def refuse (s : Surroundings) (u : Usage) (fault : UsageFault) : Outcome :=
  let usage := if fault.showsUsage then u.text ++ s!"Try '{u.beginning} --help' for help.\n\n" else ""
  let message := fault.message
  { s.nothing with code := 2, err := usage ++ s!"Error: {message}\n" }

/-- Show the usage. -/
def showUsage (s : Surroundings) (u : Usage) : Outcome := { s.nothing with out := u.text }

/-- Do what a command is told. -/
def Command.run (c : Command) (s : Surroundings) (words : List String) : Outcome :=
  match Arguments.read c.options true words with
  | .error fault => refuse s c.usage fault
  | .ok given =>
    if given.has helpOption.name then showUsage s c.usage
    else
      match valuesOf s.toWhereabouts c.options given with
      | .error fault => refuse s c.usage fault
      | .ok values =>
        if given.words.isEmpty then c.action s values
        else refuse s c.usage (.unexpectedArguments given.words)

/-- Do what the first of the options in front of a command says, if it stands for
itself. -/
def standalone? (s : Surroundings) (given : Arguments) : Option Outcome :=
  given.options.findSome? fun o =>
    if o.name = "--version" then
      some { s.nothing with out := s!"{programName}, version {programVersion}\n" }
    else if o.name = helpOption.name then some (showUsage s programUsage)
    else none

/-- Refuse a command that there is not. A name that looks like an option is read
as one first. -/
def refuseCommand (s : Surroundings) (name : String) (rest : List String) : Outcome :=
  let unknown := refuse s programUsage (.unknownCommand name (Text.closest name (commands.map (·.name))))
  if isOptionWord name then
    match Arguments.read programOptions false (name :: rest) with
    | .error fault => refuse s programUsage fault
    | .ok given => (standalone? s given).getD unknown
  else unknown

/-- Do what a command line says. -/
def run (s : Surroundings) (words : List String) : Outcome :=
  if words.isEmpty then { s.nothing with code := 2, err := programUsage.text }
  else
    match Arguments.read programOptions false words with
    | .error fault => refuse s programUsage fault
    | .ok given =>
      match standalone? s given with
      | some outcome => outcome
      | none =>
        match given.words with
        | [] => refuse s programUsage .commandMissing
        | name :: rest =>
          match commands.find? (·.name == name) with
          | some command => command.run s rest
          | none => refuseCommand s name rest

end RepoOrbit.CommandLine
