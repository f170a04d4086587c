import RepoOrbit.CommandLine.Option

/-!
# Taking a command line apart

`Arguments.read` splits the words of a command line into options, each with its
argument, and the words that are left. A long option has its argument behind an
equals sign or as the next word. Short options may share a dash; the first of them
that takes an argument takes the rest of the word, or the next word. Two dashes end
the options.
-/

namespace RepoOrbit.CommandLine

/-- An option as it was given: the name it is known by and its argument. -/
structure Given where
  name : String
  argument : Option String
  deriving DecidableEq, Repr

/-- A command line taken apart: the options in order and the words left. -/
structure Arguments where
  options : List Given
  words : List String
  deriving DecidableEq, Repr

/-- What a word with options says: the options in it, and the one of them that
takes the next word, with the name it was given by. -/
structure OptionWord where
  complete : List Given
  open? : Option (OptionSpec × String)

/-- Split a word at the first equals sign. -/
def splitAtEquals (word : List Char) : List Char × Option (List Char) :=
  let name := word.takeWhile (· != '=')
  match word.drop name.length with
  | _ :: argument => (name, some argument)
  | [] => (word, none)

/-- The option of a name. -/
def findOption? (options : List OptionSpec) (name : String) : Option OptionSpec :=
  options.find? (·.names.contains name)

/-- Read the letters behind a dash. -/
def readLetters (options : List OptionSpec) : List Char → Except UsageFault OptionWord
  | [] => .ok ⟨[], none⟩
  | letter :: rest =>
    let name := String.ofList ['-', letter]
    match findOption? options name with
    | none => .error (.unknownOption name [])
    | some o =>
      if o.takesArgument then
        if rest.isEmpty then .ok ⟨[], some (o, name)⟩
        else .ok ⟨[⟨o.name, some (String.ofList rest)⟩], none⟩
      else do
        let more ← readLetters options rest
        return { more with complete := ⟨o.name, none⟩ :: more.complete }

/-- Read a word that begins with a dash. -/
def readOption (options : List OptionSpec) (word : List Char) : Except UsageFault OptionWord :=
  let (name, argument) := splitAtEquals word
  let name := String.ofList name
  match if isShort name then none else findOption? options name with
  | some o =>
    match o.takesArgument, argument with
    | true, some a => .ok ⟨[⟨o.name, some (String.ofList a)⟩], none⟩
    | true, none => .ok ⟨[], some (o, name)⟩
    | false, some _ => .error (.argumentUnwanted name)
    | false, none => .ok ⟨[⟨o.name, none⟩], none⟩
  | none =>
    match word with
    | '-' :: '-' :: _ => .error (.unknownOption name (Text.closest name (longNames options)))
    | _ => readLetters options (word.drop 1)

/-- Whether a word holds options. -/
def isOptionWord (word : String) : Bool := word.startsWith "-" && word != "-"

namespace Arguments

/-- Put options in front. -/
def withOptions (given : List Given) (a : Arguments) : Arguments := { a with options := given ++ a.options }

/-- Take the words of a command line apart. Options may follow other words only if
`mixed` is set. -/
def read (options : List OptionSpec) (mixed : Bool) : List String → Except UsageFault Arguments
  | [] => .ok ⟨[], []⟩
  | word :: rest =>
    if word = "--" then .ok ⟨[], rest⟩
    else if isOptionWord word then
      match readOption options word.toList with
      | .error fault => .error fault
      | .ok ⟨complete, none⟩ => (read options mixed rest).map (withOptions complete)
      | .ok ⟨complete, some (o, name)⟩ =>
        match rest with
        | [] => .error (.argumentMissing name)
        | argument :: rest =>
          (read options mixed rest).map (withOptions (complete ++ [⟨o.name, some argument⟩]))
    else if mixed then
      (read options mixed rest).map fun a => { a with words := word :: a.words }
    else .ok ⟨[], word :: rest⟩

/-- The argument given last to an option. -/
def argument? (a : Arguments) (name : String) : Option String :=
  ((a.options.reverse.find? (·.name == name))).bind (·.argument)

/-- Whether an option was given. -/
def has (a : Arguments) (name : String) : Bool := a.options.any (·.name == name)

end Arguments

end RepoOrbit.CommandLine
