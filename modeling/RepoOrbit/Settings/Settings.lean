import RepoOrbit.Graph.Reading
import RepoOrbit.Settings.Dotenv
import RepoOrbit.Text.LowerCase
import RepoOrbit.Text.Lossy

/-!
# Settings

How repositories are fetched and graphs built (`Settings`). Each setting is taken
from what is given directly, or else from an environment variable, or else from a
file of variables, or has a default. Variables are named after the setting with
a prefix, in capitals or not.
-/

namespace RepoOrbit

/-- How repositories are fetched and graphs built. -/
structure Settings where
  cacheDir : Path
  gitBaseUrl : String
  cloneTimeout : Float
  checkoutTimeout : Float
  defaultSparseDir : String
  maxFiles : Nat
  resolveConcurrency : Nat

namespace Settings

/-- What the names of the variables begin with, in lower case. -/
def variableBeginning : String := "starbase_"

/-- The names of the settings, in the order of the fields. -/
def names : List String :=
  ["cache_dir", "git_base_url", "clone_timeout", "checkout_timeout", "default_sparse_dir", "max_files",
    "resolve_concurrency"]

/-- The values that variables give to settings; of two variables for one setting
the later counts. -/
def ofVariables (found : List (String × String)) : List (String × Value) :=
  found.reverse.filterMap fun (name, value) =>
    let name := Text.lowerText name
    if name.startsWith variableBeginning then
      some ((name.drop variableBeginning.length).toString, .text value)
    else none

/-- The values that a file of variables gives to settings. A variable without a
value takes away what the file said before. -/
def ofFile (environment : List (String × String)) (text : String) : List (String × Value) :=
  let text := String.ofList (Text.unifyLines text.toList)
  let values := (Dotenv.values environment text).map fun v => (Text.lowerText v.1, v.2)
  let last := values.reverse.map (·.1) |>.eraseDups |>.filterMap fun n =>
    (values.reverse.lookup n).join.map fun v => (n, v)
  ofVariables last

open FieldName in
/-- Read settings from the entries of a map. -/
def check : Check Settings :=
  Check.record "Settings" fun e =>
    Settings.mk <$> (plain "cache_dir").optional (Path.ofString ".repo-cache") Check.path e <*>
      (plain "git_base_url").optional "https://github.com" Check.text e <*>
      (plain "clone_timeout").optional 60 Check.positive e <*>
      (plain "checkout_timeout").optional 30 Check.positive e <*>
      (plain "default_sparse_dir").optional "src" Check.text e <*>
      (plain "max_files").optional 600 Check.count e <*>
      (plain "resolve_concurrency").optional 8 Check.count e

/-- The settings that result from values given directly, the environment and a
file of variables. -/
def load (given : List (String × Value)) (environment : List (String × String))
    (file : Option String) : Checked Settings :=
  check (.map (given ++ ofVariables environment ++ (file.map (ofFile environment)).getD []))

end Settings

end RepoOrbit
