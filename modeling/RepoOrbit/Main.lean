import RepoOrbit.CommandLine.Program

/-!
# The executable

Runs the program on the words of its command line. The variables of the settings
and the token come from the environment, and a file of variables from the working
directory. Of a directory of sources, the files are named on the standard input, a
path on each line. There is no git and no camera here: commands that need one
report so.
-/

namespace RepoOrbit.Executable

open CommandLine

/-- The environment variables that a command looks at. -/
def variableNames : List String :=
  "GITHUB_TOKEN" :: Settings.names.map fun n => (Settings.variableBeginning ++ n).toUpper

/-- The variables that are set. -/
def environment : IO (List (String × String)) := do
  let mut found := []
  for name in variableNames do
    if let some value ← IO.getEnv name then
      found := (name, value) :: found
  return found

/-- The lines of the standard input. -/
partial def lines (input : IO.FS.Stream) : IO (List String) := do
  let line ← input.getLine
  if line.isEmpty then return []
  return (line.trimAsciiEnd).toString :: (← lines input)

/-- Put a file of the disk into a tree, if it can be read. -/
def addFile (home : List String) (t : FileTree) (name : String) : IO FileTree := do
  let path := Path.ofString name
  let place := if path.isAbsolute then path.names else home ++ path.names
  try
    let bytes ← IO.FS.readBinFile name
    return t.put place (.file bytes.toList)
  catch _ => return t

/-- The files that a command line needs. -/
def files (home words : List String) : IO FileTree := do
  let start := FileTree.makeDirectory (.directory []) home
  let named ← if words.any (·.startsWith "--path") then lines (← IO.getStdin) else pure []
  (".env" :: named).foldlM (addFile home) start

/-- A git that cannot be started. -/
def noGit : GitScript := { (default : GitScript) with notStarted := some "no git to run" }

/-- Write a file and make the directories above it. -/
def write (path : Path) (text : String) : IO Unit := do
  unless path.parent.names.isEmpty do IO.FS.createDirAll path.parent.toString
  IO.FS.writeFile path.toString text

/-- Run the program on the words of a command line; gives the code it ends with. -/
def execute (words : List String) : IO UInt32 := do
  let home := (Path.ofString (← IO.currentDir).toString).names
  let outcome := run
    { files := ← files home words, home, environment := ← environment, git := [noGit, noGit], tag := "new"
      vision := ⟨["cv2"], false, false, none⟩, hands := none } words
  if let some (path, text) := outcome.written then write path text
  IO.print outcome.out
  IO.eprint outcome.err
  if outcome.crash.isSome then IO.eprintln "Error: something that was not expected"
  return UInt32.ofNat outcome.code

end RepoOrbit.Executable

def main (words : List String) : IO UInt32 := RepoOrbit.Executable.execute words
