import RepoOrbit.Files.Tree
import RepoOrbit.Imports.Specifier

/-!
# Finding source files

`discover` lists the source files below a directory. Entries whose names begin
with a point are passed over, and so are directories that hold tests, build
results or installed packages (`skippedDirectories`). Links are followed, but a
file keeps the names under which it was found.
-/

namespace RepoOrbit

/-- The directories that are not entered. -/
def skippedDirectories : List String :=
  ["node_modules", "__tests__", "__mocks__", "test", "tests", "dist", "build", ".next", ".turbo",
    "fixtures", "__snapshots__"]

/-- Whether an entry is passed over for its name. -/
def isHidden (name : String) : Bool := name.startsWith "."

/-- Whether a file of this name is a source file. -/
def isSourceName (name : String) : Bool := sourceSuffixes.contains (Path.mk .relative [name]).suffix

namespace FileTree

/-- The source files below the directory that is shown as `shown` and stands at
`here`, at most `depth` directories down. -/
def sourcesFrom (t : FileTree) : Nat → List String → List String → List (List String)
  | 0, _, _ => []
  | depth + 1, shown, here =>
    ((t.at? here).map entries).getD [] |>.flatMap fun (name, _) =>
      if isHidden name then []
      else
        match t.findFrom? linkLimit here [name] with
        | some (place, .directory _) =>
          if skippedDirectories.contains name then [] else t.sourcesFrom depth (shown ++ [name]) place
        | _ => if isSourceName name then [shown ++ [name]] else []

/-- The source files below a directory, as paths from its real place. -/
def discover (t : FileTree) (start : List String) : List Path :=
  let root := t.resolve start
  (t.sourcesFrom (t.directoryCount + 1) root root).map fun names => ⟨.slash, names⟩

end FileTree

end RepoOrbit
