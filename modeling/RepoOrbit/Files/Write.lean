import RepoOrbit.Files.Tree

/-!
# Writing files

`makeDirectories` makes a directory with those above it, and `writeFile` puts a
file in place. Both follow links and say what stands in the way (`WriteFault`).
-/

namespace RepoOrbit

/-- What stands in the way of a file or a directory. -/
inductive WriteFault where
  /-- There is something else in its place. -/
  | taken
  /-- There is a file where a directory is needed. -/
  | belowFile
  | isDirectory
  /-- The directory that is to hold it does not exist. -/
  | nowhere
  deriving DecidableEq, Repr

namespace FileTree

/-- Whether a file stands where a place needs a directory. -/
def isBelowFile (t : FileTree) (names : List String) : Bool :=
  (List.range names.length).any fun n =>
    match t.find? (names.take n) with
    | some (_, .file _) => true
    | _ => false

/-- Whether a place is taken, if only by a link that leads nowhere. -/
def isTaken (t : FileTree) (names : List String) : Bool :=
  t.holds names ||
    match t.find? names.dropLast, names.getLast? with
    | some found, some name => (found.2.child? name).isSome
    | _, _ => false

/-- Make a directory and those above it, unless they are there. A place is the
reverse of the list of names. -/
def makeUpwards (t : FileTree) : List String → Except WriteFault FileTree
  | [] => .ok t
  | name :: above =>
    let place := (name :: above).reverse
    if t.holdsDirectory place then .ok t
    else if t.isTaken place then .error .taken
    else if t.isBelowFile place then .error .belowFile
    else do
      let t ← t.makeUpwards above
      return t.makeDirectory (t.resolve place)

/-- Make a directory and those above it, unless they are there. -/
def makeDirectories (t : FileTree) (names : List String) : Except WriteFault FileTree :=
  t.makeUpwards names.reverse

/-- Put a file in a directory that is there. -/
def writeFile (t : FileTree) (names : List String) (bytes : List UInt8) : Except WriteFault FileTree :=
  if t.holdsDirectory names then .error .isDirectory
  else if t.isBelowFile names then .error .belowFile
  else
    let place := t.resolve names
    if t.holdsDirectory place.dropLast then .ok (t.put place (.file bytes)) else .error .nowhere

end FileTree

end RepoOrbit
