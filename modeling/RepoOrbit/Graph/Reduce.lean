import RepoOrbit.Graph.Document
import RepoOrbit.Imports.Edges
import RepoOrbit.Text.Quoted

/-!
# The two views of an import map

`directoryView` has a node for every directory, two levels deep at most, and a
link for every two directories of which one holds a file that imports a file of
the other. `fileView` has a node for each of the files with the most imports in
and out, and a link for every two of these that import one another.

Both speak of files by their place below a root; `NotBelow` is the failure for a
file that lies elsewhere.
-/

namespace RepoOrbit

/-- A path that was expected below another. -/
structure NotBelow where
  path : Path
  base : Path
  deriving DecidableEq, Repr

/-- What is said of a path that does not lie where it should. -/
def NotBelow.message (e : NotBelow) : String :=
  let base := if e.base.isAbsolute || !e.base.names.isEmpty then e.base.toString else ""
  s!"{Text.quoted e.path.toString} is not in the subpath of {Text.quoted base} OR one path is relative and the other is absolute."

namespace Path

/-- The names of a path below a root. -/
def below (p root : Path) : Except NotBelow (List String) :=
  match p.relativeTo? root with
  | some names => .ok names
  | none => .error ⟨p, root⟩

/-- The id of a file: its path below the root. -/
def relativeId (p root : Path) : Except NotBelow String :=
  (p.below root).map fun names => Path.toString ⟨.relative, names⟩

end Path

/-- The key of the files right below the root. -/
def rootKey : String := "."

/-- The key of the directory with these names: the first two of them. -/
def directoryKeyOf (names : List String) : String :=
  match names with
  | [] => rootKey
  | _ => "/".intercalate (names.take 2)

/-- The key of a file's directory. -/
def Path.directoryKey (p root : Path) : Except NotBelow String :=
  (p.parent.below root).map directoryKeyOf

/-- Two texts, the smaller first. -/
def orderedPair (a b : String) : String × String := if a ≤ b then (a, b) else (b, a)

/-- Compare pairs of texts, the first text counting first. -/
def pairLe (a b : String × String) : Bool :=
  decide (a.1 < b.1) || (a.1 == b.1 && decide (a.2 ≤ b.2))

/-! ## The directory view -/

/-- The last segment of a key. -/
def lastSegment (key : String) : String :=
  String.ofList (key.toList.reverse.takeWhile (· != '/')).reverse

/-- The label of a directory; the root goes by its own name. -/
def directoryLabel (root : Path) (key : String) : String :=
  if key = rootKey then (if root.name = "" then "src" else root.name) ++ " (root)"
  else lastSegment key

/-- The node of a directory. -/
def directoryNode (root : Path) (key : String) (count : Nat) : GraphNode where
  id := key
  label := directoryLabel root key
  category := (Category.ofPath (key ++ "/")).name
  fileCount := count
  kind := .directory

/-- The two directories of every import from one directory into another. -/
def directoryPairs (root : Path) (imports : ImportMap) : Except NotBelow (List (String × String)) := do
  let pairs ← imports.mapM fun (source, targets) => do
    let sourceKey ← source.directoryKey root
    let targetKeys ← targets.mapM (·.directoryKey root)
    return (targetKeys.filter (· != sourceKey)).map (orderedPair sourceKey)
  return pairs.flatten

/-- The directories of the files and the links between them, both sorted. -/
def directoryView (root : Path) (files : List Path) (imports : ImportMap) :
    Except NotBelow (List GraphNode × List GraphLink) := do
  let keys ← files.mapM (·.directoryKey root)
  let pairs ← directoryPairs root imports
  let nodes := (sortedTexts keys).map fun k => directoryNode root k (keys.count k)
  let links := (pairs.mergeSort pairLe).eraseReps.map fun p => GraphLink.mk p.1 p.2
  return (nodes, links)

/-! ## The file view -/

namespace ImportMap

/-- The files that import or are imported; one that is listed with no imports
counts too. -/
def members (imports : ImportMap) : List Path :=
  (imports.flatMap fun (source, targets) => source :: targets).eraseDups

/-- How many files a file imports and how many import it. -/
def connectivity (imports : ImportMap) (file : Path) : Nat :=
  (imports.importsOf file).length + imports.countP fun e => e.2.contains file

end ImportMap

/-- A file with its id and its number of connections. -/
structure RankedFile where
  path : Path
  id : String
  connections : Nat
  deriving DecidableEq, Repr

/-- More connections go first, then the smaller id. -/
def RankedFile.le (a b : RankedFile) : Bool :=
  decide (b.connections < a.connections) ||
    (a.connections == b.connections && decide (a.id ≤ b.id))

/-- The members of an import map, the best connected first. -/
def rankedFiles (root : Path) (imports : ImportMap) : Except NotBelow (List RankedFile) := do
  let files ← imports.members.mapM fun p => do
    return RankedFile.mk p (← p.relativeId root) (imports.connectivity p)
  return files.mergeSort RankedFile.le

/-- The first files of a ranking; a negative limit leaves out that many at the
end. -/
def keepFirst (limit : Int) (ranked : List RankedFile) : List RankedFile :=
  if limit < 0 then ranked.take (ranked.length - limit.natAbs) else ranked.take limit.toNat

/-- The node of a file. -/
def fileNode (f : RankedFile) : GraphNode where
  id := f.id
  label := f.path.stem
  category := (Category.ofPath f.id).name
  fileCount := 1
  kind := .file

/-- The files among `kept` that a file imports, itself excepted, by their ids. -/
def keptTargets (imports : ImportMap) (kept : List RankedFile) (source : RankedFile) : List RankedFile :=
  (kept.filter fun t => t.path != source.path && (imports.importsOf source.path).contains t.path).mergeSort
    fun a b => a.id ≤ b.id

/-- The links from the files of `rest` among `kept`; two files are linked once,
by the first of them that imports the other. `done` are the files before them. -/
def fileLinksFrom (imports : ImportMap) (kept : List RankedFile) :
    List RankedFile → List RankedFile → List GraphLink
  | _, [] => []
  | done, source :: rest =>
    let fresh := (keptTargets imports kept source).filter fun t =>
      !(done.any fun d => d.path == t.path && (imports.importsOf t.path).contains source.path)
    fresh.map (fun t => ⟨source.id, t.id⟩) ++ fileLinksFrom imports kept (source :: done) rest

/-- The best connected files, as many as the limit allows, and their links. -/
def fileView (root : Path) (imports : ImportMap) (limit : Int) :
    Except NotBelow (List GraphNode × List GraphLink) := do
  let kept := keepFirst limit (← rankedFiles root imports)
  return (kept.map fileNode, fileLinksFrom imports kept [] kept)

/-! ## The directory of every file -/

/-- The id of every file with the key of its directory, in the order of the
paths. -/
def fileDirectories (root : Path) (files : List Path) : Except NotBelow (List (String × String)) := do
  let entries ← (files.mergeSort Path.le).mapM fun p => do
    return (← p.relativeId root, ← p.directoryKey root)
  return entries.eraseReps

end RepoOrbit
