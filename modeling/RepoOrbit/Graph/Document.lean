import RepoOrbit.Graph.Category

/-!
# Graph documents

A graph document holds two views of the imports of a source tree, one node for
each directory and one node for each file, with the legend of their categories
and the directory of every file (`GraphDocument`). `BuildOptions` says what a
document is to be made from.
-/

namespace RepoOrbit

/-- The two views of a source tree. -/
inductive ViewKind where
  | directory
  | file
  deriving DecidableEq, Repr, Inhabited

/-- The name of a view. -/
def ViewKind.name : ViewKind → String
  | .directory => "directory"
  | .file => "file"

/-- The view of a name. -/
def ViewKind.ofName? : String → Option ViewKind
  | "directory" => some .directory
  | "file" => some .file
  | _ => none

/-- A directory or file of the graph. -/
structure GraphNode where
  id : String
  label : String
  category : String
  fileCount : Nat
  kind : ViewKind
  deriving DecidableEq, Repr, Inhabited

/-- A link between two nodes, given by their ids. -/
structure GraphLink where
  source : String
  target : String
  deriving DecidableEq, Repr, Inhabited

/-- What a document says about itself. -/
structure GraphMeta where
  repo : String
  mode : ViewKind
  pathPrefix : String
  nodeCount : Int
  linkCount : Int
  deriving DecidableEq, Repr, Inhabited

/-- Both views of the imports of a source tree. -/
structure GraphDocument where
  about : GraphMeta
  categories : List (String × CategoryInfo)
  nodes : List GraphNode
  links : List GraphLink
  fileNodes : List GraphNode
  fileLinks : List GraphLink
  fileToDirectory : List (String × String)
  deriving DecidableEq, Repr, Inhabited

/-- What to make a document from. -/
structure BuildOptions where
  repo : String
  sparseDir : String
  mode : ViewKind
  maxFiles : Nat
  token : Option String
  deriving DecidableEq, Repr, Inhabited

/-- What scans that share their work have in common. -/
def BuildOptions.jobKey (o : BuildOptions) : String := o.repo ++ ":" ++ o.sparseDir

/-- How many link ends a node id has, for every id that has any. -/
def connectionCounts (links : List GraphLink) : List (String × Nat) :=
  let ends := links.flatMap fun l => [l.source, l.target]
  ends.eraseDups.map fun id => (id, ends.count id)

end RepoOrbit
