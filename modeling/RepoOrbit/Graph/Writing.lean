import RepoOrbit.Graph.Document
import RepoOrbit.Validation.Value

/-!
# Writing graph documents

The records of a graph document as values, each field under its short or its
long name (`KeyStyle`). The kind of a node is not written, and neither is the
token of build options.
-/

namespace RepoOrbit

/-- Which of its names a field of two words is written under. -/
inductive KeyStyle where
  | short
  | long
  deriving DecidableEq, Repr

/-- The one of two names that is written. -/
def KeyStyle.pick (style : KeyStyle) (short long : String) : String :=
  match style with
  | .short => short
  | .long => long

/-- A node as a value. -/
def GraphNode.toValue (style : KeyStyle) (n : GraphNode) : Value :=
  .map [("id", .text n.id), ("label", .text n.label), ("category", .text n.category),
    (style.pick "fileCount" "file_count", .int n.fileCount)]

/-- A link as a value. -/
def GraphLink.toValue (l : GraphLink) : Value :=
  .map [("source", .text l.source), ("target", .text l.target)]

/-- The legend of a category as a value. -/
def CategoryInfo.toValue (i : CategoryInfo) : Value :=
  .map [("color", .text i.color), ("label", .text i.label)]

/-- What a document says about itself, as a value. -/
def GraphMeta.toValue (style : KeyStyle) (m : GraphMeta) : Value :=
  .map [("repo", .text m.repo), ("mode", .text m.mode.name),
    (style.pick "pathPrefix" "path_prefix", .text m.pathPrefix),
    (style.pick "nodeCount" "node_count", .int m.nodeCount),
    (style.pick "linkCount" "link_count", .int m.linkCount)]

/-- A document as a value. -/
def GraphDocument.toValue (style : KeyStyle) (d : GraphDocument) : Value :=
  .map [("meta", d.about.toValue style),
    ("categories", .map (d.categories.map fun c => (c.1, c.2.toValue))),
    ("nodes", .list (d.nodes.map (·.toValue style))),
    ("links", .list (d.links.map (·.toValue))),
    (style.pick "fileNodes" "file_nodes", .list (d.fileNodes.map (·.toValue style))),
    (style.pick "fileLinks" "file_links", .list (d.fileLinks.map (·.toValue))),
    (style.pick "fileToDirMap" "file_to_dir_map",
      .map (d.fileToDirectory.map fun e => (e.1, .text e.2)))]

/-- Build options as a value. -/
def BuildOptions.toValue (style : KeyStyle) (o : BuildOptions) : Value :=
  .map [("repo", .text o.repo), (style.pick "sparseDir" "sparse_dir", .text o.sparseDir),
    ("mode", .text o.mode.name), (style.pick "maxFiles" "max_files", .int o.maxFiles)]

end RepoOrbit
