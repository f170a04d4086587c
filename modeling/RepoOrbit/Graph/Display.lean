import RepoOrbit.Graph.Document
import RepoOrbit.Text.Quoted

/-!
# Showing records in one line

Every record of a graph document as its name and its fields,
`GraphLink(source='a', target='b')`. The token of build options is not shown.
-/

namespace RepoOrbit

open Text

/-- A record: its name and, in parentheses, its fields. -/
def showRecord (name : String) (fields : List (String × String)) : String :=
  name ++ "(" ++ ", ".intercalate (fields.map fun f => f.1 ++ "=" ++ f.2) ++ ")"

/-- A list in brackets. -/
def showList {α : Type} (render : α → String) (items : List α) : String :=
  "[" ++ ", ".intercalate (items.map render) ++ "]"

/-- A map in braces. -/
def showMap {α : Type} (render : α → String) (entries : List (String × α)) : String :=
  "\x7b" ++ ", ".intercalate (entries.map fun e => quoted e.1 ++ ": " ++ render e.2) ++ "\x7d"

/-- A node in one line. -/
def GraphNode.display (n : GraphNode) : String :=
  showRecord "GraphNode" [("id", quoted n.id), ("label", quoted n.label),
    ("category", quoted n.category), ("file_count", toString n.fileCount), ("kind", quoted n.kind.name)]

/-- A link in one line. -/
def GraphLink.display (l : GraphLink) : String :=
  showRecord "GraphLink" [("source", quoted l.source), ("target", quoted l.target)]

/-- The legend of a category in one line. -/
def CategoryInfo.display (i : CategoryInfo) : String :=
  showRecord "CategoryInfo" [("color", quoted i.color), ("label", quoted i.label)]

/-- What a document says about itself, in one line. -/
def GraphMeta.display (m : GraphMeta) : String :=
  showRecord "GraphMeta" [("repo", quoted m.repo), ("mode", quoted m.mode.name),
    ("path_prefix", quoted m.pathPrefix), ("node_count", toString m.nodeCount),
    ("link_count", toString m.linkCount)]

/-- A document in one line. -/
def GraphDocument.display (d : GraphDocument) : String :=
  showRecord "GraphDocument" [("meta", d.about.display),
    ("categories", showMap CategoryInfo.display d.categories),
    ("nodes", showList GraphNode.display d.nodes), ("links", showList GraphLink.display d.links),
    ("file_nodes", showList GraphNode.display d.fileNodes),
    ("file_links", showList GraphLink.display d.fileLinks),
    ("file_to_dir_map", showMap quoted d.fileToDirectory)]

/-- Build options in one line. -/
def BuildOptions.display (o : BuildOptions) : String :=
  showRecord "BuildOptions" [("repo", quoted o.repo), ("sparse_dir", quoted o.sparseDir),
    ("mode", quoted o.mode.name), ("max_files", toString o.maxFiles)]

end RepoOrbit
