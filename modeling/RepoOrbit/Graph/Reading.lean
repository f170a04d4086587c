import RepoOrbit.Validation.Scalar

/-!
# Reading graph documents

The records of a graph document, and the options it is made from, read from
values. A field of two words may be given under its short name (`fileCount`) or
its long one (`file_count`); the short one counts if both are there. Other
entries are passed over.
-/

namespace RepoOrbit

/-- A field with one name. -/
def FieldName.plain (name : String) : FieldName := ⟨[name]⟩

/-- A field with a short and a long name. -/
def FieldName.twofold (short long : String) : FieldName := ⟨[short, long]⟩

namespace Check

open FieldName

/-- Read a node. -/
def graphNode : Check GraphNode :=
  record "GraphNode" fun e =>
    GraphNode.mk <$> (plain "id").required text e <*> (plain "label").required text e <*>
      (plain "category").required text e <*>
      (twofold "fileCount" "file_count").optional 1 count e <*> (plain "kind").optional .file view e

/-- Read a link. -/
def graphLink : Check GraphLink :=
  record "GraphLink" fun e =>
    GraphLink.mk <$> (plain "source").required text e <*> (plain "target").required text e

/-- Read the legend of a category. -/
def categoryInfo : Check CategoryInfo :=
  record "CategoryInfo" fun e =>
    CategoryInfo.mk <$> (plain "color").required text e <*> (plain "label").required text e

/-- Read what a document says about itself. -/
def graphMeta : Check GraphMeta :=
  record "GraphMeta" fun e =>
    GraphMeta.mk <$> (plain "repo").required text e <*> (plain "mode").optional .directory view e <*>
      (twofold "pathPrefix" "path_prefix").optional "" text e <*>
      (twofold "nodeCount" "node_count").optional 0 integer e <*>
      (twofold "linkCount" "link_count").optional 0 integer e

/-- Read a document. -/
def graphDocument : Check GraphDocument :=
  record "GraphDocument" fun e =>
    GraphDocument.mk <$> (plain "meta").required graphMeta e <*>
      (plain "categories").optional [] (map categoryInfo) e <*>
      (plain "nodes").optional [] (list graphNode) e <*>
      (plain "links").optional [] (list graphLink) e <*>
      (twofold "fileNodes" "file_nodes").optional [] (list graphNode) e <*>
      (twofold "fileLinks" "file_links").optional [] (list graphLink) e <*>
      (twofold "fileToDirMap" "file_to_dir_map").optional [] (map text) e

/-- Read build options. -/
def buildOptions : Check BuildOptions :=
  record "BuildOptions" fun e =>
    BuildOptions.mk <$> (plain "repo").required text e <*>
      (twofold "sparseDir" "sparse_dir").optional "src" text e <*>
      (plain "mode").optional .directory view e <*>
      (twofold "maxFiles" "max_files").optional 600 count e <*>
      (plain "token").optional none optionalText e

end Check

end RepoOrbit
