import RepoOrbit.Graph.Reduce

/-!
# Building a graph document

`GraphDocument.ofImports` puts the two views of an import map into a document;
`FileTree.graphDocument` makes one from a source tree.
-/

namespace RepoOrbit

/-- The document of an import map among the files below a root. -/
def GraphDocument.ofImports (root : Path) (options : BuildOptions) (files : List Path)
    (imports : ImportMap) : Except NotBelow GraphDocument := do
  let (nodes, links) ← directoryView root files imports
  let (fileNodes, fileLinks) ← fileView root imports options.maxFiles
  let fileToDirectory ← fileDirectories root files
  return {
    about := ⟨options.repo, options.mode, options.sparseDir, nodes.length, links.length⟩
    categories := Category.legend ((nodes ++ fileNodes).map (·.category))
    nodes, links, fileNodes, fileLinks, fileToDirectory }

/-- The document of the source tree below `start`. -/
def FileTree.graphDocument (t : FileTree) (start : List String) (options : BuildOptions) :
    Except NotBelow GraphDocument :=
  let root := t.resolve start
  let files := t.discover root
  GraphDocument.ofImports ⟨.slash, root⟩ options files (t.importMap files)

end RepoOrbit
