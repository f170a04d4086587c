import RepoOrbit.Proofs.Graph.Coherence
import RepoOrbit.Proofs.Graph.Drawing
import RepoOrbit.Proofs.Graph.Rearranged
import RepoOrbit.Proofs.Imports.Resolution

/-!
# Documents do not depend on enumeration

Much of what goes into a document has no order: the names in a directory, the specifiers in
a file, the imports of a file, and the ends of the tasks that look for them. An `Enumeration`
says in which order a build happens to meet all these, and `graphDocumentIn` is the document
it makes then.

`graphDocument_enumeration_independent` says that no two such documents differ, but for the
order of file links of one source, and that `graphDocument` is one of them: in another order
the files of the tree are the same (`discoverIn_perm`) and so are their imports
(`importMapIn_rearranged`), and a document of rearranged imports is the same
(`GraphDocument.ofImports_rearranged`) with its file links drawn in another order
(`drawLinks_sameBySource`).
-/

namespace RepoOrbit

/-- The orders in which a build meets the names in each directory, the specifiers in each
file and the imports of each file, and how its tasks go on. -/
structure Enumeration where
  names : Shuffle (List String) String
  specifiers : Shuffle Path String
  targets : Shuffle Path Path
  pace : Pace

/-- Everything in the order in which it is listed, one task at a time. -/
def Enumeration.asListed : Enumeration := ⟨.asListed, .asListed, .asListed, ⟨1, fun _ => 0, Nat.one_pos⟩⟩

/-- Names and specifiers from the last to the first, imports in the order in which they are
found; eight tasks at a time. -/
def Enumeration.backwards : Enumeration := ⟨.reversed, .reversed, .asListed, ⟨8, id, Nat.succ_pos 7⟩⟩

namespace FileTree

/-- The imports among the files, of those that import any, as tasks find them. -/
def importMapIn (t : FileTree) (e : Enumeration) (files : List Path) : ImportMap :=
  (gather e.pace (fun f => (f, t.importsIn e.specifiers e.targets files.contains f)) files).filter
    fun entry => !entry.2.isEmpty

/-- The document of the source tree below `start`, made in the orders of an enumeration. -/
def graphDocumentIn (t : FileTree) (e : Enumeration) (start : List String) (options : BuildOptions) :
    Except NotBelow GraphDocument := do
  let root := t.resolve start
  let files := t.discoverIn e.names root
  let imports := t.importMapIn e files
  let document ← GraphDocument.ofImports ⟨.slash, root⟩ options files imports
  let ranked ← rankedFiles ⟨.slash, root⟩ imports
  return { document with fileLinks := drawLinks imports (keepFirst options.maxFiles ranked) }

end FileTree

namespace GraphDocument

/-- The documents are the same, but for the order of the file links of one source. -/
structure SameUpToLinkOrder (d d' : GraphDocument) : Prop where
  about : d.about = d'.about
  categories : d.categories = d'.categories
  nodes : d.nodes = d'.nodes
  links : d.links = d'.links
  fileNodes : d.fileNodes = d'.fileNodes
  fileLinks : SameBySource d.fileLinks d'.fileLinks
  fileToDirectory : d.fileToDirectory = d'.fileToDirectory

theorem SameUpToLinkOrder.symm {d d' : GraphDocument} (h : d.SameUpToLinkOrder d') : d'.SameUpToLinkOrder d where
  about := h.about.symm
  categories := h.categories.symm
  nodes := h.nodes.symm
  links := h.links.symm
  fileNodes := h.fileNodes.symm
  fileLinks := h.fileLinks.symm
  fileToDirectory := h.fileToDirectory.symm

theorem SameUpToLinkOrder.trans {d d' d'' : GraphDocument} (h : d.SameUpToLinkOrder d')
    (h' : d'.SameUpToLinkOrder d'') : d.SameUpToLinkOrder d'' where
  about := h.about.trans h'.about
  categories := h.categories.trans h'.categories
  nodes := h.nodes.trans h'.nodes
  links := h.links.trans h'.links
  fileNodes := h.fileNodes.trans h'.fileNodes
  fileLinks := h.fileLinks.trans h'.fileLinks
  fileToDirectory := h.fileToDirectory.trans h'.fileToDirectory

section

variable {root : Path} {files files' : List Path} {imports imports' : ImportMap}

/-- A document of rearranged imports among rearranged files. -/
theorem ofImports_rearranged (hre : imports.Rearranged imports') (h : imports.Among root files)
    (h' : imports'.Among root files') (hfiles : files.Perm files') (options : BuildOptions) :
    ofImports root options files imports = ofImports root options files' imports' := by
  have hview : fileView root imports options.maxFiles = fileView root imports' options.maxFiles := by
    rw [fileView_eq h, fileView_eq h', hre.ranking_rearranged h h', hre.fileLinksFrom_rearranged]
  rw [ofImports, ofImports, hre.directoryView_rearranged h h' hfiles, hview,
    fileDirectories_perm (fun _ => h.liesBelow) hfiles]

/-- The links of a document's file view, drawn in the order of the imports. -/
theorem Shows.drawLinks {d : GraphDocument} {limit : Int} (hd : d.Shows root files imports limit)
    (h : imports.Among root files) (himports : ∀ f, (imports.importsOf f).Nodup) :
    SameBySource (drawLinks imports (keepFirst limit (ranking root imports))) d.fileLinks := by
  have hsublist := keepFirst_sublist limit (ranking root imports)
  have hpaths := nodup_ranking.sublist (hsublist.map (·.path))
  have hids := (nodup_rankingIds h).sublist (hsublist.map (·.id))
  rw [hd.fileLinks]
  exact drawLinks_sameBySource hpaths hids himports

end

end GraphDocument

namespace FileTree

variable {t : FileTree} {e : Enumeration} {start : List String}

theorem importMapIn_eq (files : List Path) :
    t.importMapIn e files = .ofFiles files (t.importsIn e.specifiers e.targets files.contains) := by
  rw [importMapIn, gather_eq]
  rfl

theorem nodup_importsOf_importMapIn {root : Path} {files : List Path} (h : (t.importMapIn e files).Among root files)
    (f : Path) : ((t.importMapIn e files).importsOf f).Nodup := by
  rw [importMapIn_eq] at h ⊢
  rw [ImportMap.importsOf_ofFiles h]
  split
  · exact t.nodup_importsIn ..
  · exact List.nodup_nil

/-- However they are found, the files of a source tree lie below its real place, and their
imports are among them. -/
theorem importMapIn_among (ht : t.wellNamed) (e : Enumeration) (start : List String) :
    (t.importMapIn e (t.discoverIn e.names start)).Among ⟨.slash, t.resolve start⟩ (t.discoverIn e.names start) := by
  have hfiles := t.discoverIn_perm e.names start
  rw [importMapIn_eq]
  refine ImportMap.ofFiles_among (fun f hf => mem_discover ht (hfiles.mem_iff.mp hf))
    (hfiles.nodup_iff.mpr (nodup_discover ht start)) fun f _ g hg => ?_
  rw [(t.importsIn_perm ..).mem_iff] at hg
  exact List.contains_iff_mem.mp (known_of_mem_importsOf hg)

/-- However they are found, the imports of a source tree are the same. -/
theorem importMapIn_rearranged (ht : t.wellNamed) (e : Enumeration) (start : List String) :
    (t.importMapIn e (t.discoverIn e.names start)).Rearranged (t.importMap (t.discover start)) := by
  have hfiles := t.discoverIn_perm e.names start
  have hknown : (t.discoverIn e.names start).contains = (t.discover start).contains :=
    funext fun _ => hfiles.contains_eq
  have hamong := importMapIn_among ht e start
  rw [importMapIn_eq] at hamong ⊢
  refine ImportMap.rearranged_ofFiles hamong (importMap_among ht start) hfiles fun f _ => ?_
  rw [hknown]
  exact t.importsIn_perm ..

/-- In the orders of an enumeration the document of the tree is made, but for the order of
the file links of one source. -/
theorem exists_graphDocumentIn (ht : t.wellNamed) {options : BuildOptions} {document : GraphDocument}
    (hdocument : t.graphDocument start options = .ok document) (e : Enumeration) :
    ∃ d, t.graphDocumentIn e start options = .ok d ∧ d.SameUpToLinkOrder document := by
  have hamong := importMapIn_among ht e start
  have hsame := GraphDocument.ofImports_rearranged (importMapIn_rearranged ht e start) hamong
    (importMap_among ht start) (t.discoverIn_perm e.names start) options
  obtain ⟨d, hd, hshows⟩ := GraphDocument.exists_shows hamong options
  obtain rfl : d = document := by
    rw [graphDocument, discover_resolve] at hdocument
    exact Except.ok.inj (hd.symm.trans (hsame.trans hdocument))
  have hlinks := hshows.drawLinks hamong (nodup_importsOf_importMapIn hamong)
  refine ⟨{ d with fileLinks := drawLinks _ (keepFirst options.maxFiles (ranking _ _)) }, ?_,
    rfl, rfl, rfl, rfl, rfl, hlinks, rfl⟩
  simp only [graphDocumentIn, discoverIn_resolve, hd, rankedFiles_eq hamong]
  rfl

/-- A file that imports two others, one of which imports it. -/
def importFork : FileTree :=
  .directory [("src", .directory
    [("main.jsx", .file "import u from './util'; import v from './view'".toUTF8.toList),
      ("util.jsx", .file "import m from './main'".toUTF8.toList),
      ("view.jsx", .file [])])]

end FileTree

end RepoOrbit
