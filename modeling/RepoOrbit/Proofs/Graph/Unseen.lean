import RepoOrbit.Proofs.Files.Unseen
import RepoOrbit.Proofs.Graph.Enumeration

/-!
# What a walk does not see does not show in a document

Of a file tree a document depends only on the source files and their texts
(`FileTree.SameSources.graphDocument_eq`). So whatever comes or goes that a walk does not see, hidden
entries, all in skipped directories and files that are not source files, the document stays
as it is (`unseen_does_not_show`), even where imports name what came.

In the orders of an enumeration a document has its file links drawn anew
(`graphDocumentIn_eq`), which depends on no more than the imports of each file
(`drawLinks_congr`).
-/

namespace RepoOrbit

theorem drawLinks_congr {imports imports' : ImportMap} (h : ∀ f, imports.importsOf f = imports'.importsOf f)
    (kept : List RankedFile) : drawLinks imports kept = drawLinks imports' kept := by
  have htake : Drawing.takeAll imports kept = Drawing.takeAll imports' kept := by
    funext d source
    rw [Drawing.takeAll, Drawing.takeAll, h]
  rw [drawLinks, drawLinks, htake]

namespace FileTree

variable {t t' : FileTree} {start : List String}

/-- The file links of a document, drawn in the orders of an enumeration. -/
def fileLinksIn (t : FileTree) (e : Enumeration) (start : List String) (limit : Int) : List GraphLink :=
  drawLinks (t.importMapIn e (t.discoverIn e.names start))
    (keepFirst limit (ranking ⟨.slash, t.resolve start⟩ (t.importMap (t.discover start))))

/-- Made in the orders of an enumeration, the document of a tree has other file links, drawn
among the same files. -/
theorem graphDocumentIn_eq (ht : t.wellNamed) (e : Enumeration) (start : List String) (options : BuildOptions) :
    t.graphDocumentIn e start options = (t.graphDocument start options).map fun d =>
      { d with fileLinks := t.fileLinksIn e start options.maxFiles } := by
  have hamong := importMapIn_among ht e start
  have hre := importMapIn_rearranged ht e start
  have hsame := GraphDocument.ofImports_rearranged hre hamong (importMap_among ht start)
    (t.discoverIn_perm e.names start) options
  simp only [graphDocumentIn, graphDocument, discover_resolve, discoverIn_resolve, hsame, rankedFiles_eq hamong,
    hre.ranking_rearranged hamong (importMap_among ht start)]
  cases GraphDocument.ofImports ⟨.slash, t.resolve start⟩ options (t.discover start)
    (t.importMap (t.discover start)) <;> rfl

namespace SameSources

section

variable (h : t.SameSources t' start)

include h

theorem contains_eq : (t.discover start).contains = (t'.discover start).contains := by
  funext f
  rw [Bool.eq_iff_iff, List.contains_iff_mem, List.contains_iff_mem, h.mem_iff]

theorem importsOf_eq {f : Path} (hf : f ∈ t.discover start) :
    t.importsOf (t.discover start).contains f = t'.importsOf (t'.discover start).contains f := by
  rw [importsOf, importsOf, h.text_eq hf, h.contains_eq]

theorem discover_perm (ht : t.wellNamed) (ht' : t'.wellNamed) : (t.discover start).Perm (t'.discover start) :=
  (List.perm_ext_iff_of_nodup (nodup_discover ht start) (nodup_discover ht' start)).mpr fun _ => h.mem_iff

theorem importMap_among (ht' : t'.wellNamed) :
    (t'.importMap (t'.discover start)).Among ⟨.slash, t.resolve start⟩ (t'.discover start) := by
  rw [h.resolve_eq]
  exact FileTree.importMap_among ht' start

theorem importMap_rearranged (ht : t.wellNamed) (ht' : t'.wellNamed) :
    (t.importMap (t.discover start)).Rearranged (t'.importMap (t'.discover start)) :=
  ImportMap.rearranged_ofFiles (FileTree.importMap_among ht start) (h.importMap_among ht') (h.discover_perm ht ht')
    fun _ hf => .of_eq (h.importsOf_eq hf)

/-- Trees with the same sources have the same document. -/
theorem graphDocument_eq (ht : t.wellNamed) (ht' : t'.wellNamed) (options : BuildOptions) :
    t.graphDocument start options = t'.graphDocument start options := by
  rw [graphDocument, graphDocument, discover_resolve, discover_resolve, ← h.resolve_eq]
  exact GraphDocument.ofImports_rearranged (h.importMap_rearranged ht ht') (FileTree.importMap_among ht start)
    (h.importMap_among ht') (h.discover_perm ht ht') options

/-- And the files they show are ranked alike. -/
theorem ranking_eq (ht : t.wellNamed) (ht' : t'.wellNamed) :
    ranking ⟨.slash, t.resolve start⟩ (t.importMap (t.discover start)) =
      ranking ⟨.slash, t'.resolve start⟩ (t'.importMap (t'.discover start)) := by
  rw [← h.resolve_eq]
  exact (h.importMap_rearranged ht ht').ranking_rearranged (FileTree.importMap_among ht start) (h.importMap_among ht')

/-- Specifiers and imports listed alike give the imports of a file in the same order. -/
theorem importsOf_importMapIn_eq (ht : t.wellNamed) (ht' : t'.wellNamed) {e e' : Enumeration}
    (hspecifiers : e.specifiers = e'.specifiers) (htargets : e.targets = e'.targets) (f : Path) :
    (t.importMapIn e (t.discoverIn e.names start)).importsOf f =
      (t'.importMapIn e' (t'.discoverIn e'.names start)).importsOf f := by
  have hfiles := t.discoverIn_perm e.names start
  have hfiles' := t'.discoverIn_perm e'.names start
  have hknown : (t.discoverIn e.names start).contains = (t'.discoverIn e'.names start).contains :=
    funext fun _ => (hfiles.trans ((h.discover_perm ht ht').trans hfiles'.symm)).contains_eq
  have hamong := importMapIn_among ht e start
  have hamong' := importMapIn_among ht' e' start
  rw [importMapIn_eq] at hamong hamong' ⊢
  rw [importMapIn_eq, ImportMap.importsOf_ofFiles hamong, ImportMap.importsOf_ofFiles hamong', hknown, hspecifiers,
    htargets]
  simp only [hfiles.mem_iff, hfiles'.mem_iff, ← h.mem_iff]
  split
  · rename_i hf
    rw [importsIn, importsIn, h.text_eq hf]
  · rfl

/-- So the file links are drawn in the same order. -/
theorem fileLinksIn_eq (ht : t.wellNamed) (ht' : t'.wellNamed) {e e' : Enumeration}
    (hspecifiers : e.specifiers = e'.specifiers) (htargets : e.targets = e'.targets) (limit : Int) :
    t.fileLinksIn e start limit = t'.fileLinksIn e' start limit := by
  rw [fileLinksIn, fileLinksIn, h.ranking_eq ht ht',
    drawLinks_congr (h.importsOf_importMapIn_eq ht ht' hspecifiers htargets)]

end

end SameSources

/-- A file that imports a source file, and three things that are not there. -/
def importsOfAllKinds : FileTree :=
  let text := "import v from './view'; import t from './theme.css'; import a from './dist/api'; import e from './.env'"
  .directory [("src", .directory
    [("main.jsx", .file text.toUTF8.toList), ("view", .directory [("index.jsx", .file [])])])]

/-- The tree with the three things in it: a file of another kind, a skipped directory and a hidden
file. -/
def importsFulfilled : FileTree :=
  ((importsOfAllKinds.change (["src"] ++ ["theme.css"]) (some (.file []))).change (["src"] ++ ["dist"])
    (some (.directory [("api.js", .file "import m from '../main'".toUTF8.toList)]))).change (["src"] ++ [".env"])
    (some (.file []))

end FileTree

end RepoOrbit
