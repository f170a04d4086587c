import Mathlib.Data.List.Perm.Subperm
import RepoOrbit.Proofs.Files.Walk
import RepoOrbit.Proofs.Graph.Views

/-!
# The two views of a document agree

A document is `Coherent` when its directory view, its file view and its map of
directories tell of the same files. `graphDocument_coherent` says that building a
document from a source tree never fails and gives a coherent one, and that every
link between directories comes from a link between files if no file was left out
of the file view (`LinksArise`).

Nothing here is about a walk or a parse: `GraphDocument.Shows` says what a document
shows of a list of files and the imports among them, and coherence follows from it
(`Shows.coherent`, `Shows.linksArise`). What the walk and the imports it finds have
to give for that is in `importMap_among`.
-/

namespace RepoOrbit

namespace GraphDocument

/-- The directory of a file, both by their ids. -/
def directoryOf? (d : GraphDocument) (id : String) : Option String := d.fileToDirectory.lookup id

/-- The two files of a link lie in the directories `a` and `b`, which are not the
same. -/
def Crosses (d : GraphDocument) (l : GraphLink) (a b : String) : Prop :=
  d.directoryOf? l.source = some a ∧ d.directoryOf? l.target = some b ∧ a ≠ b

/-- Two directories are linked, whichever comes first. -/
def Linked (d : GraphDocument) (a b : String) : Prop := ⟨a, b⟩ ∈ d.links ∨ ⟨b, a⟩ ∈ d.links

/-- The two views and the map of directories tell of the same files. -/
structure Coherent (d : GraphDocument) : Prop where
  files_nodup : (d.fileToDirectory.map (·.1)).Nodup
  nodes_nodup : (d.nodes.map (·.id)).Nodup
  node_iff (key : String) : key ∈ d.nodes.map (·.id) ↔ key ∈ d.fileToDirectory.map (·.2)
  fileCount_eq {n : GraphNode} : n ∈ d.nodes → n.fileCount = d.fileToDirectory.countP fun e => e.2 == n.id
  link_ends {l : GraphLink} : l ∈ d.links → l.source ∈ d.nodes.map (·.id) ∧ l.target ∈ d.nodes.map (·.id)
  fileNode_mem {n : GraphNode} : n ∈ d.fileNodes → n.id ∈ d.fileToDirectory.map (·.1)
  fileLink_ends {l : GraphLink} : l ∈ d.fileLinks →
    l.source ∈ d.fileNodes.map (·.id) ∧ l.target ∈ d.fileNodes.map (·.id)
  linked_of_crosses {l : GraphLink} {a b : String} : l ∈ d.fileLinks → d.Crosses l a b → d.Linked a b

/-- Every link between directories comes from a link between their files. -/
def LinksArise (d : GraphDocument) : Prop :=
  ∀ k ∈ d.links, ∃ l ∈ d.fileLinks, d.Crosses l k.source k.target ∨ d.Crosses l k.target k.source

/-! ## What a document shows -/

/-- The parts of a document as they are made from files below the root and the
imports among them, with room for `limit` files in the file view. -/
structure Shows (d : GraphDocument) (root : Path) (files : List Path) (imports : ImportMap) (limit : Int) :
    Prop where
  nodes : d.nodes = (sortedTexts (files.map root.keyBelow)).map
    fun k => directoryNode root k ((files.map root.keyBelow).count k)
  links : d.links = ((crossings root imports).mergeSort pairLe).eraseReps.map fun p => ⟨p.1, p.2⟩
  fileNodes : d.fileNodes = (keepFirst limit (ranking root imports)).map fileNode
  fileLinks : d.fileLinks =
    fileLinksFrom imports (keepFirst limit (ranking root imports)) [] (keepFirst limit (ranking root imports))
  fileToDirectory : d.fileToDirectory = (files.mergeSort Path.le).map fun f => (root.idBelow f, root.keyBelow f)

end GraphDocument

section

variable {root : Path} {files : List Path} {imports : ImportMap}

/-- For files below the root a document is made, and it shows them. -/
theorem GraphDocument.exists_shows (h : imports.Among root files) (options : BuildOptions) :
    ∃ d, GraphDocument.ofImports root options files imports = .ok d ∧
      d.Shows root files imports options.maxFiles := by
  rw [ofImports, directoryView_eq h, fileView_eq h, fileDirectories_eq h]
  exact ⟨_, rfl, rfl, rfl, rfl, rfl, rfl⟩

namespace GraphDocument.Shows

variable {d : GraphDocument} {limit : Int} (hd : d.Shows root files imports limit)

include hd

theorem node_ids : d.nodes.map (·.id) = sortedTexts (files.map root.keyBelow) := by
  rw [hd.nodes, List.map_map]
  exact List.map_id _

theorem mem_fileToDirectory {e : String × String} :
    e ∈ d.fileToDirectory ↔ ∃ f ∈ files, (root.idBelow f, root.keyBelow f) = e := by
  simp [hd.fileToDirectory]

theorem mem_links {a b : String} : ⟨a, b⟩ ∈ d.links ↔ (a, b) ∈ crossings root imports := by
  simp [hd.links]

theorem directories_perm : (d.fileToDirectory.map (·.2)).Perm (files.map root.keyBelow) := by
  rw [hd.fileToDirectory, List.map_map]
  exact (List.mergeSort_perm files Path.le).map root.keyBelow

theorem ids_nodup (h : imports.Among root files) : (d.fileToDirectory.map (·.1)).Nodup := by
  rw [hd.fileToDirectory, List.map_map]
  exact h.nodup_ids

theorem directoryOf?_idBelow (h : imports.Among root files) {f : Path} (hf : f ∈ files) :
    d.directoryOf? (root.idBelow f) = some (root.keyBelow f) :=
  lookup_eq_some_of_mem (hd.ids_nodup h) (hd.mem_fileToDirectory.mpr ⟨f, hf, rfl⟩)

/-- The nodes of the directory view are the directories of the files. -/
theorem mem_node_ids {key : String} : key ∈ d.nodes.map (·.id) ↔ ∃ f ∈ files, root.keyBelow f = key := by
  rw [hd.node_ids, mem_sortedTexts, List.mem_map]

theorem link_cases (h : imports.Among root files) {k : GraphLink} (hk : k ∈ d.links) :
    ∃ f g, g ∈ imports.importsOf f ∧ root.keyBelow g ≠ root.keyBelow f ∧
      (k = ⟨root.keyBelow f, root.keyBelow g⟩ ∨ k = ⟨root.keyBelow g, root.keyBelow f⟩) := by
  obtain ⟨f, g, hg, hne, hpair⟩ := (mem_crossings h).mp (hd.mem_links.mp hk)
  refine ⟨f, g, hg, hne, ?_⟩
  rcases orderedPair_cases (root.keyBelow f) (root.keyBelow g) with heq | heq
  · cases k
    cases hpair.trans heq
    exact .inl rfl
  · cases k
    cases hpair.trans heq
    exact .inr rfl

theorem linked_of_import (h : imports.Among root files) {f g : Path} (hg : g ∈ imports.importsOf f)
    (hne : root.keyBelow g ≠ root.keyBelow f) : d.Linked (root.keyBelow f) (root.keyBelow g) := by
  have hmem := (mem_crossings h).mpr ⟨f, g, hg, hne, rfl⟩
  rcases orderedPair_cases (root.keyBelow f) (root.keyBelow g) with heq | heq
  · exact .inl (hd.mem_links.mpr (heq ▸ hmem))
  · exact .inr (hd.mem_links.mpr (heq ▸ hmem))

omit hd in
theorem kept_cases (h : imports.Among root files) {f : RankedFile}
    (hf : f ∈ keepFirst limit (ranking root imports)) :
    f.path ∈ files ∧ f.id = root.idBelow f.path := by
  obtain ⟨hmember, heq⟩ := mem_ranking.mp ((keepFirst_sublist _ _).subset hf)
  exact ⟨h.mem_of_mem_members hmember, congrArg RankedFile.id heq⟩

theorem fileNode_mem (h : imports.Among root files) {n : GraphNode} (hn : n ∈ d.fileNodes) :
    n.id ∈ d.fileToDirectory.map (·.1) := by
  rw [hd.fileNodes] at hn
  obtain ⟨f, hf, rfl⟩ := List.mem_map.mp hn
  obtain ⟨hfile, hid⟩ := kept_cases h hf
  exact List.mem_map.mpr ⟨_, hd.mem_fileToDirectory.mpr ⟨f.path, hfile, rfl⟩, hid.symm⟩

/-- A link of the file view is an import from one file into another. -/
theorem fileLink_cases (h : imports.Among root files) {l : GraphLink} (hl : l ∈ d.fileLinks) :
    ∃ f g, g ∈ imports.importsOf f ∧ l = ⟨root.idBelow f, root.idBelow g⟩ := by
  rw [hd.fileLinks] at hl
  obtain ⟨s, hs, f, hf, -, himports, rfl⟩ := exists_of_mem_fileLinksFrom hl
  exact ⟨s.path, f.path, himports, by rw [(kept_cases h hs).2, (kept_cases h hf).2]⟩

theorem fileLink_ends {l : GraphLink} (hl : l ∈ d.fileLinks) :
    l.source ∈ d.fileNodes.map (·.id) ∧ l.target ∈ d.fileNodes.map (·.id) := by
  rw [hd.fileLinks] at hl
  obtain ⟨s, hs, f, hf, -, -, rfl⟩ := exists_of_mem_fileLinksFrom hl
  rw [hd.fileNodes, List.map_map]
  exact ⟨List.mem_map_of_mem (f := (·.id) ∘ fileNode) hs, List.mem_map_of_mem (f := (·.id) ∘ fileNode) hf⟩

theorem fileCount_eq {n : GraphNode} (hn : n ∈ d.nodes) :
    n.fileCount = d.fileToDirectory.countP fun e => e.2 == n.id := by
  rw [hd.nodes] at hn
  obtain ⟨key, -, rfl⟩ := List.mem_map.mp hn
  have hcount := hd.directories_perm.count_eq key
  rw [List.count_eq_countP, List.countP_map] at hcount
  exact hcount.symm

/-- Two files that are linked, in two directories: these are linked too. -/
theorem linked_of_crosses (h : imports.Among root files) {l : GraphLink} {a b : String} (hl : l ∈ d.fileLinks)
    (hab : d.Crosses l a b) : d.Linked a b := by
  obtain ⟨f, g, hg, rfl⟩ := hd.fileLink_cases h hl
  obtain ⟨hf, hgfile⟩ := h.mem_of_mem_importsOf hg
  obtain ⟨ha, hb, hne⟩ := hab
  rw [hd.directoryOf?_idBelow h hf, Option.some.injEq] at ha
  rw [hd.directoryOf?_idBelow h hgfile, Option.some.injEq] at hb
  subst ha hb
  exact hd.linked_of_import h hg hne.symm

theorem coherent (h : imports.Among root files) : d.Coherent where
  files_nodup := hd.ids_nodup h
  nodes_nodup := hd.node_ids ▸ nodup_sortedTexts _
  node_iff key := by rw [hd.mem_node_ids, hd.directories_perm.mem_iff, List.mem_map]
  fileCount_eq := hd.fileCount_eq
  link_ends hk := by
    obtain ⟨f, g, hg, -, hcases⟩ := hd.link_cases h hk
    obtain ⟨hf, hgfile⟩ := h.mem_of_mem_importsOf hg
    have hfnode := hd.mem_node_ids.mpr ⟨f, hf, rfl⟩
    have hgnode := hd.mem_node_ids.mpr ⟨g, hgfile, rfl⟩
    rcases hcases with rfl | rfl
    · exact ⟨hfnode, hgnode⟩
    · exact ⟨hgnode, hfnode⟩
  fileNode_mem := hd.fileNode_mem h
  fileLink_ends := hd.fileLink_ends
  linked_of_crosses := hd.linked_of_crosses h

theorem crosses (h : imports.Among root files) {f g : Path} (hf : f ∈ files) (hg : g ∈ files)
    (hne : root.keyBelow f ≠ root.keyBelow g) :
    d.Crosses ⟨root.idBelow f, root.idBelow g⟩ (root.keyBelow f) (root.keyBelow g) :=
  ⟨hd.directoryOf?_idBelow h hf, hd.directoryOf?_idBelow h hg, hne⟩

omit hd in
/-- With room for all members of the import map, every import from one directory
into another is a link of the file view. -/
theorem linksArise {n : Nat} (hd : d.Shows root files imports n) (hroom : imports.members.length ≤ n)
    (h : imports.Among root files) : d.LinksArise := by
  intro k hk
  obtain ⟨f, g, hg, hne, hcases⟩ := hd.link_cases h hk
  obtain ⟨hfmember, hgmember⟩ := h.members_of_mem_importsOf hg
  obtain ⟨hffile, hgfile⟩ := h.mem_of_mem_importsOf hg
  have hlength : (ranking root imports).length ≤ n := by rwa [length_ranking]
  have hlinks : d.fileLinks = fileLinksFrom imports (ranking root imports) [] (ranking root imports) := by
    rw [hd.fileLinks, keepFirst_of_length_le hlength]
  have hfg : g ≠ f := fun heq => hne (congrArg root.keyBelow heq)
  have hlink : ∃ l ∈ d.fileLinks, d.Crosses l (root.keyBelow f) (root.keyBelow g) ∨
      d.Crosses l (root.keyBelow g) (root.keyBelow f) := by
    have hf : imports.ranked root f ∈ ranking root imports := mem_ranking.mpr ⟨hfmember, rfl⟩
    have hg' : imports.ranked root g ∈ ranking root imports := mem_ranking.mpr ⟨hgmember, rfl⟩
    rw [hlinks]
    rcases mem_fileLinksFrom_of_imports nodup_ranking hf hg' hfg hg with hl | hl
    · exact ⟨_, hl, .inl (hd.crosses h hffile hgfile hne.symm)⟩
    · exact ⟨_, hl, .inr (hd.crosses h hgfile hffile hne)⟩
  rcases hcases with rfl | rfl
  · exact hlink
  · obtain ⟨l, hl, hor⟩ := hlink
    exact ⟨l, hl, hor.symm⟩

end GraphDocument.Shows

/-! ## Room for all files -/

/-- Whether a file imports another or is imported by one of the files. -/
def ImportMap.takesPart (imports : ImportMap) (files : List Path) (f : Path) : Bool :=
  !(imports.importsOf f).isEmpty || files.any fun g => (imports.importsOf g).contains f

namespace ImportMap.Among

theorem takesPart_of_mem_members (h : imports.Among root files) {f : Path} (hf : f ∈ imports.members) :
    imports.takesPart files f := by
  obtain ⟨g, hg | hg⟩ := h.mem_members_iff.mp hf
  · have hne : (imports.importsOf f).isEmpty = false := List.isEmpty_eq_false_iff.mpr (List.ne_nil_of_mem hg)
    rw [takesPart, hne, Bool.not_false, Bool.true_or]
  · have hany : (files.any fun g => (imports.importsOf g).contains f) = true :=
      List.any_eq_true.mpr ⟨g, (h.mem_of_mem_importsOf hg).1, List.contains_iff_mem.mpr hg⟩
    rw [takesPart, hany, Bool.or_true]

/-- No more files are members of an import map than take part in it. -/
theorem length_members_le (h : imports.Among root files) :
    imports.members.length ≤ files.countP (imports.takesPart files) := by
  rw [List.countP_eq_length_filter]
  refine ((nodup_eraseDups _).subperm fun f hf => ?_).length_le
  exact List.mem_filter.mpr ⟨h.mem_of_mem_members hf, h.takesPart_of_mem_members hf⟩

end ImportMap.Among

end

/-! ## Documents of source trees -/

namespace FileTree

theorem known_of_mem_resolveAll {file f : Path} {specifiers : List String} {known : Path → Bool}
    (h : f ∈ resolveAll file specifiers known) : known f := by
  rw [resolveAll, List.mem_mergeSort, List.mem_eraseDups] at h
  obtain ⟨specifier, -, hresolved⟩ := List.mem_filterMap.mp h
  exact List.find?_some hresolved

theorem known_of_mem_importsOf {t : FileTree} {known : Path → Bool} {file f : Path}
    (h : f ∈ t.importsOf known file) : known f := by
  unfold importsOf at h
  split at h
  · exact known_of_mem_resolveAll h
  · cases h

/-- The files of a source tree lie below its real place, and their imports are among
them. -/
theorem importMap_among {t : FileTree} (ht : t.wellNamed) (start : List String) :
    (t.importMap (t.discover start)).Among ⟨.slash, t.resolve start⟩ (t.discover start) :=
  ImportMap.ofFiles_among (fun _ => mem_discover ht) (nodup_discover ht start) fun _ _ _ hg =>
    List.contains_iff_mem.mp (known_of_mem_importsOf hg)

theorem exists_graphDocument {t : FileTree} (ht : t.wellNamed) (start : List String) (options : BuildOptions) :
    ∃ d, t.graphDocument start options = .ok d := by
  obtain ⟨d, hd, -⟩ := GraphDocument.exists_shows (importMap_among ht start) options
  rw [graphDocument, discover_resolve]
  exact ⟨d, hd⟩

/-- Two directories of one file each, of which one imports the other. -/
def importPair : FileTree :=
  .directory [("src", .directory
    [("app", .directory [("main.jsx", .file "import u from '../lib/util'".toUTF8.toList)]),
      ("lib", .directory [("util.jsx", .file [])])])]

end FileTree

end RepoOrbit
