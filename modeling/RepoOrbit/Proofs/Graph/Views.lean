import RepoOrbit.Graph.Build
import RepoOrbit.Proofs.Graph.Ids
import RepoOrbit.Proofs.Sorting

/-!
# What is in the two views

Both views of an import map, for files that all lie below the root and imports
among these files (`ImportMap.Among`):

* `ImportMap.ofFiles_among`: imports that are found file by file are such;
* `directoryView_eq`, `fileView_eq`, `fileDirectories_eq`: no part of a document
  fails, and what each of them is;
* `mem_crossings`: two directories are linked when a file of one imports a file
  of the other;
* `exists_of_mem_fileLinksFrom`, `mem_fileLinksFrom_of_imports`: two kept files are
  linked when one of them imports the other.

A link of the file view is drawn from the first of its two files in the ranking
that imports the other (`mem_fileLinksFrom`). Nothing is lost by that, as the
second of them finds the link drawn only if the first one drew it.
-/

namespace RepoOrbit

/-- The files lie below the root, each listed once, and the imports are among them,
each file with all its imports at one place and none without. -/
structure ImportMap.Among (imports : ImportMap) (root : Path) (files : List Path) : Prop where
  liesBelow {f : Path} : f ∈ files → f.LiesBelow root
  files_nodup : files.Nodup
  sources_nodup : (imports.map (·.1)).Nodup
  targets_ne_nil {e : Path × List Path} : e ∈ imports → e.2 ≠ []
  source_mem {e : Path × List Path} : e ∈ imports → e.1 ∈ files
  target_mem {e : Path × List Path} {f : Path} : e ∈ imports → f ∈ e.2 → f ∈ files

section

variable {root : Path} {files : List Path} {imports : ImportMap}

theorem ImportMap.importsOf_eq_of_mem (hsources : (imports.map (·.1)).Nodup) {f : Path} {targets : List Path}
    (hmem : (f, targets) ∈ imports) : imports.importsOf f = targets := by
  rw [ImportMap.importsOf, lookup_eq_some_of_mem hsources hmem, Option.getD_some]

/-- Where each file has all its imports at one place, these are its imports. -/
theorem ImportMap.mem_importsOf_iff (hsources : (imports.map (·.1)).Nodup) {f g : Path} :
    g ∈ imports.importsOf f ↔ ∃ targets, (f, targets) ∈ imports ∧ g ∈ targets := by
  constructor
  · intro hg
    rw [ImportMap.importsOf] at hg
    cases hlookup : imports.lookup f with
    | none => simp [hlookup] at hg
    | some targets =>
      rw [hlookup, Option.getD_some] at hg
      obtain ⟨before, after, himports, -⟩ := List.lookup_eq_some_iff.mp hlookup
      exact ⟨targets, by simp [himports], hg⟩
  · rintro ⟨targets, hmem, hg⟩
    rwa [ImportMap.importsOf_eq_of_mem hsources hmem]

theorem ImportMap.Among.importsOf_eq (h : imports.Among root files) {f : Path} {targets : List Path}
    (hmem : (f, targets) ∈ imports) : imports.importsOf f = targets :=
  ImportMap.importsOf_eq_of_mem h.sources_nodup hmem

theorem ImportMap.Among.mem_importsOf (h : imports.Among root files) {f g : Path} :
    g ∈ imports.importsOf f ↔ ∃ targets, (f, targets) ∈ imports ∧ g ∈ targets :=
  ImportMap.mem_importsOf_iff h.sources_nodup

theorem ImportMap.mem_members {f : Path} : f ∈ imports.members ↔ ∃ e ∈ imports, f = e.1 ∨ f ∈ e.2 := by
  simp [members, List.mem_flatMap]

theorem ImportMap.nodup_members (imports : ImportMap) : imports.members.Nodup := nodup_eraseDups _

theorem ImportMap.members_below (hbelow : ∀ e ∈ imports, ∀ f ∈ e.1 :: e.2, f.LiesBelow root) :
    ∀ f ∈ imports.members, f.LiesBelow root := by
  intro f hf
  obtain ⟨e, he, hf⟩ := mem_members.mp hf
  exact hbelow e he f (List.mem_cons.mpr hf)

theorem ImportMap.Among.mem_of_mem_members (h : imports.Among root files) {f : Path}
    (hf : f ∈ imports.members) :
    f ∈ files := by
  obtain ⟨e, he, rfl | htarget⟩ := ImportMap.mem_members.mp hf
  · exact h.source_mem he
  · exact h.target_mem he htarget

theorem ImportMap.Among.members_below (h : imports.Among root files) : ∀ f ∈ imports.members, f.LiesBelow root :=
  fun _ hf => h.liesBelow (h.mem_of_mem_members hf)

/-! ## Imports found file by file -/

/-- The imports of files, of those that import any. -/
def ImportMap.ofFiles (files : List Path) (found : Path → List Path) : ImportMap :=
  (files.map fun f => (f, found f)).filter fun e => !e.2.isEmpty

namespace ImportMap

variable {found : Path → List Path}

theorem mem_ofFiles {f : Path} {targets : List Path} :
    (f, targets) ∈ ofFiles files found ↔ f ∈ files ∧ targets = found f ∧ found f ≠ [] := by
  simp only [ofFiles, List.mem_filter, List.mem_map, Prod.mk.injEq, Bool.not_eq_true',
    List.isEmpty_eq_false_iff]
  constructor
  · rintro ⟨⟨f, hf, rfl, rfl⟩, hne⟩
    exact ⟨hf, rfl, hne⟩
  · rintro ⟨hf, rfl, hne⟩
    exact ⟨⟨f, hf, rfl, rfl⟩, hne⟩

theorem ofFiles_sources : (ofFiles files found).map (·.1) = files.filter fun f => !(found f).isEmpty := by
  rw [ofFiles, List.filter_map, List.map_map]
  exact List.map_id _

/-- Imports among files below the root, each listed once. -/
theorem ofFiles_among (hbelow : ∀ f ∈ files, f.LiesBelow root) (hnodup : files.Nodup)
    (hfound : ∀ f ∈ files, ∀ g ∈ found f, g ∈ files) : (ofFiles files found).Among root files where
  liesBelow hf := hbelow _ hf
  files_nodup := hnodup
  sources_nodup := ofFiles_sources ▸ hnodup.filter _
  targets_ne_nil he := (mem_ofFiles.mp he).2.1 ▸ (mem_ofFiles.mp he).2.2
  source_mem he := (mem_ofFiles.mp he).1
  target_mem he htarget := by
    obtain ⟨hf, htargets, -⟩ := mem_ofFiles.mp he
    exact hfound _ hf _ (htargets ▸ htarget)

end ImportMap

/-! ## The directory view -/

@[simp] theorem mem_sortedTexts {x : String} {texts : List String} : x ∈ sortedTexts texts ↔ x ∈ texts := by
  rw [sortedTexts, mem_eraseReps, List.mem_mergeSort]

theorem nodup_sortedTexts (texts : List String) : (sortedTexts texts).Nodup :=
  nodup_eraseReps (fun _ _ => eq_of_textLe) (sorts_texts.pairwise texts)

theorem orderedPair_cases (a b : String) : orderedPair a b = (a, b) ∨ orderedPair a b = (b, a) := by
  unfold orderedPair
  split
  · exact .inl rfl
  · exact .inr rfl

/-- The two directories of every import of a file that leads into another
directory. -/
def crossingsFrom (root : Path) (e : Path × List Path) : List (String × String) :=
  ((e.2.map root.keyBelow).filter (· != root.keyBelow e.1)).map (orderedPair (root.keyBelow e.1))

/-- The two directories of every import that leads into another directory. -/
def crossings (root : Path) (imports : ImportMap) : List (String × String) :=
  imports.flatMap (crossingsFrom root)

theorem mem_crossings_iff (hsources : (imports.map (·.1)).Nodup) {p : String × String} :
    p ∈ crossings root imports ↔
      ∃ f g, g ∈ imports.importsOf f ∧ root.keyBelow g ≠ root.keyBelow f ∧
        p = orderedPair (root.keyBelow f) (root.keyBelow g) := by
  simp only [crossings, crossingsFrom, List.mem_flatMap, List.mem_map, List.mem_filter, bne_iff_ne,
    ImportMap.mem_importsOf_iff hsources]
  constructor
  · rintro ⟨⟨f, targets⟩, hmem, _, ⟨⟨g, hg, rfl⟩, hne⟩, rfl⟩
    exact ⟨f, g, ⟨targets, hmem, hg⟩, hne, rfl⟩
  · rintro ⟨f, g, ⟨targets, hmem, hg⟩, hne, rfl⟩
    exact ⟨(f, targets), hmem, _, ⟨⟨g, hg, rfl⟩, hne⟩, rfl⟩

theorem mem_crossings (h : imports.Among root files) {p : String × String} :
    p ∈ crossings root imports ↔
      ∃ f g, g ∈ imports.importsOf f ∧ root.keyBelow g ≠ root.keyBelow f ∧
        p = orderedPair (root.keyBelow f) (root.keyBelow g) :=
  mem_crossings_iff h.sources_nodup

theorem directoryPairs_of_below (hmembers : ∀ f ∈ imports.members, f.LiesBelow root) :
    directoryPairs root imports = .ok (crossings root imports) := by
  rw [directoryPairs, mapM_eq_ok (g := crossingsFrom root)]
  · rw [crossings, List.flatMap_def]
    rfl
  · rintro ⟨source, targets⟩ he
    have hsource := hmembers source (ImportMap.mem_members.mpr ⟨_, he, .inl rfl⟩)
    have htargets : ∀ f ∈ targets, f.LiesBelow root := fun f hf =>
      hmembers f (ImportMap.mem_members.mpr ⟨_, he, .inr hf⟩)
    dsimp only
    rw [hsource.directoryKey, mapM_eq_ok fun f hf => (htargets f hf).directoryKey]
    rfl

theorem directoryView_of_below (hfiles : ∀ f ∈ files, f.LiesBelow root)
    (hmembers : ∀ f ∈ imports.members, f.LiesBelow root) :
    directoryView root files imports =
      .ok ((sortedTexts (files.map root.keyBelow)).map
          fun k => directoryNode root k ((files.map root.keyBelow).count k),
        ((crossings root imports).mergeSort pairLe).eraseReps.map fun p => ⟨p.1, p.2⟩) := by
  rw [directoryView, mapM_eq_ok fun f hf => (hfiles f hf).directoryKey, directoryPairs_of_below hmembers]
  rfl

theorem directoryView_eq (h : imports.Among root files) :
    directoryView root files imports =
      .ok ((sortedTexts (files.map root.keyBelow)).map
          fun k => directoryNode root k ((files.map root.keyBelow).count k),
        ((crossings root imports).mergeSort pairLe).eraseReps.map fun p => ⟨p.1, p.2⟩) :=
  directoryView_of_below (fun _ => h.liesBelow) h.members_below

/-! ## The file view -/

/-- A file that imports another is a member of the import map, and so is the
other. -/
theorem ImportMap.Among.members_of_mem_importsOf (h : imports.Among root files) {f g : Path}
    (hg : g ∈ imports.importsOf f) : f ∈ imports.members ∧ g ∈ imports.members := by
  obtain ⟨targets, hmem, hg⟩ := (h.mem_importsOf).mp hg
  exact ⟨ImportMap.mem_members.mpr ⟨_, hmem, .inl rfl⟩, ImportMap.mem_members.mpr ⟨_, hmem, .inr hg⟩⟩

/-- The members of an import map are the files that import or are imported. -/
theorem ImportMap.Among.mem_members_iff (h : imports.Among root files) {f : Path} :
    f ∈ imports.members ↔ ∃ g, g ∈ imports.importsOf f ∨ f ∈ imports.importsOf g := by
  constructor
  · intro hf
    obtain ⟨⟨g, targets⟩, hmem, rfl | htarget⟩ := ImportMap.mem_members.mp hf
    · obtain ⟨target, htarget⟩ := List.exists_mem_of_ne_nil _ (h.targets_ne_nil hmem)
      exact ⟨target, .inl (h.mem_importsOf.mpr ⟨targets, hmem, htarget⟩)⟩
    · exact ⟨g, .inr (h.mem_importsOf.mpr ⟨targets, hmem, htarget⟩)⟩
  · rintro ⟨g, hg | hg⟩
    · exact (h.members_of_mem_importsOf hg).1
    · exact (h.members_of_mem_importsOf hg).2

theorem ImportMap.Among.mem_of_mem_importsOf (h : imports.Among root files) {f g : Path}
    (hg : g ∈ imports.importsOf f) : f ∈ files ∧ g ∈ files :=
  (h.members_of_mem_importsOf hg).imp h.mem_of_mem_members h.mem_of_mem_members

/-- A member of an import map with its id and its number of connections. -/
def ImportMap.ranked (imports : ImportMap) (root p : Path) : RankedFile :=
  ⟨p, root.idBelow p, imports.connectivity p⟩

/-- The members of an import map below the root, the best connected first. -/
def ranking (root : Path) (imports : ImportMap) : List RankedFile :=
  (imports.members.map (imports.ranked root)).mergeSort RankedFile.le

theorem rankedFiles_of_below (hmembers : ∀ f ∈ imports.members, f.LiesBelow root) :
    rankedFiles root imports = .ok (ranking root imports) := by
  rw [rankedFiles, mapM_eq_ok (g := imports.ranked root)]
  · rfl
  · intro f hf
    rw [(hmembers f hf).relativeId]
    rfl

theorem rankedFiles_eq (h : imports.Among root files) :
    rankedFiles root imports = .ok (ranking root imports) :=
  rankedFiles_of_below h.members_below

theorem fileView_of_below (hmembers : ∀ f ∈ imports.members, f.LiesBelow root) (limit : Int) :
    fileView root imports limit =
      .ok ((keepFirst limit (ranking root imports)).map fileNode,
        fileLinksFrom imports (keepFirst limit (ranking root imports)) []
          (keepFirst limit (ranking root imports))) := by
  rw [fileView, rankedFiles_of_below hmembers]
  rfl

theorem fileView_eq (h : imports.Among root files) (limit : Int) :
    fileView root imports limit =
      .ok ((keepFirst limit (ranking root imports)).map fileNode,
        fileLinksFrom imports (keepFirst limit (ranking root imports)) []
          (keepFirst limit (ranking root imports))) :=
  fileView_of_below h.members_below limit

theorem keepFirst_sublist (limit : Int) (ranked : List RankedFile) :
    (keepFirst limit ranked).Sublist ranked := by
  unfold keepFirst
  split
  · exact List.take_sublist _ _
  · exact List.take_sublist _ _

theorem keepFirst_of_length_le {n : Nat} {ranked : List RankedFile} (h : ranked.length ≤ n) :
    keepFirst n ranked = ranked := by
  rw [keepFirst, if_neg (by omega), Int.toNat_natCast, List.take_of_length_le h]

theorem mem_ranking {f : RankedFile} :
    f ∈ ranking root imports ↔ f.path ∈ imports.members ∧ f = imports.ranked root f.path := by
  rw [ranking, List.mem_mergeSort, List.mem_map]
  constructor
  · rintro ⟨p, hp, rfl⟩
    exact ⟨hp, rfl⟩
  · rintro ⟨hp, heq⟩
    exact ⟨f.path, hp, heq.symm⟩

theorem length_ranking : (ranking root imports).length = imports.members.length := by
  rw [ranking, List.length_mergeSort, List.length_map]

theorem nodup_ranking : ((ranking root imports).map (·.path)).Nodup := by
  have hperm := (List.mergeSort_perm (imports.members.map (imports.ranked root)) RankedFile.le).map (·.path)
  rw [ranking, hperm.nodup_iff, List.map_map]
  change (imports.members.map id).Nodup
  rw [List.map_id]
  exact nodup_eraseDups _

/-- No two files of a ranking share an id. -/
theorem nodup_rankingIds_of_below (hmembers : ∀ f ∈ imports.members, f.LiesBelow root) :
    ((ranking root imports).map (·.id)).Nodup := by
  refine (List.Nodup.of_map _ nodup_ranking).map_on fun a ha b hb hid => ?_
  obtain ⟨hamember, haeq⟩ := mem_ranking.mp ha
  obtain ⟨hbmember, hbeq⟩ := mem_ranking.mp hb
  rw [haeq, hbeq] at hid ⊢
  rw [Path.idBelow_inj (hmembers _ hamember) (hmembers _ hbmember) hid]

theorem nodup_rankingIds (h : imports.Among root files) : ((ranking root imports).map (·.id)).Nodup :=
  nodup_rankingIds_of_below h.members_below

theorem mem_keptTargets {kept : List RankedFile} {source f : RankedFile} :
    f ∈ keptTargets imports kept source ↔
      f ∈ kept ∧ f.path ≠ source.path ∧ f.path ∈ imports.importsOf source.path := by
  simp [keptTargets]

/-- A link is drawn from a file to a kept file it imports, unless a file before it
is this kept file and imports it. -/
theorem mem_fileLinksFrom {kept done rest : List RankedFile} {l : GraphLink} :
    l ∈ fileLinksFrom imports kept done rest ↔
      ∃ before source after, rest = before ++ source :: after ∧
        ∃ f ∈ keptTargets imports kept source, l = ⟨source.id, f.id⟩ ∧
          ∀ d, d ∈ done ∨ d ∈ before → d.path = f.path → source.path ∉ imports.importsOf f.path := by
  induction rest generalizing done with
  | nil => simp [fileLinksFrom]
  | cons s rest ih =>
    simp only [fileLinksFrom, List.mem_append, ih, List.mem_map, List.mem_filter, Bool.not_eq_true',
      List.any_eq_false, Bool.and_eq_true, beq_iff_eq, List.contains_iff_mem, not_and]
    constructor
    · rintro (⟨f, ⟨hf, hfirst⟩, rfl⟩ | ⟨before, source, after, rfl, f, hf, rfl, hfirst⟩)
      · exact ⟨[], s, rest, rfl, f, hf, rfl, fun d hd => hfirst d (hd.resolve_right List.not_mem_nil)⟩
      · refine ⟨s :: before, source, after, rfl, f, hf, rfl, fun d hd => hfirst d ?_⟩
        rw [List.mem_cons] at hd ⊢
        tauto
    · rintro ⟨before, source, after, heq, f, hf, rfl, hfirst⟩
      cases before with
      | nil =>
        obtain ⟨rfl, rfl⟩ := List.cons.inj heq
        exact .inl ⟨f, ⟨hf, fun d hd => hfirst d (.inl hd)⟩, rfl⟩
      | cons b before =>
        obtain ⟨rfl, rfl⟩ := List.cons.inj heq
        refine .inr ⟨before, source, after, rfl, f, hf, rfl, fun d hd => hfirst d ?_⟩
        rw [List.mem_cons] at hd ⊢
        tauto

section

variable {kept : List RankedFile}

/-- Every link is drawn between two kept files, from one to another that it
imports. -/
theorem exists_of_mem_fileLinksFrom {l : GraphLink} (h : l ∈ fileLinksFrom imports kept [] kept) :
    ∃ s ∈ kept, ∃ f ∈ kept, f.path ≠ s.path ∧ f.path ∈ imports.importsOf s.path ∧ l = ⟨s.id, f.id⟩ := by
  obtain ⟨before, s, after, heq, f, hf, rfl, -⟩ := mem_fileLinksFrom.mp h
  obtain ⟨hkept, hne, himports⟩ := mem_keptTargets.mp hf
  exact ⟨s, by rw [heq]; simp, f, hkept, hne, himports, rfl⟩

/-- Of two kept files of which one imports the other, one is linked to the other. -/
theorem mem_fileLinksFrom_of_imports (hnodup : (kept.map (·.path)).Nodup) {s f : RankedFile} (hs : s ∈ kept)
    (hf : f ∈ kept) (hne : f.path ≠ s.path) (himports : f.path ∈ imports.importsOf s.path) :
    ⟨s.id, f.id⟩ ∈ fileLinksFrom imports kept [] kept ∨ ⟨f.id, s.id⟩ ∈ fileLinksFrom imports kept [] kept := by
  obtain ⟨before, after, heq⟩ := List.append_of_mem hs
  by_cases hfirst : ∀ d ∈ before, d.path = f.path → s.path ∉ imports.importsOf f.path
  · have hkept : f ∈ keptTargets imports kept s := mem_keptTargets.mpr ⟨hf, hne, himports⟩
    refine .inl (mem_fileLinksFrom.mpr ⟨before, s, after, heq, f, hkept, rfl, fun d hd => hfirst d ?_⟩)
    exact hd.resolve_left List.not_mem_nil
  · push Not at hfirst
    obtain ⟨d, hd, hpath, hback⟩ := hfirst
    obtain rfl : d = f := List.inj_on_of_nodup_map hnodup (by rw [heq]; simp [hd]) hf hpath
    obtain ⟨first, between, rfl⟩ := List.append_of_mem hd
    refine .inr (mem_fileLinksFrom.mpr ⟨first, d, between ++ s :: after, ?_, s, ?_, rfl, ?_⟩)
    · rw [heq, List.append_assoc, List.cons_append]
    · exact mem_keptTargets.mpr ⟨hs, hne.symm, hback⟩
    · intro e he hsame
      rw [heq, List.append_assoc, List.map_append] at hnodup
      have hapart := List.disjoint_of_nodup_append hnodup
        (List.mem_map_of_mem (he.resolve_left List.not_mem_nil))
      exact absurd (by simp [hsame]) hapart

end

/-! ## The directory of every file -/

/-- No two files share an id. -/
theorem ImportMap.Among.nodup_ids (h : imports.Among root files) :
    ((files.mergeSort Path.le).map root.idBelow).Nodup := by
  refine ((List.mergeSort_perm files Path.le).nodup_iff.mpr h.files_nodup).map_on fun f hf g hg heq => ?_
  exact Path.idBelow_inj (h.liesBelow (List.mem_mergeSort.mp hf)) (h.liesBelow (List.mem_mergeSort.mp hg)) heq

theorem fileDirectories_eq (h : imports.Among root files) :
    fileDirectories root files =
      .ok ((files.mergeSort Path.le).map fun f => (root.idBelow f, root.keyBelow f)) := by
  have hdistinct : ((files.mergeSort Path.le).map fun f => (root.idBelow f, root.keyBelow f)).Nodup := by
    refine List.Nodup.of_map Prod.fst ?_
    rw [List.map_map]
    exact h.nodup_ids
  rw [fileDirectories, mapM_eq_ok (g := fun f => (root.idBelow f, root.keyBelow f))]
  · exact congrArg Except.ok (eraseReps_of_nodup hdistinct)
  · intro f hf
    have hbelow := h.liesBelow (List.mem_mergeSort.mp hf)
    rw [hbelow.relativeId, hbelow.directoryKey]
    rfl

end

end RepoOrbit
