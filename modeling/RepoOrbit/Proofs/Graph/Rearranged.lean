import RepoOrbit.Proofs.Graph.Views

/-!
# Imports in another order

An import map lists files, and with each file the files it imports; neither list has an
order of its own. Maps that list the same in another order (`ImportMap.Rearranged`) have the
same members, each with as many connections. So they have one directory view
(`directoryView_rearranged`), one ranking (`ranking_rearranged`) and, as the targets of a
file are sorted, the same links between the files of a ranking
(`fileLinksFrom_rearranged`).

Imports found file by file are the same in another order if the files, and the imports of
each, are (`ImportMap.rearranged_ofFiles`).
-/

namespace RepoOrbit

/-- The same imports, but for the order of the files and of the imports of each. -/
structure ImportMap.Rearranged (imports imports' : ImportMap) : Prop where
  sources : (imports.map (·.1)).Perm (imports'.map (·.1))
  importsOf (f : Path) : (imports.importsOf f).Perm (imports'.importsOf f)

theorem ImportMap.Rearranged.symm {imports imports' : ImportMap} (h : imports.Rearranged imports') :
    imports'.Rearranged imports :=
  ⟨h.sources.symm, fun f => (h.importsOf f).symm⟩

theorem ImportMap.Rearranged.trans {imports imports' imports'' : ImportMap} (h : imports.Rearranged imports')
    (h' : imports'.Rearranged imports'') : imports.Rearranged imports'' :=
  ⟨h.sources.trans h'.sources, fun f => (h.importsOf f).trans (h'.importsOf f)⟩

section

variable {root : Path} {files files' : List Path} {imports imports' : ImportMap}

theorem ImportMap.Among.countP_contains (h : imports.Among root files) (f : Path) :
    (imports.countP fun e => e.2.contains f) =
      (imports.map (·.1)).countP fun g => (imports.importsOf g).contains f := by
  rw [List.countP_map]
  refine List.countP_congr fun e he => ?_
  rw [Function.comp_apply, h.importsOf_eq he]

namespace ImportMap.Rearranged

variable (hre : imports.Rearranged imports')

include hre

theorem contains_importsOf (f g : Path) : (imports.importsOf f).contains g = (imports'.importsOf f).contains g :=
  (hre.importsOf f).contains_eq

theorem mem_members (h : imports.Among root files) (h' : imports'.Among root files') {f : Path} :
    f ∈ imports.members ↔ f ∈ imports'.members := by
  simp only [h.mem_members_iff, h'.mem_members_iff, (hre.importsOf _).mem_iff]

theorem mem_crossings (h : imports.Among root files) (h' : imports'.Among root files') {p : String × String} :
    p ∈ crossings root imports ↔ p ∈ crossings root imports' := by
  simp only [RepoOrbit.mem_crossings h, RepoOrbit.mem_crossings h', (hre.importsOf _).mem_iff]

theorem connectivity_eq (h : imports.Among root files) (h' : imports'.Among root files') (f : Path) :
    imports.connectivity f = imports'.connectivity f := by
  rw [connectivity, connectivity, (hre.importsOf f).length_eq, h.countP_contains, h'.countP_contains,
    hre.sources.countP_eq]
  simp only [hre.contains_importsOf]

/-- The directory view of files and imports in another order. -/
theorem directoryView_rearranged (h : imports.Among root files) (h' : imports'.Among root files')
    (hfiles : files.Perm files') : directoryView root files imports = directoryView root files' imports' := by
  have hkeys := hfiles.map root.keyBelow
  have hsorted : sortedTexts (files.map root.keyBelow) = sortedTexts (files'.map root.keyBelow) :=
    mergeSort_eraseReps_eq sorts_texts (fun a b => eq_of_textLe) fun k => hkeys.mem_iff
  have hlinks := mergeSort_eraseReps_eq sorts_pairLe (fun a b => eq_of_pairLe) fun p => hre.mem_crossings h h'
  simp only [directoryView_eq h, directoryView_eq h', hsorted, hkeys.count_eq, hlinks]

/-- The ranking of the members told in another order. -/
theorem ranking_rearranged (h : imports.Among root files) (h' : imports'.Among root files') :
    ranking root imports = ranking root imports' := by
  have hranked : imports.ranked root = imports'.ranked root := by
    funext f
    rw [ranked, ranked, hre.connectivity_eq h h']
  have hmembers : imports.members.Perm imports'.members :=
    (List.perm_ext_iff_of_nodup (nodup_eraseDups _) (nodup_eraseDups _)).mpr fun f => hre.mem_members h h'
  rw [ranking, ranking, hranked]
  refine mergeSort_eq_of_perm sorts_rankedFileLe (fun a ha b hb hab hba => ?_) (hmembers.map _)
  obtain ⟨f, hf, rfl⟩ := List.mem_map.mp ha
  obtain ⟨g, hg, rfl⟩ := List.mem_map.mp hb
  have hid : root.idBelow f = root.idBelow g := id_eq_of_rankedFileLe hab hba
  rw [Path.idBelow_inj (h.liesBelow (h.mem_of_mem_members hf)) (h.liesBelow (h.mem_of_mem_members hg)) hid]

theorem keptTargets_eq (kept : List RankedFile) (source : RankedFile) :
    keptTargets imports kept source = keptTargets imports' kept source := by
  simp only [keptTargets, hre.contains_importsOf]

/-- The links of the file view, drawn from imports told in another order. -/
theorem fileLinksFrom_rearranged (kept done rest : List RankedFile) :
    fileLinksFrom imports kept done rest = fileLinksFrom imports' kept done rest := by
  induction rest generalizing done with
  | nil => rfl
  | cons source rest ih =>
    simp only [fileLinksFrom, hre.keptTargets_eq, hre.contains_importsOf, ih]

end ImportMap.Rearranged

/-- The directories of files that are listed in another order. -/
theorem fileDirectories_perm (hbelow : ∀ f ∈ files, f.LiesBelow root) (hfiles : files.Perm files') :
    fileDirectories root files = fileDirectories root files' := by
  rw [fileDirectories, fileDirectories, mergeSort_eq_of_perm Path.sorts_pathLe (fun f hf g hg => ?_) hfiles]
  obtain ⟨names, -, -, rfl⟩ := hbelow f hf
  obtain ⟨names', -, -, rfl⟩ := hbelow g hg
  exact Path.eq_of_pathLe rfl

/-! ## Imports found file by file -/

namespace ImportMap

variable {found found' : Path → List Path}

theorem importsOf_ofFiles (h : (ofFiles files found).Among root files) (f : Path) :
    (ofFiles files found).importsOf f = if f ∈ files then found f else [] := by
  by_cases hf : f ∈ files ∧ found f ≠ []
  · rw [if_pos hf.1, h.importsOf_eq (mem_ofFiles.mpr ⟨hf.1, rfl, hf.2⟩)]
  · have hnone : (ofFiles files found).importsOf f = [] := by
      refine List.eq_nil_iff_forall_not_mem.mpr fun g hg => hf ?_
      obtain ⟨targets, hmem, -⟩ := h.mem_importsOf.mp hg
      exact ⟨(mem_ofFiles.mp hmem).1, (mem_ofFiles.mp hmem).2.2⟩
    rw [hnone]
    split
    · rename_i hmem
      exact (not_not.mp fun hne => hf ⟨hmem, hne⟩).symm
    · rfl

theorem rearranged_ofFiles (h : (ofFiles files found).Among root files)
    (h' : (ofFiles files' found').Among root files') (hfiles : files.Perm files')
    (hfound : ∀ f ∈ files, (found f).Perm (found' f)) : (ofFiles files found).Rearranged (ofFiles files' found') where
  sources := by
    have hempty : ∀ f ∈ files, (!(found f).isEmpty) = !(found' f).isEmpty :=
      fun f hf => congrArg not (hfound f hf).isEmpty_eq
    rw [ofFiles_sources, ofFiles_sources, List.filter_congr hempty]
    exact hfiles.filter _
  importsOf f := by
    rw [importsOf_ofFiles h, importsOf_ofFiles h']
    simp only [← hfiles.mem_iff]
    split
    · exact hfound f ‹_›
    · exact .refl _

end ImportMap

end

end RepoOrbit
