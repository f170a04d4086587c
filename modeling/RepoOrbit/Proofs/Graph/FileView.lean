import RepoOrbit.Proofs.Graph.Drawing

/-!
# The file view, exactly

The files of the view are the first ones of a strict ranking of all that import or are
imported (`ImportMap.Outranks`), and its links are one for every two of these files of which
one imports the other, from the first of them that imports the other (`ImportMap.Draws`).

`fileView_exact` says so of the view as it is made, with the imports of a file in the order of
their ids, and of links drawn in the order in which the imports are listed.
-/

namespace RepoOrbit

namespace ImportMap

/-- A file goes before another: it has more connections, or as many and the smaller id. -/
def Outranks (imports : ImportMap) (root f g : Path) : Prop :=
  imports.connectivity g < imports.connectivity f ∨
    imports.connectivity f = imports.connectivity g ∧ root.idBelow f < root.idBelow g

/-- The link of two files: from the first to the second if it imports the second, otherwise
the other way if the second imports the first. -/
def linkOf? (imports : ImportMap) (root f g : Path) : Option GraphLink :=
  if g ∈ imports.importsOf f then some ⟨root.idBelow f, root.idBelow g⟩
  else if f ∈ imports.importsOf g then some ⟨root.idBelow g, root.idBelow f⟩
  else none

/-- The links are those of every two of the files, each two linked once, and their sources
are in the order of the files. -/
structure Draws (imports : ImportMap) (root : Path) (kept : List Path) (links : List GraphLink) : Prop where
  mem_iff (l : GraphLink) : l ∈ links ↔ ∃ f g, [f, g].Sublist kept ∧ imports.linkOf? root f g = some l
  once : links.Pairwise fun l l' => orderedPair l.source l.target ≠ orderedPair l'.source l'.target
  inOrder : (links.map (·.source)).Pairwise fun a b => a = b ∨ [a, b].Sublist (kept.map root.idBelow)

/-- Imports of files below the root are among their members. -/
theorem among_members {imports : ImportMap} {root : Path}
    (hbelow : ∀ e ∈ imports, ∀ f ∈ e.1 :: e.2, f.LiesBelow root) (hsources : (imports.map (·.1)).Nodup)
    (htargets : ∀ e ∈ imports, e.2 ≠ []) : imports.Among root imports.members where
  liesBelow hf := by
    obtain ⟨e, he, hf⟩ := mem_members.mp hf
    exact hbelow e he _ (List.mem_cons.mpr hf)
  files_nodup := nodup_eraseDups _
  sources_nodup := hsources
  targets_ne_nil he := htargets _ he
  source_mem he := mem_members.mpr ⟨_, he, .inl rfl⟩
  target_mem he hf := mem_members.mpr ⟨_, he, .inr hf⟩

section

variable {imports : ImportMap} {root : Path}

theorem linkOf?_eq_some {f g : Path} {l : GraphLink} (h : imports.linkOf? root f g = some l) :
    orderedPair l.source l.target = orderedPair (root.idBelow f) (root.idBelow g) := by
  unfold linkOf? at h
  split at h
  · rw [← Option.some.inj h]
  · split at h
    · rw [← Option.some.inj h, orderedPair_comm]
    · cases h

/-- Links in another order of those of one source. -/
theorem Draws.of_sameBySource {kept : List Path} {links links' : List GraphLink} (h : imports.Draws root kept links)
    (hsame : SameBySource links' links) : imports.Draws root kept links' where
  mem_iff l := hsame.perm.mem_iff.trans (h.mem_iff l)
  once := (hsame.perm.pairwise_iff fun hne => hne.symm).mpr h.once
  inOrder := by
    rw [hsame.sources]
    exact h.inOrder

end

end ImportMap

/-! ## The ranking -/

section

variable {root : Path} {files : List Path} {imports : ImportMap}

theorem keepFirst_natCast (n : Nat) (ranked : List RankedFile) : keepFirst n ranked = ranked.take n := by
  rw [keepFirst, if_neg (by omega), Int.toNat_natCast]

theorem mem_ranked_paths {f : Path} : f ∈ (ranking root imports).map (·.path) ↔ f ∈ imports.members := by
  constructor
  · intro hf
    obtain ⟨r, hr, rfl⟩ := List.mem_map.mp hf
    exact (mem_ranking.mp hr).1
  · exact fun hf => List.mem_map.mpr ⟨imports.ranked root f, mem_ranking.mpr ⟨hf, rfl⟩, rfl⟩

theorem map_ranked_paths :
    ((ranking root imports).map (·.path)).map (imports.ranked root) = ranking root imports := by
  have hself : ∀ f ∈ ranking root imports, (imports.ranked root ∘ RankedFile.path) f = f := fun f hf =>
    (mem_ranking.mp hf).2.symm
  rw [List.map_map, List.map_congr_left hself, List.map_id']

/-- No two files of a ranking are level. -/
theorem outranks_ranking (h : imports.Among root files) :
    ((ranking root imports).map (·.path)).Pairwise (imports.Outranks root) := by
  rw [List.pairwise_map]
  have hsorted : (ranking root imports).Pairwise fun f g => f.le g := sorts_rankedFileLe.pairwise _
  refine (hsorted.and (List.pairwise_map.mp (nodup_rankingIds h))).imp_of_mem fun {f g} hf hg hle => ?_
  obtain ⟨hle, hid⟩ := hle
  rw [(mem_ranking.mp hf).2, (mem_ranking.mp hg).2] at hle hid
  rw [rankedFileLe_iff, Prod.Lex.toLex_le_toLex] at hle
  rcases hle with hmore | ⟨hlevel, hbefore⟩
  · exact .inl hmore
  · exact .inr ⟨hlevel, lt_of_le_of_ne hbefore hid⟩

/-! ## The links -/

theorem source_mem_of_mem_fileLinksFrom {kept done rest : List RankedFile} {l : GraphLink}
    (h : l ∈ fileLinksFrom imports kept done rest) : l.source ∈ rest.map (·.id) := by
  obtain ⟨before, s, after, rfl, f, -, rfl, -⟩ := mem_fileLinksFrom.mp h
  exact List.mem_map.mpr ⟨s, by simp, rfl⟩

theorem nodup_fileLinksFrom {kept done rest : List RankedFile} (hkept : (kept.map (·.id)).Nodup)
    (hrest : (rest.map (·.id)).Nodup) : (fileLinksFrom imports kept done rest).Nodup := by
  induction rest generalizing done with
  | nil => exact List.nodup_nil
  | cons s rest ih =>
    obtain ⟨hs, hrest⟩ := List.nodup_cons.mp hrest
    have htargets : (keptTargets imports kept s).Nodup :=
      (List.mergeSort_perm _ _).nodup_iff.mpr ((List.Nodup.of_map _ hkept).filter _)
    rw [fileLinksFrom]
    refine List.Nodup.append ((htargets.filter _).map_on fun f hf g hg heq => ?_) (ih hrest) fun l hl hlater => ?_
    · have hf := (mem_keptTargets.mp (List.mem_filter.mp hf).1).1
      have hg := (mem_keptTargets.mp (List.mem_filter.mp hg).1).1
      exact List.inj_on_of_nodup_map hkept hf hg (GraphLink.mk.inj heq).2
    · obtain ⟨f, -, rfl⟩ := List.mem_map.mp hl
      exact hs (source_mem_of_mem_fileLinksFrom hlater)

theorem sources_fileLinksFrom {kept done rest : List RankedFile} :
    ((fileLinksFrom imports kept done rest).map (·.source)).Pairwise
      fun a b => a = b ∨ [a, b].Sublist (rest.map (·.id)) := by
  induction rest generalizing done with
  | nil => exact .nil
  | cons s rest ih =>
    have hown : ∀ {targets : List RankedFile},
        ∀ a ∈ (targets.map fun f => GraphLink.mk s.id f.id).map (·.source), a = s.id := by
      intro targets a ha
      rw [List.map_map] at ha
      obtain ⟨f, -, rfl⟩ := List.mem_map.mp ha
      rfl
    rw [fileLinksFrom, List.map_append, List.pairwise_append]
    refine ⟨List.pairwise_of_forall_mem_list fun a ha b hb => ?_, ih.imp fun h => ?_, fun a ha b hb => ?_⟩
    · exact .inl ((hown a ha).trans (hown b hb).symm)
    · exact h.imp_right fun hpair => hpair.cons _
    · obtain ⟨l, hl, rfl⟩ := List.mem_map.mp hb
      rw [hown a ha]
      exact .inr ((List.singleton_sublist.mpr (source_mem_of_mem_fileLinksFrom hl)).cons_cons _)

section

variable {kept : List RankedFile} (hid : ∀ f ∈ kept, f.id = root.idBelow f.path)

include hid

theorem map_id_eq : kept.map (·.id) = (kept.map (·.path)).map root.idBelow := by
  rw [List.map_map]
  exact List.map_congr_left hid

/-- A link is that of two files: its source comes first, or its target does without importing
the source. -/
theorem exists_linkOf?_of_mem {l : GraphLink} (h : l ∈ fileLinksFrom imports kept [] kept) :
    ∃ f g, [f, g].Sublist (kept.map (·.path)) ∧ imports.linkOf? root f g = some l := by
  obtain ⟨before, s, after, heq, f, hf, rfl, hfirst⟩ := mem_fileLinksFrom.mp h
  obtain ⟨hkept, hne, himports⟩ := mem_keptTargets.mp hf
  have hs : s ∈ kept := by rw [heq]; simp
  have hplace : f ∈ before ∨ f ∈ after := by
    rw [heq, List.mem_append, List.mem_cons] at hkept
    exact hkept.imp_right fun h => h.resolve_left fun hsame => hne (congrArg _ hsame)
  rw [hid s hs, hid f hkept]
  rcases hplace with hbefore | hafter
  · have hpair : [f, s].Sublist kept :=
      pair_sublist_iff.mpr ⟨before, s :: after, heq, hbefore, List.mem_cons_self⟩
    refine ⟨f.path, s.path, hpair.map RankedFile.path, ?_⟩
    rw [ImportMap.linkOf?, if_neg (hfirst f (.inr hbefore) rfl), if_pos himports]
  · have hpair : [s, f].Sublist kept := by
      rw [heq]
      exact .trans (.cons_cons s (List.singleton_sublist.mpr hafter)) (List.sublist_append_right _ _)
    refine ⟨s.path, f.path, hpair.map RankedFile.path, ?_⟩
    rw [ImportMap.linkOf?, if_pos himports]

variable (hpaths : (kept.map (·.path)).Nodup)

include hpaths

/-- The link of two files is drawn: from the first, which nothing before it is, or from the
second, which the first does not import. -/
theorem mem_of_linkOf? {f g : RankedFile} (hpair : [f, g].Sublist kept) {l : GraphLink}
    (hlink : imports.linkOf? root f.path g.path = some l) : l ∈ fileLinksFrom imports kept [] kept := by
  obtain ⟨first, last, hkept, hf, hg⟩ := pair_sublist_iff.mp hpair
  have hapart : ∀ d ∈ first, d.path ≠ g.path := by
    rw [hkept, List.map_append] at hpaths
    exact fun d hd hsame =>
      List.disjoint_of_nodup_append hpaths (List.mem_map_of_mem hd) (hsame ▸ List.mem_map_of_mem hg)
  have hf' : f ∈ kept := by simp [hkept, hf]
  have hg' : g ∈ kept := by simp [hkept, hg]
  rw [ImportMap.linkOf?, ← hid f hf', ← hid g hg'] at hlink
  rw [mem_fileLinksFrom]
  split at hlink
  · rename_i himports
    obtain ⟨before, between, rfl⟩ := List.append_of_mem hf
    refine ⟨before, f, between ++ last, by simp [hkept], g, ?_, (Option.some.inj hlink).symm, ?_⟩
    · exact mem_keptTargets.mpr ⟨hg', (hapart f hf).symm, himports⟩
    · intro d hd hsame
      exact absurd hsame (hapart d (by simpa using .inl (hd.resolve_left List.not_mem_nil)))
  · rename_i hnot
    split at hlink
    · rename_i himports
      obtain ⟨between, after, rfl⟩ := List.append_of_mem hg
      refine ⟨first ++ between, g, after, by simp [hkept], f, ?_, (Option.some.inj hlink).symm, fun _ _ _ => hnot⟩
      exact mem_keptTargets.mpr ⟨hf', hapart f hf, himports⟩
    · cases hlink

/-- Two files are linked exactly by the link of the first and the second. -/
theorem mem_fileLinksFrom_iff {l : GraphLink} :
    l ∈ fileLinksFrom imports kept [] kept ↔
      ∃ f g, [f, g].Sublist (kept.map (·.path)) ∧ imports.linkOf? root f g = some l := by
  refine ⟨exists_linkOf?_of_mem hid, ?_⟩
  rintro ⟨p, q, hpair, hlink⟩
  obtain ⟨pair, hsublist, heq⟩ := List.sublist_map_iff.mp hpair
  match pair, heq with
  | [f, g], heq =>
    obtain ⟨rfl, rfl⟩ : p = f.path ∧ q = g.path := by simpa using heq
    exact mem_of_linkOf? hid hpaths hsublist hlink

/-- The links of kept files are those of every two of them. -/
theorem draws_fileLinksFrom (hids : (kept.map (·.id)).Nodup) :
    imports.Draws root (kept.map (·.path)) (fileLinksFrom imports kept [] kept) where
  mem_iff _ := mem_fileLinksFrom_iff hid hpaths
  once := by
    have hinj := List.inj_on_of_nodup_map (map_id_eq hid ▸ hids)
    refine (nodup_fileLinksFrom hids hids).pairwise_of_forall_ne fun l hl l' hl' hne hsame => hne ?_
    obtain ⟨f, g, hpair, hlink⟩ := (mem_fileLinksFrom_iff hid hpaths).mp hl
    obtain ⟨f', g', hpair', hlink'⟩ := (mem_fileLinksFrom_iff hid hpaths).mp hl'
    have hmem : ∀ p ∈ [f, g], p ∈ kept.map (·.path) := fun p hp => hpair.subset hp
    have hmem' : ∀ p ∈ [f', g'], p ∈ kept.map (·.path) := fun p hp => hpair'.subset hp
    rw [ImportMap.linkOf?_eq_some hlink, ImportMap.linkOf?_eq_some hlink', orderedPair_eq_iff] at hsame
    rcases hsame with ⟨hf, hg⟩ | ⟨hf, hg⟩
    · obtain rfl := hinj (hmem f (by simp)) (hmem' f' (by simp)) hf
      obtain rfl := hinj (hmem g (by simp)) (hmem' g' (by simp)) hg
      exact Option.some.inj (hlink.symm.trans hlink')
    · obtain rfl := hinj (hmem f (by simp)) (hmem' g' (by simp)) hf
      obtain rfl := hinj (hmem g (by simp)) (hmem' f' (by simp)) hg
      exact absurd hpair' (not_pair_sublist_swap hpaths hpair)
  inOrder := by
    rw [← map_id_eq hid]
    exact sources_fileLinksFrom

end

end

/-! ## The view -/

theorem ImportMap.nodup_importsOf {imports : ImportMap} (hsets : ∀ e ∈ imports, e.2.Nodup) (f : Path) :
    (imports.importsOf f).Nodup := by
  rw [ImportMap.importsOf]
  cases hlookup : imports.lookup f with
  | none => exact List.nodup_nil
  | some targets =>
    obtain ⟨before, after, himports, -⟩ := List.lookup_eq_some_iff.mp hlookup
    exact hsets (f, targets) (by simp [himports])

/-- The view of the imports of files below a root has the nodes of the first files of a strict
ranking of all that import or are imported, and one link for every two of them of which one
imports the other. Links drawn in the order in which the imports are listed are such, too. -/
theorem fileView_exact {root : Path} {imports : ImportMap}
    (hbelow : ∀ e ∈ imports, ∀ f ∈ e.1 :: e.2, f.LiesBelow root) (hsources : (imports.map (·.1)).Nodup)
    (hsets : ∀ e ∈ imports, e.2.Nodup) (htargets : ∀ e ∈ imports, e.2 ≠ []) (limit : Nat) :
    ∃ (ranked : List Path) (links : List GraphLink), (∀ f, f ∈ ranked ↔ ∃ e ∈ imports, f = e.1 ∨ f ∈ e.2) ∧
      ranked.Pairwise (imports.Outranks root) ∧
      fileView root imports limit = .ok (((ranked.take limit).map (imports.ranked root)).map fileNode, links) ∧
      imports.Draws root (ranked.take limit) links ∧
      imports.Draws root (ranked.take limit) (drawLinks imports ((ranked.take limit).map (imports.ranked root))) := by
  have h := ImportMap.among_members hbelow hsources htargets
  have hkept : ((ranking root imports).take limit).Sublist (ranking root imports) := List.take_sublist _ _
  have hpaths := nodup_ranking.sublist (hkept.map (·.path))
  have hids := (nodup_rankingIds h).sublist (hkept.map (·.id))
  have hid : ∀ f ∈ (ranking root imports).take limit, f.id = root.idBelow f.path := fun f hf =>
    congrArg RankedFile.id (mem_ranking.mp (hkept.subset hf)).2
  have hranked : (((ranking root imports).map (·.path)).take limit).map (imports.ranked root) =
      (ranking root imports).take limit := by
    rw [List.map_take, map_ranked_paths]
  have hdraws : imports.Draws root _ _ := draws_fileLinksFrom hid hpaths hids
  have hsame := drawLinks_sameBySource hpaths hids (ImportMap.nodup_importsOf hsets)
  refine ⟨(ranking root imports).map (·.path), fileLinksFrom imports ((ranking root imports).take limit) []
    ((ranking root imports).take limit), fun f => ?_, outranks_ranking h, ?_, ?_, ?_⟩
  · rw [mem_ranked_paths, ImportMap.mem_members]
  · rw [fileView_eq h, keepFirst_natCast, hranked]
  · rw [← List.map_take]
    exact hdraws
  · rw [hranked, ← List.map_take]
    exact hdraws.of_sameBySource hsame

/-- Four files: one that imports itself, one it imports and is imported by, and one that ties
with this. -/
def mutualImports : ImportMap :=
  let file (name : String) : Path := ⟨.slash, ["src", name]⟩
  [(file "app.js", [file "app.js", file "bar.js"]), (file "bar.js", [file "app.js"]),
    (file "car.js", [file "app.js", file "dot.js"])]

theorem fileView_exact_mutualImports :
    ∃ (ranked : List Path) (links : List GraphLink), (∀ f, f ∈ ranked ↔ ∃ e ∈ mutualImports, f = e.1 ∨ f ∈ e.2) ∧
      ranked.Pairwise (mutualImports.Outranks ⟨.slash, ["src"]⟩) ∧
      fileView ⟨.slash, ["src"]⟩ mutualImports 3 =
        .ok (((ranked.take 3).map (mutualImports.ranked ⟨.slash, ["src"]⟩)).map fileNode, links) ∧
      mutualImports.Draws ⟨.slash, ["src"]⟩ (ranked.take 3) links ∧
      mutualImports.Draws ⟨.slash, ["src"]⟩ (ranked.take 3)
        (drawLinks mutualImports ((ranked.take 3).map (mutualImports.ranked ⟨.slash, ["src"]⟩))) := by
  refine fileView_exact (fun e he f hf => ?_) (by decide) (by decide) (by decide) 3
  have hname : ∃ name, '/' ∉ name.toList ∧ f = ⟨.slash, ["src", name]⟩ := by
    simp only [mutualImports, List.mem_cons, List.not_mem_nil, or_false] at he
    rcases he with rfl | rfl | rfl <;> simp only [List.mem_cons, List.not_mem_nil, or_false] at hf <;>
      rcases hf with rfl | rfl | rfl <;> exact ⟨_, by decide, rfl⟩
  obtain ⟨name, hname, rfl⟩ := hname
  exact ⟨[name], by simp, by simpa using hname, rfl⟩

end RepoOrbit
