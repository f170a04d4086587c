import RepoOrbit.Proofs.Graph.Views

/-!
# Drawing links in the order of the imports

The imports of a file have no order of their own. `drawLinks` takes them as they are listed
and remembers which files are linked by now (`Drawing`); the file view sorts them
(`fileLinksFrom`). The links are the same, but for the order of those of one source
(`drawLinks_sameBySource`): when the turn comes to a source, the pairs that are linked are
those of the files before it and of what these import (`Drawing.Shows`), so it is linked
with what it imports unless it was imported from there. `drawnFileView` is the file view with its links drawn so.
-/

namespace RepoOrbit

/-- The same links, but for the order of those of one source. -/
structure SameBySource (links links' : List GraphLink) : Prop where
  sources : links.map (·.source) = links'.map (·.source)
  perm : links.Perm links'

namespace SameBySource

variable {a b c a' b' : List GraphLink}

theorem refl (a : List GraphLink) : SameBySource a a := ⟨rfl, .refl a⟩

theorem symm (h : SameBySource a b) : SameBySource b a := ⟨h.sources.symm, h.perm.symm⟩

theorem trans (h : SameBySource a b) (h' : SameBySource b c) : SameBySource a c :=
  ⟨h.sources.trans h'.sources, h.perm.trans h'.perm⟩

theorem append (h : SameBySource a b) (h' : SameBySource a' b') : SameBySource (a ++ a') (b ++ b') where
  sources := by rw [List.map_append, List.map_append, h.sources, h'.sources]
  perm := h.perm.append h'.perm

/-- Links of one source to targets in another order. -/
theorem of_perm (source : RankedFile) {targets targets' : List RankedFile} (h : targets.Perm targets') :
    SameBySource (targets.map fun f => ⟨source.id, f.id⟩) (targets'.map fun f => ⟨source.id, f.id⟩) where
  sources := by simp [Function.comp_def, List.map_const', h.length_eq]
  perm := h.map _

end SameBySource

/-- Links as they are drawn: the ids that are linked by now, in pairs, and the links. -/
structure Drawing where
  linked : List (String × String)
  links : List GraphLink

namespace Drawing

/-- Whether a file is neither the source itself nor linked with it. -/
def isFresh (d : Drawing) (source f : RankedFile) : Bool :=
  f.path != source.path && !d.linked.contains (orderedPair source.id f.id)

/-- Link a file with a fresh one. -/
def link (source : RankedFile) (d : Drawing) (f : RankedFile) : Drawing :=
  if d.isFresh source f then ⟨orderedPair source.id f.id :: d.linked, d.links ++ [⟨source.id, f.id⟩]⟩ else d

/-- Take up one import of a file, if it is of a kept file. -/
def take (kept : List RankedFile) (source : RankedFile) (d : Drawing) (target : Path) : Drawing :=
  match kept.find? (·.path == target) with
  | some f => d.link source f
  | none => d

/-- Take up the imports of a file as they are listed. -/
def takeAll (imports : ImportMap) (kept : List RankedFile) (d : Drawing) (source : RankedFile) : Drawing :=
  (imports.importsOf source.path).foldl (take kept source) d

end Drawing

/-- The links among the kept files, drawn file by file. -/
def drawLinks (imports : ImportMap) (kept : List RankedFile) : List GraphLink :=
  (kept.foldl (Drawing.takeAll imports kept) ⟨[], []⟩).links

/-- The file view with its links drawn in the order in which the imports are listed. -/
def drawnFileView (root : Path) (imports : ImportMap) (limit : Int) :
    Except NotBelow (List GraphNode × List GraphLink) := do
  let kept := keepFirst limit (← rankedFiles root imports)
  return (kept.map fileNode, drawLinks imports kept)

theorem drawnFileView_of_below {root : Path} {imports : ImportMap}
    (hmembers : ∀ f ∈ imports.members, f.LiesBelow root) (limit : Int) :
    drawnFileView root imports limit =
      .ok ((keepFirst limit (ranking root imports)).map fileNode,
        drawLinks imports (keepFirst limit (ranking root imports))) := by
  rw [drawnFileView, rankedFiles_of_below hmembers]
  rfl

/-! ## Linking one file with others -/

theorem orderedPair_comm (a b : String) : orderedPair a b = orderedPair b a := by
  unfold orderedPair
  split
  · rename_i hab
    split
    · rename_i hba
      rw [String.le_antisymm hab hba]
    · rfl
  · rename_i hab
    rw [if_pos ((String.le_total a b).resolve_left hab)]

/-- Pairs are the same if they are of the same two. -/
theorem orderedPair_eq_iff {a b a' b' : String} :
    orderedPair a b = orderedPair a' b' ↔ a = a' ∧ b = b' ∨ a = b' ∧ b = a' := by
  constructor
  · intro h
    rcases orderedPair_cases a b with hab | hab <;> rcases orderedPair_cases a' b' with hab' | hab' <;>
      rw [hab, hab', Prod.mk.injEq] at h <;> tauto
  · rintro (⟨rfl, rfl⟩ | ⟨rfl, rfl⟩)
    · rfl
    · exact orderedPair_comm a b

namespace Drawing

variable {source : RankedFile}

theorem isFresh_iff {d : Drawing} {f : RankedFile} :
    d.isFresh source f ↔ f.path ≠ source.path ∧ orderedPair source.id f.id ∉ d.linked := by
  simp [isFresh]

theorem mem_linked_link {d : Drawing} {f : RankedFile} {p : String × String} :
    p ∈ (d.link source f).linked ↔ p ∈ d.linked ∨ f.path ≠ source.path ∧ p = orderedPair source.id f.id := by
  unfold link
  split
  · rename_i hfresh
    have hne := (isFresh_iff.mp hfresh).1
    rw [List.mem_cons]
    tauto
  · rename_i hfresh
    refine ⟨.inl, fun h => h.elim id ?_⟩
    rintro ⟨hne, rfl⟩
    exact not_not.mp fun hnot => hfresh (isFresh_iff.mpr ⟨hne, hnot⟩)

theorem mem_linked_foldl {d : Drawing} {files : List RankedFile} {p : String × String} :
    p ∈ (files.foldl (link source) d).linked ↔
      p ∈ d.linked ∨ ∃ f ∈ files, f.path ≠ source.path ∧ p = orderedPair source.id f.id := by
  induction files generalizing d with
  | nil => simp
  | cons f files ih => rw [List.foldl_cons, ih, mem_linked_link, List.exists_mem_cons_iff, or_assoc]

/-- To link a file says nothing of files with other ids. -/
theorem isFresh_link {d : Drawing} {f g : RankedFile} (h : g.id ≠ f.id) :
    (d.link source f).isFresh source g = d.isFresh source g := by
  have hpair : orderedPair source.id g.id ≠ orderedPair source.id f.id := by
    rw [Ne, orderedPair_eq_iff]
    rintro (⟨-, heq⟩ | ⟨hsource, heq⟩)
    · exact h heq
    · exact h (heq.trans hsource)
  rw [Bool.eq_iff_iff, isFresh_iff, isFresh_iff, mem_linked_link]
  tauto

/-- Files of different ids are linked in turn, those that were fresh before. -/
theorem links_foldl {d : Drawing} {files : List RankedFile} (h : (files.map (·.id)).Nodup) :
    (files.foldl (link source) d).links =
      d.links ++ (files.filter (d.isFresh source)).map fun f => ⟨source.id, f.id⟩ := by
  induction files generalizing d with
  | nil => simp
  | cons f files ih =>
    obtain ⟨hf, hfiles⟩ := List.nodup_cons.mp h
    have hsame : files.filter ((d.link source f).isFresh source) = files.filter (d.isFresh source) :=
      List.filter_congr fun g hg => isFresh_link fun heq => hf (List.mem_map.mpr ⟨g, hg, heq⟩)
    rw [List.foldl_cons, ih hfiles, hsame, List.filter_cons, link]
    split
    · rw [List.map_cons, List.append_assoc, List.singleton_append]
    · rfl

end Drawing

/-! ## Linking every file -/

section

variable {imports : ImportMap} {kept done rest : List RankedFile} {source f : RankedFile} {d : Drawing}

/-- The kept files that a file imports, in the order of the imports. -/
def importedFiles (imports : ImportMap) (kept : List RankedFile) (source : RankedFile) : List RankedFile :=
  (imports.importsOf source.path).filterMap fun g => kept.find? (·.path == g)

theorem Drawing.takeAll_eq (d : Drawing) :
    d.takeAll imports kept source = (importedFiles imports kept source).foldl (link source) d := by
  rw [takeAll, importedFiles, List.foldl_filterMap]
  congr 1
  funext d g
  rw [take]
  cases kept.find? (·.path == g) <;> rfl

theorem path_of_find? {g : Path} (h : kept.find? (·.path == g) = some f) : f ∈ kept ∧ f.path = g :=
  ⟨List.mem_of_find?_eq_some h, by simpa using List.find?_some h⟩

theorem mem_importedFiles (hpaths : (kept.map (·.path)).Nodup) :
    f ∈ importedFiles imports kept source ↔ f ∈ kept ∧ f.path ∈ imports.importsOf source.path := by
  rw [importedFiles, List.mem_filterMap]
  constructor
  · rintro ⟨g, hg, hfind⟩
    obtain ⟨hkept, rfl⟩ := path_of_find? hfind
    exact ⟨hkept, hg⟩
  · rintro ⟨hkept, himports⟩
    refine ⟨f.path, himports, ?_⟩
    cases hfind : kept.find? (·.path == f.path) with
    | none => exact absurd (List.find?_eq_none.mp hfind f hkept) (by simp)
    | some g =>
      obtain ⟨hg, hpath⟩ := path_of_find? hfind
      rw [List.inj_on_of_nodup_map hpaths hg hkept hpath]

theorem nodup_importedFiles (himports : (imports.importsOf source.path).Nodup) :
    (importedFiles imports kept source).Nodup := by
  refine himports.filterMap fun g g' f hf hf' => ?_
  exact (path_of_find? hf).2.symm.trans (path_of_find? hf').2

/-- The targets of a file are the kept files it imports, itself excepted. -/
theorem importedFiles_perm (hpaths : (kept.map (·.path)).Nodup) (himports : (imports.importsOf source.path).Nodup) :
    ((importedFiles imports kept source).filter (·.path != source.path)).Perm (keptTargets imports kept source) := by
  have htargets : (keptTargets imports kept source).Nodup :=
    (List.mergeSort_perm _ _).nodup_iff.mpr ((List.Nodup.of_map _ hpaths).filter _)
  refine (List.perm_ext_iff_of_nodup ((nodup_importedFiles himports).filter _) htargets).mpr fun f => ?_
  rw [List.mem_filter, mem_importedFiles hpaths, mem_keptTargets, bne_iff_ne]
  tauto

/-- Whether a file is among those before a source and imports it. -/
def importedBefore (imports : ImportMap) (done : List RankedFile) (source f : RankedFile) : Bool :=
  done.any fun s => s.path == f.path && (imports.importsOf f.path).contains source.path

theorem importedBefore_iff :
    importedBefore imports done source f ↔
      ∃ s ∈ done, s.path = f.path ∧ source.path ∈ imports.importsOf f.path := by
  simp [importedBefore]

/-- The pairs that are linked are those of the files `done` and what they import. -/
def Drawing.Shows (imports : ImportMap) (kept done : List RankedFile) (d : Drawing) : Prop :=
  ∀ p, p ∈ d.linked ↔ ∃ s ∈ done, ∃ f ∈ keptTargets imports kept s, p = orderedPair s.id f.id

namespace Drawing.Shows

theorem start : Shows imports kept [] ⟨[], []⟩ := by simp [Shows]

section

variable (hpaths : (kept.map (·.path)).Nodup) (hids : (kept.map (·.id)).Nodup)

include hpaths hids

/-- When its turn comes, a file is linked with what it imports, unless that imported it
before. -/
theorem isFresh_eq (hd : d.Shows imports kept done) (hperm : (source :: rest ++ done).Perm kept)
    (hf : f ∈ keptTargets imports kept source) :
    d.isFresh source f = !importedBefore imports done source f := by
  obtain ⟨hkept, hne, -⟩ := mem_keptTargets.mp hf
  have hsource : source ∈ kept := hperm.mem_iff.mp (by simp)
  have hdone : ∀ s ∈ done, s ∈ kept := fun s hs => hperm.mem_iff.mp (by simp [hs])
  have hnot : source ∉ done := by
    have hnodup := hperm.nodup_iff.mpr (List.Nodup.of_map _ hids)
    rw [List.cons_append] at hnodup
    exact fun hmem => (List.nodup_cons.mp hnodup).1 (List.mem_append_right _ hmem)
  have hlinked : orderedPair source.id f.id ∈ d.linked ↔ importedBefore imports done source f := by
    rw [hd, importedBefore_iff]
    constructor
    · rintro ⟨s, hs, g, hg, heq⟩
      obtain ⟨hgkept, -, himports⟩ := mem_keptTargets.mp hg
      rcases orderedPair_eq_iff.mp heq with ⟨hid, -⟩ | ⟨hid, hid'⟩
      · exact absurd hs (List.inj_on_of_nodup_map hids hsource (hdone s hs) hid ▸ hnot)
      · obtain rfl := List.inj_on_of_nodup_map hids hsource hgkept hid
        obtain rfl := List.inj_on_of_nodup_map hids hkept (hdone s hs) hid'
        exact ⟨f, hs, rfl, himports⟩
    · rintro ⟨s, hs, hpath, himports⟩
      obtain rfl := List.inj_on_of_nodup_map hpaths (hdone s hs) hkept hpath
      exact ⟨s, hs, source, mem_keptTargets.mpr ⟨hsource, hne.symm, himports⟩, orderedPair_comm _ _⟩
  rw [Bool.eq_iff_iff, isFresh_iff, hlinked, Bool.not_eq_true', Bool.not_eq_true, and_iff_right hne]

variable (himports : ∀ f, (imports.importsOf f).Nodup)

include himports

omit hids in
/-- After its turn a file counts among those whose imports are linked. -/
theorem takeAll (hd : d.Shows imports kept done) (source : RankedFile) :
    (d.takeAll imports kept source).Shows imports kept (source :: done) := by
  intro p
  have hmem : (∃ f ∈ importedFiles imports kept source, f.path ≠ source.path ∧ p = orderedPair source.id f.id) ↔
      ∃ f ∈ keptTargets imports kept source, p = orderedPair source.id f.id := by
    simp only [← (importedFiles_perm hpaths (himports source.path)).mem_iff, List.mem_filter, bne_iff_ne, and_assoc]
  rw [takeAll_eq, mem_linked_foldl, hd, hmem, List.exists_mem_cons_iff, or_comm]

/-- The links that are drawn when it is a file's turn. -/
theorem links_takeAll (hd : d.Shows imports kept done) (hperm : (source :: rest ++ done).Perm kept) :
    SameBySource (d.takeAll imports kept source).links
      (d.links ++ ((keptTargets imports kept source).filter fun f => !importedBefore imports done source f).map
        fun f => ⟨source.id, f.id⟩) := by
  have hfound : ((importedFiles imports kept source).map (·.id)).Nodup :=
    (nodup_importedFiles (himports source.path)).map_on fun f hf g hg =>
      List.inj_on_of_nodup_map hids ((mem_importedFiles hpaths).mp hf).1 ((mem_importedFiles hpaths).mp hg).1
  have hfresh : (importedFiles imports kept source).filter (d.isFresh source) =
      ((importedFiles imports kept source).filter (·.path != source.path)).filter (d.isFresh source) := by
    rw [List.filter_filter]
    exact List.filter_congr fun f _ => by simp [isFresh, Bool.and_comm]
  rw [takeAll_eq, links_foldl hfound, hfresh,
    ← List.filter_congr fun f hf => hd.isFresh_eq hpaths hids hperm hf]
  exact (SameBySource.refl d.links).append
    (.of_perm source ((importedFiles_perm hpaths (himports source.path)).filter _))

/-- The links that are drawn from some files on. -/
theorem links_foldl_takeAll (hd : d.Shows imports kept done) (hperm : (rest ++ done).Perm kept) :
    SameBySource (rest.foldl (Drawing.takeAll imports kept) d).links
      (d.links ++ fileLinksFrom imports kept done rest) := by
  induction rest generalizing d done with
  | nil => simpa [fileLinksFrom] using SameBySource.refl d.links
  | cons source rest ih =>
    have hturn := hd.links_takeAll hpaths hids himports hperm
    have hlater := ih (hd.takeAll hpaths himports source) (List.perm_middle.trans hperm)
    rw [List.foldl_cons, fileLinksFrom, ← List.append_assoc]
    exact hlater.trans (hturn.append (.refl _))

end

end Drawing.Shows

/-- The links among the kept files, however their imports are listed. -/
theorem drawLinks_sameBySource (hpaths : (kept.map (·.path)).Nodup) (hids : (kept.map (·.id)).Nodup)
    (himports : ∀ f, (imports.importsOf f).Nodup) :
    SameBySource (drawLinks imports kept) (fileLinksFrom imports kept [] kept) := by
  have hperm : (kept ++ []).Perm kept := .of_eq (List.append_nil kept)
  exact Drawing.Shows.start.links_foldl_takeAll hpaths hids himports hperm

end

end RepoOrbit
