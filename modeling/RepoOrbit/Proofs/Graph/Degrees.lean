import Mathlib.Algebra.BigOperators.Group.List.Basic
import RepoOrbit.Proofs.Graph.FileView
import RepoOrbit.Proofs.Graph.Rearranged

/-!
# Connections and link ends

The connections of a file are counted over its imports and those who import it
(`ImportMap.connectivity`), the link ends of an id over the links of a view (`degreeOf`). Both
count other files: the neighbours of a file are linked with it once (`degreeOf_eq_countP`), and
to its connections those that import each other add one more, as a file that imports itself adds two
(`ImportMap.Among.connectivity_eq`).

`degrees_account` says so of the file view of every import map, however the links are drawn: with
room for all files the two differ by just that, with less room a file has no more link ends
than connections. All connections are twice the imports, as all link ends are twice the links.
-/

namespace RepoOrbit

/-- How many link ends an id has; an id without any is not counted. -/
def degreeOf (links : List GraphLink) (id : String) : Nat := ((connectionCounts links).lookup id).getD 0

namespace ImportMap

/-- Whether a file is another one than `f` that `f` imports or that imports `f`. -/
def isNeighbour (imports : ImportMap) (f g : Path) : Bool :=
  g != f && ((imports.importsOf f).contains g || (imports.importsOf g).contains f)

/-- Whether a file is another one than `f` that `f` imports and that imports `f`. -/
def isPartner (imports : ImportMap) (f g : Path) : Bool :=
  g != f && ((imports.importsOf f).contains g && (imports.importsOf g).contains f)

/-- The files shown have no more link ends than connections. If all members are shown, the
connections of a file are its link ends, one more for each of its imports that imports it, too,
and two more if it imports itself. -/
structure Accounts (imports : ImportMap) (root : Path) (shown : List Path) (links : List GraphLink) : Prop where
  sum_eq : ((connectionCounts links).map (·.2)).sum = 2 * links.length
  degree_le {f : Path} : f ∈ shown → degreeOf links (root.idBelow f) ≤ imports.connectivity f
  connectivity_eq {f : Path} : (∀ g ∈ imports.members, g ∈ shown) → f ∈ shown →
    imports.connectivity f = degreeOf links (root.idBelow f) + (imports.importsOf f).countP (imports.isPartner f) +
      if f ∈ imports.importsOf f then 2 else 0

end ImportMap

section

variable {root : Path} {files kept : List Path} {imports : ImportMap} {links : List GraphLink} {f g : Path}

/-! ## Link ends -/

theorem degreeOf_eq_count (links : List GraphLink) (id : String) :
    degreeOf links id = (links.flatMap fun l => [l.source, l.target]).count id := by
  rw [degreeOf, connectionCounts]
  generalize (links.flatMap fun l => [l.source, l.target]) = ends
  by_cases hid : id ∈ ends
  · have hkeys : ((ends.eraseDups.map fun id => (id, ends.count id)).map (·.1)).Nodup := by
      rw [List.map_map]
      exact (List.map_id ends.eraseDups).symm ▸ nodup_eraseDups ends
    rw [lookup_eq_some_of_mem hkeys (List.mem_map.mpr ⟨id, List.mem_eraseDups.mpr hid, rfl⟩), Option.getD_some]
  · have hnone : (ends.eraseDups.map fun id => (id, ends.count id)).lookup id = none := by
      rw [List.lookup_eq_none_iff]
      intro e he
      obtain ⟨id', hid', rfl⟩ := List.mem_map.mp he
      rw [bne_iff_ne]
      rintro rfl
      exact hid (List.mem_eraseDups.mp hid')
    rw [hnone, Option.getD_none, List.count_eq_zero.mpr hid]

/-- Every link has two ends. -/
theorem sum_connectionCounts (links : List GraphLink) :
    ((connectionCounts links).map (·.2)).sum = 2 * links.length := by
  have hends : (links.flatMap fun l => [l.source, l.target]).length = 2 * links.length := by
    simp [List.length_flatMap, Nat.mul_comm]
  rw [connectionCounts, List.map_map, ← hends]
  exact sum_count_eq_length (nodup_eraseDups _) fun a ha => List.mem_eraseDups.mpr ha

namespace ImportMap

theorem isNeighbour_iff : imports.isNeighbour f g ↔ g ≠ f ∧ (g ∈ imports.importsOf f ∨ f ∈ imports.importsOf g) := by
  simp [isNeighbour]

theorem isNeighbour_comm : imports.isNeighbour f g = imports.isNeighbour g f := by
  rw [isNeighbour, isNeighbour, bne_comm, Bool.or_comm]

theorem exists_linkOf? (root : Path) (h : imports.isNeighbour f g) : ∃ l, imports.linkOf? root f g = some l := by
  unfold linkOf?
  split
  · exact ⟨_, rfl⟩
  · rename_i hnot
    rw [if_pos ((isNeighbour_iff.mp h).2.resolve_left hnot)]
    exact ⟨_, rfl⟩

theorem isNeighbour_of_linkOf? {l : GraphLink} (h : imports.linkOf? root f g = some l) (hne : g ≠ f) :
    imports.isNeighbour f g := by
  refine isNeighbour_iff.mpr ⟨hne, ?_⟩
  unfold linkOf? at h
  split at h
  · exact .inl ‹_›
  · split at h
    · exact .inr ‹_›
    · cases h

end ImportMap

theorem mem_ends_iff {l : GraphLink} {a b id : String} (h : orderedPair l.source l.target = orderedPair a b) :
    id ∈ [l.source, l.target] ↔ id = a ∨ id = b := by
  rw [List.mem_pair]
  rcases orderedPair_eq_iff.mp h with ⟨hsource, htarget⟩ | ⟨hsource, htarget⟩
  · rw [hsource, htarget]
  · rw [hsource, htarget, or_comm]

section

variable (hdraws : imports.Draws root kept links) (hkept : kept.Nodup)
  (hinj : ∀ f ∈ kept, ∀ g ∈ kept, root.idBelow f = root.idBelow g → f = g)

include hdraws hkept

/-- Every link is that of two neighbours. -/
theorem exists_neighbours {l : GraphLink} (hl : l ∈ links) :
    ∃ f ∈ kept, ∃ g ∈ kept, imports.isNeighbour f g ∧
      orderedPair l.source l.target = orderedPair (root.idBelow f) (root.idBelow g) := by
  obtain ⟨f, g, hpair, hlink⟩ := (hdraws.mem_iff l).mp hl
  have hne : f ≠ g := by simpa using hkept.sublist hpair
  exact ⟨f, hpair.subset (by simp), g, hpair.subset (by simp), ImportMap.isNeighbour_of_linkOf? hlink hne.symm,
    ImportMap.linkOf?_eq_some hlink⟩

omit hkept in
/-- Two neighbours are linked. -/
theorem exists_link (hf : f ∈ kept) (hg : g ∈ kept) (h : imports.isNeighbour f g) :
    ∃ l ∈ links, orderedPair l.source l.target = orderedPair (root.idBelow f) (root.idBelow g) := by
  rcases pair_sublist_or hf hg (ImportMap.isNeighbour_iff.mp h).1.symm with hpair | hpair
  · obtain ⟨l, hlink⟩ := ImportMap.exists_linkOf? root h
    exact ⟨l, (hdraws.mem_iff l).mpr ⟨f, g, hpair, hlink⟩, ImportMap.linkOf?_eq_some hlink⟩
  · obtain ⟨l, hlink⟩ := ImportMap.exists_linkOf? root (ImportMap.isNeighbour_comm ▸ h)
    refine ⟨l, (hdraws.mem_iff l).mpr ⟨g, f, hpair, hlink⟩, ?_⟩
    rw [ImportMap.linkOf?_eq_some hlink, orderedPair_comm]

include hinj

/-- The pairs of the links at a file are those of the file with its neighbours. -/
theorem pairs_at_perm (hf : f ∈ kept) :
    ((links.filter fun l => [l.source, l.target].contains (root.idBelow f)).map
      fun l => orderedPair l.source l.target).Perm
        ((kept.filter (imports.isNeighbour f)).map fun g => orderedPair (root.idBelow f) (root.idBelow g)) := by
  refine (List.perm_ext_iff_of_nodup (List.pairwise_map.mpr (hdraws.once.filter _))
    ((hkept.filter _).map_on fun g hg g' hg' heq => ?_)).mpr fun p => ?_
  · have hg := (List.mem_filter.mp hg).1
    have hg' := (List.mem_filter.mp hg').1
    rcases orderedPair_eq_iff.mp heq with ⟨-, hid⟩ | ⟨hid, hid'⟩
    · exact hinj g hg g' hg' hid
    · exact hinj g hg g' hg' (hid'.trans hid)
  · simp only [List.mem_map, List.mem_filter, List.contains_iff_mem]
    constructor
    · rintro ⟨l, ⟨hl, hend⟩, rfl⟩
      obtain ⟨a, ha, b, hb, hneighbours, hpair⟩ := exists_neighbours hdraws hkept hl
      rcases (mem_ends_iff hpair).mp hend with hid | hid
      · obtain rfl := hinj f hf a ha hid
        exact ⟨b, ⟨hb, hneighbours⟩, hpair.symm⟩
      · obtain rfl := hinj f hf b hb hid
        exact ⟨a, ⟨ha, ImportMap.isNeighbour_comm ▸ hneighbours⟩, (orderedPair_comm _ _).trans hpair.symm⟩
    · rintro ⟨g, ⟨hg, hneighbour⟩, rfl⟩
      obtain ⟨l, hl, hpair⟩ := exists_link hdraws hf hg hneighbour
      exact ⟨l, ⟨hl, (mem_ends_iff hpair).mpr (.inl rfl)⟩, hpair⟩

/-- A file has a link end for each of its neighbours. -/
theorem degreeOf_eq_countP (hf : f ∈ kept) :
    degreeOf links (root.idBelow f) = kept.countP (imports.isNeighbour f) := by
  have hends : ∀ l ∈ links, [l.source, l.target].Nodup := by
    intro l hl
    obtain ⟨a, ha, b, hb, hneighbours, hpair⟩ := exists_neighbours hdraws hkept hl
    have hne : root.idBelow a ≠ root.idBelow b := fun hid =>
      (ImportMap.isNeighbour_iff.mp hneighbours).1 (hinj a ha b hb hid).symm
    rw [List.nodup_cons, List.mem_singleton]
    refine ⟨fun heq => hne ?_, List.nodup_singleton _⟩
    rcases orderedPair_eq_iff.mp hpair with ⟨hsource, htarget⟩ | ⟨hsource, htarget⟩
    · rw [← hsource, heq, htarget]
    · rw [← hsource, heq, htarget]
  have hlength := (pairs_at_perm hdraws hkept hinj hf).length_eq
  rw [List.length_map, List.length_map, ← List.countP_eq_length_filter, ← List.countP_eq_length_filter] at hlength
  rw [degreeOf_eq_count, count_flatMap_of_nodup hends, hlength]

end

/-! ## Connections -/

namespace ImportMap.Among

variable (h : imports.Among root files) (hsets : ∀ e ∈ imports, e.2.Nodup)

include h

theorem length_importsOf (hsets : ∀ e ∈ imports, e.2.Nodup) (f : Path) :
    (imports.importsOf f).length = imports.members.countP fun g => (imports.importsOf f).contains g :=
  (countP_contains_eq_length (ImportMap.nodup_importsOf hsets f) imports.nodup_members
    fun _ hg => (h.members_of_mem_importsOf hg).2).symm

theorem countP_importers (f : Path) :
    (imports.countP fun e => e.2.contains f) = imports.members.countP fun g => (imports.importsOf g).contains f := by
  have hsame : ((imports.map (·.1)).filter fun g => (imports.importsOf g).contains f).Perm
      (imports.members.filter fun g => (imports.importsOf g).contains f) := by
    refine (List.perm_ext_iff_of_nodup (h.sources_nodup.filter _) (imports.nodup_members.filter _)).mpr fun g => ?_
    simp only [List.mem_filter, List.contains_iff_mem]
    refine and_congr_left fun hg => ⟨fun _ => (h.members_of_mem_importsOf hg).1, fun _ => ?_⟩
    obtain ⟨targets, hmem, -⟩ := h.mem_importsOf.mp hg
    exact List.mem_map_of_mem (f := (·.1)) hmem
  rw [h.countP_contains, List.countP_eq_length_filter, hsame.length_eq, ← List.countP_eq_length_filter]

include hsets

theorem connectivity_eq_countP (f : Path) :
    imports.connectivity f = (imports.members.countP fun g => (imports.importsOf f).contains g) +
      imports.members.countP fun g => (imports.importsOf g).contains f := by
  rw [connectivity, h.length_importsOf hsets, h.countP_importers]

/-- All connections are twice the imports. -/
theorem sum_connectivity :
    (imports.members.map imports.connectivity).sum = 2 * (imports.map fun e => e.2.length).sum := by
  have himported : (imports.members.map fun f => imports.countP fun e => e.2.contains f).sum =
      (imports.map fun e => e.2.length).sum := by
    have hmembers : ∀ f ∈ imports.flatMap (·.2), f ∈ imports.members := fun f hf => by
      obtain ⟨e, he, hf⟩ := List.mem_flatMap.mp hf
      exact mem_members.mpr ⟨e, he, .inr hf⟩
    rw [← List.length_flatMap, ← sum_count_eq_length imports.nodup_members hmembers]
    exact congrArg List.sum (List.map_congr_left fun f _ => (count_flatMap_of_nodup hsets f).symm)
  have himporting : (imports.members.map fun f => (imports.importsOf f).length).sum =
      (imports.map fun e => e.2.length).sum := by
    simp only [h.length_importsOf hsets]
    rw [sum_countP_comm, ← himported]
    simp only [h.countP_importers]
  calc (imports.members.map imports.connectivity).sum
      = (imports.members.map fun f => (imports.importsOf f).length).sum +
          (imports.members.map fun f => imports.countP fun e => e.2.contains f).sum := List.sum_map_add ..
    _ = 2 * (imports.map fun e => e.2.length).sum := by rw [himporting, himported, Nat.two_mul]

theorem countP_isPartner (f : Path) :
    (imports.importsOf f).countP (imports.isPartner f) = imports.members.countP (imports.isPartner f) := by
  have hsame : (imports.members.filter fun g => (imports.importsOf f).contains g).Perm (imports.importsOf f) := by
    refine (List.perm_ext_iff_of_nodup (imports.nodup_members.filter _) (nodup_importsOf hsets f)).mpr fun g => ?_
    rw [List.mem_filter, List.contains_iff_mem, and_iff_right_of_imp fun hg => (h.members_of_mem_importsOf hg).2]
  rw [← hsame.countP_eq, List.countP_filter]
  refine List.countP_congr fun g _ => ?_
  rw [isPartner]
  simp only [Bool.and_eq_true]
  tauto

/-- A file is connected once with each neighbour, once more with each partner and twice with
itself. -/
theorem connectivity_eq (hf : f ∈ imports.members) :
    imports.connectivity f = imports.members.countP (imports.isNeighbour f) +
      (imports.importsOf f).countP (imports.isPartner f) + if f ∈ imports.importsOf f then 2 else 0 := by
  have hneighbours : imports.isNeighbour f = fun g =>
      (g != f && (imports.importsOf f).contains g) || (g != f && (imports.importsOf g).contains f) :=
    funext fun g => Bool.and_or_distrib_left ..
  have hpartners : imports.isPartner f = fun g =>
      (g != f && (imports.importsOf f).contains g) && (g != f && (imports.importsOf g).contains f) :=
    funext fun g => by cases hne : g != f <;> simp only [isPartner, hne, Bool.false_and, Bool.true_and]
  have hsum := countP_add_countP (fun g => g != f && (imports.importsOf f).contains g)
    (fun g => g != f && (imports.importsOf g).contains f) imports.members
  rw [h.connectivity_eq_countP hsets, h.countP_isPartner hsets, hneighbours, hpartners,
    countP_eq_add_of_mem imports.nodup_members hf fun g => (imports.importsOf f).contains g,
    countP_eq_add_of_mem imports.nodup_members hf fun g => (imports.importsOf g).contains f]
  simp only [List.contains_iff_mem]
  split <;> omega

end ImportMap.Among

/-! ## The views -/

theorem ranking_paths_perm : ((ranking root imports).map (·.path)).Perm imports.members :=
  (List.perm_ext_iff_of_nodup nodup_ranking imports.nodup_members).mpr fun _ => mem_ranked_paths

section

variable (h : imports.Among root files) (hsets : ∀ e ∈ imports, e.2.Nodup)

include h hsets

/-- Links drawn among files of a ranking account for their connections. -/
theorem ImportMap.Among.accounts (hshown : kept.Sublist ((ranking root imports).map (·.path)))
    (hdraws : imports.Draws root kept links) : imports.Accounts root kept links := by
  have hmember : ∀ f ∈ kept, f ∈ imports.members := fun f hf => mem_ranked_paths.mp (hshown.subset hf)
  have hkept : kept.Nodup := nodup_ranking.sublist hshown
  have hdegree : ∀ f ∈ kept, degreeOf links (root.idBelow f) = kept.countP (imports.isNeighbour f) := fun f hf =>
    degreeOf_eq_countP hdraws hkept (fun a ha b hb => Path.idBelow_inj (h.members_below a (hmember a ha))
      (h.members_below b (hmember b hb))) hf
  refine ⟨sum_connectionCounts links, fun {f} hf => ?_, fun {f} hall hf => ?_⟩
  · have hle := hshown.countP_le (p := imports.isNeighbour f)
    rw [ranking_paths_perm.countP_eq] at hle
    rw [hdegree f hf, h.connectivity_eq hsets (hmember f hf)]
    omega
  · have hsame : kept.Perm imports.members :=
      (List.perm_ext_iff_of_nodup hkept imports.nodup_members).mpr fun g => ⟨hmember g, hall g⟩
    rw [hdegree f hf, h.connectivity_eq hsets (hmember f hf), hsame.countP_eq]

/-- Either way the links of the view are drawn among the first files of the ranking. -/
theorem ImportMap.Among.draws_first (limit : Nat) :
    imports.Draws root (((ranking root imports).map (·.path)).take limit)
        (fileLinksFrom imports ((ranking root imports).take limit) [] ((ranking root imports).take limit)) ∧
      imports.Draws root (((ranking root imports).map (·.path)).take limit)
        (drawLinks imports ((ranking root imports).take limit)) := by
  have hfirst : ((ranking root imports).take limit).Sublist (ranking root imports) := List.take_sublist _ _
  have hid : ∀ f ∈ (ranking root imports).take limit, f.id = root.idBelow f.path := fun f hf =>
    congrArg RankedFile.id (mem_ranking.mp (hfirst.subset hf)).2
  have hpaths := nodup_ranking.sublist (hfirst.map (·.path))
  have hids := (nodup_rankingIds h).sublist (hfirst.map (·.id))
  have hlinks : imports.Draws root _ _ := draws_fileLinksFrom hid hpaths hids
  rw [← List.map_take]
  exact ⟨hlinks, hlinks.of_sameBySource (drawLinks_sameBySource hpaths hids (ImportMap.nodup_importsOf hsets))⟩

end

end

/-- All connections are twice the imports. The file view of imports below a root has no more link
ends at a file than this has connections. With room for all files, a file has as many as
connections, less one for each of its imports that imports it, too, and two if it imports
itself. So it is, too, when the links are drawn in the order in which the imports are listed. -/
theorem degrees_account {root : Path} {imports : ImportMap}
    (hbelow : ∀ e ∈ imports, ∀ f ∈ e.1 :: e.2, f.LiesBelow root) (hsources : (imports.map (·.1)).Nodup)
    (hsets : ∀ e ∈ imports, e.2.Nodup) (htargets : ∀ e ∈ imports, e.2 ≠ []) :
    (imports.members.map imports.connectivity).sum = 2 * (imports.map fun e => e.2.length).sum ∧
      ∀ limit : Nat, ∃ (shown : List Path) (links drawn : List GraphLink),
        fileView root imports limit = .ok ((shown.map (imports.ranked root)).map fileNode, links) ∧
        drawnFileView root imports limit = .ok ((shown.map (imports.ranked root)).map fileNode, drawn) ∧
        (imports.members.length ≤ limit → ∀ f ∈ imports.members, f ∈ shown) ∧
        imports.Accounts root shown links ∧ imports.Accounts root shown drawn := by
  have h := ImportMap.among_members hbelow hsources htargets
  refine ⟨h.sum_connectivity hsets, fun limit => ?_⟩
  have hranked : (((ranking root imports).map (·.path)).take limit).map (imports.ranked root) =
      (ranking root imports).take limit := by
    rw [List.map_take, map_ranked_paths]
  obtain ⟨hlinks, hdrawn⟩ := h.draws_first hsets limit
  refine ⟨((ranking root imports).map (·.path)).take limit, _, _, ?_, ?_, fun hroom f hf => ?_,
    h.accounts hsets (List.take_sublist _ _) hlinks, h.accounts hsets (List.take_sublist _ _) hdrawn⟩
  · rw [hranked, fileView_eq h, keepFirst_natCast]
  · rw [hranked, drawnFileView_of_below h.members_below, keepFirst_natCast]
  · have hlength : ((ranking root imports).map (·.path)).length ≤ limit := by
      rwa [List.length_map, length_ranking]
    rw [List.take_of_length_le hlength]
    exact mem_ranked_paths.mpr hf

theorem degrees_account_mutualImports :
    (mutualImports.members.map mutualImports.connectivity).sum = 2 * (mutualImports.map fun e => e.2.length).sum ∧
      ∃ (shown : List Path) (links drawn : List GraphLink),
        fileView ⟨.slash, ["src"]⟩ mutualImports 4 =
          .ok ((shown.map (mutualImports.ranked ⟨.slash, ["src"]⟩)).map fileNode, links) ∧
        drawnFileView ⟨.slash, ["src"]⟩ mutualImports 4 =
          .ok ((shown.map (mutualImports.ranked ⟨.slash, ["src"]⟩)).map fileNode, drawn) ∧
        (∀ f ∈ mutualImports.members, f ∈ shown) ∧ mutualImports.Accounts ⟨.slash, ["src"]⟩ shown links ∧
        mutualImports.Accounts ⟨.slash, ["src"]⟩ shown drawn := by
  have hbelow : ∀ e ∈ mutualImports, ∀ f ∈ e.1 :: e.2, f.LiesBelow ⟨.slash, ["src"]⟩ := by decide
  have hroom : mutualImports.members.length ≤ 4 := by decide
  obtain ⟨hsum, hviews⟩ := degrees_account hbelow (by decide) (by decide) (by decide)
  obtain ⟨shown, links, drawn, hview, hdrawn, hall, haccounts⟩ := hviews 4
  exact ⟨hsum, shown, links, drawn, hview, hdrawn, hall hroom, haccounts⟩

end RepoOrbit
