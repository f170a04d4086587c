import RepoOrbit.Proofs.Graph.FileView

/-!
# A lower limit only cuts

With a lower limit the file view has the first nodes that it has with a higher one, and of the
links those between these nodes, in the same order (`IsCut`, `fileView_lower_limit`). It is so
for the links in the order of their targets and for links drawn in the order in which the
imports are listed (`drawnFileView`).

The files of the lower limit are the first ones of the higher limit. While it is the turn of
one of these, the links to the others are the same with both limits, and those to files beyond
the lower one are cut (`fileLinksFrom_cut`; `Drawing.IsCut`, kept by every link and so by every
turn); when it is the turn of a file beyond, all links are cut.
-/

namespace RepoOrbit

/-- Whether both ends of a link are among the ids. -/
def GraphLink.isAmong (l : GraphLink) (ids : List String) : Bool := ids.contains l.source && ids.contains l.target

/-- A view has the first nodes of a larger one, as many as the limit allows, and of its links
those between these nodes. -/
structure IsCut (limit : Nat) (view larger : List GraphNode × List GraphLink) : Prop where
  nodes : view.1 = larger.1.take limit
  links : view.2 = larger.2.filter fun l => l.isAmong (view.1.map (·.id))

section

variable {imports : ImportMap} {first last done rest files : List RankedFile} {source f : RankedFile}

theorem isAmong_of_source (h : source ∈ first) (id : String) :
    GraphLink.isAmong ⟨source.id, id⟩ (first.map (·.id)) = (first.map (·.id)).contains id := by
  have hsource : (first.map (·.id)).contains source.id = true :=
    List.contains_iff_mem.mpr (List.mem_map_of_mem h)
  rw [GraphLink.isAmong, hsource, Bool.true_and]

theorem id_not_mem_first (hids : ((first ++ last).map (·.id)).Nodup) (hf : f ∈ last) : f.id ∉ first.map (·.id) := by
  rw [List.map_append] at hids
  exact fun hmem => List.disjoint_of_nodup_append hids hmem (List.mem_map_of_mem hf)

theorem filter_first (hids : ((first ++ last).map (·.id)).Nodup) :
    (first ++ last).filter (fun f => (first.map (·.id)).contains f.id) = first := by
  have hfirst : first.filter (fun f => (first.map (·.id)).contains f.id) = first :=
    List.filter_eq_self.mpr fun f hf => List.contains_iff_mem.mpr (List.mem_map_of_mem hf)
  have hlast : last.filter (fun f => (first.map (·.id)).contains f.id) = [] :=
    List.filter_eq_nil_iff.mpr fun f hf hmem => id_not_mem_first hids hf (List.contains_iff_mem.mp hmem)
  rw [List.filter_append, hfirst, hlast, List.append_nil]

/-! ## Links in the order of their targets -/

theorem keptTargets_cut (hids : ((first ++ last).map (·.id)).Nodup) (source : RankedFile) :
    (keptTargets imports (first ++ last) source).filter (fun f => (first.map (·.id)).contains f.id) =
      keptTargets imports first source := by
  have hanti : ∀ f ∈ first ++ last, ∀ g ∈ first ++ last, decide (f.id ≤ g.id) → decide (g.id ≤ f.id) → f = g :=
    fun f hf g hg hfg hgf => List.inj_on_of_nodup_map hids hf hg (eq_of_textLe hfg hgf)
  have hsorts : Sorts fun f g : RankedFile => decide (f.id ≤ g.id) := sorts_texts.comap RankedFile.id
  rw [keptTargets, filter_mergeSort hsorts, List.filter_comm, filter_first hids]
  · rfl
  · exact fun f hf g hg => hanti f (List.mem_filter.mp hf).1 g (List.mem_filter.mp hg).1

theorem fileLinksFrom_append (kept done first last : List RankedFile) :
    fileLinksFrom imports kept done (first ++ last) =
      fileLinksFrom imports kept done first ++ fileLinksFrom imports kept (first.reverse ++ done) last := by
  induction first generalizing done with
  | nil => rfl
  | cons source first ih =>
    rw [List.cons_append, fileLinksFrom, fileLinksFrom, ih, List.append_assoc, List.reverse_cons, List.append_assoc]
    rfl

/-- When it is the turn of the first files, the links between them do not depend on the others. -/
theorem fileLinksFrom_cut (hids : ((first ++ last).map (·.id)).Nodup) (hrest : ∀ s ∈ rest, s ∈ first) :
    (fileLinksFrom imports (first ++ last) done rest).filter (·.isAmong (first.map (·.id))) =
      fileLinksFrom imports first done rest := by
  induction rest generalizing done with
  | nil => rfl
  | cons source rest ih =>
    obtain ⟨hsource, hrest⟩ := List.forall_mem_cons.mp hrest
    have hends : (fun l : GraphLink => l.isAmong (first.map (·.id))) ∘ (fun f : RankedFile => ⟨source.id, f.id⟩) =
        fun f => (first.map (·.id)).contains f.id := funext fun f => isAmong_of_source hsource f.id
    rw [fileLinksFrom, fileLinksFrom, List.filter_append, ih hrest, List.filter_map, hends, List.filter_comm,
      keptTargets_cut hids]

theorem fileLinksFrom_first (hids : ((first ++ last).map (·.id)).Nodup) :
    fileLinksFrom imports first [] first =
      (fileLinksFrom imports (first ++ last) [] (first ++ last)).filter (·.isAmong (first.map (·.id))) := by
  have hbeyond : (fileLinksFrom imports (first ++ last) (first.reverse ++ []) last).filter
      (·.isAmong (first.map (·.id))) = [] := by
    refine List.filter_eq_nil_iff.mpr fun l hl hamong => ?_
    obtain ⟨f, hf, hid⟩ := List.mem_map.mp (source_mem_of_mem_fileLinksFrom hl)
    rw [GraphLink.isAmong, Bool.and_eq_true, List.contains_iff_mem, ← hid] at hamong
    exact id_not_mem_first hids hf hamong.1
  rw [fileLinksFrom_append, List.filter_append, hbeyond, List.append_nil, fileLinksFrom_cut hids fun _ => id]

/-! ## Links in the order of the imports -/

namespace Drawing

/-- A drawing shows of another what is between the first files. -/
structure IsCut (first : List RankedFile) (d larger : Drawing) : Prop where
  linked {f g : RankedFile} : f ∈ first → g ∈ first →
    (orderedPair f.id g.id ∈ d.linked ↔ orderedPair f.id g.id ∈ larger.linked)
  links : d.links = larger.links.filter (·.isAmong (first.map (·.id)))

namespace IsCut

variable {d larger : Drawing}

theorem isFresh_eq (h : IsCut first d larger) (hsource : source ∈ first) (hf : f ∈ first) :
    d.isFresh source f = larger.isFresh source f := by
  rw [Bool.eq_iff_iff, isFresh_iff, isFresh_iff, h.linked hsource hf]

/-- A link between first files is made in both drawings or in none. -/
theorem link (h : IsCut first d larger) (hsource : source ∈ first) (hf : f ∈ first) :
    IsCut first (d.link source f) (larger.link source f) where
  linked hg hg' := by rw [mem_linked_link, mem_linked_link, h.linked hg hg']
  links := by
    have hends : GraphLink.isAmong ⟨source.id, f.id⟩ (first.map (·.id)) = true := by
      rw [isAmong_of_source hsource, List.contains_iff_mem]
      exact List.mem_map_of_mem hf
    rw [Drawing.link, Drawing.link, h.isFresh_eq hsource hf]
    split
    · rw [List.filter_append, List.filter_singleton, hends, h.links]
      rfl
    · exact h.links

/-- A link with a file beyond the first ones is cut. -/
theorem link_beyond (h : IsCut first d larger) (hbeyond : source.id ∉ first.map (·.id) ∨ f.id ∉ first.map (·.id)) :
    IsCut first d (larger.link source f) where
  linked {g g'} hg hg' := by
    have hfirst := List.mem_map_of_mem (f := (·.id)) hg
    have hfirst' := List.mem_map_of_mem (f := (·.id)) hg'
    have hpair : orderedPair g.id g'.id ≠ orderedPair source.id f.id := by
      rw [Ne, orderedPair_eq_iff]
      rintro (⟨hid, hid'⟩ | ⟨hid, hid'⟩)
      · exact hbeyond.elim (· (hid ▸ hfirst)) (· (hid' ▸ hfirst'))
      · exact hbeyond.elim (· (hid' ▸ hfirst')) (· (hid ▸ hfirst))
    rw [mem_linked_link, h.linked hg hg']
    exact ⟨.inl, fun hor => hor.resolve_right fun hnew => hpair hnew.2⟩
  links := by
    have hends : GraphLink.isAmong ⟨source.id, f.id⟩ (first.map (·.id)) = false := by
      rw [Bool.eq_false_iff, Ne, GraphLink.isAmong, Bool.and_eq_true, List.contains_iff_mem, List.contains_iff_mem]
      exact not_and_or.mpr hbeyond
    rw [Drawing.link]
    split
    · rw [List.filter_append, List.filter_singleton, hends, h.links]
      exact (List.append_nil _).symm
    · exact h.links

theorem foldl_link (h : IsCut first d larger) (hids : ((first ++ last).map (·.id)).Nodup) (hsource : source ∈ first)
    (hfiles : ∀ f ∈ files, f ∈ first ++ last) :
    IsCut first ((files.filter fun f => (first.map (·.id)).contains f.id).foldl (Drawing.link source) d)
      (files.foldl (Drawing.link source) larger) := by
  induction files generalizing d larger with
  | nil => exact h
  | cons f files ih =>
    obtain ⟨hf, hfiles⟩ := List.forall_mem_cons.mp hfiles
    rw [List.foldl_cons, List.filter_cons]
    rcases List.mem_append.mp hf with hf | hf
    · rw [if_pos (List.contains_iff_mem.mpr (List.mem_map_of_mem hf)), List.foldl_cons]
      exact ih (h.link hsource hf) hfiles
    · have hbeyond := id_not_mem_first hids hf
      rw [if_neg (hbeyond ∘ List.contains_iff_mem.mp)]
      exact ih (h.link_beyond (.inr hbeyond)) hfiles

theorem foldl_link_beyond (h : IsCut first d larger) (hsource : source.id ∉ first.map (·.id)) :
    IsCut first d (files.foldl (Drawing.link source) larger) := by
  induction files generalizing larger with
  | nil => exact h
  | cons f files ih => exact ih (h.link_beyond (.inl hsource))

end IsCut

end Drawing

theorem importedFiles_subset : ∀ f ∈ importedFiles imports files source, f ∈ files := by
  intro f hf
  obtain ⟨g, -, hfind⟩ := List.mem_filterMap.mp hf
  exact (path_of_find? hfind).1

/-- Of the files that are imported the first ones are those found among them. -/
theorem importedFiles_cut (hids : ((first ++ last).map (·.id)).Nodup) (source : RankedFile) :
    (importedFiles imports (first ++ last) source).filter (fun f => (first.map (·.id)).contains f.id) =
      importedFiles imports first source := by
  rw [importedFiles, List.filter_filterMap, importedFiles]
  refine List.filterMap_congr fun g _ => ?_
  rw [List.find?_append]
  cases hfirst : first.find? (·.path == g) with
  | some f =>
    rw [Option.some_or, Option.filter_some, if_pos]
    exact List.contains_iff_mem.mpr (List.mem_map_of_mem (path_of_find? hfirst).1)
  | none =>
    rw [Option.none_or, Option.filter_eq_none_iff]
    intro f hlast hmem
    exact id_not_mem_first hids (path_of_find? hlast).1 (List.contains_iff_mem.mp hmem)

namespace Drawing.IsCut

variable (imports) {d larger : Drawing} (hids : ((first ++ last).map (·.id)).Nodup)

include hids

/-- The turns of the first files. -/
theorem foldl_takeAll (h : IsCut first d larger) (hrest : ∀ s ∈ rest, s ∈ first) :
    IsCut first (rest.foldl (Drawing.takeAll imports first) d)
      (rest.foldl (Drawing.takeAll imports (first ++ last)) larger) := by
  induction rest generalizing d larger with
  | nil => exact h
  | cons source rest ih =>
    obtain ⟨hsource, hrest⟩ := List.forall_mem_cons.mp hrest
    have hturn : IsCut first (d.takeAll imports first source) (larger.takeAll imports (first ++ last) source) := by
      rw [takeAll_eq, takeAll_eq, ← importedFiles_cut hids]
      exact h.foldl_link hids hsource importedFiles_subset
    exact ih hturn hrest

/-- The turns of the files beyond them. -/
theorem foldl_takeAll_beyond (h : IsCut first d larger) (hrest : ∀ s ∈ rest, s ∈ last) :
    IsCut first d (rest.foldl (Drawing.takeAll imports (first ++ last)) larger) := by
  induction rest generalizing larger with
  | nil => exact h
  | cons source rest ih =>
    obtain ⟨hsource, hrest⟩ := List.forall_mem_cons.mp hrest
    refine ih ?_ hrest
    rw [takeAll_eq]
    exact h.foldl_link_beyond (id_not_mem_first hids hsource)

end Drawing.IsCut

theorem drawLinks_first (hids : ((first ++ last).map (·.id)).Nodup) :
    drawLinks imports first = (drawLinks imports (first ++ last)).filter (·.isAmong (first.map (·.id))) := by
  have hstart : Drawing.IsCut first ⟨[], []⟩ ⟨[], []⟩ := ⟨fun _ _ => .rfl, rfl⟩
  have hfirst := hstart.foldl_takeAll imports hids fun _ => id
  have hlast := hfirst.foldl_takeAll_beyond imports hids fun _ => id
  rw [drawLinks, drawLinks, List.foldl_append]
  exact hlast.links

end

/-! ## The views -/

section

variable {root : Path} {imports : ImportMap}

/-- Views of the first files of a ranking, with the links that these have of all. -/
theorem isCut_of_first {first last : List RankedFile} {links larger : List GraphLink} {k : Nat}
    (hk : (first ++ last).take k = first) (hlinks : links = larger.filter (·.isAmong (first.map (·.id)))) :
    IsCut k (first.map fileNode, links) ((first ++ last).map fileNode, larger) where
  nodes := by rw [← List.map_take, hk]
  links := by
    rw [List.map_map]
    exact hlinks

/-- With a lower limit the file view of imports below a root has the first nodes that it has with
a higher limit, and of the links those between these nodes. So it is, too, when the links are
drawn in the order in which the imports are listed. -/
theorem fileView_lower_limit (hbelow : ∀ e ∈ imports, ∀ f ∈ e.1 :: e.2, f.LiesBelow root) {k m : Nat} (hkm : k ≤ m) :
    (∃ view larger, fileView root imports k = .ok view ∧ fileView root imports m = .ok larger ∧ IsCut k view larger) ∧
      ∃ view larger, drawnFileView root imports k = .ok view ∧ drawnFileView root imports m = .ok larger ∧
        IsCut k view larger := by
  have hmembers := ImportMap.members_below hbelow
  obtain ⟨last, hlast⟩ : ∃ last, (ranking root imports).take m = (ranking root imports).take k ++ last :=
    ⟨_, (List.take_append_drop k _).symm.trans (by rw [List.take_take, Nat.min_eq_left hkm])⟩
  have hids := (nodup_rankingIds_of_below hmembers).sublist ((List.take_sublist m _).map RankedFile.id)
  have hfirst : ((ranking root imports).take k ++ last).take k = (ranking root imports).take k := by
    rw [← hlast, List.take_take, Nat.min_eq_left hkm]
  rw [hlast] at hids
  simp only [fileView_of_below hmembers, drawnFileView_of_below hmembers, keepFirst_natCast, hlast]
  exact ⟨⟨_, _, rfl, rfl, isCut_of_first hfirst (fileLinksFrom_first hids)⟩,
    ⟨_, _, rfl, rfl, isCut_of_first hfirst (drawLinks_first hids)⟩⟩

end

theorem fileView_lower_limit_mutualImports :
    (∃ view larger, fileView ⟨.slash, ["src"]⟩ mutualImports 2 = .ok view ∧
        fileView ⟨.slash, ["src"]⟩ mutualImports 4 = .ok larger ∧ IsCut 2 view larger) ∧
      ∃ view larger, drawnFileView ⟨.slash, ["src"]⟩ mutualImports 2 = .ok view ∧
        drawnFileView ⟨.slash, ["src"]⟩ mutualImports 4 = .ok larger ∧ IsCut 2 view larger :=
  fileView_lower_limit (k := 2) (m := 4) (by decide) (by decide)

end RepoOrbit
