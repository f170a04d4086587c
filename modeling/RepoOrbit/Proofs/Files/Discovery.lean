import Mathlib.Data.List.Perm.Subperm
import RepoOrbit.Proofs.Files.Listing
import RepoOrbit.Proofs.Files.Sources

/-!
# A walk finds exactly the source files

Where every name below a directory leads to something (`LinksResolve`) and no way down leads back
to where it has been (`NoLinkCycles`), a walk finds the source files there are, each once and by
the names on the way to it (`discover_exact`): none of these begins with a point, those above the
last are not of directories that are skipped, and the last has the suffix of a source file
(`LeadsToSource`).

A walk reads each name from where the directory really is, and finds what the whole way leads to
(`LinksResolve.find?_eq`). It goes down no further than a tree has directories, and this is
enough, as a way down enters none of them twice (`length_le_of_holds`).

Both conditions follow where all ways down come to an end at something, which can be computed
(`unfolds`, `linksResolve_of_unfolds`, `noLinkCycles_of_unfolds`).
-/

namespace RepoOrbit.FileTree

/-- Below a place, every name in a directory leads to something. -/
def LinksResolve (t : FileTree) (root : List String) : Prop :=
  ∀ names place es, ".." ∉ names → t.find? (root ++ names) = some (place, .directory es) →
    ∀ e ∈ es, t.holds (root ++ names ++ [e.1])

/-- No way down from a place leads back to where it has been. -/
def NoLinkCycles (t : FileTree) (root : List String) : Prop :=
  ∀ names more place e, ".." ∉ names ++ more → more ≠ [] → t.find? (root ++ names) = some (place, e) →
    ∀ e', t.find? (root ++ names ++ more) ≠ some (place, e')

/-- By these names a root leads down to a source file. -/
structure LeadsToSource (t : FileTree) (root names : List String) : Prop where
  not_hidden {name : String} : name ∈ names → ¬ isHidden name
  not_skipped {name : String} : name ∈ names.dropLast → name ∉ skippedDirectories
  suffix_mem : (Path.mk .relative names).suffix ∈ sourceSuffixes
  holds : t.holds (root ++ names)
  not_directory : ¬ t.holdsDirectory (root ++ names)

/-! ## Names -/

theorem isSourcePlace_iff {names : List String} :
    isSourcePlace names ↔ (∀ name ∈ names, ¬ isHidden name) ∧ (∀ name ∈ names.dropLast, name ∉ skippedDirectories) ∧
      (Path.mk .relative names).suffix ∈ sourceSuffixes := by
  induction names with
  | nil =>
    have hnone : (Path.mk .relative []).suffix ∉ sourceSuffixes := by decide +kernel
    simp [isSourcePlace, hnone]
  | cons name rest ih =>
    rcases eq_or_ne rest [] with rfl | hrest
    · rw [isSourcePlace_singleton, isSourceName, List.contains_iff_mem]
      simp
    · have hsuffix : (Path.mk .relative (name :: rest)).suffix = (Path.mk .relative rest).suffix := by
        simp only [Path.suffix, Path.name, List.getLast?_cons_of_ne_nil hrest]
      rw [isSourcePlace_cons hrest, ih, hsuffix, List.dropLast_cons_of_ne_nil hrest, List.forall_mem_cons,
        List.forall_mem_cons, List.contains_iff_mem]
      constructor
      · rintro ⟨hhidden, hskipped, hall, hallskipped, hlast⟩
        exact ⟨⟨hhidden, hall⟩, ⟨hskipped, hallskipped⟩, hlast⟩
      · rintro ⟨⟨hhidden, hall⟩, ⟨hskipped, hallskipped⟩, hlast⟩
        exact ⟨hhidden, hskipped, hall, hallskipped, hlast⟩

/-! ## The whole way and its last name -/

section

variable {t : FileTree} {root names here rest : List String} {es : List (String × FileTree)} {name : String}

theorem LinksResolve.holds (hlinks : t.LinksResolve root) (hdots : ".." ∉ names)
    (hhere : t.find? (root ++ names) = some (here, .directory es)) (hname : name ∈ t.namesAt here) :
    t.holds (root ++ names ++ [name]) := by
  rw [namesAt, (at?_of_find? hhere).1] at hname
  obtain ⟨e, he, rfl⟩ := List.mem_map.mp hname
  exact hlinks names here es hdots hhere e he

/-- A name of a directory leads to the same whether it is read from the place of the directory or at
the end of the whole way. -/
theorem LinksResolve.find?_eq (hlinks : t.LinksResolve root) (hdots : ".." ∉ names)
    (hhere : t.find? (root ++ names) = some (here, .directory es)) (hname : name ∈ t.namesAt here) :
    t.find? (root ++ names ++ [name]) = t.findFrom? linkLimit here [name] := by
  obtain ⟨found, hfound⟩ := Option.isSome_iff_exists.mp (hlinks.holds hdots hhere hname)
  rw [hfound, findFrom?_eq_of_find? hhere hfound]

/-! ## The way of a walk -/

/-- What a walk finds is a source place, where something stands that is no directory. -/
theorem IsFound.holds (hfound : t.IsFound here rest) (hlinks : t.LinksResolve root) (hdots : ".." ∉ names)
    (hhere : t.find? (root ++ names) = some (here, .directory es)) :
    isSourcePlace rest ∧ t.holds (root ++ names ++ rest) ∧ ¬ t.holdsDirectory (root ++ names ++ rest) := by
  induction hfound generalizing names es with
  | @file here name hname hhidden hsource hnot =>
    rw [← hlinks.find?_eq hdots hhere hname] at hnot
    exact ⟨isSourcePlace_singleton.mpr ⟨hhidden, hsource⟩, hlinks.holds hdots hhere hname,
      not_holdsDirectory_iff.mpr hnot⟩
  | @inside here place rest name es' hname hhidden hskipped hdirectory hfound ih =>
    have hdots' : ".." ∉ names ++ [name] := by
      simp [hdots, (ne_dots_of_not_isHidden hhidden).symm]
    rw [← hlinks.find?_eq hdots hhere hname, List.append_assoc] at hdirectory
    obtain ⟨hrest, hholds⟩ := ih hdots' hdirectory
    rw [← List.append_assoc, ← List.append_cons] at hholds
    exact ⟨(isSourcePlace_cons hfound.ne_nil).mpr ⟨hhidden, hskipped, hrest⟩, hholds⟩

/-- A source place where something stands that is no directory is found by its names. -/
theorem isFound_of_holds (hsource : isSourcePlace rest) (hhere : t.find? names = some (here, .directory es))
    (hholds : t.holds (names ++ rest)) (hnot : ¬ t.holdsDirectory (names ++ rest)) : t.IsFound here rest := by
  induction rest generalizing names here es with
  | nil => cases hsource
  | cons name rest ih =>
    rcases eq_or_ne rest [] with rfl | hrest
    · obtain ⟨hhidden, hname⟩ := isSourcePlace_singleton.mp hsource
      obtain ⟨found, hfound⟩ := Option.isSome_iff_exists.mp hholds
      have hfrom := findFrom?_eq_of_find? hhere hfound
      refine .file (mem_namesAt_of_findFrom? (ne_dots_of_not_isHidden hhidden) hfrom) hhidden hname ?_
      rw [hfrom, ← hfound]
      exact not_holdsDirectory_iff.mp hnot
    · obtain ⟨hhidden, hskipped, hsource⟩ := (isSourcePlace_cons hrest).mp hsource
      rw [List.append_cons] at hholds hnot
      obtain ⟨place, es', hplace⟩ := find?_of_holds_append hrest (dots_not_mem_of_isSourcePlace hsource) hholds
      have hfrom := findFrom?_eq_of_find? hhere hplace
      exact .inside (mem_namesAt_of_findFrom? (ne_dots_of_not_isHidden hhidden) hfrom) hhidden hskipped hfrom
        (ih hsource hplace hholds hnot)

end

/-! ## How far down -/

mutual

theorem countP_places (t : FileTree) :
    (t.places.countP (·.2.isDirectory)) + (if t.isDirectory then 1 else 0) = t.directoryCount := by
  cases t with
  | file | link => rfl
  | directory es => rw [places, directoryCount, countP_placesOfEntries es, isDirectory, if_pos rfl]

theorem countP_placesOfEntries (es : List (String × FileTree)) :
    (placesOfEntries es).countP (·.2.isDirectory) = directoryCountOfEntries es := by
  cases es with
  | nil => rfl
  | cons e es =>
    obtain ⟨name, t⟩ := e
    have ht := countP_places t
    have hes := countP_placesOfEntries es
    rw [placesOfEntries, directoryCountOfEntries, List.cons_append, List.countP_cons, List.countP_append,
      List.countP_map, hes, ← ht]
    simp only [Function.comp_def]
    omega

end

theorem mem_placesOfEntries {es : List (String × FileTree)} {e : String × FileTree} (he : e ∈ es) :
    ([e.1], e.2) ∈ placesOfEntries es ∧ ∀ p ∈ e.2.places, (e.1 :: p.1, p.2) ∈ placesOfEntries es := by
  induction es with
  | nil => cases he
  | cons e' es ih =>
    obtain ⟨name, t⟩ := e'
    rw [placesOfEntries]
    rcases List.mem_cons.mp he with rfl | he
    · refine ⟨List.mem_cons_self, fun p hp => List.mem_cons_of_mem _ (List.mem_append_left _ ?_)⟩
      exact List.mem_map_of_mem hp
    · obtain ⟨hself, hbelow⟩ := ih he
      exact ⟨List.mem_append_right _ hself, fun p hp => List.mem_append_right _ (hbelow p hp)⟩

theorem mem_places {t e : FileTree} {p : List String} (hp : p ≠ []) (h : t.at? p = some e) : (p, e) ∈ t.places := by
  induction p generalizing t with
  | nil => exact absurd rfl hp
  | cons n p ih =>
    rw [at?_cons] at h
    obtain ⟨s, hs, hrest⟩ := Option.bind_eq_some_iff.mp h
    cases t with
    | file | link => simp [child?, entries] at hs
    | directory es =>
      obtain ⟨before, after, heq, -⟩ := List.lookup_eq_some_iff.mp hs
      have hmem : (n, s) ∈ es := by simp [show es = _ from heq]
      obtain ⟨hself, hbelow⟩ := mem_placesOfEntries hmem
      rcases eq_or_ne p [] with rfl | hne
      · obtain rfl := Option.some.inj hrest
        exact hself
      · exact hbelow _ (ih hne hrest)

/-- The places of directories are no more than these. -/
theorem length_le_of_nodup {t : FileTree} {ps : List (List String)} (hnodup : ps.Nodup)
    (h : ∀ p ∈ ps, ∃ es, t.at? p = some (.directory es)) : ps.length ≤ t.directoryCount := by
  have hplaces : ps ⊆ ((([], t) :: t.places).filter (·.2.isDirectory)).map (·.1) := by
    intro p hp
    obtain ⟨es, hes⟩ := h p hp
    have hmem : (p, directory es) ∈ ([], t) :: t.places := by
      rcases eq_or_ne p [] with rfl | hne
      · obtain rfl := Option.some.inj hes
        exact List.mem_cons_self
      · exact List.mem_cons_of_mem _ (mem_places hne hes)
    exact List.mem_map.mpr ⟨_, List.mem_filter.mpr ⟨hmem, rfl⟩, rfl⟩
  have hle := (List.subperm_of_subset hnodup hplaces).length_le
  rwa [List.length_map, ← List.countP_eq_length_filter, List.countP_cons, countP_places] at hle

section

variable {t : FileTree} {start root rest : List String}

/-- On the way to something no directory is entered twice. -/
theorem length_le_of_holds (hcycles : t.NoLinkCycles root) (hdots : ".." ∉ rest) (h : t.holds (root ++ rest)) :
    rest.length ≤ t.directoryCount := by
  have hentered : ∀ k ∈ List.range rest.length, ∃ place es,
      t.find? (root ++ rest.take k) = some (place, .directory es) := by
    intro k hk
    have hlt := List.mem_range.mp hk
    have hdrop : rest.drop k ≠ [] := List.drop_eq_nil_iff.not.mpr (by omega)
    have hdots' : ".." ∉ rest.drop k := fun hmem => hdots (List.mem_of_mem_drop hmem)
    refine find?_of_holds_append hdrop hdots' ?_
    rwa [List.append_assoc, List.take_append_drop]
  have hapart : ((List.range rest.length).map fun k => t.resolve (root ++ rest.take k)).Nodup := by
    refine List.pairwise_map.mpr (List.pairwise_lt_range.imp_of_mem fun {i j} hi hj hlt => ?_)
    obtain ⟨place, es, hplace⟩ := hentered i hi
    obtain ⟨place', es', hplace'⟩ := hentered j hj
    rw [resolve_of_find? hplace, resolve_of_find? hplace']
    rintro rfl
    have hmore : rest.take i ++ (rest.take j).drop i = rest.take j := by
      have hsplit := List.take_append_drop i (rest.take j)
      rwa [List.take_take, Nat.min_eq_left (Nat.le_of_lt hlt)] at hsplit
    refine hcycles (rest.take i) ((rest.take j).drop i) place _ ?_ ?_ hplace (.directory es') ?_
    · rw [hmore]
      exact fun hmem => hdots (List.mem_of_mem_take hmem)
    · have hj := List.mem_range.mp hj
      refine List.drop_eq_nil_iff.not.mpr ?_
      rw [List.length_take]
      omega
    · rw [List.append_assoc, hmore]
      exact hplace'
  have hle := length_le_of_nodup hapart fun p hp => by
    obtain ⟨k, hk, rfl⟩ := List.mem_map.mp hp
    obtain ⟨place, es, hplace⟩ := hentered k hk
    rw [resolve_of_find? hplace]
    exact ⟨_, (at?_of_find? hplace).1⟩
  rwa [List.length_map, List.length_range] at hle

/-! ## The files found -/

theorem leadsToSource_iff {names : List String} :
    t.LeadsToSource root names ↔
      isSourcePlace names ∧ t.holds (root ++ names) ∧ ¬ t.holdsDirectory (root ++ names) := by
  rw [isSourcePlace_iff]
  constructor
  · intro h
    exact ⟨⟨fun _ => h.not_hidden, fun _ => h.not_skipped, h.suffix_mem⟩, h.holds, h.not_directory⟩
  · rintro ⟨⟨hhidden, hskipped, hsuffix⟩, hholds, hnot⟩
    exact ⟨hhidden _, hskipped _, hsuffix, hholds, hnot⟩

/-- The source files below a directory with the real place `root`. A walk finds each of them once, in
whatever order it takes the names in a directory. -/
theorem discover_exact (ht : t.wellNamed) (hroot : t.resolve start = root) (hdirectory : t.holdsDirectory root)
    (hlinks : t.LinksResolve root) (hcycles : t.NoLinkCycles root) :
    (t.discover start).Nodup ∧
      (∀ f, f ∈ t.discover start ↔ ∃ names, f = ⟨.slash, root ++ names⟩ ∧ t.LeadsToSource root names) ∧
      ∀ order, (t.discoverIn order start).Perm (t.discover start) := by
  refine ⟨nodup_discover ht start, fun f => ?_, fun order => t.discoverIn_perm order start⟩
  have hresolve : t.resolve root = root := hroot ▸ resolve_resolve t start
  obtain ⟨place, es, hhere⟩ := find?_of_holdsDirectory hdirectory
  obtain rfl : place = root := (resolve_of_find? hhere).symm.trans hresolve
  simp only [discover, hroot, List.mem_map, mem_sourcesFrom, leadsToSource_iff]
  constructor
  · rintro ⟨_, ⟨names, rfl, -, hfound⟩, rfl⟩
    have hhere' : t.find? (place ++ []) = some (place, .directory es) := by rwa [List.append_nil]
    have hholds := hfound.holds hlinks List.not_mem_nil hhere'
    rw [List.append_nil] at hholds
    exact ⟨names, rfl, hholds⟩
  · rintro ⟨names, rfl, hsource, hholds, hnot⟩
    have hlength := length_le_of_holds hcycles (dots_not_mem_of_isSourcePlace hsource) hholds
    exact ⟨_, ⟨names, rfl, Nat.le_succ_of_le hlength, isFound_of_holds hsource hhere hholds hnot⟩, rfl⟩

end

/-! ## Ways that come to an end -/

/-- Whether all ways down from a place come to an end by so many names, none of them at nothing. -/
def unfolds (t : FileTree) : Nat → List String → Bool
  | 0, _ => false
  | depth + 1, names =>
    match t.find? names with
    | none => false
    | some (_, .directory es) => es.all fun e => t.unfolds depth (names ++ [e.1])
    | some _ => true

section

variable {t : FileTree} {depth : Nat} {root names more place rest : List String} {es : List (String × FileTree)}

theorem holds_of_unfolds (h : t.unfolds depth names) : t.holds names := by
  cases depth with
  | zero => cases h
  | succ depth =>
    rw [unfolds] at h
    cases hfind : t.find? names with
    | none => simp [hfind] at h
    | some found => exact holds_of_find? hfind

theorem unfolds_concat (h : t.unfolds (depth + 1) names) (hplace : t.find? names = some (place, .directory es))
    {e : String × FileTree} (he : e ∈ es) : t.unfolds depth (names ++ [e.1]) := by
  rw [unfolds, hplace] at h
  exact List.all_eq_true.mp h e he

theorem exists_entry_of_holds {name : String} (hname : name ≠ "..")
    (hplace : t.find? names = some (place, .directory es)) (h : t.holds (names ++ [name])) :
    ∃ e ∈ es, e.1 = name := by
  obtain ⟨found, hfound⟩ := Option.isSome_iff_exists.mp h
  have hmem := mem_namesAt_of_findFrom? hname (findFrom?_eq_of_find? hplace hfound)
  rw [namesAt, (at?_of_find? hplace).1] at hmem
  exact List.mem_map.mp hmem

theorem exists_unfolds_append (h : t.unfolds depth names) (hdots : ".." ∉ rest) (hholds : t.holds (names ++ rest)) :
    ∃ depth', t.unfolds depth' (names ++ rest) := by
  induction rest generalizing depth names with
  | nil => exact ⟨depth, by rwa [List.append_nil]⟩
  | cons n rest ih =>
    obtain ⟨hn, hdots'⟩ := not_or.mp (List.mem_cons.not.mp hdots)
    obtain ⟨place, es, hplace⟩ := find?_of_holds_append (List.cons_ne_nil n rest) hdots hholds
    rw [List.append_cons] at hholds ⊢
    obtain ⟨e, he, rfl⟩ := exists_entry_of_holds (Ne.symm hn) hplace (holds_of_holds_append hdots' hholds)
    cases depth with
    | zero => cases h
    | succ depth => exact ih (unfolds_concat h hplace he) hdots' hholds

/-- Where all ways come to an end, names lead to something. -/
theorem linksResolve_of_unfolds (h : t.unfolds depth root) : t.LinksResolve root := by
  intro names place es hdots hplace e he
  obtain ⟨depth', h'⟩ := exists_unfolds_append h hdots (holds_of_find? hplace)
  cases depth' with
  | zero => cases h'
  | succ depth' => exact holds_of_unfolds (unfolds_concat h' hplace he)

/-- A way that leads back could be gone on from its second directory, and would come to an end
earlier. -/
theorem not_back_of_unfolds (hlinks : t.LinksResolve root) (h : t.unfolds depth (root ++ names))
    (hdots : ".." ∉ names ++ more) (hmore : more ≠ []) {e e' : FileTree}
    (hfirst : t.find? (root ++ names) = some (place, e)) : t.find? (root ++ names ++ more) ≠ some (place, e') := by
  induction depth generalizing names more place e e' with
  | zero => cases h
  | succ depth ih =>
    intro hagain
    obtain ⟨n, q, rfl⟩ := List.exists_cons_of_ne_nil hmore
    obtain ⟨hnames, hn, hq⟩ : ".." ∉ names ∧ n ≠ ".." ∧ ".." ∉ q := by simpa [eq_comm] using hdots
    have hway := holds_of_find? hagain
    obtain ⟨place, es, hplace⟩ := find?_of_holds_append hmore (by simp [hn.symm, hq]) hway
    cases hfirst.symm.trans hplace
    obtain rfl : e' = .directory es :=
      Option.some.inj ((at?_of_find? hagain).1.symm.trans (at?_of_find? hplace).1)
    rw [List.append_cons] at hway
    have hstep : t.holds (root ++ names ++ [n]) := holds_of_holds_append hq hway
    obtain ⟨entry, hentry, rfl⟩ := exists_entry_of_holds hn hplace hstep
    -- The directory is at both ends, so its entry leads on from the second as from the first.
    have hname : entry.1 ∈ t.namesAt place := by
      rw [namesAt, (at?_of_find? hplace).1]
      exact List.mem_map_of_mem hentry
    have hthere : t.find? (root ++ (names ++ entry.1 :: q)) = some (place, .directory es) := by
      rwa [← List.append_assoc]
    have hsame : t.find? (root ++ (names ++ entry.1 :: q) ++ [entry.1]) = t.find? (root ++ names ++ [entry.1]) := by
      rw [hlinks.find?_eq hdots hthere hname, hlinks.find?_eq hnames hplace hname]
    obtain ⟨⟨place', e'⟩, hfound⟩ := Option.isSome_iff_exists.mp hstep
    rw [hfound] at hsame
    have hunfolds := unfolds_concat h hplace hentry
    rw [List.append_assoc] at hfound hunfolds
    have hdots' : ".." ∉ (names ++ [entry.1]) ++ (q ++ [entry.1]) := by simp [hnames, hn.symm, hq]
    have hback : t.find? (root ++ (names ++ [entry.1]) ++ (q ++ [entry.1])) = some (place', e') := by
      simpa using hsame
    exact ih hunfolds hdots' (by simp) hfound hback

theorem noLinkCycles_of_unfolds (h : t.unfolds depth root) : t.NoLinkCycles root := by
  intro names more place e hdots hmore hfirst e'
  have hnames : ".." ∉ names := fun hmem => hdots (List.mem_append_left _ hmem)
  obtain ⟨depth', h'⟩ := exists_unfolds_append h hnames (holds_of_find? hfirst)
  exact not_back_of_unfolds (linksResolve_of_unfolds h) h' hdots hmore hfirst

end

/-- A directory of hidden and skipped names above it, which is reached by a link, with links to one
of its files and to a directory elsewhere, and a directory that has a source file's name. -/
def linkedSources : FileTree :=
  .directory [
    ("work", .link ".cache/tests"),
    (".cache", .directory [
      ("common", .directory [("util.cjs", .file []), ("notes.txt", .file [])]),
      ("tests", .directory [
        ("app.js", .file []),
        ("main.ts", .link "app.js"),
        ("shared", .link "/.cache/common"),
        ("lib.ts", .directory [("deep.mjs", .file []), (".hidden.js", .file [])]),
        ("node_modules", .directory [("dep.js", .file [])])])])]

theorem discover_exact_linkedSources :
    (linkedSources.discover ["work"]).Nodup ∧
      (∀ f, f ∈ linkedSources.discover ["work"] ↔
        ∃ names, f = ⟨.slash, [".cache", "tests"] ++ names⟩ ∧
          linkedSources.LeadsToSource [".cache", "tests"] names) ∧
      ∀ order, (linkedSources.discoverIn order ["work"]).Perm (linkedSources.discover ["work"]) := by
  have hroot : linkedSources.resolve ["work"] = [".cache", "tests"] := by with_unfolding_all rfl
  have hunfolds : linkedSources.unfolds 3 [".cache", "tests"] := by decide +kernel
  exact discover_exact (by decide) hroot (by decide +kernel) (linksResolve_of_unfolds hunfolds)
    (noLinkCycles_of_unfolds hunfolds)

example : (linkedSources.discover ["work"]).map (·.names.drop 2) =
    [["app.js"], ["main.ts"], ["shared", "util.cjs"], ["lib.ts", "deep.mjs"]] := by decide +kernel

end RepoOrbit.FileTree
