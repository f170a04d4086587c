import RepoOrbit.Proofs.Graph.Drawing

/-!
# The directory view, exactly

The nodes of the directory view are the directories of the files, each once and with the number of
its files, and two directories are linked when a file of one imports a file of the other
(`IsDirectoryView`). A file's directory can be told by its id: it is the longest part of it, of one
or two segments, that leaves a last segment out, or the dot (`IsDirectoryOf`).

`directoryView_exact` says so of all files below a root and all imports among them.
-/

namespace RepoOrbit

/-- The first segment of an id or the first two, with another one after them. -/
inductive StartsId : String → String → Prop where
  | one {a rest : String} : '/' ∉ a.toList → StartsId a (a ++ "/" ++ rest)
  | two {a b rest : String} : '/' ∉ a.toList → '/' ∉ b.toList →
    StartsId (a ++ "/" ++ b) (a ++ "/" ++ b ++ "/" ++ rest)

/-- The key of the directory of a file with this id. -/
structure IsDirectoryOf (key id : String) : Prop where
  of_no_slash : '/' ∉ id.toList → key = "."
  startsId : '/' ∈ id.toList → StartsId key id
  longest {start : String} : StartsId start id → start.length ≤ key.length

/-- A file of one directory imports a file of the other. -/
def ImportMap.Joins (imports : ImportMap) (root : Path) (a b : String) : Prop :=
  ∃ f g, g ∈ imports.importsOf f ∧
    (root.keyBelow f = a ∧ root.keyBelow g = b ∨ root.keyBelow f = b ∧ root.keyBelow g = a)

/-- The nodes and links of the directories of files. -/
structure IsDirectoryView (root : Path) (files : List Path) (imports : ImportMap) (nodes : List GraphNode)
    (links : List GraphLink) : Prop where
  ids_increasing : nodes.Pairwise fun n n' => n.id < n'.id
  mem_ids_iff (key : String) : key ∈ nodes.map (·.id) ↔ ∃ f ∈ files, root.keyBelow f = key
  fileCount_eq {n : GraphNode} : n ∈ nodes → n.fileCount = files.countP fun f => root.keyBelow f == n.id
  sum_fileCount : (nodes.map (·.fileCount)).sum = files.length
  links_increasing : links.Pairwise fun l l' => toLex (l.source, l.target) < toLex (l'.source, l'.target)
  source_lt_target {l : GraphLink} : l ∈ links → l.source < l.target
  linked_iff (a b : String) : ⟨a, b⟩ ∈ links ∨ ⟨b, a⟩ ∈ links ↔ a ≠ b ∧ imports.Joins root a b

section

variable {root : Path} {files : List Path} {imports : ImportMap}

/-! ## Keys and ids -/

theorem intercalate_slash_cons (n : String) {names : List String} (h : names ≠ []) :
    "/".intercalate (n :: names) = n ++ "/" ++ "/".intercalate names := by
  cases names with
  | nil => exact absurd rfl h
  | cons m names => rw [String.intercalate_cons_cons]

/-- An id of names is started by the first name or the first two. -/
theorem startsId_iff {start : String} {names : List String} (hne : names ≠ [])
    (hslash : ∀ n ∈ names, '/' ∉ n.toList) :
    StartsId start ("/".intercalate names) ↔
      ∃ rest, rest ≠ [] ∧ (names = start :: rest ∨ ∃ a b, names = a :: b :: rest ∧ start = a ++ "/" ++ b) := by
  have hpieces := Path.pieces_intercalate hne hslash
  constructor
  · generalize "/".intercalate names = id at hpieces
    rintro (@⟨a, rest, ha⟩ | @⟨a, b, rest, ha, hb⟩)
    · rw [Path.pieces_append_slash, Path.pieces_of_not_mem ha] at hpieces
      exact ⟨Path.pieces rest, Path.pieces_ne_nil rest, .inl hpieces.symm⟩
    · rw [Path.pieces_append_slash, Path.pieces_append_slash, Path.pieces_of_not_mem ha,
        Path.pieces_of_not_mem hb] at hpieces
      exact ⟨Path.pieces rest, Path.pieces_ne_nil rest, .inr ⟨a, b, hpieces.symm, rfl⟩⟩
  · rintro ⟨rest, hrest, rfl | ⟨a, b, rfl, rfl⟩⟩
    · rw [intercalate_slash_cons _ hrest]
      exact .one (hslash _ (by simp))
    · rw [intercalate_slash_cons _ (List.cons_ne_nil _ _), intercalate_slash_cons _ hrest, ← String.append_assoc,
        ← String.append_assoc]
      exact .two (hslash _ (by simp)) (hslash _ (by simp))

theorem isDirectoryOf_intercalate {names : List String} (hne : names ≠ []) (hslash : ∀ n ∈ names, '/' ∉ n.toList) :
    IsDirectoryOf (directoryKeyOf names.dropLast) ("/".intercalate names) where
  of_no_slash hnot := by
    rcases names with _ | ⟨n, _ | ⟨m, more⟩⟩
    · exact absurd rfl hne
    · rfl
    · exact absurd (by simp) hnot
  startsId hmem := by
    rw [startsId_iff hne hslash]
    rcases names with _ | ⟨n, _ | ⟨m, _ | ⟨k, more⟩⟩⟩
    · exact absurd rfl hne
    · rw [String.intercalate_singleton] at hmem
      exact absurd hmem (hslash n (by simp))
    · exact ⟨[m], by simp, .inl rfl⟩
    · exact ⟨k :: more, by simp, .inr ⟨n, m, rfl, rfl⟩⟩
  longest {start} hstart := by
    obtain ⟨rest, hrest, rfl | ⟨a, b, rfl, rfl⟩⟩ := (startsId_iff hne hslash).mp hstart
    · rcases rest with _ | ⟨m, _ | ⟨k, more⟩⟩
      · exact absurd rfl hrest
      · exact Nat.le_refl _
      · change _ ≤ ("/".intercalate [start, m]).length
        rw [intercalate_slash_cons _ (List.cons_ne_nil _ _), String.length_append, String.length_append]
        omega
    · rw [List.dropLast_cons_of_ne_nil (List.cons_ne_nil b rest), List.dropLast_cons_of_ne_nil hrest]
      exact Nat.le_refl _

/-- A file's directory can be told by its id. -/
theorem Path.LiesBelow.isDirectoryOf {p : Path} (h : p.LiesBelow root) :
    IsDirectoryOf (root.keyBelow p) (root.idBelow p) := by
  obtain ⟨names, hne, hslash, rfl⟩ := h
  rw [Path.keyBelow, Path.idBelow, List.dropLast_append_of_ne_nil hne, List.drop_left, List.drop_left,
    Path.toString_relative hne]
  exact isDirectoryOf_intercalate hne hslash

/-! ## Links -/

theorem orderedPair_of_lt {a b : String} (h : a < b) : orderedPair a b = (a, b) := if_pos (le_of_lt h)

theorem orderedPair_lt {a b : String} (h : a ≠ b) : (orderedPair a b).1 < (orderedPair a b).2 := by
  rcases lt_or_gt_of_ne h with hlt | hlt
  · rwa [orderedPair_of_lt hlt]
  · rwa [orderedPair_comm, orderedPair_of_lt hlt]

theorem ImportMap.joins_comm {a b : String} : imports.Joins root a b ↔ imports.Joins root b a := by
  simp only [ImportMap.Joins, or_comm]

/-- Of every two directories that are joined the pair stands for them in which the smaller one is
first. -/
theorem crossing_iff (hsources : (imports.map (·.1)).Nodup) {a b : String} :
    (a, b) ∈ crossings root imports ↔ a < b ∧ imports.Joins root a b := by
  rw [mem_crossings_iff hsources]
  constructor
  · rintro ⟨f, g, hg, hne, heq⟩
    have hlt : a < b := by
      have hlt := orderedPair_lt hne.symm
      rwa [← heq] at hlt
    rw [← orderedPair_of_lt hlt, eq_comm, orderedPair_eq_iff] at heq
    exact ⟨hlt, f, g, hg, heq⟩
  · rintro ⟨hlt, f, g, hg, hkeys⟩
    have hne : root.keyBelow g ≠ root.keyBelow f := by
      rcases hkeys with ⟨rfl, rfl⟩ | ⟨rfl, rfl⟩
      · exact hlt.ne'
      · exact hlt.ne
    exact ⟨f, g, hg, hne, ((orderedPair_eq_iff.mpr hkeys).trans (orderedPair_of_lt hlt)).symm⟩

/-! ## The view -/

theorem isDirectoryView (hsources : (imports.map (·.1)).Nodup) :
    IsDirectoryView root files imports
      ((sortedTexts (files.map root.keyBelow)).map
        fun k => directoryNode root k ((files.map root.keyBelow).count k))
      (((crossings root imports).mergeSort pairLe).eraseReps.map fun p => ⟨p.1, p.2⟩) where
  ids_increasing := List.pairwise_map.mpr (pairwise_lt_eraseReps textLe_iff Function.injective_id _)
  mem_ids_iff key := by
    rw [List.map_map]
    change key ∈ (sortedTexts (files.map root.keyBelow)).map id ↔ _
    rw [List.map_id, mem_sortedTexts, List.mem_map]
  fileCount_eq {n} hn := by
    obtain ⟨k, -, rfl⟩ := List.mem_map.mp hn
    exact List.countP_map
  sum_fileCount := by
    rw [List.map_map]
    refine (sum_count_eq_length (nodup_sortedTexts _) fun key hkey => ?_).trans (List.length_map _)
    exact mem_sortedTexts.mpr hkey
  links_increasing := List.pairwise_map.mpr (pairwise_lt_eraseReps pairLe_iff toLex.injective _)
  source_lt_target {l} hl := by
    obtain ⟨p, hp, rfl⟩ := List.mem_map.mp hl
    exact ((crossing_iff hsources).mp (List.mem_mergeSort.mp (mem_eraseReps.mp hp))).1
  linked_iff a b := by
    simp only [List.mem_map, mem_eraseReps, List.mem_mergeSort, Prod.exists, GraphLink.mk.injEq, exists_eq_right_right,
      exists_eq_right, crossing_iff hsources]
    rw [imports.joins_comm (a := b), ← or_and_right, ← ne_iff_lt_or_gt]

/-- The directory view of files below a root and of imports among them. -/
theorem directoryView_exact (hbelow : ∀ f ∈ files, f.LiesBelow root) (hsources : (imports.map (·.1)).Nodup)
    (hamong : ∀ e ∈ imports, ∀ f ∈ e.1 :: e.2, f ∈ files) :
    (∃ nodes links, directoryView root files imports = .ok (nodes, links) ∧
        IsDirectoryView root files imports nodes links) ∧
      ∀ f ∈ files, f.relativeId root = .ok (root.idBelow f) ∧ f.directoryKey root = .ok (root.keyBelow f) ∧
        IsDirectoryOf (root.keyBelow f) (root.idBelow f) := by
  have hmembers := ImportMap.members_below fun e he f hf => hbelow f (hamong e he f hf)
  refine ⟨⟨_, _, directoryView_of_below hbelow hmembers, isDirectoryView hsources⟩, fun f hf => ?_⟩
  exact ⟨(hbelow f hf).relativeId, (hbelow f hf).directoryKey, (hbelow f hf).isDirectoryOf⟩

end

/-- Files at the root, one directory down and further down; the first two import each other, and
so do directories by the others. -/
def nestedImports : ImportMap :=
  let file (names : List String) : Path := ⟨.slash, "src" :: names⟩
  [(file ["index.js"], [file ["app", "page.js"], file ["app", "api", "v1", "old.js"]]),
    (file ["app", "page.js"], [file ["index.js"]]),
    (file ["app", "api", "user.js"], [file ["app", "api", "v1", "old.js"], file ["app", "page.js"]]),
    (file ["app", "api", "v1", "old.js"], [])]

theorem directoryView_exact_nestedImports :
    (∃ nodes links, directoryView ⟨.slash, ["src"]⟩ nestedImports.members nestedImports = .ok (nodes, links) ∧
        IsDirectoryView ⟨.slash, ["src"]⟩ nestedImports.members nestedImports nodes links) ∧
      ∀ f ∈ nestedImports.members,
        f.relativeId ⟨.slash, ["src"]⟩ = .ok (Path.idBelow ⟨.slash, ["src"]⟩ f) ∧
        f.directoryKey ⟨.slash, ["src"]⟩ = .ok (Path.keyBelow ⟨.slash, ["src"]⟩ f) ∧
        IsDirectoryOf (Path.keyBelow ⟨.slash, ["src"]⟩ f) (Path.idBelow ⟨.slash, ["src"]⟩ f) :=
  directoryView_exact (by decide) (by decide) (by decide)

end RepoOrbit
