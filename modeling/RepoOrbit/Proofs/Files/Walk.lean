import Mathlib.Data.List.Nodup
import RepoOrbit.Files.Walk
import RepoOrbit.Proofs.Files.Lookup

/-!
# What a walk finds

`discover` goes down a tree by the names in its directories. In a tree whose
directories name each entry once (`wellNamed`):

* `exists_names_of_mem_sourcesFrom`: a file found below a directory goes by further
  names, none of them with a slash;
* `nodup_discover`: no file is found twice;
* `mem_discover`: every file found lies below the real place of the directory.

A tree stays well named through a change (`wellNamed_change`).

A walk in a directory is a walk at each of its names (`sourcesAt`); what is found
at a name goes on from this name, which keeps the finds at two names apart.
-/

namespace RepoOrbit.FileTree

mutual

/-- Whether no directory of the tree has two entries of one name, or an entry
whose name has a slash in it. -/
def wellNamed : FileTree → Bool
  | .directory es => decide (es.map (·.1)).Nodup && wellNamedEntries es
  | _ => true

/-- Whether the names of the entries have no slash and what stands there is
well named. -/
def wellNamedEntries : List (String × FileTree) → Bool
  | [] => true
  | (name, t) :: rest => decide ('/' ∉ name.toList) && wellNamed t && wellNamedEntries rest

end

theorem wellNamedEntries_iff {es : List (String × FileTree)} :
    wellNamedEntries es ↔ ∀ e ∈ es, '/' ∉ e.1.toList ∧ e.2.wellNamed := by
  induction es with
  | nil => simp [wellNamedEntries]
  | cons e es ih =>
    obtain ⟨name, t⟩ := e
    simp only [wellNamedEntries, Bool.and_eq_true, decide_eq_true_eq, ih, List.forall_mem_cons]

theorem wellNamed_directory {es : List (String × FileTree)} :
    (directory es).wellNamed ↔ (es.map (·.1)).Nodup ∧ ∀ e ∈ es, '/' ∉ e.1.toList ∧ e.2.wellNamed := by
  rw [wellNamed, Bool.and_eq_true, decide_eq_true_eq, wellNamedEntries_iff]

theorem wellNamed_of_lookup {es : List (String × FileTree)} (hes : (directory es).wellNamed) {name : String}
    {t : FileTree} (h : es.lookup name = some t) : '/' ∉ name.toList ∧ t.wellNamed := by
  obtain ⟨before, after, rfl, -⟩ := List.lookup_eq_some_iff.mp h
  exact (wellNamed_directory.mp hes).2 (name, t) (by simp)

/-- What stands anywhere in a well named tree is well named. -/
theorem wellNamed_of_at? {t e : FileTree} {names : List String} (ht : t.wellNamed) (h : t.at? names = some e) :
    e.wellNamed := by
  induction names generalizing t with
  | nil => exact Option.some.inj h ▸ ht
  | cons n names ih =>
    rw [at?_cons] at h
    obtain ⟨s, hs, hrest⟩ := Option.bind_eq_some_iff.mp h
    cases t with
    | directory es => exact ih (wellNamed_of_lookup ht hs).2 hrest
    | file | link => simp [child?, entries] at hs

/-! ## Changing a well named tree -/

theorem mem_putEntry {name : String} {t : FileTree} {es : List (String × FileTree)} {e : String × FileTree}
    (h : e ∈ putEntry name t es) : e = (name, t) ∨ e ∈ es := by
  induction es with
  | nil => exact .inl (List.mem_singleton.mp h)
  | cons d es ih =>
    obtain ⟨n, s⟩ := d
    rw [putEntry] at h
    split at h
    · rename_i hn
      rw [hn] at h
      exact (List.mem_cons.mp h).imp_right (List.mem_cons_of_mem _)
    · rcases List.mem_cons.mp h with rfl | h
      · exact .inr List.mem_cons_self
      · exact (ih h).imp_right (List.mem_cons_of_mem _)

theorem nodup_putEntry {es : List (String × FileTree)} (h : (es.map (·.1)).Nodup) (name : String) (t : FileTree) :
    ((putEntry name t es).map (·.1)).Nodup := by
  induction es with
  | nil => exact List.nodup_singleton _
  | cons d es ih =>
    obtain ⟨n, s⟩ := d
    rw [List.map_cons, List.nodup_cons] at h
    rw [putEntry]
    split
    · rwa [List.map_cons, List.nodup_cons]
    · rename_i hn
      rw [List.map_cons, List.nodup_cons]
      refine ⟨fun hmem => ?_, ih h.2⟩
      obtain ⟨e, he, heq⟩ := List.mem_map.mp hmem
      rcases mem_putEntry he with rfl | he
      · exact hn heq.symm
      · exact h.1 (heq ▸ List.mem_map_of_mem he)

theorem wellNamed_putEntry {es : List (String × FileTree)} (hes : (directory es).wellNamed) {name : String}
    (hname : '/' ∉ name.toList) {t : FileTree} (ht : t.wellNamed) : (directory (putEntry name t es)).wellNamed := by
  obtain ⟨hnodup, hentries⟩ := wellNamed_directory.mp hes
  refine wellNamed_directory.mpr ⟨nodup_putEntry hnodup name t, fun e he => ?_⟩
  rcases mem_putEntry he with rfl | he
  · exact ⟨hname, ht⟩
  · exact hentries e he

theorem wellNamed_put {t new : FileTree} (ht : t.wellNamed) (hnew : new.wellNamed) {p : List String}
    (hp : ∀ n ∈ p, '/' ∉ n.toList) : (t.put p new).wellNamed := by
  induction p generalizing t with
  | nil => exact hnew
  | cons n p ih =>
    obtain ⟨hn, hp⟩ := List.forall_mem_cons.mp hp
    cases t with
    | file | link => rfl
    | directory es =>
      refine wellNamed_putEntry ht hn (ih ?_ hp)
      cases hl : es.lookup n with
      | none => rfl
      | some e => exact (wellNamed_of_lookup ht hl).2

theorem wellNamed_remove {t : FileTree} (ht : t.wellNamed) (p : List String) : (t.remove p).wellNamed := by
  induction p generalizing t with
  | nil => exact ht
  | cons n p ih =>
    cases t with
    | file | link => cases p <;> rfl
    | directory es =>
      cases p with
      | nil =>
        obtain ⟨hnodup, hentries⟩ := wellNamed_directory.mp ht
        exact wellNamed_directory.mpr ⟨hnodup.sublist (List.filter_sublist.map _),
          fun e he => hentries e (List.mem_of_mem_filter he)⟩
      | cons m p =>
        cases hl : es.lookup n with
        | none => rwa [remove_of_lookup_none hl]
        | some e =>
          obtain ⟨hn, he⟩ := wellNamed_of_lookup ht hl
          rw [remove_of_lookup_some hl]
          exact wellNamed_putEntry ht hn (ih he)

/-- A well named tree is still well named when something well named is put into it or something
is taken away. -/
theorem wellNamed_change {t : FileTree} (ht : t.wellNamed) {p : List String} (hp : ∀ n ∈ p, '/' ∉ n.toList)
    {content : Option FileTree} (hcontent : ∀ new ∈ content, new.wellNamed) : (t.change p content).wellNamed := by
  cases content with
  | none => exact wellNamed_remove ht p
  | some new => exact wellNamed_put ht (hcontent new rfl) hp

/-! ## The names in a directory -/

/-- The names of the directory at a place. -/
def namesAt (t : FileTree) (here : List String) : List String := (((t.at? here).map entries).getD []).map (·.1)

theorem namesAt_wellNamed {t : FileTree} (ht : t.wellNamed) (here : List String) :
    (t.namesAt here).Nodup ∧ ∀ n ∈ t.namesAt here, '/' ∉ n.toList := by
  unfold namesAt
  cases he : t.at? here with
  | none => simp
  | some e =>
    cases e with
    | directory es =>
      obtain ⟨hnodup, hentries⟩ := wellNamed_directory.mp (wellNamed_of_at? ht he)
      refine ⟨hnodup, fun n hn => ?_⟩
      obtain ⟨entry, hentry, rfl⟩ := List.mem_map.mp hn
      exact (hentries entry hentry).1
    | file | link => simp [entries]

/-! ## The walk, name by name -/

/-- What the walk finds at one name of the directory that is shown as `shown` and
stands at `here`. -/
def sourcesAt (t : FileTree) (depth : Nat) (shown here : List String) (name : String) : List (List String) :=
  if isHidden name then []
  else
    match t.findFrom? linkLimit here [name] with
    | some (place, .directory _) =>
      if skippedDirectories.contains name then [] else t.sourcesFrom depth (shown ++ [name]) place
    | _ => if isSourceName name then [shown ++ [name]] else []

theorem sourcesFrom_succ (t : FileTree) (depth : Nat) (shown here : List String) :
    t.sourcesFrom (depth + 1) shown here = (t.namesAt here).flatMap (t.sourcesAt depth shown here) := by
  rw [namesAt, List.flatMap_map]
  rfl

/-- At a name there is nothing to find, a source file, or what is found in a
directory. -/
theorem sourcesAt_cases (t : FileTree) (depth : Nat) (shown here : List String) (name : String) :
    t.sourcesAt depth shown here name = [] ∨ t.sourcesAt depth shown here name = [shown ++ [name]] ∨
      ∃ place, t.sourcesAt depth shown here name = t.sourcesFrom depth (shown ++ [name]) place := by
  unfold sourcesAt
  split
  · exact .inl rfl
  · split
    · rename_i place es _
      split
      · exact .inl rfl
      · exact .inr (.inr ⟨place, rfl⟩)
    · split
      · exact .inr (.inl rfl)
      · exact .inl rfl

/-- A file found goes by further names, none of them with a slash. -/
theorem exists_names_of_mem_sourcesFrom {t : FileTree} (ht : t.wellNamed) {depth : Nat}
    {shown here names : List String} (h : names ∈ t.sourcesFrom depth shown here) :
    ∃ rest, rest ≠ [] ∧ (∀ n ∈ rest, '/' ∉ n.toList) ∧ names = shown ++ rest := by
  induction depth generalizing shown here with
  | zero => cases h
  | succ depth ih =>
    rw [sourcesFrom_succ] at h
    obtain ⟨name, hname, hfound⟩ := List.mem_flatMap.mp h
    have hslash := (namesAt_wellNamed ht here).2 name hname
    rcases t.sourcesAt_cases depth shown here name with hnone | hfile | ⟨place, hplace⟩
    · rw [hnone] at hfound
      cases hfound
    · rw [hfile, List.mem_singleton] at hfound
      exact ⟨[name], by simp, by simpa using hslash, hfound⟩
    · rw [hplace] at hfound
      obtain ⟨rest, -, hrest, rfl⟩ := ih hfound
      exact ⟨name :: rest, by simp, List.forall_mem_cons.mpr ⟨hslash, hrest⟩, by simp⟩

theorem prefix_of_mem_sourcesAt {t : FileTree} (ht : t.wellNamed) {depth : Nat} {shown here names : List String}
    {name : String} (h : names ∈ t.sourcesAt depth shown here name) : shown ++ [name] <+: names := by
  rcases t.sourcesAt_cases depth shown here name with hnone | hfile | ⟨place, hplace⟩
  · rw [hnone] at h
    cases h
  · rw [hfile, List.mem_singleton] at h
    subst h
    exact List.prefix_rfl
  · rw [hplace] at h
    obtain ⟨rest, -, -, rfl⟩ := exists_names_of_mem_sourcesFrom ht h
    exact List.prefix_append _ _

theorem disjoint_sourcesAt {t : FileTree} (ht : t.wellNamed) (depth : Nat) (shown here : List String)
    {a b : String} (hne : a ≠ b) : (t.sourcesAt depth shown here a).Disjoint (t.sourcesAt depth shown here b) := by
  intro names ha hb
  have hpa := prefix_of_mem_sourcesAt ht ha
  have hpb := prefix_of_mem_sourcesAt ht hb
  rcases List.prefix_or_prefix_of_prefix hpa hpb with hab | hba
  · exact (apart_of_ne hne).1 hab
  · exact (apart_of_ne hne).2 hba

theorem nodup_sourcesFrom {t : FileTree} (ht : t.wellNamed) (depth : Nat) (shown here : List String) :
    (t.sourcesFrom depth shown here).Nodup := by
  induction depth generalizing shown here with
  | zero => exact List.nodup_nil
  | succ depth ih =>
    rw [sourcesFrom_succ, List.nodup_flatMap]
    constructor
    · intro name _
      rcases t.sourcesAt_cases depth shown here name with hnone | hfile | ⟨place, hplace⟩
      · rw [hnone]
        exact List.nodup_nil
      · rw [hfile]
        exact List.nodup_singleton _
      · rw [hplace]
        exact ih _ _
    · exact (namesAt_wellNamed ht here).1.imp fun hne => disjoint_sourcesAt ht depth shown here hne

/-! ## The files found -/

/-- No file is found twice. -/
theorem nodup_discover {t : FileTree} (ht : t.wellNamed) (start : List String) : (t.discover start).Nodup :=
  (nodup_sourcesFrom ht _ _ _).map fun _ _ h => (Path.mk.inj h).2

/-- Every file found lies below the real place of the directory. -/
theorem mem_discover {t : FileTree} (ht : t.wellNamed) {start : List String} {p : Path}
    (h : p ∈ t.discover start) :
    ∃ rest, rest ≠ [] ∧ (∀ n ∈ rest, '/' ∉ n.toList) ∧ p = ⟨.slash, t.resolve start ++ rest⟩ := by
  obtain ⟨names, hnames, rfl⟩ := List.mem_map.mp h
  obtain ⟨rest, hne, hslash, rfl⟩ := exists_names_of_mem_sourcesFrom ht hnames
  exact ⟨rest, hne, hslash, rfl⟩

theorem discover_resolve (t : FileTree) (start : List String) :
    t.discover (t.resolve start) = t.discover start := by
  simp only [discover, resolve_resolve]

end RepoOrbit.FileTree
