import RepoOrbit.Imports.Edges
import RepoOrbit.Proofs.Files.Walk

/-!
# Which files a walk finds

A walk finds a file by the names on its way to it (`FileTree.IsFound`, `mem_sourcesFrom`).
Where there are no links (`linkFree`) these are the names of the place where the file
stands, so that the files found are those at source places (`mem_discover_iff`): the names
above such a file are neither hidden nor those of skipped directories, and its own name is
that of a source file (`isSourcePlace`).

A walk goes down only so many directories, but there is no place below these
(`length_le_directoryCount`). The texts of the files found are what stands at their places
(`text?_below`).
-/

namespace RepoOrbit.FileTree

/-! ## The way to a file -/

/-- By these names a walk gets from the directory at `here` to a source file. -/
inductive IsFound (t : FileTree) : List String → List String → Prop
  | file {here : List String} {name : String} : name ∈ t.namesAt here → ¬ isHidden name → isSourceName name →
      (∀ place es, t.findFrom? linkLimit here [name] ≠ some (place, .directory es)) → IsFound t here [name]
  | inside {here place rest : List String} {name : String} {es : List (String × FileTree)} :
      name ∈ t.namesAt here → ¬ isHidden name → ¬ skippedDirectories.contains name →
      t.findFrom? linkLimit here [name] = some (place, .directory es) → IsFound t place rest →
      IsFound t here (name :: rest)

theorem IsFound.ne_nil {t : FileTree} {here rest : List String} (h : t.IsFound here rest) : rest ≠ [] := by
  cases h <;> exact List.cons_ne_nil _ _

/-- A walk finds what it gets to by no more names than the directories it may enter. -/
theorem mem_sourcesFrom {t : FileTree} {depth : Nat} {shown here names : List String} :
    names ∈ t.sourcesFrom depth shown here ↔
      ∃ rest, names = shown ++ rest ∧ rest.length ≤ depth ∧ t.IsFound here rest := by
  induction depth generalizing shown here with
  | zero =>
    constructor
    · exact nofun
    · rintro ⟨rest, -, hlength, hfound⟩
      exact absurd (List.eq_nil_of_length_eq_zero (Nat.le_zero.mp hlength)) hfound.ne_nil
  | succ depth ih =>
    rw [sourcesFrom_succ, List.mem_flatMap]
    constructor
    · rintro ⟨name, hname, hmem⟩
      unfold sourcesAt at hmem
      split at hmem
      · cases hmem
      · rename_i hhidden
        split at hmem
        · rename_i place es hdirectory
          split at hmem
          · cases hmem
          · rename_i hskipped
            obtain ⟨rest, rfl, hlength, hfound⟩ := ih.mp hmem
            exact ⟨name :: rest, by simp, Nat.succ_le_succ hlength, .inside hname hhidden hskipped hdirectory hfound⟩
        · rename_i hnot
          split at hmem
          · rename_i hsource
            obtain rfl := List.mem_singleton.mp hmem
            exact ⟨[name], rfl, Nat.succ_le_succ (Nat.zero_le _), .file hname hhidden hsource hnot⟩
          · cases hmem
    · rintro ⟨rest, rfl, hlength, hfound⟩
      cases hfound with
      | @file _ name hname hhidden hsource hnot =>
        refine ⟨name, hname, ?_⟩
        rw [sourcesAt, if_neg hhidden]
        split
        · rename_i place es hdirectory
          exact absurd hdirectory (hnot place es)
        · rw [if_pos hsource]
          exact List.mem_singleton_self _
      | @inside _ place rest name es hname hhidden hskipped hdirectory hfound =>
        refine ⟨name, hname, ?_⟩
        rw [sourcesAt, if_neg hhidden, hdirectory]
        dsimp only
        rw [if_neg hskipped]
        exact ih.mpr ⟨rest, by simp, Nat.le_of_succ_le_succ hlength, hfound⟩

/-! ## Trees without links -/

mutual

/-- Whether there is no link in the tree. -/
def linkFree : FileTree → Bool
  | .directory es => linkFreeEntries es
  | .file _ => true
  | .link _ => false

/-- Whether there is no link at the entries and below them. -/
def linkFreeEntries : List (String × FileTree) → Bool
  | [] => true
  | (_, t) :: rest => linkFree t && linkFreeEntries rest

end

theorem linkFree_directory {es : List (String × FileTree)} :
    (directory es).linkFree ↔ ∀ e ∈ es, e.2.linkFree := by
  rw [linkFree]
  induction es with
  | nil => simp [linkFreeEntries]
  | cons e es ih =>
    obtain ⟨name, t⟩ := e
    simp only [linkFreeEntries, Bool.and_eq_true, ih, List.forall_mem_cons]

/-- Nowhere in a tree without links is there a link. -/
theorem ne_link_of_at? {t : FileTree} (ht : t.linkFree) {names : List String} {target : String} :
    t.at? names ≠ some (.link target) := by
  induction names generalizing t with
  | nil =>
    rintro h
    obtain rfl := Option.some.inj h
    cases ht
  | cons n names ih =>
    intro h
    rw [at?_cons] at h
    obtain ⟨s, hs, hrest⟩ := Option.bind_eq_some_iff.mp h
    cases t with
    | directory es =>
      obtain ⟨before, after, rfl, -⟩ := List.lookup_eq_some_iff.mp hs
      exact ih (linkFree_directory.mp ht (n, s) (by simp)) hrest
    | file | link => simp [child?, entries] at hs

/-- No link stands at a place or below it. -/
def NoLinksBelow (t : FileTree) (here : List String) : Prop :=
  ∀ rest target, t.at? (here ++ rest) ≠ some (.link target)

theorem NoLinksBelow.append {t : FileTree} {here : List String} (h : t.NoLinksBelow here) (names : List String) :
    t.NoLinksBelow (here ++ names) := by
  intro rest target
  rw [List.append_assoc]
  exact h (names ++ rest) target

theorem noLinksBelow_of_all {t : FileTree} {here : List String} (h : (t.at? here).all linkFree) :
    t.NoLinksBelow here := by
  intro rest target heq
  rw [at?_append] at heq
  obtain ⟨e, he, hlink⟩ := Option.bind_eq_some_iff.mp heq
  rw [he, Option.all_some] at h
  exact ne_link_of_at? h hlink

/-! ## Source places -/

/-- Whether a walk that starts above a place would list a file that stands there. -/
def isSourcePlace : List String → Bool
  | [] => false
  | [name] => !isHidden name && isSourceName name
  | name :: rest => !isHidden name && !skippedDirectories.contains name && isSourcePlace rest

theorem isSourcePlace_singleton {name : String} : isSourcePlace [name] ↔ ¬ isHidden name ∧ isSourceName name := by
  simp [isSourcePlace]

theorem isSourcePlace_cons {name : String} {rest : List String} (h : rest ≠ []) :
    isSourcePlace (name :: rest) ↔ ¬ isHidden name ∧ ¬ skippedDirectories.contains name ∧ isSourcePlace rest := by
  cases rest with
  | nil => exact absurd rfl h
  | cons m rest => simp [isSourcePlace, and_assoc]

theorem ne_dots_of_not_isHidden {name : String} (h : ¬ isHidden name) : name ≠ ".." := by
  rintro rfl
  exact h (by decide +kernel)

theorem dots_not_mem_of_isSourcePlace {names : List String} (h : isSourcePlace names) : ".." ∉ names := by
  induction names with
  | nil => exact List.not_mem_nil
  | cons n rest ih =>
    rcases eq_or_ne rest [] with rfl | hrest
    · exact fun hmem => ne_dots_of_not_isHidden (isSourcePlace_singleton.mp h).1 (List.mem_singleton.mp hmem).symm
    · obtain ⟨hn, -, hrest⟩ := (isSourcePlace_cons hrest).mp h
      intro hmem
      rcases List.mem_cons.mp hmem with heq | hmem
      · exact ne_dots_of_not_isHidden hn heq.symm
      · exact ih hrest hmem

theorem mem_namesAt {t : FileTree} {here : List String} {name : String} :
    name ∈ t.namesAt here ↔ (t.at? (here ++ [name])).isSome := by
  rw [at?_concat, namesAt]
  cases t.at? here with
  | none => simp
  | some e =>
    rw [Option.bind_some, Option.map_some, Option.getD_some, child?, ← Option.ne_none_iff_isSome, Ne,
      List.lookup_eq_none_iff, List.mem_map]
    simp only [bne_iff_ne]
    constructor
    · rintro ⟨entry, hentry, rfl⟩ hnone
      exact hnone entry hentry rfl
    · intro hnot
      by_contra hall
      exact hnot fun entry hentry heq => hall ⟨entry, hentry, heq.symm⟩

/-- A name that leads to something is a name of the directory. -/
theorem mem_namesAt_of_findFrom? {t : FileTree} {links : Nat} {here : List String} {name : String}
    {found : List String × FileTree} (hname : name ≠ "..") (h : t.findFrom? links here [name] = some found) :
    name ∈ t.namesAt here := by
  rw [mem_namesAt, at?_concat]
  cases hstands : (t.at? here).bind (·.child? name) with
  | some e => rfl
  | none =>
    have hnone : t.findFrom? links here [name] = none := by
      cases links <;> rw [findFrom?, findWith, if_neg hname, hstands]
    cases hnone.symm.trans h

section

variable {t : FileTree} {here : List String}

/-- A name that is not `..` leads to what stands there, if there are no links. -/
theorem NoLinksBelow.findFrom?_eq (h : t.NoLinksBelow here) {name : String} {e : FileTree} (hname : name ≠ "..")
    (he : t.at? (here ++ [name]) = some e) : t.findFrom? linkLimit here [name] = some (here ++ [name], e) := by
  refine findFrom?_of_at? linkLimit he (by simpa using hname.symm) fun target heq => ?_
  exact h [name] target (heq ▸ he)

/-- Without links, a walk gets to the files at source places by the names of these. -/
theorem NoLinksBelow.isFound_iff (h : t.NoLinksBelow here) {rest : List String} :
    t.IsFound here rest ↔ isSourcePlace rest ∧ ∃ bytes, t.at? (here ++ rest) = some (.file bytes) := by
  constructor
  · intro hfound
    induction hfound with
    | @file here name hname hhidden hsource hnot =>
      obtain ⟨e, he⟩ := Option.isSome_iff_exists.mp (mem_namesAt.mp hname)
      have hfind := h.findFrom?_eq (ne_dots_of_not_isHidden hhidden) he
      refine ⟨isSourcePlace_singleton.mpr ⟨hhidden, hsource⟩, ?_⟩
      cases e with
      | file bytes => exact ⟨bytes, he⟩
      | directory es => exact absurd hfind (hnot _ es)
      | link target => exact absurd he (h [name] target)
    | @inside here place rest name es hname hhidden hskipped hdirectory hfound ih =>
      obtain ⟨e, he⟩ := Option.isSome_iff_exists.mp (mem_namesAt.mp hname)
      have hfind := h.findFrom?_eq (ne_dots_of_not_isHidden hhidden) he
      obtain ⟨rfl, -⟩ := Prod.mk.inj (Option.some.inj (hdirectory.symm.trans hfind))
      obtain ⟨hrest, bytes, hbytes⟩ := ih (h.append [name])
      refine ⟨(isSourcePlace_cons hfound.ne_nil).mpr ⟨hhidden, hskipped, hrest⟩, bytes, ?_⟩
      rwa [List.append_assoc] at hbytes
  · rintro ⟨hsource, bytes, hbytes⟩
    induction rest generalizing here with
    | nil => cases hsource
    | cons name rest ih =>
      rw [List.append_cons] at hbytes
      have hsome : (t.at? (here ++ [name])).isSome := by
        rw [at?_append] at hbytes
        obtain ⟨e, he, -⟩ := Option.bind_eq_some_iff.mp hbytes
        rw [he]
        rfl
      obtain ⟨e, he⟩ := Option.isSome_iff_exists.mp hsome
      rcases eq_or_ne rest [] with rfl | hrest
      · obtain ⟨hhidden, hname⟩ := isSourcePlace_singleton.mp hsource
        have hfind := h.findFrom?_eq (ne_dots_of_not_isHidden hhidden) he
        rw [List.append_nil, he] at hbytes
        obtain rfl := Option.some.inj hbytes
        refine .file (mem_namesAt.mpr hsome) hhidden hname fun place es heq => ?_
        cases hfind.symm.trans heq
      · obtain ⟨hhidden, hskipped, hsource⟩ := (isSourcePlace_cons hrest).mp hsource
        have hfind := h.findFrom?_eq (ne_dots_of_not_isHidden hhidden) he
        have hfound := ih (h.append [name]) hsource hbytes
        cases e with
        | directory es => exact .inside (mem_namesAt.mpr hsome) hhidden hskipped hfind hfound
        | file | link =>
          obtain ⟨m, rest, rfl⟩ := List.exists_cons_of_ne_nil hrest
          rw [at?_append, he, Option.bind_some, at?_cons] at hbytes
          simp [child?, entries] at hbytes

end

/-! ## All places are near enough -/

theorem directoryCount_le_of_mem {es : List (String × FileTree)} {e : String × FileTree} (h : e ∈ es) :
    e.2.directoryCount ≤ directoryCountOfEntries es := by
  induction es with
  | nil => cases h
  | cons e' es ih =>
    obtain ⟨name, t⟩ := e'
    rw [directoryCountOfEntries]
    rcases List.mem_cons.mp h with rfl | h
    · exact Nat.le_add_right _ _
    · exact Nat.le_trans (ih h) (Nat.le_add_left _ _)

/-- A place in a tree has no more names than there are directories in the tree. -/
theorem length_le_directoryCount {t e : FileTree} {names : List String} (h : t.at? names = some e) :
    names.length ≤ t.directoryCount := by
  induction names generalizing t with
  | nil => exact Nat.zero_le _
  | cons n names ih =>
    rw [at?_cons] at h
    obtain ⟨s, hs, hrest⟩ := Option.bind_eq_some_iff.mp h
    cases t with
    | directory es =>
      obtain ⟨before, after, heq, -⟩ := List.lookup_eq_some_iff.mp hs
      have hmem : (n, s) ∈ es := by simp [show es = _ from heq]
      have hbelow := Nat.le_trans (ih hrest) (directoryCount_le_of_mem hmem)
      rw [directoryCount, List.length_cons]
      exact Nat.succ_le_succ hbelow
    | file | link => simp [child?, entries] at hs

section

variable {t : FileTree} {start root : List String} (hroot : t.resolve start = root)

include hroot

/-- Without links, the source files below a directory are the files at source places. -/
theorem mem_discover_iff (h : t.NoLinksBelow root) {f : Path} :
    f ∈ t.discover start ↔ ∃ rest bytes, f = ⟨.slash, root ++ rest⟩ ∧ isSourcePlace rest ∧
      t.at? (root ++ rest) = some (.file bytes) := by
  simp only [discover, hroot, List.mem_map, mem_sourcesFrom, h.isFound_iff]
  constructor
  · rintro ⟨names, ⟨rest, rfl, -, hsource, bytes, hbytes⟩, rfl⟩
    exact ⟨rest, bytes, rfl, hsource, hbytes⟩
  · rintro ⟨rest, bytes, rfl, hsource, hbytes⟩
    have hlength := length_le_directoryCount hbytes
    rw [List.length_append] at hlength
    exact ⟨_, ⟨rest, rfl, by omega, hsource, bytes, hbytes⟩, rfl⟩

/-- What can be read of a file below a directory, unless the links on the way to this do not
come to an end. -/
theorem text?_below {rest : List String} {bytes : List UInt8} (hrest : rest ≠ []) (hdots : ".." ∉ rest)
    (h : t.at? (root ++ rest) = some (.file bytes)) :
    t.text? ⟨.slash, root ++ rest⟩ = (t.resolveFrom? linkLimit [] start).map fun _ => Text.ofFile bytes := by
  cases hplace : t.resolveFrom? linkLimit [] start with
  | some place =>
    rw [resolve, hplace, Option.getD_some] at hroot
    subst hroot
    have hsettled := isSettled_of_resolveFrom? hplace t.isSettled_nil
    have hfind : t.find? (place ++ rest) = some (place ++ rest, .file bytes) := by
      rw [find?]
      exact findFrom?_of_at? linkLimit h (by simp [hsettled.dots_not_mem, hdots]) fun _ => FileTree.noConfusion
    simp only [text?, hfind, Option.map_some]
  | none =>
    rw [resolve, hplace, Option.getD_none] at hroot
    subst hroot
    have hnone : t.find? (start ++ rest) = none := by
      rw [find?, Option.eq_none_iff_forall_ne_some]
      intro found hfound
      obtain ⟨place, es, hstart⟩ := findFrom?_append t linkLimit hrest hdots hfound
      rw [resolveFrom?_of_findFrom? hstart] at hplace
      cases hplace
    simp only [text?, hnone, Option.map_none]

end

end RepoOrbit.FileTree
