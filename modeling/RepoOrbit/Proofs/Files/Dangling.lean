import RepoOrbit.Proofs.Files.Pruning
import RepoOrbit.Proofs.Files.Unseen

/-!
# Links to nothing in a walk

A walk does not enter a link to nothing, but lists it if it has the name of a source file. Where
links to nothing are taken away, a walk finds the same files but for those links it listed
(`mem_discover_without_iff`); where it listed none, the source files are the same
(`sameSources_without`).
-/

namespace RepoOrbit.FileTree

variable {t : FileTree} {gone : List String → Bool}

/-- By these names a walk gets from the directory at `here` to a place of a kind. -/
inductive LeadsTo (t : FileTree) (gone : List String → Bool) : List String → List String → Prop
  | last {here : List String} {name : String} : gone (here ++ [name]) → LeadsTo t gone here [name]
  | inside {here place rest : List String} {name : String} {es : List (String × FileTree)} :
      t.findFrom? linkLimit here [name] = some (place, .directory es) → LeadsTo t gone place rest →
      LeadsTo t gone here (name :: rest)

theorem LeadsTo.ne_nil {here rest : List String} (h : t.LeadsTo gone here rest) : rest ≠ [] := by
  cases h <;> exact List.cons_ne_nil _ _

theorem leadsTo_singleton {here : List String} {name : String} :
    t.LeadsTo gone here [name] ↔ gone (here ++ [name]) := by
  constructor
  · intro h
    cases h with
    | last hgone => exact hgone
    | inside _ hrest => exact absurd rfl hrest.ne_nil
  · exact .last

theorem leadsTo_cons {here place rest : List String} {name : String} {es : List (String × FileTree)} (hrest : rest ≠ [])
    (hplace : t.findFrom? linkLimit here [name] = some (place, .directory es)) :
    t.LeadsTo gone here (name :: rest) ↔ t.LeadsTo gone place rest := by
  constructor
  · intro h
    cases h with
    | last => exact absurd rfl hrest
    | inside hplace' hleads =>
      obtain ⟨rfl, -⟩ := Prod.mk.inj (Option.some.inj (hplace.symm.trans hplace'))
      exact hleads
  · exact .inside hplace

/-! ## The files a walk finds -/

section

variable (hgone : ∀ p, gone p → t.dangles p)

include hgone

theorem mem_namesAt_without {here : List String} {name : String} :
    name ∈ (t.without gone).namesAt here ↔ name ∈ t.namesAt here ∧ ¬ gone (here ++ [name]) := by
  rw [mem_namesAt, mem_namesAt, at?_without (not_gone_nil hgone) (exists_link_of_gone hgone)]
  split
  · rename_i h
    simp [h]
  · rename_i h
    simp [h, Option.isSome_map]

/-- From the place of a directory a name leads to a directory of what is left exactly if it led to one. -/
theorem findFrom?_without_directory_iff {here place : List String} {name : String} (hhere : t.IsDirectoryPlace here) :
    (∃ es, (t.without gone).findFrom? linkLimit here [name] = some (place, .directory es)) ↔
      ∃ es, t.findFrom? linkLimit here [name] = some (place, .directory es) := by
  rw [findFrom?_without hgone (Nat.le_refl _) hhere]
  cases t.findFrom? linkLimit here [name] with
  | none => rfl
  | some found =>
    obtain ⟨place', e⟩ := found
    cases e <;> simp [pruned, without]

/-- A walk goes the same ways in what is left, and ends at the same files but for the links taken away. -/
theorem isFound_without_iff {here rest : List String} (hhere : t.IsDirectoryPlace here) :
    (t.without gone).IsFound here rest ↔ t.IsFound here rest ∧ ¬ t.LeadsTo gone here rest := by
  constructor
  · intro h
    induction h with
    | @file here name hname hhidden hsource hnot =>
      obtain ⟨hname, hkept⟩ := (mem_namesAt_without hgone).mp hname
      refine ⟨.file hname hhidden hsource fun place es hplace => ?_, mt leadsTo_singleton.mp hkept⟩
      obtain ⟨es', hplace'⟩ := (findFrom?_without_directory_iff hgone hhere).mpr ⟨es, hplace⟩
      exact hnot place es' hplace'
    | @inside here place rest name es hname hhidden hskipped hplace hfound ih =>
      obtain ⟨hname, -⟩ := (mem_namesAt_without hgone).mp hname
      obtain ⟨es', hplace'⟩ := (findFrom?_without_directory_iff hgone hhere).mp ⟨es, hplace⟩
      obtain ⟨hrest, hnot⟩ := ih (hhere.of_findFrom? hplace')
      exact ⟨.inside hname hhidden hskipped hplace' hrest, mt (leadsTo_cons hrest.ne_nil hplace').mp hnot⟩
  · rintro ⟨h, hnot⟩
    induction h with
    | @file here name hname hhidden hsource hfile =>
      refine .file ((mem_namesAt_without hgone).mpr ⟨hname, mt leadsTo_singleton.mpr hnot⟩) hhidden hsource
        fun place es hplace => ?_
      obtain ⟨es', hplace'⟩ := (findFrom?_without_directory_iff hgone hhere).mp ⟨es, hplace⟩
      exact hfile place es' hplace'
    | @inside here place rest name es hname hhidden hskipped hplace hfound ih =>
      obtain ⟨es', hplace'⟩ := (findFrom?_without_directory_iff hgone hhere).mpr ⟨es, hplace⟩
      refine .inside (mem_namesAt_of_findFrom? (ne_dots_of_not_isHidden hhidden) hplace') hhidden hskipped hplace' ?_
      exact ih (hhere.of_findFrom? hplace) (mt (leadsTo_cons hfound.ne_nil hplace).mpr hnot)

section

variable {start : List String} (hdirectory : t.holdsDirectory start)

include hdirectory

/-- Taking links to nothing away takes them from what a walk finds, and nothing else. -/
theorem mem_discover_without_iff (ht : t.wellNamed) {f : Path} :
    f ∈ (t.without gone).discover start ↔ f ∈ t.discover start ∧
      ∀ names, f = ⟨.slash, t.resolve start ++ names⟩ → ¬ t.LeadsTo gone (t.resolve start) names := by
  have hroot := isDirectoryPlace_resolve hdirectory
  have hcount : (t.without gone).directoryCount = t.directoryCount :=
    directoryCount_without ht fun p _ => exists_link_of_gone hgone p
  simp only [discover, resolve_without hgone hdirectory, hcount, List.mem_map, mem_sourcesFrom,
    isFound_without_iff hgone hroot]
  constructor
  · rintro ⟨_, ⟨rest, rfl, hlength, hfound, hnot⟩, rfl⟩
    refine ⟨⟨_, ⟨rest, rfl, hlength, hfound⟩, rfl⟩, fun names heq => ?_⟩
    obtain rfl := List.append_cancel_left (Path.mk.inj heq).2
    exact hnot
  · rintro ⟨⟨_, ⟨rest, rfl, hlength, hfound⟩, rfl⟩, hnot⟩
    exact ⟨_, ⟨rest, rfl, hlength, hfound, hnot rest rfl⟩, rfl⟩

theorem sameSources_without (ht : t.wellNamed)
    (h : ∀ names, ⟨.slash, t.resolve start ++ names⟩ ∈ t.discover start → ¬ t.LeadsTo gone (t.resolve start) names) :
    t.SameSources (t.without gone) start where
  resolve_eq := (resolve_without hgone hdirectory).symm
  mem_iff {f} := by
    rw [mem_discover_without_iff hgone hdirectory ht]
    exact ⟨fun hf => ⟨hf, fun names heq => h names (heq ▸ hf)⟩, And.left⟩
  text_eq _ := (text?_without hgone hdirectory _).symm

end

end

end RepoOrbit.FileTree
