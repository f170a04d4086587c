import RepoOrbit.Imports.Edges
import RepoOrbit.Proofs.Files.Sources
import RepoOrbit.Proofs.Lists

/-!
# Taking links to nothing away

`FileTree.without` takes all places of a kind out of a tree. Where these are links that lead to
nothing (`dangles`), every lookup finds in what is left what it found before (`find?_without`):
no way to something goes through such a link. So the place of a directory is resolved as before
(`resolve_without`), and the texts of files are the same (`text?_without`). No directory goes
(`directoryCount_without`), and a well named tree stays one (`wellNamed_without`).
-/

namespace RepoOrbit.FileTree

mutual

/-- The tree without the places of a kind. -/
def without (gone : List String → Bool) : FileTree → FileTree
  | .directory es => .directory (withoutEntries gone es)
  | .file bytes => .file bytes
  | .link target => .link target

/-- The entries without the places of a kind. -/
def withoutEntries (gone : List String → Bool) : List (String × FileTree) → List (String × FileTree)
  | [] => []
  | (name, t) :: rest =>
    if gone [name] then withoutEntries gone rest
    else (name, without (fun p => gone (name :: p)) t) :: withoutEntries gone rest

end

/-- Whether a link stands at a place and leads to nothing. -/
def dangles (t : FileTree) (place : List String) : Bool :=
  match t.at? place with
  | some (.link _) => !t.holds place
  | _ => false

theorem dangles_iff {t : FileTree} {place : List String} :
    t.dangles place ↔ (∃ target, t.at? place = some (.link target)) ∧ t.find? place = none := by
  unfold dangles
  split
  · rename_i target htarget
    simp [htarget, holds]
  · rename_i hnot
    simp only [Bool.false_eq_true, false_iff, not_and]
    rintro ⟨target, htarget⟩
    exact absurd htarget (hnot target)

section

variable {t : FileTree} {gone : List String → Bool}

theorem lookup_withoutEntries (gone : List String → Bool) (es : List (String × FileTree)) (name : String) :
    (withoutEntries gone es).lookup name =
      if gone [name] then none else (es.lookup name).map (without fun p => gone (name :: p)) := by
  induction es with
  | nil =>
    rw [withoutEntries]
    split <;> rfl
  | cons e es ih =>
    obtain ⟨n, t⟩ := e
    rw [withoutEntries]
    by_cases hname : name = n
    · subst hname
      split
      · rename_i hgone
        rw [ih, if_pos hgone]
      · rw [List.lookup_cons_self, List.lookup_cons_self, Option.map_some]
    · rw [lookup_cons_of_ne hname, ← ih]
      split
      · rfl
      · rw [lookup_cons_of_ne hname]

/-- What stands at a place once links have been taken away. -/
theorem at?_without (hself : ¬ gone []) (hlinks : ∀ p, gone p → ∃ target, t.at? p = some (.link target))
    (p : List String) :
    (t.without gone).at? p = if gone p then none else (t.at? p).map (without fun q => gone (p ++ q)) := by
  induction p generalizing t gone with
  | nil =>
    rw [if_neg hself]
    rfl
  | cons n p ih =>
    cases t with
    | file | link =>
      rw [without]
      split <;> rfl
    | directory es =>
      rw [without, at?_cons, child?_directory, lookup_withoutEntries]
      split
      · rename_i hn
        obtain ⟨target, htarget⟩ := hlinks [n] hn
        obtain ⟨e, he, hlink⟩ := Option.bind_eq_some_iff.mp htarget
        obtain rfl : e = .link target := Option.some.inj hlink
        cases p with
        | nil => rw [if_pos hn, Option.bind_none]
        | cons m p =>
          rw [at?_cons, he]
          split <;> rfl
      · rename_i hn
        rw [at?_cons, child?_directory]
        cases he : es.lookup n with
        | none => split <;> rfl
        | some e =>
          rw [Option.map_some, Option.bind_some, Option.bind_some]
          refine ih hn fun q hq => ?_
          obtain ⟨target, htarget⟩ := hlinks (n :: q) hq
          rw [at?_cons, child?_directory, he, Option.bind_some] at htarget
          exact ⟨target, htarget⟩

/-- What is found, without the places of a kind. -/
def pruned (gone : List String → Bool) (found : List String × FileTree) : List String × FileTree :=
  (found.1, found.2.without fun p => gone (found.1 ++ p))

/-! ## Where a lookup starts -/

section

variable {start : List String} (hdirectory : t.holdsDirectory start)

include hdirectory

theorem isDirectoryPlace_resolve : t.IsDirectoryPlace (t.resolve start) := by
  obtain ⟨place, es, hfound⟩ := find?_of_holdsDirectory hdirectory
  obtain ⟨hes, hdots⟩ := at?_of_find? hfound
  rw [resolve_of_find? hfound]
  exact ⟨hdots, es, hes⟩

theorem isDirectoryPlace_nil : t.IsDirectoryPlace [] := .of_append (isDirectoryPlace_resolve hdirectory)

end

/-! ## Lookups -/

/-- Up to the first link the same is found, if the same is found from there on and nothing was found
through a link that has been taken away. -/
theorem findWith_without (hself : ¬ gone []) (hlinks : ∀ p, gone p → ∃ target, t.at? p = some (.link target))
    {follow follow' : List String → List String → Option (List String × FileTree)}
    (hfollow : ∀ {here todo}, t.IsDirectoryPlace here → follow' here todo = (follow here todo).map (pruned gone))
    (hgone : ∀ {here name target}, t.IsDirectoryPlace here → name ≠ ".." → gone (here ++ [name]) →
      t.at? (here ++ [name]) = some (.link target) →
      ∀ rest, follow (linkOrigin (Path.ofString target) here) ((Path.ofString target).names ++ rest) = none)
    {here todo : List String} (hhere : t.IsDirectoryPlace here) :
    (t.without gone).findWith follow' here todo = (t.findWith follow here todo).map (pruned gone) := by
  have hstands := at?_without hself hlinks
  induction todo generalizing here with
  | nil =>
    obtain ⟨es, hes⟩ := hhere.directory
    have hkept : ¬ gone here := fun hgone => by
      obtain ⟨target, htarget⟩ := hlinks here hgone
      cases hes.symm.trans htarget
    rw [findWith, findWith, hstands, if_neg hkept, hes]
    rfl
  | cons name rest ih =>
    rw [findWith, findWith]
    by_cases hname : name = ".."
    · rw [if_pos hname, if_pos hname]
      exact ih hhere.dropLast
    · rw [if_neg hname, if_neg hname, ← at?_concat, ← at?_concat, hstands]
      cases he : t.at? (here ++ [name]) with
      | none =>
        rw [Option.map_none, ite_self]
        rfl
      | some e =>
        by_cases hg : gone (here ++ [name])
        · -- in what is left nothing stands here; before, a link did that no way to something goes through
          obtain ⟨target, htarget⟩ := hlinks _ hg
          obtain rfl := Option.some.inj (he.symm.trans htarget)
          rw [if_pos hg]
          simp only [hgone hhere hname hg he rest, Option.map_none]
        · rw [if_neg hg, Option.map_some]
          cases e with
          | directory es =>
            have hplace := hhere.concat hname (by rw [← at?_concat, he])
            simp only [without]
            exact ih hplace
          | file bytes =>
            simp only [without]
            split <;> rfl
          | link target =>
            simp only [without]
            exact hfollow (hhere.linkOrigin _)

section

variable (hgone : ∀ p, gone p → t.dangles p)

include hgone

theorem not_gone_nil : ¬ gone [] := fun h => by
  obtain ⟨-, hnothing⟩ := dangles_iff.mp (hgone [] h)
  rw [find?] at hnothing
  cases hnothing

theorem exists_link_of_gone (p : List String) (h : gone p) : ∃ target, t.at? p = some (.link target) :=
  (dangles_iff.mp (hgone p h)).1

/-- No way to something goes through a link to nothing. -/
theorem findFrom?_of_gone {links : Nat} (hle : links < linkLimit) {here : List String} {name target : String}
    (hhere : t.IsDirectoryPlace here) (hname : name ≠ "..") (h : gone (here ++ [name]))
    (htarget : t.at? (here ++ [name]) = some (.link target)) (rest : List String) :
    t.findFrom? links (linkOrigin (Path.ofString target) here) ((Path.ofString target).names ++ rest) = none := by
  refine Option.eq_none_iff_forall_ne_some.mpr fun found hfound => ?_
  obtain ⟨found', hfound'⟩ := exists_findFrom?_of_append (hhere.linkOrigin _) hfound
  have hname' : t.findFrom? (links + 1) here [name] = some found' := by
    rw [findFrom?, findWith, if_neg hname, ← at?_concat, htarget]
    dsimp only
    rw [List.append_nil, hfound']
  have hfind : t.find? (here ++ [name]) = some found' := by
    have hplace : t.IsDirectoryPlace ([] ++ here) := hhere
    rw [find?, findFrom?_of_isDirectoryPlace linkLimit hplace]
    exact findFrom?_mono hle hname'
  obtain ⟨-, hnothing⟩ := dangles_iff.mp (hgone _ h)
  cases hfind.symm.trans hnothing

/-- From the place of a directory the same is found when links to nothing have been taken away. -/
theorem findFrom?_without {links : Nat} (hle : links ≤ linkLimit) {here todo : List String}
    (hhere : t.IsDirectoryPlace here) :
    (t.without gone).findFrom? links here todo = (t.findFrom? links here todo).map (pruned gone) := by
  have hself := not_gone_nil hgone
  have hlinks := exists_link_of_gone hgone
  induction links generalizing here todo with
  | zero =>
    refine findWith_without hself hlinks ?_ ?_ hhere
    · exact fun _ => rfl
    · exact fun _ _ _ _ _ => rfl
  | succ links ih =>
    exact findWith_without hself hlinks (ih (Nat.le_of_succ_le hle)) (findFrom?_of_gone hgone hle) hhere

section

variable {start : List String} (hdirectory : t.holdsDirectory start)

include hdirectory

/-- Without links to nothing the same places lead to something, and to the same. -/
theorem find?_without (names : List String) :
    (t.without gone).find? names = (t.find? names).map (pruned gone) := by
  rw [find?, find?]
  exact findFrom?_without hgone (Nat.le_refl _) (isDirectoryPlace_nil hdirectory)

theorem resolve_without : (t.without gone).resolve start = t.resolve start := by
  obtain ⟨place, es, hfound⟩ := find?_of_holdsDirectory hdirectory
  have hpruned := find?_without hgone hdirectory start
  rw [hfound, Option.map_some] at hpruned
  rw [resolve_of_find? hfound, resolve_of_find? hpruned]

theorem text?_without (f : Path) : (t.without gone).text? f = t.text? f := by
  rw [text?, text?, find?_without hgone hdirectory]
  cases t.find? f.names with
  | none => rfl
  | some found =>
    obtain ⟨place, e⟩ := found
    cases e <;> rfl

end

end

end

/-! ## The size of what is left -/

/-- At the entries and below them, the places of a kind are those of links. -/
def HasLinksAt (gone : List String → Bool) (es : List (String × FileTree)) : Prop :=
  ∀ e ∈ es, ∀ p, gone (e.1 :: p) → ∃ target, e.2.at? p = some (.link target)

mutual

theorem directoryCount_without {t : FileTree} {gone : List String → Bool} (ht : t.wellNamed)
    (hlinks : ∀ p, p ≠ [] → gone p → ∃ target, t.at? p = some (.link target)) :
    (t.without gone).directoryCount = t.directoryCount := by
  cases t with
  | file | link => rfl
  | directory es =>
    have hentries : HasLinksAt gone es := fun e he p hp => by
      obtain ⟨target, htarget⟩ := hlinks (e.1 :: p) (List.cons_ne_nil _ _) hp
      rw [at?_cons, child?_directory, lookup_eq_some_of_mem (wellNamed_directory.mp ht).1 he] at htarget
      exact ⟨target, htarget⟩
    rw [without, directoryCount, directoryCount,
      directoryCountOfEntries_without (fun e he => ((wellNamed_directory.mp ht).2 e he).2) hentries]

theorem directoryCountOfEntries_without {es : List (String × FileTree)} {gone : List String → Bool}
    (hes : ∀ e ∈ es, e.2.wellNamed) (hlinks : HasLinksAt gone es) :
    directoryCountOfEntries (withoutEntries gone es) = directoryCountOfEntries es := by
  cases es with
  | nil => rfl
  | cons e es =>
    obtain ⟨name, t⟩ := e
    obtain ⟨ht, hes⟩ := List.forall_mem_cons.mp hes
    obtain ⟨hlink, hlinks⟩ := List.forall_mem_cons.mp hlinks
    have hrest := directoryCountOfEntries_without hes hlinks
    rw [withoutEntries, directoryCountOfEntries]
    split
    · rename_i hgone
      obtain ⟨target, htarget⟩ := hlink [] hgone
      obtain rfl : t = .link target := Option.some.inj htarget
      rw [hrest]
      exact (Nat.zero_add _).symm
    · rw [directoryCountOfEntries, hrest, directoryCount_without ht fun p _ hp => hlink p hp]

end

theorem names_withoutEntries (gone : List String → Bool) (es : List (String × FileTree)) :
    ((withoutEntries gone es).map (·.1)).Sublist (es.map (·.1)) := by
  induction es with
  | nil => exact .slnil
  | cons e es ih =>
    rw [withoutEntries]
    split
    · exact ih.cons e.1
    · exact ih.cons_cons e.1

mutual

theorem wellNamed_without {t : FileTree} (ht : t.wellNamed) (gone : List String → Bool) :
    (t.without gone).wellNamed := by
  cases t with
  | file | link => rfl
  | directory es =>
    obtain ⟨hnodup, hentries⟩ := wellNamed_directory.mp ht
    exact wellNamed_directory.mpr
      ⟨hnodup.sublist (names_withoutEntries gone es), wellNamedEntries_without hentries gone⟩

theorem wellNamedEntries_without {es : List (String × FileTree)}
    (hes : ∀ e ∈ es, '/' ∉ e.1.toList ∧ e.2.wellNamed) (gone : List String → Bool) :
    ∀ e ∈ withoutEntries gone es, '/' ∉ e.1.toList ∧ e.2.wellNamed := by
  cases es with
  | nil => exact nofun
  | cons e es =>
    obtain ⟨name, t⟩ := e
    obtain ⟨⟨hname, ht⟩, hes⟩ := List.forall_mem_cons.mp hes
    have hrest := wellNamedEntries_without hes gone
    rw [withoutEntries]
    split
    · exact hrest
    · exact List.forall_mem_cons.mpr ⟨⟨hname, wellNamed_without ht _⟩, hrest⟩

end

end RepoOrbit.FileTree
