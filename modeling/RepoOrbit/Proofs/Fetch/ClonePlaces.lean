import RepoOrbit.Proofs.Fetch.Identifiers
import RepoOrbit.Proofs.Fetch.Stages
import RepoOrbit.Proofs.Files.Places
import RepoOrbit.Proofs.Paths

/-!
# The places of clones

The clone of a repository lies in the cache under a name made of those of the
repository and its owner (`locate_target`), and the unfinished clone beside it under
a longer one (`locate_unfinished`), so that neither is above the other
(`apart_unfinished_target`).

A call changes nothing in the cache but what stands under these two names:

* `begin_spot`: beginning changes nothing there;
* `cleanUp_spot_unfinished`, `settle_spot_unfinished`: nothing is left of the
  unfinished clone once a call has cleaned up, or its clone is complete;
* `settle_spot_target`: a complete clone goes to its place as it is;
* `cleanUp_spot_of_ne`, `settle_spot_of_ne`: everything else stays;
* `Advanced.spot_of_ne`, `Advanced.spot_unfinished`: the same of whatever follows the
  end of a run.
-/

namespace RepoOrbit

/-- A cache on a disk of its own. -/
def diskConfig : FetchConfig := ⟨"https://git.example", ⟨.slash, ["cache"]⟩, [], 120, 60⟩

namespace FetchConfig

variable (c : FetchConfig)

theorem locate_child (p : Path) (name : String) : c.locate (p.child name) = c.locate p ++ [name] := by
  have habsolute : (p.child name).isAbsolute = p.isAbsolute := rfl
  unfold locate
  rw [habsolute]
  by_cases h : p.isAbsolute
  · rw [if_pos h, if_pos h]; rfl
  · rw [if_neg h, if_neg h, List.append_assoc]; rfl

theorem locate_join (p : Path) {q : Path} (h : q.isAbsolute = false) :
    c.locate (p.join q) = c.locate p ++ q.names := by
  have hjoin : p.join q = { p with names := p.names ++ q.names } := by
    unfold Path.join
    rw [h]
    rfl
  have habsolute : (p.join q).isAbsolute = p.isAbsolute := by rw [hjoin]; rfl
  unfold locate
  rw [habsolute, hjoin]
  by_cases hp : p.isAbsolute
  · rw [if_pos hp, if_pos hp]
  · rw [if_neg hp, if_neg hp, List.append_assoc]

/-- What stands under a name in the cache. -/
def spot (name : String) : List String := c.locate c.cache ++ [name]

theorem spot_ne_nil (name : String) : c.spot name ≠ [] :=
  List.append_ne_nil_of_right_ne_nil _ (List.cons_ne_nil _ _)

theorem apart_of_spot {a b : String} {place : List String} (hplace : c.spot a <+: place) (h : a ≠ b) :
    FileTree.Apart place (c.spot b) := by
  obtain ⟨below, rfl⟩ := hplace
  exact ((FileTree.apart_of_ne h).symm.append_right below).symm

theorem apart_spot_of_apart {place : List String} (h : FileTree.Apart place (c.locate c.cache))
    (name : String) :
    FileTree.Apart place (c.spot name) := h.append_right [name]

theorem apart_spot {a b : String} (h : a ≠ b) : FileTree.Apart (c.spot a) (c.spot b) := FileTree.apart_of_ne h

end FetchConfig

/-! ## The name of a clone -/

theorem slash_mem_of_isRepository {repo : String} (h : isRepository repo) : '/' ∈ repo.toList := by
  obtain ⟨owner, name, tail, -, -, -, rfl⟩ := exists_parts h
  simp

theorem slash_not_mem_cloneName (repo : String) : '/' ∉ (cloneName repo).toList := by
  simp only [cloneName, String.toList_ofList, List.mem_flatMap, not_exists, not_and]
  intro ch _
  unfold cloneNameChar
  split
  · decide
  · rename_i hne
    simpa using Ne.symm hne

theorem underscore_mem_cloneName {repo : String} (h : isRepository repo) : '_' ∈ (cloneName repo).toList := by
  simp only [cloneName, String.toList_ofList, List.mem_flatMap]
  exact ⟨'/', slash_mem_of_isRepository h, by decide⟩

theorem Path.ofString_of_no_slash {s : String} (h : '/' ∉ s.toList) (hempty : s ≠ "") (hdot : s ≠ ".") :
    Path.ofString s = ⟨.relative, [s]⟩ := by
  have hroot : rootOf s = .relative := by
    unfold rootOf
    split <;> first | rfl | (rename_i heq; exact absurd (heq ▸ List.mem_cons_self) h)
  rw [ofString, hroot, pieces_of_not_mem h]
  simp [hempty, hdot]

/-- A clone lies in the cache. -/
theorem cloneDirectory_eq_child (cache : Path) {repo : String} (h : isRepository repo) :
    cloneDirectory cache repo = cache.child (cloneName repo) := by
  have hmem := underscore_mem_cloneName h
  have hempty : cloneName repo ≠ "" := fun heq => by rw [heq] at hmem; exact absurd hmem (by decide)
  have hdot : cloneName repo ≠ "." := fun heq => by rw [heq] at hmem; exact absurd hmem (by decide)
  rw [cloneDirectory, Path.ofString_of_no_slash (slash_not_mem_cloneName repo) hempty hdot]
  rfl

theorem FetchConfig.locate_cloneDirectory (c : FetchConfig) {repo : String} (h : isRepository repo) :
    c.locate (cloneDirectory c.cache repo) = c.spot (cloneName repo) := by
  rw [cloneDirectory_eq_child _ h, locate_child, spot]

namespace FetchCall

variable (c : FetchConfig) (call : FetchCall)

/-- The name of the unfinished clone. -/
def unfinishedName : String := cloneName call.repo ++ ".partial-" ++ call.tag

theorem unfinishedName_ne : call.unfinishedName ≠ cloneName call.repo := by
  intro h
  have hlength := congrArg String.length h
  have hpartial : ".partial-".length = 9 := rfl
  rw [unfinishedName, String.length_append, String.length_append, hpartial] at hlength
  omega

theorem locate_target (h : isRepository call.repo) :
    c.locate (call.target c) = c.spot (cloneName call.repo) := c.locate_cloneDirectory h

theorem unfinished_eq_child (h : isRepository call.repo) :
    call.unfinished c = c.cache.child call.unfinishedName := by
  rw [unfinished, target, cloneDirectory_eq_child _ h]
  simp [Path.child, Path.parent, Path.name, unfinishedName]

theorem locate_unfinished (h : isRepository call.repo) :
    c.locate (call.unfinished c) = c.spot call.unfinishedName := by
  rw [unfinished_eq_child c call h, FetchConfig.locate_child, FetchConfig.spot]

theorem apart_unfinished_target (h : isRepository call.repo) :
    FileTree.Apart (c.locate (call.unfinished c)) (c.locate (call.target c)) := by
  rw [locate_target c call h, locate_unfinished c call h]
  exact c.apart_spot call.unfinishedName_ne

theorem isRepository_of_refusal? (h : call.refusal? = none) : isRepository call.repo := by
  unfold refusal? at h
  split at h
  · cases h
  · rename_i hrepo
    simpa using hrepo

/-! ## What a call changes -/

variable {call}

theorem begin_spot (t : FileTree) (name : String) :
    (call.begin c t).1.at? (c.spot name) = t.at? (c.spot name) := by
  have hmake : (t.makeDirectory (c.locate c.cache)).at? (c.spot name) = t.at? (c.spot name) :=
    t.at?_makeDirectory_below _ (List.cons_ne_nil _ _)
  unfold begin
  split
  · split
    · split <;> rfl
    · rfl
  · unfold beginClone
    split
    · rfl
    · dsimp only
      split
      · exact hmake
      · exact hmake

/-- Nothing is left of the unfinished clone when its clone or its checkout has failed. -/
theorem cleanUp_spot_unfinished (h : isRepository call.repo) (t : FileTree) {stage : FetchStage}
    (hstage : stage = .cloning ∨ stage = .checkingOut ∨ stage = .wideningOther) :
    (call.cleanUp c t stage).at? (c.spot call.unfinishedName) = none := by
  rcases hstage with rfl | rfl | rfl <;>
  · unfold cleanUp
    rw [locate_unfinished c call h]
    exact t.at?_remove_self (c.spot_ne_nil _)

theorem cleanUp_spot_of_ne (h : isRepository call.repo) (t : FileTree) (stage : FetchStage) {name : String}
    (hname : name ≠ call.unfinishedName) :
    (call.cleanUp c t stage).at? (c.spot name) = t.at? (c.spot name) := by
  cases stage with
  | widening | listing => rfl
  | cloning | checkingOut | wideningOther =>
    unfold cleanUp
    rw [locate_unfinished c call h]
    exact t.at?_remove_apart (c.apart_spot hname.symm)

theorem settle_files (h : isRepository call.repo) (t : FileTree) :
    (t.holds (c.spot (cloneName call.repo)) ∧ (call.settle c t).1 = t.remove (c.spot call.unfinishedName)) ∨
      call.settle c t = (t.move (c.spot call.unfinishedName) (c.spot (cloneName call.repo)),
        call.afterClone c (t.move (c.spot call.unfinishedName) (c.spot (cloneName call.repo)))) := by
  rw [← locate_target c call h, ← locate_unfinished c call h]
  cases hheld : t.holds (c.locate (call.target c)) with
  | true => exact .inl ⟨rfl, (settle_of_held c call hheld).1⟩
  | false => exact .inr (settle_of_free c call hheld)

theorem settle_spot_unfinished (h : isRepository call.repo) (t : FileTree) :
    (call.settle c t).1.at? (c.spot call.unfinishedName) = none := by
  rcases settle_files c h t with ⟨-, hs⟩ | hs <;> rw [hs]
  · exact t.at?_remove_self (c.spot_ne_nil _)
  · exact t.at?_move_source (c.apart_spot call.unfinishedName_ne)

/-- The place of the clone stays as it is, or the complete clone goes there. -/
theorem settle_spot_target (h : isRepository call.repo) (t : FileTree) :
    (call.settle c t).1.at? (c.spot (cloneName call.repo)) = t.at? (c.spot (cloneName call.repo)) ∨
      ∃ e, t.at? (c.spot call.unfinishedName) = some e ∧
        (call.settle c t).1.at? (c.spot (cloneName call.repo)) = some e ∧
        (call.settle c t).2 = call.afterClone c (call.settle c t).1 := by
  rcases settle_files c h t with ⟨-, hs⟩ | hs <;> rw [hs]
  · exact .inl (t.at?_remove_apart (c.apart_spot call.unfinishedName_ne))
  · rcases t.at?_move_target (c.apart_spot call.unfinishedName_ne) with ⟨e, he, hm⟩ | hm
    · exact .inr ⟨e, he, hm, rfl⟩
    · exact .inl hm

theorem settle_spot_of_ne (h : isRepository call.repo) (t : FileTree) {name : String}
    (hname : name ≠ call.unfinishedName) (htarget : name ≠ cloneName call.repo) :
    (call.settle c t).1.at? (c.spot name) = t.at? (c.spot name) := by
  rcases settle_files c h t with ⟨-, hs⟩ | hs <;> rw [hs]
  · exact t.at?_remove_apart (c.apart_spot hname.symm)
  · exact t.at?_move_apart (c.apart_spot hname.symm) (c.apart_spot htarget.symm)

variable {c} {t : FileTree} {stage : FetchStage} {ending : GitEnd} {r : FileTree × FetchNext}

theorem Advanced.spot_of_ne (h : call.Advanced c t stage ending r) (hrepo : isRepository call.repo)
    {name : String} (hname : name ≠ call.unfinishedName) (htarget : name ≠ cloneName call.repo) :
    r.1.at? (c.spot name) = t.at? (c.spot name) := by
  cases h with
  | failed => exact cleanUp_spot_of_ne c hrepo t stage hname
  | cloned | widened | listed => rfl
  | settled => exact settle_spot_of_ne c hrepo t hname htarget

/-- When a run has ended, the unfinished clone is gone, or was gone before, or the
first checkout is made in it. -/
theorem Advanced.spot_unfinished (h : call.Advanced c t stage ending r) (hrepo : isRepository call.repo) :
    r.1.at? (c.spot call.unfinishedName) = none ∨ (r.1 = t ∧ stage ≠ .cloning ∧ stage ≠ .checkingOut) ∨
      ∃ command, r.2 = .run .checkingOut command := by
  cases h with
  | failed =>
    dsimp only
    cases stage with
    | cloning => exact .inl (cleanUp_spot_unfinished c hrepo t (.inl rfl))
    | checkingOut => exact .inl (cleanUp_spot_unfinished c hrepo t (.inr (.inl rfl)))
    | wideningOther => exact .inl (cleanUp_spot_unfinished c hrepo t (.inr (.inr rfl)))
    | widening | listing => exact .inr (.inl ⟨rfl, nofun, nofun⟩)
  | cloned => exact .inr (.inr ⟨_, rfl⟩)
  | settled => exact .inl (settle_spot_unfinished c hrepo t)
  | widened _ hstage => rcases hstage with rfl | rfl <;> exact .inr (.inl ⟨rfl, nofun, nofun⟩)
  | listed _ hstage => exact .inr (.inl ⟨rfl, hstage ▸ nofun, hstage ▸ nofun⟩)

end FetchCall

end RepoOrbit
