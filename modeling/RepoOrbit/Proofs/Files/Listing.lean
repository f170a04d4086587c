import Mathlib.Algebra.GroupWithZero.Nat
import Mathlib.Data.List.Perm.Basic
import RepoOrbit.Proofs.Files.Walk

/-!
# Walks that list names in another order

The names in a directory have no order of their own. A walk that takes them as they are
listed (`FileTree.walk`), and keeps the directories it has yet to enter on a pile, finds
the files that `discover` finds, each as often, in some order (`discoverIn_perm`): each
directory on the pile stands for the files that are still to be found below it
(`walk_perm`).
-/

namespace RepoOrbit

/-- An order for the items of collections that have none of their own; it may be another
one in each collection. -/
structure Shuffle (ι α : Type) where
  list : ι → List α → List α
  perm (i : ι) (items : List α) : (list i items).Perm items

/-- The order in which the items are given. -/
def Shuffle.asListed {ι α : Type} : Shuffle ι α := ⟨fun _ items => items, fun _ items => .refl items⟩

/-- The other way round. -/
def Shuffle.reversed {ι α : Type} : Shuffle ι α := ⟨fun _ => List.reverse, fun _ => List.reverse_perm⟩

/-- A directory that has been found and not entered yet: how many directories further
down the walk may go, how the directory is shown and where it is. -/
structure Unentered where
  depth : Nat
  shown : List String
  here : List String

namespace FileTree

/-- The source file, if any, that a walk finds at a name of the directory that is shown as
`shown` and stands at `here`. -/
def filesAt (t : FileTree) (shown here : List String) (name : String) : List (List String) :=
  if isHidden name then []
  else
    match t.findFrom? linkLimit here [name] with
    | some (_, .directory _) => []
    | _ => if isSourceName name then [shown ++ [name]] else []

/-- The directory, if any, that a walk has to enter at a name of this directory. -/
def directoriesAt (t : FileTree) (depth : Nat) (shown here : List String) (name : String) : List Unentered :=
  if isHidden name then []
  else
    match t.findFrom? linkLimit here [name] with
    | some (place, .directory _) => if skippedDirectories.contains name then [] else [⟨depth, shown ++ [name], place⟩]
    | _ => []

/-- How many directories a walk enters, those included that are too far down. -/
def visits (t : FileTree) : Nat → List String → Nat
  | 0, _ => 1
  | depth + 1, here =>
    (((t.namesAt here).flatMap (t.directoriesAt depth [] here)).map fun d => t.visits depth d.here).sum + 1

theorem visits_directoriesAt (t : FileTree) (depth : Nat) (shown here : List String) (name : String) :
    ((t.directoriesAt depth shown here name).map fun d => t.visits d.depth d.here) =
      (t.directoriesAt depth [] here name).map fun d => t.visits depth d.here := by
  unfold directoriesAt
  split
  · rfl
  · split
    · split <;> rfl
    · rfl

theorem sum_visits (t : FileTree) (depth : Nat) (shown here : List String) {names : List String}
    (hnames : names.Perm (t.namesAt here)) :
    ((names.flatMap (t.directoriesAt depth shown here)).map fun d => t.visits d.depth d.here).sum + 1 =
      t.visits (depth + 1) here := by
  have hsum := (hnames.flatMap_right fun name =>
    (t.directoriesAt depth [] here name).map fun d => t.visits depth d.here).sum_nat
  rw [visits, List.map_flatMap, List.map_flatMap, ← hsum]
  simp only [visits_directoriesAt]

/-- Enter the directories of a pile, the topmost first, and put the directories found in
it on top in the order in which they are listed; `found` are the files found so far. -/
def walk (t : FileTree) (order : Shuffle (List String) String) (pile : List Unentered)
    (found : List (List String)) : List (List String) :=
  match pile with
  | [] => found
  | ⟨0, _, _⟩ :: rest => t.walk order rest found
  | ⟨depth + 1, shown, here⟩ :: rest =>
    let names := order.list shown (t.namesAt here)
    t.walk order ((names.flatMap (t.directoriesAt depth shown here)).reverse ++ rest)
      (found ++ names.flatMap (t.filesAt shown here))
termination_by (pile.map fun d => t.visits d.depth d.here).sum
decreasing_by
  · simp [visits]
  · have hentered := t.sum_visits depth shown here (order.perm shown (t.namesAt here))
    rw [List.map_append, List.sum_append, List.map_reverse, List.sum_reverse, List.map_cons, List.sum_cons]
    simp only [Nat.succ_eq_add_one]
    omega

/-- The source files below a directory, in the order in which they are found by a walk
that lists names in an order. -/
def discoverIn (t : FileTree) (order : Shuffle (List String) String) (start : List String) : List Path :=
  let root := t.resolve start
  (t.walk order [⟨t.directoryCount + 1, root, root⟩] []).map fun names => ⟨.slash, names⟩

/-! ## What is found -/

/-- The files to be found below a directory that has not been entered yet. -/
def sourcesBelow (t : FileTree) (d : Unentered) : List (List String) := t.sourcesFrom d.depth d.shown d.here

theorem sourcesAt_eq (t : FileTree) (depth : Nat) (shown here : List String) (name : String) :
    t.sourcesAt depth shown here name =
      t.filesAt shown here name ++ (t.directoriesAt depth shown here name).flatMap t.sourcesBelow := by
  unfold sourcesAt filesAt directoriesAt
  split
  · rfl
  · cases t.findFrom? linkLimit here [name] with
    | none => simp
    | some found =>
      obtain ⟨place, stands⟩ := found
      cases stands with
      | file | link => simp
      | directory =>
        dsimp only
        split <;> simp [sourcesBelow]

/-- Below a directory there are the files in it and the files below the directories in
it, however it is listed. -/
theorem sourcesFrom_perm (t : FileTree) (depth : Nat) (shown here : List String) {names : List String}
    (hnames : names.Perm (t.namesAt here)) :
    (names.flatMap (t.filesAt shown here) ++
      (names.flatMap (t.directoriesAt depth shown here)).flatMap t.sourcesBelow).Perm
        (t.sourcesFrom (depth + 1) shown here) := by
  have hsplit := List.flatMap_append_perm names (t.filesAt shown here)
    fun name => (t.directoriesAt depth shown here name).flatMap t.sourcesBelow
  rw [List.flatMap_assoc, sourcesFrom_succ]
  refine hsplit.trans ?_
  rw [← funext (t.sourcesAt_eq depth shown here)]
  exact hnames.flatMap_right _

/-- A walk finds the files below the directories on its pile. -/
theorem walk_perm (t : FileTree) (order : Shuffle (List String) String) (pile : List Unentered)
    (found : List (List String)) : (t.walk order pile found).Perm (found ++ pile.flatMap t.sourcesBelow) := by
  fun_induction walk t order pile found with
  | case1 found => simp
  | case2 found shown here rest ih => simpa [sourcesBelow, sourcesFrom] using ih
  | case3 found depth shown here rest names ih =>
    have hbelow := t.sourcesFrom_perm depth shown here (order.perm shown (t.namesAt here))
    have hpile := (List.reverse_perm (names.flatMap (t.directoriesAt depth shown here))).flatMap_right t.sourcesBelow
    rw [List.flatMap_append, List.append_assoc] at ih
    rw [List.flatMap_cons]
    refine ih.trans (List.Perm.append_left found ?_)
    rw [← List.append_assoc]
    exact ((hpile.append_left _).trans hbelow).append_right _

/-- A walk finds the same files however it lists names. -/
theorem discoverIn_perm (t : FileTree) (order : Shuffle (List String) String) (start : List String) :
    (t.discoverIn order start).Perm (t.discover start) := by
  have hwalk := t.walk_perm order [⟨t.directoryCount + 1, t.resolve start, t.resolve start⟩] []
  rw [List.nil_append, List.flatMap_singleton] at hwalk
  exact hwalk.map _

theorem discoverIn_resolve (t : FileTree) (order : Shuffle (List String) String) (start : List String) :
    t.discoverIn order (t.resolve start) = t.discoverIn order start := by
  simp only [discoverIn, resolve_resolve]

end FileTree

end RepoOrbit
