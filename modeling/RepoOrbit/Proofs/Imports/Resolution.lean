import Mathlib.Data.List.Nodup
import RepoOrbit.Imports.Edges
import RepoOrbit.Proofs.Files.Listing
import RepoOrbit.Proofs.Lists

/-!
# Imports found in another order

The imports of many files are found by tasks of which some are at work at one time and end
as they may (`Gathering`). Their results are gathered by the numbers of the tasks, which
gives them in the order of the files whatever the tasks did (`gather_eq`): at each moment
the results there are, and those still to come, are the same (`Gathering.run_perm`).

Neither specifiers nor imports have an order of their own. A file imports the same files in
whichever order its specifiers are resolved and its imports listed (`importsIn_perm`).
-/

namespace RepoOrbit

/-! ## Tasks at work -/

/-- How tasks go on: how many of them may be at work at one time, and which of those at
work ends next, counted from the one that has been at work longest, and on from the first
after the last. -/
structure Pace where
  width : Nat
  ends : Nat → Nat
  width_pos : 0 < width

/-- Tasks with their numbers, those that wait and those at work, and the results of the
others. -/
structure Gathering (α β : Type) where
  waiting : List (Nat × α)
  running : List (Nat × α)
  results : List (Nat × β)

namespace Gathering

variable {α β : Type}

/-- Set tasks to work as long as there is room. -/
def fill (g : Gathering α β) (width : Nat) : Gathering α β :=
  { g with
    waiting := g.waiting.drop (width - g.running.length)
    running := g.running ++ g.waiting.take (width - g.running.length) }

/-- Have the `k`-th task at work end. -/
def finish (g : Gathering α β) (work : α → β) (k : Nat) : Gathering α β :=
  match g.running[k % g.running.length]? with
  | some task =>
    { g with
      running := g.running.eraseIdx (k % g.running.length)
      results := (task.1, work task.2) :: g.results }
  | none => g

/-- The number of tasks that have not ended. -/
def remaining (g : Gathering α β) : Nat := g.running.length + g.waiting.length

theorem remaining_fill (g : Gathering α β) (width : Nat) : (g.fill width).remaining = g.remaining := by
  simp only [remaining, fill, List.length_append, List.length_take, List.length_drop]
  omega

theorem finish_eq {g : Gathering α β} (h : g.running ≠ []) (work : α → β) (k : Nat) :
    ∃ task, g.running.Perm (task :: g.running.eraseIdx (k % g.running.length)) ∧
      g.finish work k = { g with
        running := g.running.eraseIdx (k % g.running.length)
        results := (task.1, work task.2) :: g.results } := by
  have hk : k % g.running.length < g.running.length := Nat.mod_lt _ (List.length_pos_of_ne_nil h)
  refine ⟨g.running[k % g.running.length], (List.getElem_cons_eraseIdx_perm hk).symm, ?_⟩
  rw [finish, List.getElem?_eq_getElem hk]

theorem remaining_finish {g : Gathering α β} (h : g.running ≠ []) (work : α → β) (k : Nat) :
    (g.finish work k).remaining < g.remaining := by
  obtain ⟨task, hperm, hfinish⟩ := finish_eq h work k
  have hlength := hperm.length_eq
  rw [List.length_cons] at hlength
  rw [hfinish, remaining, remaining]
  dsimp only
  omega

/-- The results of all tasks, from the `n`-th on that ends. -/
def run (pace : Pace) (work : α → β) (n : Nat) (g : Gathering α β) : List (Nat × β) :=
  if h : (g.fill pace.width).running = [] then (g.fill pace.width).results
  else run pace work (n + 1) ((g.fill pace.width).finish work (pace.ends n))
termination_by g.remaining
decreasing_by exact g.remaining_fill pace.width ▸ remaining_finish h work (pace.ends n)

/-- All results, those to come included. -/
def due (g : Gathering α β) (work : α → β) : List (Nat × β) :=
  (g.running ++ g.waiting).map (fun task => (task.1, work task.2)) ++ g.results

theorem due_fill (g : Gathering α β) (work : α → β) (width : Nat) : (g.fill width).due work = g.due work := by
  rw [due, fill, List.append_assoc, List.take_append_drop, due]

theorem due_finish {g : Gathering α β} (h : g.running ≠ []) (work : α → β) (k : Nat) :
    ((g.finish work k).due work).Perm (g.due work) := by
  obtain ⟨task, hperm, hfinish⟩ := finish_eq h work k
  rw [hfinish, due, due]
  refine List.perm_middle.trans ?_
  rw [← List.cons_append]
  exact ((hperm.symm.append_right _).map fun task => (task.1, work task.2)).append_right _

/-- However the tasks go on, the results are those that were due. -/
theorem run_perm (pace : Pace) (work : α → β) (n : Nat) (g : Gathering α β) :
    (g.run pace work n).Perm (g.due work) := by
  fun_induction run pace work n g with
  | case1 n g h =>
    obtain ⟨hrunning, htake⟩ := List.append_eq_nil_iff.mp h
    have hwaiting : (g.fill pace.width).waiting = [] := by
      have hwidth := pace.width_pos
      rw [List.take_eq_nil_iff, hrunning] at htake
      rcases htake with hnone | hnil
      · exact absurd hnone (by simpa using Nat.ne_of_gt hwidth)
      · simp [fill, hnil]
    rw [← g.due_fill work pace.width, due, h, hwaiting]
    rfl
  | case2 n g h ih => exact ih.trans (g.due_fill work pace.width ▸ due_finish h work (pace.ends n))

end Gathering

/-- The results of some tasks, in the order of the tasks. -/
def gather {α β : Type} (pace : Pace) (work : α → β) (tasks : List α) : List β :=
  let results := Gathering.run pace work 0 ⟨tasks.zipIdx.map Prod.swap, [], []⟩
  tasks.zipIdx.filterMap fun task => results.lookup task.2

/-- The order in which tasks end does not show. -/
theorem gather_eq {α β : Type} (pace : Pace) (work : α → β) (tasks : List α) :
    gather pace work tasks = tasks.map work := by
  have hresults := Gathering.run_perm pace work 0 ⟨tasks.zipIdx.map Prod.swap, [], []⟩
  rw [gather]
  generalize Gathering.run pace work 0 ⟨tasks.zipIdx.map Prod.swap, [], []⟩ = results at hresults
  have hdue : Gathering.due ⟨tasks.zipIdx.map Prod.swap, [], []⟩ work =
      tasks.zipIdx.map fun task => (task.2, work task.1) := by
    simp [Gathering.due, Function.comp_def]
  rw [hdue] at hresults
  have hkeys : (results.map (·.1)).Nodup := by
    rw [(hresults.map (·.1)).nodup_iff, List.map_map]
    have hnumbers : tasks.zipIdx.map (Prod.fst ∘ fun task => (task.2, work task.1)) = List.range' 0 tasks.length :=
      List.zipIdx_map_snd 0 tasks
    rw [hnumbers]
    exact List.nodup_range'
  have hlookup : ∀ task ∈ tasks.zipIdx, results.lookup task.2 = some (work task.1) := fun task htask =>
    lookup_eq_some_of_mem hkeys (hresults.mem_iff.mpr (List.mem_map_of_mem htask))
  rw [List.filterMap_congr hlookup]
  have hmap : tasks.zipIdx.map (work ∘ Prod.fst) = tasks.map work := by
    rw [← List.map_map, List.zipIdx_map_fst]
  rw [← hmap]
  exact congrFun List.filterMap_eq_map _

/-! ## The imports of files -/

namespace FileTree

/-- The known files that a file imports, listed in an order; its specifiers are resolved in
an order too. -/
def importsIn (t : FileTree) (specifiers : Shuffle Path String) (targets : Shuffle Path Path) (known : Path → Bool)
    (file : Path) : List Path :=
  match t.text? file with
  | some text =>
    let found := ((specifiers.list file (specifiersOf file text)).filter isRelative).filterMap
      fun s => resolveSpecifier file s known
    targets.list file found.eraseDups
  | none => []

/-- A file imports the same files, however its specifiers and imports are listed. -/
theorem importsIn_perm (t : FileTree) (specifiers : Shuffle Path String) (targets : Shuffle Path Path)
    (known : Path → Bool) (file : Path) :
    (t.importsIn specifiers targets known file).Perm (t.importsOf known file) := by
  unfold importsIn importsOf
  cases t.text? file with
  | none => exact .refl _
  | some text =>
    have hfound := (((specifiers.perm file (specifiersOf file text)).filter isRelative).filterMap
      fun s => resolveSpecifier file s known)
    exact ((targets.perm file _).trans (eraseDups_perm fun f => hfound.mem_iff)).trans (List.mergeSort_perm _ _).symm

theorem nodup_importsIn (t : FileTree) (specifiers : Shuffle Path String) (targets : Shuffle Path Path)
    (known : Path → Bool) (file : Path) : (t.importsIn specifiers targets known file).Nodup := by
  unfold importsIn
  cases t.text? file with
  | none => exact List.nodup_nil
  | some text => exact (targets.perm file _).nodup_iff.mpr (nodup_eraseDups _)

end FileTree

end RepoOrbit
