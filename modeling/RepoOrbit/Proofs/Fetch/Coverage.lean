import Mathlib.Logic.Function.Basic
import RepoOrbit.Proofs.Files.Lookup
import RepoOrbit.Proofs.Fetch.ClonePlaces
import RepoOrbit.Proofs.Fetch.Steps

/-!
# What is checked out in a clone

A clone holds no more than the directories that git has been asked to check out
in it. `Fetcher.checkouts` keeps account of those over the events, and a
directory is `Covered` if it or one above it is among them.

A fetcher goes by what stands in the clone (`FetchCall.hasSource`), which is not
the same. `source_answer_covered_iff` says exactly when an answer is covered: the
checkout that a call has made itself covers it, and a directory that was found
standing (`ActiveCall.FoundStanding`) is covered if it was before.
`step_of_parent_standing` shows how it goes wrong: a directory above one that is
checked out stands there too, and is handed out without another run of git.
-/

namespace RepoOrbit

/-- The directories that have been checked out in each clone. -/
abbrev Checkouts := Path → List String

namespace Checkouts

/-- The account once a command has succeeded. -/
def afterRun (done : Checkouts) : GitCommand → Checkouts
  | .clone _ place => Function.update done place []
  | .checkOut .set dir place => Function.update done place [dir]
  | .checkOut .add dir place => Function.update done place (dir :: done place)
  | .listDirectories _ => done

/-- The account once a clone has been moved. -/
def afterMove (done : Checkouts) (source target : Path) : Checkouts := Function.update done target (done source)

/-- Whether a directory or one above it has been checked out in a clone. -/
def Covered (done : Checkouts) (clone : Path) (dir : String) : Prop :=
  ∃ d ∈ done clone, (Path.ofString d).names <+: (Path.ofString dir).names

theorem covered_of_mem {done : Checkouts} {clone : Path} {dir : String} (h : dir ∈ done clone) :
    done.Covered clone dir := ⟨dir, h, List.prefix_rfl⟩

end Checkouts

open Checkouts

namespace FetchCall

variable (c : FetchConfig) (call : FetchCall)

theorem isSourceDirectory_spec {dir : String} (h : isSourceDirectory dir) :
    (Path.ofString dir).isAbsolute = false ∧ ".." ∉ (Path.ofString dir).names := by
  simp only [isSourceDirectory, Bool.and_eq_true, Bool.not_eq_true', List.contains_eq_mem,
    decide_eq_false_iff_not] at h
  exact ⟨h.1.1.2, h.1.2⟩

theorem locate_sourcePath {dir : String} (h : isSourceDirectory dir) :
    c.locate (call.sourcePath c dir) = c.locate (call.target c) ++ (Path.ofString dir).names := by
  exact c.locate_join _ (isSourceDirectory_spec h).1

/-- A directory stands in the clone if one below it does. -/
theorem hasSource_above {t : FileTree} {dir below : String} (hdir : isSourceDirectory dir)
    (hbelow : isSourceDirectory below) (habove : (Path.ofString dir).names <+: (Path.ofString below).names)
    (h : call.hasSource c t below) : call.hasSource c t dir := by
  obtain ⟨rest, hrest⟩ := habove
  have hdots : ".." ∉ rest := fun hm => (isSourceDirectory_spec hbelow).2 (hrest ▸ List.mem_append_right _ hm)
  unfold hasSource at h ⊢
  rw [locate_sourcePath c call hbelow, ← hrest, ← List.append_assoc] at h
  rw [locate_sourcePath c call hdir]
  exact t.holdsDirectory_of_append _ hdots h

/-- A call for a directory that stands in the clone is answered with it. -/
theorem conclude_of_hasSource {t : FileTree} {dir : String} (h : call.hasSource c t dir) :
    call.conclude c t dir = .finish (.ok (.source ⟨.slash, t.resolve (c.locate (call.sourcePath c dir))⟩)) := by
  unfold conclude
  dsimp only
  rw [if_pos (t.holdsDirectory_resolve h)]

theorem begin_of_hasSource {t : FileTree} {dir : String} (hcached : call.isCached c t)
    (htask : call.task = .source dir) (h : call.hasSource c t dir) :
    call.begin c t = (t, .finish (.ok (.source ⟨.slash, t.resolve (c.locate (call.sourcePath c dir))⟩))) := by
  unfold begin
  rw [if_pos hcached]
  simp only [htask]
  rw [if_pos h, conclude_of_hasSource c call h]

theorem conclude_finish_ok {t : FileTree} {dir : String} {answer : FetchAnswer}
    (h : call.conclude c t dir = .finish (.ok answer)) :
    answer = .source ⟨.slash, t.resolve (c.locate (call.sourcePath c dir))⟩ ∧
      t.holdsDirectory (t.resolve (c.locate (call.sourcePath c dir))) := by
  unfold conclude at h
  dsimp only at h
  split at h
  · rename_i hd
    cases h
    exact ⟨rfl, hd⟩
  · cases h

/-- A call that is answered with a directory as soon as it begins has found it in
the cache. -/
theorem begin_finish_source {t : FileTree} {root : Path}
    (h : (call.begin c t).2 = .finish (.ok (.source root))) :
    (call.begin c t).1 = t ∧ call.isCached c t ∧ ∃ dir, call.task = .source dir ∧ call.hasSource c t dir ∧
      call.conclude c t dir = .finish (.ok (.source root)) := by
  unfold begin at h ⊢
  split at h
  · rename_i hcached
    rw [if_pos hcached]
    split at h
    · rename_i dir htask
      split at h
      · rename_i hs
        simp only [htask]
        rw [if_pos hs]
        exact ⟨rfl, hcached, dir, rfl, hs, h⟩
      · cases h
    · cases h
  · unfold beginClone at h
    split at h
    · cases h
    · dsimp only at h
      split at h <;> cases h

/-- A call that is answered with a directory when a run ends has made a checkout
of it that has succeeded. -/
theorem advance_finish_source {t : FileTree} {stage : FetchStage} {command : GitCommand} {ending : GitEnd}
    {root : Path} (h : (call.advance c t stage command ending).2 = .finish (.ok (.source root))) :
    ending.isSuccess ∧ (stage = .checkingOut ∨ stage = .wideningOther ∨ stage = .widening) ∧
      ∃ dir, call.task = .source dir ∧
        call.conclude c (call.advance c t stage command ending).1 dir = .finish (.ok (.source root)) := by
  have hadvanced := call.advance_advanced c t stage command ending
  generalize call.advance c t stage command ending = r at h hadvanced
  cases hadvanced with
  | failed | cloned | listed => cases h
  | settled hs hcompletes =>
    obtain ⟨dir, htask, hconclude⟩ := settle_finish c call h
    refine ⟨hs, .inl ?_, dir, htask, hconclude⟩
    cases stage <;> simp_all [completes]
  | widened hs hstage => exact ⟨hs, .inr hstage, afterClone_finish c call h⟩

end FetchCall

/-- Whether a call takes the directory as it stands: it has not made a run of its
own, or the clone of someone else has come before its own. -/
def ActiveCall.FoundStanding (c : FetchConfig) (t : FileTree) (a : ActiveCall) : Prop :=
  a.waitsFor = none ∨ (∃ command, a.waitsFor = some (.checkingOut, command)) ∧ t.holds (c.locate (a.call.target c))

namespace Fetcher

variable (c : FetchConfig)

/-- The account once the run of a call has succeeded. -/
def recordRun (f : Fetcher) (done : Checkouts) (call : FetchCall) (stage : FetchStage) (command : GitCommand) :
    Checkouts :=
  if call.completes stage && !f.files.holds (c.locate (call.target c)) then
    (done.afterRun command).afterMove (call.unfinished c) (call.target c)
  else done.afterRun command

/-- The account after an event. A clone that has been replaced starts anew. -/
def record (f : Fetcher) (done : Checkouts) (e : FetchEvent) : Checkouts :=
  match e, e.end? with
  | .changed place _, _ => fun clone => if place <+: c.locate clone then [] else done clone
  | _, some (id, ending) =>
    match f.call? id with
    | some ⟨_, call, some (stage, command)⟩ =>
      if ending.isSuccess then f.recordRun c done call stage command else done
    | _ => done
  | _, none => done

/-- The account after events. -/
def checkouts (f : Fetcher) (done : Checkouts) : List FetchEvent → Checkouts
  | [] => done
  | e :: events => checkouts (f.step c e).1 (f.record c done e) events

theorem checkouts_concat (f : Fetcher) (done : Checkouts) (events : List FetchEvent) (e : FetchEvent) :
    f.checkouts c done (events ++ [e]) = (f.after c events).record c (f.checkouts c done events) e := by
  induction events generalizing f done with
  | nil => rfl
  | cons e' events ih => exact ih (f.step c e').1 (f.record c done e')

theorem record_of_running {f : Fetcher} (done : Checkouts) {e : FetchEvent} {id : Nat} {call : FetchCall}
    {stage : FetchStage} {command : GitCommand} {ending : GitEnd} (he : e.end? = some (id, ending))
    (h : f.call? id = some ⟨id, call, some (stage, command)⟩) (hs : ending.isSuccess) :
    f.record c done e = f.recordRun c done call stage command := by
  unfold record
  split
  · cases he
  · rename_i h'
    obtain ⟨rfl, rfl⟩ := Prod.mk.inj (Option.some.inj (he.symm.trans h'))
    rw [h]
    exact if_pos hs
  · rename_i h'; rw [he] at h'; cases h'

/-- The account of the clone that a call has made its own checkout in. -/
theorem recordRun_target {f : Fetcher} (done : Checkouts) {call : FetchCall} {dir : String} {stage : FetchStage}
    {command : GitCommand} (hrepo : isRepository call.repo) (htask : call.task = .source dir)
    (hruns : call.Runs c command stage)
    (hstage : stage = .checkingOut ∨ stage = .wideningOther ∨ stage = .widening) :
    f.recordRun c done call stage command (call.target c) =
      if stage = .checkingOut then
        if f.files.holds (c.locate (call.target c)) then done (call.target c) else [dir]
      else dir :: done (call.target c) := by
  have hne : call.unfinished c ≠ call.target c := fun h =>
    (call.apart_unfinished_target c hrepo).1 (h ▸ List.prefix_rfl)
  rcases hstage with rfl | rfl | rfl
  · obtain ⟨d, hd, rfl⟩ := hruns
    obtain rfl : dir = d := by simpa [htask] using hd
    cases h : f.files.holds (c.locate (call.target c)) <;>
      simp [recordRun, FetchCall.completes, h, afterMove, afterRun, hne.symm]
  all_goals
    obtain ⟨d, hd, rfl⟩ := hruns
    obtain rfl : dir = d := by simpa [htask] using hd
    simp [recordRun, FetchCall.completes, afterRun]

variable {c}

theorem step_files_of_running {f : Fetcher} {e : FetchEvent} {id : Nat} {call : FetchCall} {stage : FetchStage}
    {command : GitCommand} {ending : GitEnd} (he : e.end? = some (id, ending))
    (h : f.call? id = some ⟨id, call, some (stage, command)⟩) :
    (f.step c e).1.files = (call.advance c f.files stage command ending).1 := by
  rw [step_of_running c he h]
  cases (call.advance c f.files stage command ending).2 <;> rfl

/-- A directory that a call is answered with is covered afterwards exactly if the
call has checked it out itself or it was covered before. -/
theorem source_answer_covered_iff {files : FileTree} {events : List FetchEvent} {e : FetchEvent} {id : Nat}
    {root : Path} (h : .answer id (.ok (.source root)) ∈ (((start files).after c events).step c e).2) :
    ∃ a dir, ((start files).after c events).call? id = some a ∧ a.call.task = .source dir ∧
      root = ⟨.slash, ((start files).after c (events ++ [e])).files.resolve (c.locate (a.call.sourcePath c dir))⟩ ∧
      ((start files).after c (events ++ [e])).files.holdsDirectory root.names ∧
      (((start files).checkouts c (fun _ => []) (events ++ [e])).Covered (a.call.target c) dir ↔
        (a.FoundStanding c ((start files).after c events).files →
          ((start files).checkouts c (fun _ => []) events).Covered (a.call.target c) dir)) := by
  have horderly : ((start files).after c events).Orderly c := (orderly_of_no_calls rfl).after events
  rw [checkouts_concat, after_concat]
  generalize (start files).checkouts c (fun _ => []) events = done
  generalize (start files).after c events = f at h horderly
  rcases answered_cases c h with ⟨call, rfl, hcall, hturn, hnext⟩ | ⟨call, stage, command, ending, he, hcall, hnext⟩
  · obtain ⟨hfiles, -, dir, htask, -, hconclude⟩ := call.begin_finish_source c hnext
    obtain ⟨hroot, hdir⟩ := call.conclude_finish_ok c hconclude
    cases hroot
    have hf : (f.step c (.turn id)).1.files = f.files := by
      rw [step_of_turn c hcall hturn, hnext]
      exact hfiles
    rw [hf]
    refine ⟨_, dir, hcall, htask, rfl, hdir, ?_⟩
    exact ⟨fun hcovered _ => hcovered, fun himp => himp (.inl rfl)⟩
  · obtain ⟨hs, hstage, dir, htask, hconclude⟩ := call.advance_finish_source c hnext
    obtain ⟨hroot, hdir⟩ := call.conclude_finish_ok c hconclude
    cases hroot
    rw [step_files_of_running he hcall]
    refine ⟨_, dir, hcall, htask, rfl, hdir, ?_⟩
    have hmem := mem_of_call? hcall
    have hruns : call.Runs c command stage := horderly.runs _ hmem stage command rfl
    have haccepted := horderly.accepted _ hmem
    have hrepo := FetchCall.isRepository_of_refusal? _ haccepted
    have htarget := recordRun_target c (f := f) done hrepo htask hruns hstage
    rw [record_of_running c done he hcall hs]
    dsimp only [ActiveCall.FoundStanding]
    by_cases hfirst : stage = .checkingOut ∧ f.files.holds (c.locate (call.target c))
    · obtain ⟨rfl, hheld⟩ := hfirst
      rw [if_pos rfl, if_pos hheld] at htarget
      unfold Covered
      rw [htarget]
      exact ⟨fun hcovered _ => hcovered, fun himp => himp (.inr ⟨⟨command, rfl⟩, hheld⟩)⟩
    · have hmem : dir ∈ f.recordRun c done call stage command (call.target c) := by
        rw [htarget]
        split
        · rename_i hstage
          rw [if_neg fun hheld => hfirst ⟨hstage, hheld⟩]
          exact List.mem_cons_self
        · exact List.mem_cons_self
      refine ⟨fun _ hstanding => absurd hstanding ?_, fun _ => covered_of_mem hmem⟩
      rintro (hnone | ⟨⟨command', hfound⟩, hheld⟩)
      · cases hnone
      · cases hfound
        exact hfirst ⟨rfl, hheld⟩

/-- A directory above one that stands in a clone is handed out as it is: no run of
git is started, and the account stays as it was. -/
theorem step_of_parent_standing {f : Fetcher} (done : Checkouts) {id : Nat} {call : FetchCall}
    {dir below : String} (hcall : f.call? id = some ⟨id, call, none⟩) (hturn : f.isInTurn c ⟨id, call, none⟩)
    (hcached : call.isCached c f.files) (htask : call.task = .source dir) (hdir : isSourceDirectory dir)
    (hbelow : isSourceDirectory below) (habove : (Path.ofString dir).names <+: (Path.ofString below).names)
    (hstands : call.hasSource c f.files below) :
    (∃ root, (f.step c (.turn id)).2 = [.answer id (.ok (.source root))]) ∧
      (f.step c (.turn id)).1.files = f.files ∧ f.record c done (.turn id) = done := by
  have hs := call.hasSource_above c hdir hbelow habove hstands
  rw [step_of_turn c hcall hturn, call.begin_of_hasSource c hcached htask hs]
  exact ⟨⟨_, rfl⟩, rfl, rfl⟩

/-! ## A directory above one that is checked out -/

/-- A call for `a/b`, up to its answer, and the next call, which is for `a`. All
runs of git succeed, and they make `.git` and the directory that they are to check
out. -/
def deepThenParent : List FetchEvent :=
  [.request ⟨"o/r", none, .source "a/b", "1"⟩, .turn 0,
    .changed ["cache", "o__r.partial-1"] (some (.directory [(".git", .directory [])])),
    .ended 0 (.exited 0 [] []),
    .changed ["cache", "o__r.partial-1", "a", "b"] (some (.directory [])),
    .ended 0 (.exited 0 [] []),
    .request ⟨"o/r", none, .source "a", "2"⟩]

theorem deepThenParent_answer :
    (((start (.directory [])).after diskConfig deepThenParent).step diskConfig (.turn 1)).2 =
      [.answer 1 (.ok (.source ⟨.slash, ["cache", "o__r", "a"]⟩))] := by
  with_unfolding_all rfl

theorem source_answer_covered_iff_deepThenParent :
    .answer 1 (.ok (.source ⟨.slash, ["cache", "o__r", "a"]⟩)) ∈
        (((start (.directory [])).after diskConfig deepThenParent).step diskConfig (.turn 1)).2 ∧
      ∃ a dir, ((start (.directory [])).after diskConfig deepThenParent).call? 1 = some a ∧
        a.call.task = .source dir ∧
        (((start (.directory [])).checkouts diskConfig (fun _ => []) (deepThenParent ++ [.turn 1])).Covered
            (a.call.target diskConfig) dir ↔
          (a.FoundStanding diskConfig ((start (.directory [])).after diskConfig deepThenParent).files →
            ((start (.directory [])).checkouts diskConfig (fun _ => []) deepThenParent).Covered
              (a.call.target diskConfig) dir)) := by
  have h : .answer 1 (.ok (.source ⟨.slash, ["cache", "o__r", "a"]⟩)) ∈
      (((start (.directory [])).after diskConfig deepThenParent).step diskConfig (.turn 1)).2 := by
    rw [deepThenParent_answer]
    exact List.mem_singleton_self _
  obtain ⟨a, dir, ha, htask, -, -, hcovered⟩ := source_answer_covered_iff h
  exact ⟨h, a, dir, ha, htask, hcovered⟩

/-- Not every directory that is handed out is covered, even if the cache was empty
at first and all runs of git succeed. -/
theorem source_answer_not_always_covered :
    ¬ ∀ (c : FetchConfig) (events : List FetchEvent) (e : FetchEvent) (id : Nat) (root : Path) (a : ActiveCall)
      (dir : String), .answer id (.ok (.source root)) ∈ (((start (.directory [])).after c events).step c e).2 →
        ((start (.directory [])).after c events).call? id = some a → a.call.task = .source dir →
        ((start (.directory [])).checkouts c (fun _ => []) (events ++ [e])).Covered (a.call.target c) dir := by
  intro hall
  have hanswer : .answer 1 (.ok (.source ⟨.slash, ["cache", "o__r", "a"]⟩)) ∈
      (((start (.directory [])).after diskConfig deepThenParent).step diskConfig (.turn 1)).2 := by
    rw [deepThenParent_answer]
    exact List.mem_singleton_self _
  have hcall : ((start (.directory [])).after diskConfig deepThenParent).call? 1 =
      some ⟨1, ⟨"o/r", none, .source "a", "2"⟩, none⟩ := by with_unfolding_all rfl
  have hdone : (start (.directory [])).checkouts diskConfig (fun _ => []) (deepThenParent ++ [.turn 1])
      (FetchCall.target diskConfig ⟨"o/r", none, .source "a", "2"⟩) = ["a/b"] := by decide +kernel
  obtain ⟨d, hd, habove⟩ := hall diskConfig deepThenParent (.turn 1) 1 _ _ "a" hanswer hcall rfl
  rw [hdone, List.mem_singleton] at hd
  subst hd
  exact absurd habove (by decide +kernel)

end Fetcher

end RepoOrbit
