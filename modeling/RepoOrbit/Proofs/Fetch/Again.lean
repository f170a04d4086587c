import Mathlib.Data.List.Infix
import RepoOrbit.Proofs.Fetch.OneClone

/-!
# Asking again

A call that is answered with a source directory leaves a clone in the cache if nothing
stood in its place at the start, or a clone did: what stands there stays, and what is put
there is a clone (`FileTree.KeepsClone`, `CleanCourse.keepsClone`). The same call is then
answered at once, and no git is run, exactly if the clone counts as one and the directory
stands in it (`atOnce_eq_answer_iff`).

`fetch_again_iff` puts both together. A directory without `.git` in the place of a clone is
never cached, and is handed out nevertheless (`fetch_not_always_cached`).
-/

namespace RepoOrbit

namespace FileTree

/-- Whether no link is on the way to a place, or at it. -/
def hasNoLinkTo (t : FileTree) (names : List String) : Bool :=
  names.inits.all fun p => match t.at? p with
    | some (.link _) => false
    | _ => true

theorem isSettled_of_hasNoLinkTo {t : FileTree} {names : List String} (h : t.hasNoLinkTo names)
    (hdots : ".." ∉ names) : t.IsSettled names := by
  intro p n hp
  refine ⟨fun heq => hdots (heq ▸ hp.subset (by simp)), fun target htarget => ?_⟩
  have hlink := List.all_eq_true.mp h (p ++ [n]) ((List.mem_inits _ _).mpr hp)
  rw [at?_concat, htarget] at hlink
  cases hlink

/-- What stands at a place stays there and neither gets nor loses its `.git`; what comes to
a place where nothing stood has one. -/
structure KeepsClone (t t' : FileTree) (place : List String) : Prop where
  stays : (t.at? place).isSome → (t'.at? place).isSome
  git : (t.at? place).isSome → ((t'.at? (place ++ [".git"])).isSome ↔ (t.at? (place ++ [".git"])).isSome)
  comes : t.at? place = none → (t'.at? place).isSome → (t'.at? (place ++ [".git"])).isSome

namespace KeepsClone

variable {t t' t'' : FileTree} {place : List String}

theorem of_at?_eq (h : t'.at? place = t.at? place) : t.KeepsClone t' place where
  stays hstands := by rwa [h]
  git _ := by rw [at?_append, at?_append, h]
  comes hnone hstands := by
    rw [h, hnone] at hstands
    cases hstands

theorem trans (h : t.KeepsClone t' place) (h' : t'.KeepsClone t'' place) : t.KeepsClone t'' place where
  stays hstands := h'.stays (h.stays hstands)
  git hstands := (h'.git (h.stays hstands)).trans (h.git hstands)
  comes hnone hstands := by
    cases hmiddle : t'.at? place with
    | none => exact h'.comes hmiddle hstands
    | some e =>
      have hstands' : (t'.at? place).isSome := by rw [hmiddle]; rfl
      exact (h'.git hstands').mpr (h.comes hnone hstands')

/-- A clone comes to a place where nothing stood. -/
theorem of_holdsGit (hnone : t.at? place = none) (hgit : t'.HoldsGit place) : t.KeepsClone t' place where
  stays hstands := by
    rw [hnone] at hstands
    cases hstands
  git hstands := by
    rw [hnone] at hstands
    cases hstands
  comes _ _ := by
    obtain ⟨es, hes⟩ := hgit
    rw [hes]
    rfl

end KeepsClone

end FileTree

/-- A call is not turned down if its repository and its directory are in order. -/
theorem FetchCall.refusal?_eq_none {call : FetchCall} {dir : String} (hrepo : isRepository call.repo)
    (htask : call.task = .source dir) (hdir : isSourceDirectory dir) : call.refusal? = none := by
  simp [refusal?, hrepo, htask, hdir]

namespace Fetcher

variable (c : FetchConfig)

/-- What may happen around the clone of a repository: there are no links on the way to it,
whoever changes something there keeps clones, and git has made `.git` in an unfinished clone
when it succeeds. -/
structure LeavesClone (repo : String) (f : Fetcher) (e : FetchEvent) : Prop where
  settled : f.files.IsSettled (c.locate (cloneDirectory c.cache repo) ++ [".git"])
  changes : ∀ place content, e = .changed place content →
    f.files.KeepsClone (f.files.change place content) (c.locate (cloneDirectory c.cache repo))
  cloned : ∀ id ending a, e.end? = some (id, ending) → ending.isSuccess → f.call? id = some a → a.MakesClone →
    f.files.HoldsGit (c.locate (a.call.unfinished c))

/-- Events around the clone of a repository; no unfinished clone has the name of it. -/
structure CleanCourse (files : FileTree) (repo : String) (events : List FetchEvent) : Prop where
  leaves : Throughout c (LeavesClone c repo) (start files) events
  settled : ((start files).after c events).files.IsSettled (c.locate (cloneDirectory c.cache repo) ++ [".git"])
  own : cloneName repo ∉ unfinishedNames events

variable {c}

theorem LeavesClone.keepsClone_step {f : Fetcher} {e : FetchEvent} {repo : String} (h : LeavesClone c repo f e)
    (horderly : f.Orderly c) (hrepo : isRepository repo) (hown : ∀ a ∈ f.calls, cloneName repo ≠ a.call.unfinishedName) :
    f.files.KeepsClone (f.step c e).1.files (c.spot (cloneName repo)) := by
  have hsettled := h.settled.before (List.prefix_append _ _)
  have hchanges := h.changes
  rw [c.locate_cloneDirectory hrepo] at hsettled hchanges
  by_cases hchanged : ∃ place content, e = .changed place content
  · obtain ⟨place, content, rfl⟩ := hchanged
    exact hchanges place content rfl
  · rcases own_step (c := c) horderly hown fun place content heq => hchanged ⟨place, content, heq⟩ with
      hsame | ⟨hfree, id, ending, a, t, hend, hs, hcall, hmakes, ht, hmoved⟩
    · exact .of_at?_eq hsame
    · rw [FileTree.holds_of_isSettled hsettled, Option.isSome_eq_false_iff, Option.isNone_iff_eq_none] at hfree
      exact .of_holdsGit hfree ((h.cloned id ending a hend hs hcall hmakes).of_at?_eq (hmoved.trans ht.symm))

namespace CleanCourse

variable {files : FileTree} {repo : String} {past events : List FetchEvent}

theorem keepsClone (h : CleanCourse c files repo events) (hrepo : isRepository repo) (hpast : past <+: events) :
    files.KeepsClone ((start files).after c past).files (c.spot (cloneName repo)) := by
  induction past using List.reverseRecOn with
  | nil => exact .of_at?_eq rfl
  | append_singleton past e ih =>
    have hbefore : past <+: events := (List.prefix_append past [e]).trans hpast
    rw [after_concat]
    exact (ih hbefore).trans ((h.leaves.at_event hpast).keepsClone_step (orderly_after_start c files past) hrepo
      fun a ha => Course.cloneName_ne hbefore ha h.own)

theorem settled_start (h : CleanCourse c files repo events) :
    files.IsSettled (c.locate (cloneDirectory c.cache repo) ++ [".git"]) := by
  cases events with
  | nil => exact h.settled
  | cons e events => exact h.leaves.1.settled

/-- A call whose directory stands in its clone at the end finds a clone then, if there was
one at the start or nothing in its place. -/
theorem isCached_iff (h : CleanCourse c files repo events) {call : FetchCall} (hcall : call.repo = repo)
    (hrepo : isRepository repo)
    (hstands : (((start files).after c events).files.at? (c.spot (cloneName repo))).isSome) :
    call.isCached c ((start files).after c events).files ↔
      (files.holds (c.locate (call.target c)) → call.isCached c files) := by
  subst hcall
  have hkeeps := h.keepsClone hrepo List.prefix_rfl
  have hstart := h.settled_start
  have hend := h.settled
  rw [c.locate_cloneDirectory hrepo] at hstart hend
  have hplace := hstart.before (List.prefix_append (c.spot (cloneName call.repo)) [".git"])
  rw [FetchCall.isCached, FetchCall.isCached, c.locate_child, call.locate_target c hrepo,
    FileTree.holds_of_isSettled hstart, FileTree.holds_of_isSettled hend, FileTree.holds_of_isSettled hplace]
  constructor
  · intro hgit hstood
    exact (hkeeps.git hstood).mp hgit
  · intro hclone
    cases hstood : files.at? (c.spot (cloneName call.repo)) with
    | none => exact hkeeps.comes hstood hstands
    | some e =>
      have hstood' : (files.at? (c.spot (cloneName call.repo))).isSome := by rw [hstood]; rfl
      exact (hkeeps.git hstood').mpr (hclone hstood')

end CleanCourse

/-! ## A call that comes at once -/

variable (c) in
/-- What comes of a call whose turn comes as soon as it is made. -/
def atOnce (f : Fetcher) (call : FetchCall) : List FetchAction :=
  (f.step c (.request call)).2 ++ ((f.step c (.request call)).1.step c (.turn f.requests)).2

theorem atOnce_eq {f : Fetcher} (horderly : f.Orderly c) {call : FetchCall} (haccepted : call.refusal? = none)
    (halone : ∀ a ∈ f.calls, a.call.target c ≠ call.target c) :
    ∃ g : Fetcher, f.atOnce c call = (g.proceed f.requests (call.begin c f.files).2).2 := by
  have hrequest : f.step c (.request call) =
      ({ f with requests := f.requests + 1, calls := f.calls ++ [⟨f.requests, call, none⟩] }, []) := by
    simp only [step, haccepted]
  have hcall := (horderly.step (.request call)).call?_of_mem (a := ⟨f.requests, call, none⟩)
  rw [hrequest] at hcall
  have hturn : isInTurn c { f with requests := f.requests + 1, calls := f.calls ++ [⟨f.requests, call, none⟩] }
      ⟨f.requests, call, none⟩ := by
    have hnone : f.calls.find? (fun a => a.call.target c == call.target c) = none :=
      List.find?_eq_none.mpr fun a ha => by simpa using halone a ha
    simp [isInTurn, List.find?_append, hnone]
  rw [atOnce, hrequest, List.nil_append]
  dsimp only
  rw [step_of_turn c (hcall (by simp)) hturn]
  exact ⟨_, rfl⟩

theorem atOnce_eq_answer_iff {f : Fetcher} (horderly : f.Orderly c) {call : FetchCall} {dir : String}
    (haccepted : call.refusal? = none) (halone : ∀ a ∈ f.calls, a.call.target c ≠ call.target c)
    (htask : call.task = .source dir) :
    f.atOnce c call = [.answer f.requests
        (.ok (.source ⟨.slash, f.files.resolve (c.locate (call.sourcePath c dir))⟩))] ↔
      call.isCached c f.files ∧ call.hasSource c f.files dir := by
  obtain ⟨g, hg⟩ := atOnce_eq horderly haccepted halone
  rw [hg]
  constructor
  · intro h
    obtain ⟨-, hnext⟩ := mem_proceed_answer (by rw [h]; exact List.mem_singleton_self _)
    obtain ⟨-, hcached, dir', htask', hsource, -⟩ := call.begin_finish_source c hnext
    obtain rfl : dir = dir' := by simpa [htask] using htask'
    exact ⟨hcached, hsource⟩
  · rintro ⟨hcached, hsource⟩
    rw [call.begin_of_hasSource c hcached htask hsource]
    rfl


/-- A call that is answered with a directory has left a clone in the cache exactly if a clone,
or nothing, stood in its place at the start; and the same call is answered with the same
directory at once, without another run of git, exactly if there is a clone in the cache and the
directory stands in it, as it does if no link is on the way to it. -/
theorem fetch_again_iff {files : FileTree} {events : List FetchEvent} {e : FetchEvent} {id : Nat} {root : Path}
    (h : .answer id (.ok (.source root)) ∈ (((start files).after c events).step c e).2) :
    ∃ a dir, ((start files).after c events).call? id = some a ∧ a.call.task = .source dir ∧
      (CleanCourse c files a.call.repo (events ++ [e]) →
        (a.call.isCached c ((start files).after c (events ++ [e])).files ↔
          (files.holds (c.locate (a.call.target c)) → a.call.isCached c files))) ∧
      (((start files).after c (events ++ [e])).files.IsSettled (c.locate (a.call.sourcePath c dir)) →
        a.call.hasSource c ((start files).after c (events ++ [e])).files dir) ∧
      ∀ again : FetchCall, again.repo = a.call.repo → again.task = .source dir →
        (∀ b ∈ ((start files).after c (events ++ [e])).calls, b.call.target c ≠ a.call.target c) →
        (((start files).after c (events ++ [e])).atOnce c again =
            [.answer ((start files).after c (events ++ [e])).requests (.ok (.source root))] ↔
          a.call.isCached c ((start files).after c (events ++ [e])).files ∧
            a.call.hasSource c ((start files).after c (events ++ [e])).files dir) := by
  obtain ⟨a, dir, hcall, htask, hroot, hfound⟩ := found_of_source_answer h
  have haccepted := (orderly_after_start c files events).accepted a (mem_of_call? hcall)
  have hrepo := FetchCall.isRepository_of_refusal? _ haccepted
  have hdir := FetchCall.isSourceDirectory_of_refusal? haccepted htask
  have horderly := orderly_after_start c files (events ++ [e])
  rw [← after_concat] at hroot hfound
  subst hroot
  refine ⟨a, dir, hcall, htask, fun hcourse => ?_, fun hsettled => ?_, fun again hagain htask' halone => ?_⟩
  · have hplace := hcourse.settled
    rw [c.locate_cloneDirectory hrepo] at hplace
    rw [a.call.locate_sourcePath c hdir, a.call.locate_target c hrepo] at hfound
    refine hcourse.isCached_iff rfl hrepo (FileTree.isSome_at?_of_holdsDirectory ?_ ?_ ?_ hfound)
    · exact (hplace.before (List.prefix_append _ _)).before (List.prefix_append _ _)
    · exact (hplace _ _ (List.prefix_append _ _)).1
    · exact (FetchCall.isSourceDirectory_spec hdir).2
  · rwa [FileTree.resolve_of_isSettled hsettled] at hfound
  · obtain ⟨repo, token, task, tag⟩ := again
    obtain rfl : repo = a.call.repo := hagain
    exact atOnce_eq_answer_iff horderly (FetchCall.refusal?_eq_none hrepo htask' hdir) halone htask'

/-! ## Clean courses -/

theorem LeavesClone.of_quiet {f : Fetcher} {e : FetchEvent} {repo : String}
    (hsettled : f.files.IsSettled (c.locate (cloneDirectory c.cache repo) ++ [".git"]))
    (hchanged : ∀ place content, e ≠ .changed place content) (hend : e.end? = none) : LeavesClone c repo f e := by
  refine ⟨hsettled, fun place content heq => absurd heq (hchanged place content), fun id ending a heq => ?_⟩
  rw [hend] at heq
  cases heq

theorem LeavesClone.of_changed {f : Fetcher} {place : List String} {content : Option FileTree} {repo : String}
    (hsettled : f.files.IsSettled (c.locate (cloneDirectory c.cache repo) ++ [".git"]))
    (hkeeps : f.files.KeepsClone (f.files.change place content) (c.locate (cloneDirectory c.cache repo))) :
    LeavesClone c repo f (.changed place content) := by
  refine ⟨hsettled, fun place' content' heq => ?_, fun id ending a heq => ?_⟩
  · cases heq
    exact hkeeps
  · cases heq

theorem LeavesClone.of_ended {f : Fetcher} {id : Nat} {ending : GitEnd} {a : ActiveCall} {repo : String}
    (hsettled : f.files.IsSettled (c.locate (cloneDirectory c.cache repo) ++ [".git"]))
    (hcall : f.call? id = some a) (hgit : f.files.HoldsGit (c.locate (a.call.unfinished c))) :
    LeavesClone c repo f (.ended id ending) := by
  refine ⟨hsettled, nofun, fun i ending' b heq _ hb _ => ?_⟩
  obtain ⟨rfl, -⟩ := Prod.mk.inj (Option.some.inj heq)
  obtain rfl := Option.some.inj (hcall.symm.trans hb)
  exact hgit

/-- A call from an empty cache. While it checks out its directory, another process moves its
own clone to the place. -/
def overtakenCall : List FetchEvent :=
  [.request ⟨"o/r", none, .source "src", "1"⟩, .turn 0,
    .changed ["cache", "o__r.partial-1"] (some (.directory [(".git", .directory [])])), .ended 0 (.exited 0 [] []),
    .changed ["cache", "o__r"] (some (.directory [(".git", .directory []), ("src", .directory [])]))]

/-- A call for a repository in whose place a directory stands that is no clone. -/
def callBesideDirectory : List FetchEvent :=
  [.request ⟨"o/r", none, .source "src", "1"⟩, .turn 0,
    .changed ["cache", "o__r.partial-1"] (some (.directory [(".git", .directory [])])), .ended 0 (.exited 0 [] [])]

/-- A directory without `.git` in the place of a clone. -/
def bareDirectory : FileTree := .directory [("cache", .directory [("o__r", .directory [("src", .directory [])])])]

theorem locate_cloneDirectory_diskConfig :
    diskConfig.locate (cloneDirectory diskConfig.cache "o/r") = ["cache", "o__r"] := by decide +kernel

theorem isSettled_diskConfig {t : FileTree} (h : t.hasNoLinkTo ["cache", "o__r", ".git"]) :
    t.IsSettled (diskConfig.locate (cloneDirectory diskConfig.cache "o/r") ++ [".git"]) := by
  rw [locate_cloneDirectory_diskConfig]
  exact FileTree.isSettled_of_hasNoLinkTo h (by decide)

theorem leavesClone_ended {f : Fetcher} (stage : FetchStage) (command : GitCommand) {ending : GitEnd}
    (hlinks : f.files.hasNoLinkTo ["cache", "o__r", ".git"])
    (hcall : f.call? 0 = some ⟨0, ⟨"o/r", none, .source "src", "1"⟩, some (stage, command)⟩)
    (hstands : f.files.at? ["cache", "o__r.partial-1", ".git"] = some (.directory [])) :
    LeavesClone diskConfig "o/r" f (.ended 0 ending) := by
  have hplace : diskConfig.locate (FetchCall.unfinished diskConfig ⟨"o/r", none, .source "src", "1"⟩) =
      ["cache", "o__r.partial-1"] := by decide +kernel
  refine .of_ended (isSettled_diskConfig hlinks) hcall ⟨[], ?_⟩
  rw [hplace]
  exact hstands

theorem cleanCourse_overtakenCall :
    CleanCourse diskConfig (.directory []) "o/r" (overtakenCall ++ [.ended 0 (.exited 0 [] [])]) := by
  refine ⟨⟨?_, ?_, ?_, ?_, ?_, ?_, trivial⟩, ?_, ?_⟩
  · exact .of_quiet (isSettled_diskConfig rfl) nofun rfl
  · refine .of_quiet (isSettled_diskConfig ?_) nofun rfl
    with_unfolding_all rfl
  · refine .of_changed (isSettled_diskConfig ?_) (.of_at?_eq ?_) <;> with_unfolding_all rfl
  · refine leavesClone_ended .cloning (.clone "https://git.example/o/r.git" ⟨.slash, ["cache", "o__r.partial-1"]⟩)
      ?_ ?_ ?_ <;> with_unfolding_all rfl
  · refine .of_changed (isSettled_diskConfig ?_) (.of_holdsGit ?_ ⟨[], ?_⟩) <;> with_unfolding_all rfl
  · refine leavesClone_ended .checkingOut (.checkOut .set "src" ⟨.slash, ["cache", "o__r.partial-1"]⟩) ?_ ?_ ?_ <;>
      with_unfolding_all rfl
  · refine isSettled_diskConfig ?_
    with_unfolding_all rfl
  · decide +kernel

theorem cleanCourse_callBesideDirectory :
    CleanCourse diskConfig bareDirectory "o/r" (callBesideDirectory ++ [.ended 0 (.exited 0 [] [])]) := by
  refine ⟨⟨?_, ?_, ?_, ?_, ?_, trivial⟩, ?_, ?_⟩
  · exact .of_quiet (isSettled_diskConfig rfl) nofun rfl
  · refine .of_quiet (isSettled_diskConfig ?_) nofun rfl
    with_unfolding_all rfl
  · refine .of_changed (isSettled_diskConfig ?_) (.of_at?_eq ?_) <;> with_unfolding_all rfl
  · refine leavesClone_ended .cloning (.clone "https://git.example/o/r.git" ⟨.slash, ["cache", "o__r.partial-1"]⟩)
      ?_ ?_ ?_ <;> with_unfolding_all rfl
  · refine leavesClone_ended .checkingOut (.checkOut .set "src" ⟨.slash, ["cache", "o__r.partial-1"]⟩) ?_ ?_ ?_ <;>
      with_unfolding_all rfl
  · refine isSettled_diskConfig ?_
    with_unfolding_all rfl
  · decide +kernel

theorem overtakenCall_answer :
    (((start (.directory [])).after diskConfig overtakenCall).step diskConfig (.ended 0 (.exited 0 [] []))).2 =
      [.answer 0 (.ok (.source ⟨.slash, ["cache", "o__r", "src"]⟩))] := by
  with_unfolding_all rfl

/-- The call of another process was faster; the clone is cached, and asking again runs no git. -/
theorem fetch_again_iff_overtakenCall :
    CleanCourse diskConfig (.directory []) "o/r" (overtakenCall ++ [.ended 0 (.exited 0 [] [])]) ∧
      FetchCall.isCached diskConfig ⟨"o/r", none, .source "src", "1"⟩ ((start (.directory [])).after diskConfig
        (overtakenCall ++ [.ended 0 (.exited 0 [] [])])).files ∧
      ((start (.directory [])).after diskConfig (overtakenCall ++ [.ended 0 (.exited 0 [] [])])).atOnce diskConfig
          ⟨"o/r", none, .source "src", "2"⟩ =
        [.answer 1 (.ok (.source ⟨.slash, ["cache", "o__r", "src"]⟩))] := by
  have hanswer : .answer 0 (.ok (.source ⟨.slash, ["cache", "o__r", "src"]⟩)) ∈
      (((start (.directory [])).after diskConfig overtakenCall).step diskConfig (.ended 0 (.exited 0 [] []))).2 := by
    rw [overtakenCall_answer]
    exact List.mem_singleton_self _
  obtain ⟨a, dir, hcall, htask, hcached, hsource, hagain⟩ := fetch_again_iff hanswer
  have hcall' : ((start (.directory [])).after diskConfig overtakenCall).call? 0 =
      some ⟨0, ⟨"o/r", none, .source "src", "1"⟩,
        some (.checkingOut, .checkOut .set "src" ⟨.slash, ["cache", "o__r.partial-1"]⟩)⟩ := by
    with_unfolding_all rfl
  obtain rfl := Option.some.inj (hcall'.symm.trans hcall)
  obtain rfl : "src" = dir := FetchTask.source.inj htask
  have hempty : FileTree.holds (.directory []) (diskConfig.locate (FetchCall.target diskConfig
      ⟨"o/r", none, .source "src", "1"⟩)) = false := by
    with_unfolding_all rfl
  have hclone := (hcached cleanCourse_overtakenCall).mpr fun hholds => by
    rw [hempty] at hholds
    cases hholds
  have hplace : diskConfig.locate (FetchCall.sourcePath diskConfig ⟨"o/r", none, .source "src", "1"⟩ "src") =
      ["cache", "o__r", "src"] := by decide +kernel
  have hdir := hsource (by
    rw [hplace]
    refine FileTree.isSettled_of_hasNoLinkTo ?_ (by decide)
    with_unfolding_all rfl)
  have hcalls : ((start (.directory [])).after diskConfig (overtakenCall ++ [.ended 0 (.exited 0 [] [])])).calls =
      [] := by
    with_unfolding_all rfl
  have hrequests : ((start (.directory [])).after diskConfig (overtakenCall ++ [.ended 0 (.exited 0 [] [])])).requests =
      1 := by
    with_unfolding_all rfl
  have honce := hagain ⟨"o/r", none, .source "src", "2"⟩ rfl rfl fun b hb => by
    rw [hcalls] at hb
    cases hb
  rw [hrequests] at honce
  exact ⟨cleanCourse_overtakenCall, hclone, honce.mpr ⟨hclone, hdir⟩⟩

/-- A directory without `.git` in the place of a clone is handed out, and git clones the
repository again for the next call. -/
theorem fetch_not_always_cached :
    (¬ ∀ (c : FetchConfig) (files : FileTree) (events : List FetchEvent) (e : FetchEvent) (id : Nat) (root : Path)
      (a : ActiveCall), .answer id (.ok (.source root)) ∈ (((start files).after c events).step c e).2 →
        ((start files).after c events).call? id = some a → CleanCourse c files a.call.repo (events ++ [e]) →
        a.call.isCached c ((start files).after c (events ++ [e])).files) ∧
      (((start bareDirectory).after diskConfig callBesideDirectory).step diskConfig (.ended 0 (.exited 0 [] []))).2 =
        [.answer 0 (.ok (.source ⟨.slash, ["cache", "o__r", "src"]⟩))] ∧
      ((start bareDirectory).after diskConfig (callBesideDirectory ++ [.ended 0 (.exited 0 [] [])])).atOnce diskConfig
          ⟨"o/r", none, .source "src", "2"⟩ =
        [.start 1 (.clone "https://git.example/o/r.git" ⟨.slash, ["cache", "o__r.partial-2"]⟩)] := by
  have hanswer : (((start bareDirectory).after diskConfig callBesideDirectory).step diskConfig
      (.ended 0 (.exited 0 [] []))).2 = [.answer 0 (.ok (.source ⟨.slash, ["cache", "o__r", "src"]⟩))] := by
    with_unfolding_all rfl
  have hcall : ((start bareDirectory).after diskConfig callBesideDirectory).call? 0 =
      some ⟨0, ⟨"o/r", none, .source "src", "1"⟩,
        some (.checkingOut, .checkOut .set "src" ⟨.slash, ["cache", "o__r.partial-1"]⟩)⟩ := by
    with_unfolding_all rfl
  have hmissing : FetchCall.isCached diskConfig ⟨"o/r", none, .source "src", "1"⟩ ((start bareDirectory).after diskConfig
      (callBesideDirectory ++ [.ended 0 (.exited 0 [] [])])).files = false := by
    with_unfolding_all rfl
  refine ⟨fun hall => ?_, hanswer, by with_unfolding_all rfl⟩
  have hcached := hall diskConfig bareDirectory callBesideDirectory (.ended 0 (.exited 0 [] [])) 0 _ _
    (hanswer ▸ List.mem_singleton_self _) hcall cleanCourse_callBesideDirectory
  rw [hmissing] at hcached
  cases hcached

end Fetcher

end RepoOrbit
