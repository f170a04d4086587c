import RepoOrbit.Proofs.Fetch.Atomicity
import RepoOrbit.Proofs.Fetch.Coverage
import RepoOrbit.Proofs.Files.Lookup
import RepoOrbit.Proofs.Lists

/-!
# Whose clone an answer lies in

The clone of a repository is named after it with two underscores for the slash, which
may stand in an owner or a name as well: the clones of two repositories have one name
if the slash of one stands where the other has underscores (`Confusable`), and in no
other case (`cloneDirectory_eq_iff`).

A fetcher goes by the name of a clone. `source_answer_origin` says whose clone an
answer lies in when all clones have been made by the fetcher itself: it has been made
from the address of the repository that was asked for, or from that of one that can be
confused with it. `source_answer_not_always_own` shows that this happens.
-/

namespace RepoOrbit

/-- Repositories of which one has underscores where the other has its slash. -/
inductive Confusable : String → String → Prop
  | apart (owner middle name : String) :
      Confusable (owner ++ "/" ++ middle ++ "__" ++ name) (owner ++ "__" ++ middle ++ "/" ++ name)
  | adjoining (owner name : String) : Confusable (owner ++ "/_" ++ name) (owner ++ "_/" ++ name)

/-- The text of a repository: an owner, the only slash and a name. -/
theorem exists_owner_name {repo : String} (h : isRepository repo) :
    ∃ owner name, repo.toList = owner ++ '/' :: name ∧ '/' ∉ owner ∧ '/' ∉ name := by
  obtain ⟨owner, name, tail, howner, hname, htail, rfl⟩ := exists_parts h
  have hslash : '/' ∉ tail.toList := by rcases htail with rfl | rfl <;> decide
  refine ⟨owner.toList, name.toList ++ tail.toList, by simp, howner.slash_not_mem, ?_⟩
  rw [List.mem_append, not_or]
  exact ⟨hname.slash_not_mem, hslash⟩

/-! ## The name of a clone -/

theorem flatMap_cloneNameChar {l : List Char} (h : '/' ∉ l) : l.flatMap cloneNameChar = l := by
  induction l with
  | nil => rfl
  | cons c l ih =>
    obtain ⟨hc, hl⟩ := List.ne_and_not_mem_of_not_mem_cons h
    rw [List.flatMap_cons, ih hl, cloneNameChar, if_neg (Ne.symm hc)]
    rfl

theorem toList_cloneName {repo : String} {owner name : List Char} (hrepo : repo.toList = owner ++ '/' :: name)
    (howner : '/' ∉ owner) (hname : '/' ∉ name) : (cloneName repo).toList = owner ++ '_' :: '_' :: name := by
  rw [cloneName, String.toList_ofList, hrepo, List.flatMap_append, List.flatMap_cons, flatMap_cloneNameChar howner,
    flatMap_cloneNameChar hname]
  rfl

theorem cloneName_append (a b : String) : cloneName (a ++ b) = cloneName a ++ cloneName b := by
  rw [← String.toList_inj, String.toList_append]
  simp [cloneName]

theorem cloneName_eq_of_confusable {r₁ r₂ : String} (h : Confusable r₁ r₂) : cloneName r₁ = cloneName r₂ := by
  have hslash : cloneName "/" = "__" := by decide +kernel
  have hunderscores : cloneName "__" = "__" := by decide +kernel
  cases h with
  | apart owner middle name => simp only [cloneName_append, hslash, hunderscores]
  | adjoining owner name =>
    have hone : cloneName "/_" = cloneName "_/" := by decide +kernel
    rw [cloneName_append, cloneName_append, cloneName_append, cloneName_append, hone]

/-- Two texts that are one when underscores take the place of the slash, the first
one having its slash no later than the second. -/
theorem confusable_of_append {r₁ r₂ : String} {o a n₁ n₂ : List Char} (h₁ : r₁.toList = o ++ '/' :: n₁)
    (h₂ : r₂.toList = o ++ a ++ '/' :: n₂) (hname : '_' :: '_' :: n₁ = a ++ '_' :: '_' :: n₂) :
    r₁ = r₂ ∨ Confusable r₁ r₂ := by
  rw [← String.toList_inj]
  match a, hname with
  | [], hname =>
    obtain rfl : n₁ = n₂ := by simpa using hname
    exact .inl (by rw [h₁, h₂, List.append_nil])
  | [c], hname =>
    obtain ⟨rfl, rfl⟩ : '_' = c ∧ n₁ = '_' :: n₂ := by simpa using hname
    have hr₁ : r₁ = String.ofList o ++ "/_" ++ String.ofList n₂ := by
      rw [← String.toList_inj, h₁]
      simp
    have hr₂ : r₂ = String.ofList o ++ "_/" ++ String.ofList n₂ := by
      rw [← String.toList_inj, h₂]
      simp
    exact .inr (hr₁ ▸ hr₂ ▸ .adjoining _ _)
  | c :: d :: m, hname =>
    obtain ⟨rfl, rfl, rfl⟩ : '_' = c ∧ '_' = d ∧ n₁ = m ++ '_' :: '_' :: n₂ := by simpa using hname
    have hr₁ : r₁ = String.ofList o ++ "/" ++ String.ofList m ++ "__" ++ String.ofList n₂ := by
      rw [← String.toList_inj, h₁]
      simp
    have hr₂ : r₂ = String.ofList o ++ "__" ++ String.ofList m ++ "/" ++ String.ofList n₂ := by
      rw [← String.toList_inj, h₂]
      simp
    exact .inr (hr₁ ▸ hr₂ ▸ .apart _ _ _)

theorem cloneName_eq_iff {r₁ r₂ : String} (h₁ : isRepository r₁) (h₂ : isRepository r₂) :
    cloneName r₁ = cloneName r₂ ↔ r₁ = r₂ ∨ Confusable r₁ r₂ ∨ Confusable r₂ r₁ := by
  constructor
  · intro h
    obtain ⟨o₁, n₁, hr₁, ho₁, hn₁⟩ := exists_owner_name h₁
    obtain ⟨o₂, n₂, hr₂, ho₂, hn₂⟩ := exists_owner_name h₂
    rw [← String.toList_inj, toList_cloneName hr₁ ho₁ hn₁, toList_cloneName hr₂ ho₂ hn₂] at h
    rcases List.append_eq_append_iff.mp h with ⟨a, rfl, hname⟩ | ⟨a, rfl, hname⟩
    · exact (confusable_of_append hr₁ hr₂ hname).imp id .inl
    · exact (confusable_of_append hr₂ hr₁ hname).imp Eq.symm .inr
  · rintro (rfl | h | h)
    · rfl
    · exact cloneName_eq_of_confusable h
    · exact (cloneName_eq_of_confusable h).symm

/-- The clones of two repositories stand in one place exactly if these are one, or
can be confused. -/
theorem cloneDirectory_eq_iff {cache : Path} {r₁ r₂ : String} (h₁ : isRepository r₁) (h₂ : isRepository r₂) :
    cloneDirectory cache r₁ = cloneDirectory cache r₂ ↔ r₁ = r₂ ∨ Confusable r₁ r₂ ∨ Confusable r₂ r₁ := by
  rw [← cloneName_eq_iff h₁ h₂, cloneDirectory_eq_child cache h₁, cloneDirectory_eq_child cache h₂]
  simp [Path.child]

/-! ## What an answer lies in -/

/-- There are no links below a place where nothing stands. -/
theorem FileTree.isSettled_append_of_missing {t : FileTree} {p q : List String} (hp : t.IsSettled p)
    (hmissing : t.at? p = none) (hdots : ".." ∉ q) : t.IsSettled (p ++ q) := by
  intro r n hr
  rcases List.prefix_or_prefix_of_prefix hr (List.prefix_append p q) with hbefore | ⟨later, hlater⟩
  · exact hp r n hbefore
  · refine ⟨fun heq => ?_, fun target => ?_⟩
    · rcases List.eq_nil_or_concat' later with rfl | ⟨later, m, rfl⟩
      · rw [List.append_nil] at hlater
        exact (hp r n (hlater ▸ List.prefix_rfl)).1 heq
      · rw [← List.append_assoc] at hlater
        obtain ⟨rfl, rfl⟩ := List.append_singleton_inj.mp hlater
        rw [List.append_assoc, List.prefix_append_right_inj] at hr
        exact hdots (hr.subset (by simp [heq]))
    · rw [← at?_concat, ← hlater, at?_append_eq_none hmissing]
      exact nofun

/-- Something stands at a place above a directory, if no link is on the way to it. -/
theorem FileTree.isSome_at?_of_holdsDirectory {t : FileTree} {p q : List String} {name : String} (hp : t.IsSettled p)
    (hname : name ≠ "..") (hdots : ".." ∉ q) (h : t.holdsDirectory (t.resolve (p ++ [name] ++ q))) :
    (t.at? (p ++ [name])).isSome := by
  rw [Option.isSome_iff_ne_none]
  intro hmissing
  have hsettled : t.IsSettled (p ++ [name]) := hp.concat hname fun target => by
    rw [← at?_concat, hmissing]
    exact nofun
  have hall : t.IsSettled (p ++ [name] ++ q) := isSettled_append_of_missing hsettled hmissing hdots
  rw [resolve_of_isSettled hall] at h
  have hheld := holds_of_holdsDirectory h
  rw [holds_of_isSettled hall, at?_append_eq_none hmissing] at hheld
  cases hheld

theorem FetchCall.isSourceDirectory_of_refusal? {call : FetchCall} {dir : String} (h : call.refusal? = none)
    (htask : call.task = .source dir) : isSourceDirectory dir := by
  unfold refusal? at h
  rw [htask] at h
  dsimp only at h
  split at h
  · cases h
  · by_contra hdir
    rw [if_neg hdir] at h
    cases h

namespace Fetcher

variable {c : FetchConfig}

/-- A call that is answered with a source directory has found it below its clone. -/
theorem found_of_source_answer {f : Fetcher} {e : FetchEvent} {id : Nat} {root : Path}
    (h : .answer id (.ok (.source root)) ∈ (f.step c e).2) :
    ∃ a dir, f.call? id = some a ∧ a.call.task = .source dir ∧
      root = ⟨.slash, (f.step c e).1.files.resolve (c.locate (a.call.sourcePath c dir))⟩ ∧
      (f.step c e).1.files.holdsDirectory root.names := by
  rcases answered_cases c h with ⟨call, rfl, hcall, hturn, hnext⟩ | ⟨call, stage, command, ending, he, hcall, hnext⟩
  · obtain ⟨hfiles, -, dir, htask, -, hconclude⟩ := call.begin_finish_source c hnext
    obtain ⟨hroot, hdir⟩ := call.conclude_finish_ok c hconclude
    cases hroot
    rw [step_of_turn c hcall hturn, proceed_files]
    dsimp only
    rw [hfiles]
    exact ⟨_, dir, hcall, htask, rfl, hdir⟩
  · obtain ⟨-, -, dir, htask, hconclude⟩ := call.advance_finish_source c hnext
    obtain ⟨hroot, hdir⟩ := call.conclude_finish_ok c hconclude
    cases hroot
    rw [step_files_of_running he hcall]
    exact ⟨_, dir, hcall, htask, rfl, hdir⟩

/-! ## Who has made a clone -/

theorem clone_of_begin {call : FetchCall} {t : FileTree} {stage : FetchStage} {address : String} {place : Path}
    (h : (call.begin c t).2 = .run stage (.clone address place)) :
    cloneUrl c.baseUrl call.repo call.token = .ok address := by
  unfold FetchCall.begin at h
  split at h
  · split at h
    · split at h
      · obtain ⟨answer, hanswer⟩ := call.conclude_eq c t _
        rw [hanswer] at h
        cases h
      · cases h
    · cases h
  · unfold FetchCall.beginClone at h
    split at h
    · cases h
    · dsimp only at h
      split at h
      · cases h
      · rename_i haddress
        cases h
        exact haddress

theorem afterClone_not_clone {call : FetchCall} {t : FileTree} {stage : FetchStage} {address : String} {place : Path} :
    call.afterClone c t ≠ .run stage (.clone address place) := by
  intro h
  unfold FetchCall.afterClone at h
  split at h
  · obtain ⟨answer, hanswer⟩ := call.conclude_eq c t _
    rw [hanswer] at h
    cases h
  · cases h

/-- A call clones once, before anything else. -/
theorem advance_not_clone {call : FetchCall} {t : FileTree} {stage stage' : FetchStage} {command : GitCommand}
    {ending : GitEnd} {address : String} {place : Path} :
    (call.advance c t stage command ending).2 ≠ .run stage' (.clone address place) := by
  intro h
  have hadvanced := call.advance_advanced c t stage command ending
  generalize call.advance c t stage command ending = r at hadvanced h
  cases hadvanced with
  | failed | listed | cloned => cases h
  | widened => exact afterClone_not_clone h
  | settled =>
    rcases call.settle_next c t with hnext | ⟨dir, -, hnext⟩ <;> rw [hnext] at h
    · exact afterClone_not_clone h
    · cases h

/-- The address that git is asked to clone from is that of the repository asked for. -/
theorem address_of_clone {files : FileTree} {events : List FetchEvent} {a : ActiveCall} {stage : FetchStage}
    {address : String} {place : Path} (ha : a ∈ ((start files).after c events).calls)
    (hw : a.waitsFor = some (stage, .clone address place)) :
    cloneUrl c.baseUrl a.call.repo a.call.token = .ok address := by
  induction events using List.reverseRecOn generalizing a stage with
  | nil => cases ha
  | append_singleton events e ih =>
    have horderly := orderly_after_start c files events
    rw [after_concat] at ha
    have taken := step_taken c ((start files).after c events) e
    generalize (((start files).after c events).step c e).1 = g at taken ha
    cases taken with
    | idle | refused | changed => exact ih ha hw
    | accepted =>
      rcases List.mem_append.mp ha with ha | ha
      · exact ih ha hw
      · obtain rfl := List.mem_singleton.mp ha
        cases hw
    | gaveUp => exact ih (List.mem_filter.mp ha).1 hw
    | begun hcall =>
      rcases mem_proceed ha with ⟨ha, -⟩ | ⟨b, hb, hid, stage', command, hrun, rfl⟩
      · exact ih ha hw
      · obtain ⟨rfl, rfl⟩ := Prod.mk.inj (Option.some.inj hw)
        obtain rfl := horderly.eq_of_call? hb hid hcall
        exact clone_of_begin hrun
    | advanced hend hcall =>
      rcases mem_proceed ha with ⟨ha, -⟩ | ⟨b, -, -, stage', command, hrun, rfl⟩
      · exact ih ha hw
      · obtain ⟨rfl, rfl⟩ := Prod.mk.inj (Option.some.inj hw)
        exact absurd hrun advance_not_clone

variable (c) in
/-- The clone at a place is one that a call has made, from an address. -/
inductive MadeBy (files : FileTree) (place : List String) (maker : FetchCall) (address : String) :
    List FetchEvent → Prop
  | made {past : List FetchEvent} {e : FetchEvent} {id : Nat} {w : Option (FetchStage × GitCommand)} {t : FileTree} :
      ((start files).after c past).call? id = some ⟨id, maker, w⟩ → c.locate (maker.target c) = place →
      Succeeded c files (past ++ [e]) id (.clone address (maker.unfinished c)) →
      ((start files).after c past).files.at? (c.locate (maker.unfinished c)) = some t →
      ((start files).after c (past ++ [e])).files.at? place = some t → MadeBy files place maker address (past ++ [e])
  | kept {past : List FetchEvent} {e : FetchEvent} : MadeBy files place maker address past →
      ((start files).after c (past ++ [e])).files.at? place = ((start files).after c past).files.at? place →
      MadeBy files place maker address (past ++ [e])
  /-- Something below it has changed. -/
  | worked {past : List FetchEvent} {below : List String} {content : Option FileTree} :
      MadeBy files place maker address past → below ≠ [] →
      MadeBy files place maker address (past ++ [.changed (place ++ below) content])

/-- Where no clones come from elsewhere, every clone has been made by a call. -/
theorem WholeClone.madeBy {files : FileTree} {place : List String} {events : List FetchEvent}
    (h : WholeClone c (fun _ => False) files place events) : ∃ maker address, MadeBy c files place maker address events := by
  induction h with
  | standing _ hfalse | moved hfalse => exact hfalse.elim
  | @made past e a address t hcall hplace hcloned _ ht hmade =>
    obtain ⟨id, call, w⟩ := a
    exact ⟨call, address, .made hcall hplace hcloned ht hmade⟩
  | kept _ hsame ih =>
    obtain ⟨maker, address, hmade⟩ := ih
    exact ⟨maker, address, .kept hmade hsame⟩
  | worked _ hbelow ih =>
    obtain ⟨maker, address, hmade⟩ := ih
    exact ⟨maker, address, .worked hmade hbelow⟩

namespace MadeBy

variable {files : FileTree} {place : List String} {maker : FetchCall} {address : String} {past events : List FetchEvent}

theorem locate_target (h : MadeBy c files place maker address past) : c.locate (maker.target c) = place := by
  induction h with
  | made _ hplace => exact hplace
  | kept _ _ ih | worked _ _ ih => exact ih

theorem accepted (h : MadeBy c files place maker address past) :
    maker ∈ past.filterMap FetchEvent.accepted? := by
  induction h with
  | made hcall => exact Course.accepted_of_mem (List.prefix_append _ _) (mem_of_call? hcall)
  | kept _ _ ih | worked _ _ ih => exact (List.prefix_append _ _).filterMap _ |>.subset ih

/-- A clone has been made from the address of the repository of its call. -/
theorem address_eq {complete : FileTree → Prop} (hcourse : Course c complete files events) (hpast : past <+: events)
    (h : MadeBy c files place maker address past) : cloneUrl c.baseUrl maker.repo maker.token = .ok address := by
  induction h with
  | @made past e id w t hcall _ hcloned =>
    obtain ⟨before, e', call, stage, ending, hbefore, hcall', -, -⟩ := hcloned
    have hmade : (⟨id, maker, w⟩ : ActiveCall) ∈ ((start files).after c past).calls := mem_of_call? hcall
    have hmem : (⟨id, call, some (stage, _)⟩ : ActiveCall) ∈ ((start files).after c before).calls := mem_of_call? hcall'
    have hmakerRepo := Course.isRepository_of_mem hmade
    have hcallRepo := Course.isRepository_of_mem hmem
    have hbefore' : before <+: events := ((List.prefix_append before [e']).trans hbefore).trans hpast
    -- The call that has waited for the run is told by the name of its unfinished clone.
    have hunfinished : maker.unfinished c = call.unfinished c := by
      have hruns := (orderly_after_start c files before).runs _ hmem stage _ rfl
      cases stage with
      | cloning => obtain ⟨address', heq⟩ := hruns; exact (GitCommand.clone.inj heq).2
      | checkingOut | wideningOther | widening => obtain ⟨dir, -, heq⟩ := hruns; cases heq
      | listing => cases hruns.2
    have hname : maker.unfinishedName = call.unfinishedName := by
      have hplaces := congrArg c.locate hunfinished
      rw [maker.locate_unfinished c hmakerRepo, call.locate_unfinished c hcallRepo] at hplaces
      exact (List.append_singleton_inj.mp hplaces).2
    have hmaker : maker ∈ events.filterMap FetchEvent.accepted? :=
      Course.accepted_of_mem ((List.prefix_append past [e]).trans hpast) hmade
    have hcalled : call ∈ events.filterMap FetchEvent.accepted? := Course.accepted_of_mem hbefore' hmem
    obtain rfl : maker = call := List.inj_on_of_nodup_map hcourse.nodup hmaker hcalled hname
    have haddress := address_of_clone hmem rfl
    exact haddress
  | kept _ _ ih | worked _ _ ih => exact ih ((List.prefix_append _ _).trans hpast)

end MadeBy

/-- An answered directory has been found in a clone that the fetcher has made from the
address of the repository asked for, or from that of one that shares its place in the
cache; and places are shared by repositories that can be confused, and by no others. -/
theorem source_answer_origin {files : FileTree} {events : List FetchEvent} {e : FetchEvent} {id : Nat} {root : Path}
    (hcourse : Course c (fun _ => False) files (events ++ [e]))
    (hcache : ((start files).after c (events ++ [e])).files.IsSettled (c.locate c.cache))
    (h : .answer id (.ok (.source root)) ∈ (((start files).after c events).step c e).2) :
    (∀ r₁ r₂, isRepository r₁ → isRepository r₂ → (cloneDirectory c.cache r₁ = cloneDirectory c.cache r₂ ↔
      r₁ = r₂ ∨ Confusable r₁ r₂ ∨ Confusable r₂ r₁)) ∧
    ∃ a dir maker address, ((start files).after c events).call? id = some a ∧ a.call.task = .source dir ∧
      root = ⟨.slash, ((start files).after c (events ++ [e])).files.resolve (c.locate (a.call.sourcePath c dir))⟩ ∧
      MadeBy c files (c.locate (a.call.target c)) maker address (events ++ [e]) ∧
      cloneUrl c.baseUrl maker.repo maker.token = .ok address ∧
      (maker.repo = a.call.repo ∨ Confusable maker.repo a.call.repo ∨ Confusable a.call.repo maker.repo) := by
  refine ⟨fun _ _ => cloneDirectory_eq_iff, ?_⟩
  obtain ⟨a, dir, hcall, htask, rfl, hdir⟩ := found_of_source_answer h
  rw [← after_concat] at hdir ⊢
  have hmem := mem_of_call? hcall
  have haccepted := (orderly_after_start c files events).accepted a hmem
  have hrepo := a.call.isRepository_of_refusal? haccepted
  have hcalled := Course.accepted_of_mem (List.prefix_append events [e]) hmem
  have hsource : isSourceDirectory dir := a.call.isSourceDirectory_of_refusal? haccepted htask
  have hname : cloneName a.call.repo ≠ ".." := fun heq =>
    absurd (underscore_mem_cloneName hrepo) (heq ▸ by decide)
  have htarget := a.call.locate_target c hrepo
  have hstands : (((start files).after c (events ++ [e])).files.at? (c.spot (cloneName a.call.repo))).isSome := by
    rw [a.call.locate_sourcePath c hsource, htarget] at hdir
    exact FileTree.isSome_at?_of_holdsDirectory hcache hname (FetchCall.isSourceDirectory_spec hsource).2 hdir
  rcases hcourse.clones_after List.prefix_rfl hrepo (hcourse.own _ hcalled) with hnone | hwhole
  · rw [hnone] at hstands
    cases hstands
  · obtain ⟨maker, address, hmade⟩ := hwhole.madeBy
    have hmaker : isRepository maker.repo := by
      obtain ⟨e', -, he'⟩ := List.mem_filterMap.mp hmade.accepted
      exact maker.isRepository_of_refusal? (FetchEvent.refusal?_of_accepted? he')
    have hnames : cloneName maker.repo = cloneName a.call.repo := by
      have hplace := hmade.locate_target
      rw [maker.locate_target c hmaker] at hplace
      exact (List.append_singleton_inj.mp hplace).2
    rw [← htarget] at hmade
    exact ⟨a, dir, maker, address, hcall, htask, rfl, hmade, hmade.address_eq hcourse List.prefix_rfl,
      (cloneName_eq_iff hmaker hrepo).mp hnames⟩

/-! ## Two repositories that can be confused -/

/-- A call for `a__b/c`, up to its answer, and the next call, which is for `a/b__c`.
All runs of git succeed. -/
def confusedCalls : List FetchEvent :=
  [.request ⟨"a__b/c", none, .source "src", "1"⟩, .turn 0,
    .changed ["cache", "a__b__c.partial-1"] (some (.directory [(".git", .directory [])])),
    .ended 0 (.exited 0 [] []),
    .changed ["cache", "a__b__c.partial-1", "src"] (some (.directory [])),
    .ended 0 (.exited 0 [] []),
    .request ⟨"a/b__c", none, .source "src", "2"⟩]

theorem course_confusedCalls :
    Course diskConfig (fun _ => False) (.directory []) (confusedCalls ++ [.turn 1]) := by
  refine ⟨fun repo hrepo => .inl ?_, by decide +kernel, fun name _ => rfl, by decide +kernel, ?_⟩
  · rw [diskConfig.locate_cloneDirectory hrepo]
    rfl
  · refine ⟨nofun, nofun, ?_, nofun, ?_, nofun, nofun, nofun, trivial⟩
    · rintro place content heq
      cases heq
      refine .git (a := ⟨0, ⟨"a__b/c", none, .source "src", "1"⟩, some (.cloning,
        .clone "https://git.example/a__b/c.git" ⟨.slash, ["cache", "a__b__c.partial-1"]⟩)⟩) ?_
        ⟨_, _, rfl, .inl rfl⟩ (by decide +kernel)
      with_unfolding_all exact List.Mem.head _
    · rintro place content heq
      cases heq
      refine .git (a := ⟨0, ⟨"a__b/c", none, .source "src", "1"⟩, some (.checkingOut,
        .checkOut .set "src" ⟨.slash, ["cache", "a__b__c.partial-1"]⟩)⟩) ?_
        ⟨_, _, rfl, .inr rfl⟩ (by decide +kernel)
      with_unfolding_all exact List.Mem.head _

theorem call_of_confusedCalls : ((start (.directory [])).after diskConfig confusedCalls).call? 1 =
    some ⟨1, ⟨"a/b__c", none, .source "src", "2"⟩, none⟩ := by with_unfolding_all rfl

theorem confusedCalls_answer :
    .answer 1 (.ok (.source ⟨.slash, ["cache", "a__b__c", "src"]⟩)) ∈
      (((start (.directory [])).after diskConfig confusedCalls).step diskConfig (.turn 1)).2 := by
  have hroot : ((start (.directory [])).after diskConfig confusedCalls).files.resolve
      (diskConfig.locate (FetchCall.sourcePath diskConfig ⟨"a/b__c", none, .source "src", "2"⟩ "src")) =
        ["cache", "a__b__c", "src"] := by decide +kernel
  rw [step_of_turn diskConfig call_of_confusedCalls (by decide +kernel),
    FetchCall.begin_of_hasSource diskConfig _ (by decide +kernel) rfl (by decide +kernel), hroot]
  exact List.mem_singleton_self _

/-- The clone that both calls take is the one that the first of them has made. -/
theorem madeBy_confusedCalls : MadeBy diskConfig (.directory []) ["cache", "a__b__c"]
    ⟨"a__b/c", none, .source "src", "1"⟩ "https://git.example/a__b/c.git" (confusedCalls ++ [.turn 1]) := by
  have hmade : MadeBy diskConfig (.directory []) ["cache", "a__b__c"] ⟨"a__b/c", none, .source "src", "1"⟩
      "https://git.example/a__b/c.git" (confusedCalls.take 5 ++ [.ended 0 (.exited 0 [] [])]) := by
    have hcall : ((start (.directory [])).after diskConfig (confusedCalls.take 5)).call? 0 =
        some ⟨0, ⟨"a__b/c", none, .source "src", "1"⟩,
          some (.checkingOut, .checkOut .set "src" ⟨.slash, ["cache", "a__b__c.partial-1"]⟩)⟩ := by
      with_unfolding_all rfl
    refine .made (t := .directory [(".git", .directory []), ("src", .directory [])]) hcall (by decide +kernel) ?_ ?_ ?_
    · refine ⟨confusedCalls.take 3, .ended 0 (.exited 0 [] []), ⟨"a__b/c", none, .source "src", "1"⟩, .cloning, _,
        ⟨confusedCalls.drop 4 |>.take 2, rfl⟩, ?_, rfl, rfl⟩
      with_unfolding_all rfl
    · with_unfolding_all rfl
    · with_unfolding_all rfl
  have hasked : MadeBy diskConfig (.directory []) ["cache", "a__b__c"] ⟨"a__b/c", none, .source "src", "1"⟩
      "https://git.example/a__b/c.git" (confusedCalls.take 6 ++ [.request ⟨"a/b__c", none, .source "src", "2"⟩]) :=
    .kept hmade (by with_unfolding_all rfl)
  refine .kept hasked ?_
  rw [after_concat, step_of_turn diskConfig call_of_confusedCalls (by decide +kernel),
    FetchCall.begin_of_hasSource diskConfig _ (by decide +kernel) rfl (by decide +kernel)]
  rfl

theorem source_answer_origin_confusedCalls :
    Course diskConfig (fun _ => False) (.directory []) (confusedCalls ++ [.turn 1]) ∧
      ((start (.directory [])).after diskConfig (confusedCalls ++ [.turn 1])).files.IsSettled
        (diskConfig.locate diskConfig.cache) ∧
      .answer 1 (.ok (.source ⟨.slash, ["cache", "a__b__c", "src"]⟩)) ∈
        (((start (.directory [])).after diskConfig confusedCalls).step diskConfig (.turn 1)).2 ∧
      ∃ a maker address, ((start (.directory [])).after diskConfig confusedCalls).call? 1 = some a ∧
        MadeBy diskConfig (.directory []) (diskConfig.locate (a.call.target diskConfig)) maker address
          (confusedCalls ++ [.turn 1]) ∧
        cloneUrl diskConfig.baseUrl maker.repo maker.token = .ok address ∧
        (maker.repo = a.call.repo ∨ Confusable maker.repo a.call.repo ∨ Confusable a.call.repo maker.repo) := by
  have hcache : ((start (.directory [])).after diskConfig (confusedCalls ++ [.turn 1])).files.IsSettled
      (diskConfig.locate diskConfig.cache) := by
    refine (FileTree.isSettled_nil _).concat (by decide) fun target hlink => ?_
    have hdir : (((start (.directory [])).after diskConfig (confusedCalls ++ [.turn 1])).files.child? "cache").any
        FileTree.isDirectory := by decide +kernel
    rw [FileTree.at?_nil, Option.bind_some] at hlink
    rw [hlink] at hdir
    cases hdir
  obtain ⟨-, a, -, maker, address, hcall, -, -, hmade, haddress, hrepo⟩ :=
    source_answer_origin course_confusedCalls hcache confusedCalls_answer
  exact ⟨course_confusedCalls, hcache, confusedCalls_answer, a, maker, address, hcall, hmade, haddress, hrepo⟩

/-- Two repositories may share a place in the cache, and then a call for one of them is
answered with a directory of the other. -/
theorem source_answer_not_always_own :
    (¬ ∀ (cache : Path) (r₁ r₂ : String), isRepository r₁ → isRepository r₂ →
      cloneDirectory cache r₁ = cloneDirectory cache r₂ → r₁ = r₂) ∧
    ¬ ∀ (c : FetchConfig) (events : List FetchEvent) (e : FetchEvent) (id : Nat) (root : Path) (a : ActiveCall)
      (maker : FetchCall) (address : String), Course c (fun _ => False) (.directory []) (events ++ [e]) →
        .answer id (.ok (.source root)) ∈ (((start (.directory [])).after c events).step c e).2 →
        ((start (.directory [])).after c events).call? id = some a →
        MadeBy c (.directory []) (c.locate (a.call.target c)) maker address (events ++ [e]) →
        cloneUrl c.baseUrl a.call.repo a.call.token = .ok address := by
  constructor
  · intro hall
    have hconfused := hall ⟨.slash, ["cache"]⟩ "a__b/c" "a/b__c" (by decide +kernel) (by decide +kernel)
      (by decide +kernel)
    exact absurd hconfused (by decide)
  · intro hall
    have haddress := hall diskConfig confusedCalls (.turn 1) 1 _ _ ⟨"a__b/c", none, .source "src", "1"⟩
      "https://git.example/a__b/c.git" course_confusedCalls confusedCalls_answer call_of_confusedCalls ?_
    · have hown : cloneUrl diskConfig.baseUrl "a/b__c" none = .ok "https://git.example/a/b__c.git" := by
        with_unfolding_all rfl
      exact absurd (Except.ok.inj (hown.symm.trans haddress)) (by decide)
    · have htarget : diskConfig.locate (FetchCall.target diskConfig ⟨"a/b__c", none, .source "src", "2"⟩) =
          ["cache", "a__b__c"] := by decide +kernel
      rw [htarget]
      exact madeBy_confusedCalls

end Fetcher

end RepoOrbit
