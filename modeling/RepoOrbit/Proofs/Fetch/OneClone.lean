import RepoOrbit.Proofs.Fetch.Exclusion
import RepoOrbit.Proofs.Fetch.Origin

/-!
# One clone for all calls

Calls for one repository share a clone. While git works for nobody else in the cache
(`Fetcher.Alone`), there is nothing in the place of a clone, or there is a directory
with a `.git` directory in it (`OwnCache.none_or_holdsGit`): only a complete clone is
moved there, and only if the place is free (`Alone.place_step`). Calls that begin later
find it and do not clone.

`git_serialised` puts this beside the exclusion of runs.
-/

namespace RepoOrbit

namespace FileTree

/-- A clone: its `.git` directory stands in it. -/
def HoldsGit (t : FileTree) (place : List String) : Prop :=
  ∃ es, t.at? (place ++ [".git"]) = some (.directory es)

theorem HoldsGit.at?_isDirectory {t : FileTree} {place : List String} (h : t.HoldsGit place) :
    ∃ es, t.at? place = some (.directory es) := by
  obtain ⟨git, hgit⟩ := h
  rw [at?_concat] at hgit
  obtain ⟨e, he, hchild⟩ := Option.bind_eq_some_iff.mp hgit
  cases e with
  | directory es => exact ⟨es, he⟩
  | file | link => cases hchild

theorem holds_of_at? {t : FileTree} {place : List String} {es : List (String × FileTree)}
    (h : t.at? place = some (.directory es)) (hdots : ".." ∉ place) : t.holds place := by
  have hfound : t.findFrom? linkLimit [] place = some (place, .directory es) :=
    findFrom?_of_at? linkLimit h hdots fun _ => nofun
  rw [holds, find?, hfound]
  rfl

theorem HoldsGit.of_at?_eq {t t' : FileTree} {p q : List String} (h : t.HoldsGit p) (hsame : t'.at? q = t.at? p) :
    t'.HoldsGit q := by
  obtain ⟨git, hgit⟩ := h
  rw [at?_append, ← hsame, ← at?_append] at hgit
  exact ⟨git, hgit⟩

/-- What changes in a clone leaves it one if it is not the `.git` directory as a whole. -/
theorem HoldsGit.change {t : FileTree} {place below : List String} (h : t.HoldsGit place) (hbelow : below ≠ [])
    (hgit : below ≠ [".git"]) (content : Option FileTree) : (t.change (place ++ below) content).HoldsGit place := by
  obtain ⟨git, hstands⟩ := h
  obtain ⟨n, rest, rfl⟩ := List.exists_cons_of_ne_nil hbelow
  by_cases hn : n = ".git"
  · subst hn
    have hrest : rest ≠ [] := fun heq => hgit (by rw [heq])
    have hchanged := at?_change_append hrest hstands content
    have hdir := isDirectory_change (t := .directory git) rfl hrest content
    rw [List.append_assoc] at hchanged
    cases hnew : (directory git).change rest content with
    | directory es => exact ⟨es, by rw [← hnew]; exact hchanged⟩
    | file | link => rw [hnew] at hdir; cases hdir
  · refine ⟨git, ?_⟩
    have hplace : place ++ n :: rest = place ++ [n] ++ rest := by simp
    rw [hplace, at?_change_apart _ ((apart_of_ne hn).symm.append_right rest).symm]
    exact hstands

end FileTree

namespace Fetcher

variable (c : FetchConfig)

/-- What changes when nobody but git works in the cache. -/
inductive OwnChange (f : Fetcher) : List String → Option FileTree → Prop
  /-- Git makes a clone. -/
  | making {a : ActiveCall} {place : List String} {content : Option FileTree} : a ∈ f.calls → a.MakesClone →
      c.locate (a.call.unfinished c) <+: place → OwnChange f place content
  /-- Git works in a clone that is in place, and neither takes its `.git` directory away
  nor makes another one. -/
  | working {a : ActiveCall} {run : FetchStage × GitCommand} {below : List String} {content : Option FileTree} :
      a ∈ f.calls → a.waitsFor = some run → (f.files.at? (c.locate (a.call.target c))).isSome → below ≠ [] →
      below ≠ [".git"] → OwnChange f (c.locate (a.call.target c) ++ below) content
  | elsewhere {place : List String} {content : Option FileTree} : FileTree.Apart place (c.locate c.cache) →
      OwnChange f place content

/-- Only git works in the cache, and what it has cloned has a `.git` directory. -/
structure Alone (f : Fetcher) (e : FetchEvent) : Prop where
  changes : ∀ place content, e = .changed place content → OwnChange c f place content
  cloned : ∀ id ending a, e.end? = some (id, ending) → ending.isSuccess → f.call? id = some a → a.MakesClone →
    f.files.HoldsGit (c.locate (a.call.unfinished c))

/-- Something is true whenever an event comes. -/
def Throughout (p : Fetcher → FetchEvent → Prop) : Fetcher → List FetchEvent → Prop
  | _, [] => True
  | f, e :: events => p f e ∧ Throughout p (f.step c e).1 events

variable {c}

theorem Alone.of_quiet {f : Fetcher} {e : FetchEvent} (hchanged : ∀ place content, e ≠ .changed place content)
    (hend : e.end? = none) : Alone c f e := by
  refine ⟨fun place content heq => absurd heq (hchanged place content), fun id ending a heq => ?_⟩
  rw [hend] at heq
  cases heq

theorem Alone.of_cancel {f : Fetcher} {id : Nat} : Alone c f (.cancel id) := by
  refine ⟨nofun, fun i ending a heq hs => ?_⟩
  obtain ⟨rfl, rfl⟩ := Prod.mk.inj (Option.some.inj heq)
  cases hs

theorem Alone.of_making {f : Fetcher} {a : ActiveCall} {place : List String} {content : Option FileTree}
    (ha : a ∈ f.calls) (hmakes : a.MakesClone) (hplace : c.locate (a.call.unfinished c) <+: place) :
    Alone c f (.changed place content) := by
  refine ⟨fun place' content' heq => ?_, fun id ending b heq => ?_⟩
  · cases heq
    exact .making ha hmakes hplace
  · cases heq

theorem Alone.of_ended {f : Fetcher} {id : Nat} {ending : GitEnd} {a : ActiveCall} (hcall : f.call? id = some a)
    (hgit : f.files.HoldsGit (c.locate (a.call.unfinished c))) : Alone c f (.ended id ending) := by
  refine ⟨nofun, fun i ending' b heq _ hb _ => ?_⟩
  obtain ⟨rfl, -⟩ := Prod.mk.inj (Option.some.inj heq)
  obtain rfl := Option.some.inj (hcall.symm.trans hb)
  exact hgit

theorem Throughout.at_event {p : Fetcher → FetchEvent → Prop} {f : Fetcher} {past events : List FetchEvent}
    {e : FetchEvent} (h : Throughout c p f events) (hpast : past ++ [e] <+: events) : p (f.after c past) e := by
  obtain ⟨rest, rfl⟩ := hpast
  induction past generalizing f with
  | nil => exact h.1
  | cons e' past ih => exact ih h.2

/-! ## Beginning -/

theorem kills_not_start (e : FetchEvent) {id : Nat} {command : GitCommand} : .start id command ∉ e.kills := by
  intro h
  cases e with
  | ended i ending => cases ending <;> simp [FetchEvent.kills] at h
  | request | turn | cancel | changed => simp [FetchEvent.kills] at h

theorem mem_proceed_start {f : Fetcher} {i id : Nat} {next : FetchNext} {command : GitCommand}
    (h : .start id command ∈ (f.proceed i next).2) : i = id ∧ ∃ stage, next = .run stage command := by
  cases next with
  | run stage command' =>
    obtain ⟨rfl, rfl⟩ : id = i ∧ command = command' := by simpa [proceed] using h
    exact ⟨rfl, stage, rfl⟩
  | finish answer => simp [proceed] at h

theorem not_isCached_of_begin {call : FetchCall} {t : FileTree} {stage : FetchStage} {address : String} {place : Path}
    (h : (call.begin c t).2 = .run stage (.clone address place)) : call.isCached c t = false := by
  rw [← Bool.not_eq_true]
  intro hcached
  unfold FetchCall.begin at h
  rw [if_pos hcached] at h
  split at h
  · split at h
    · obtain ⟨answer, hanswer⟩ := call.conclude_eq c t _
      rw [hanswer] at h
      cases h
    · cases h
  · cases h

/-- Git is asked to clone only for a call that begins and finds no clone. -/
theorem clone_started {f : Fetcher} {e : FetchEvent} {id : Nat} {address : String} {place : Path}
    (h : .start id (.clone address place) ∈ (f.step c e).2) :
    ∃ call, f.call? id = some ⟨id, call, none⟩ ∧ call.isCached c f.files = false ∧
      ∃ a ∈ (f.step c e).1.calls, a.id = id ∧ a.waitsFor.isSome := by
  have did := step_did c f e
  generalize f.step c e = r at did h
  cases did with
  | idle _ _ hactions =>
    rcases hactions with rfl | rfl
    · cases h
    · exact absurd h (kills_not_start e)
  | refused | accepted | gaveUp | changed => simp at h
  | @begun i call hcall =>
    obtain ⟨rfl, stage, hrun⟩ := mem_proceed_start h
    refine ⟨call, hcall, not_isCached_of_begin hrun, ?_⟩
    rw [hrun]
    exact ⟨_, mem_proceed_self (f := { f with files := (call.begin c f.files).1 }) (mem_of_call? hcall), rfl, rfl⟩
  | @advanced _ i call stage command ending g actions _ _ hnext =>
    rcases List.mem_append.mp h with h | h
    · exact absurd h (kills_not_start e)
    · obtain rfl : _ = actions := congrArg Prod.snd hnext
      obtain ⟨-, stage', hrun⟩ := mem_proceed_start h
      exact absurd hrun advance_not_clone

/-- Whether a call has begun, or has ended. -/
def HasBegun (f : Fetcher) (id : Nat) : Prop := id < f.requests ∧ ∀ a ∈ f.calls, a.id = id → a.waitsFor.isSome

theorem HasBegun.proceed {f : Fetcher} {id : Nat} (h : f.HasBegun id) (t : FileTree) (i : Nat) (next : FetchNext) :
    (Fetcher.proceed { f with files := t } i next).1.HasBegun id := by
  refine ⟨by rw [proceed_requests]; exact h.1, fun a ha hid => ?_⟩
  rcases mem_proceed ha with ⟨ha, -⟩ | ⟨b, -, -, stage, command, -, rfl⟩
  · exact h.2 a ha hid
  · rfl

theorem HasBegun.step {f : Fetcher} {id : Nat} (h : f.HasBegun id) (e : FetchEvent) : (f.step c e).1.HasBegun id := by
  have taken := step_taken c f e
  generalize (f.step c e).1 = g at taken
  cases taken with
  | idle | changed => exact h
  | refused => exact ⟨Nat.lt_succ_of_lt h.1, h.2⟩
  | accepted =>
    refine ⟨Nat.lt_succ_of_lt h.1, fun a ha hid => ?_⟩
    rcases List.mem_append.mp ha with ha | ha
    · exact h.2 a ha hid
    · obtain rfl := List.mem_singleton.mp ha
      exact absurd hid (Nat.ne_of_gt h.1)
  | begun | advanced => exact h.proceed _ _ _
  | gaveUp => exact ⟨h.1, fun a ha => h.2 a (List.mem_filter.mp ha).1⟩

theorem HasBegun.after {f : Fetcher} {id : Nat} (h : f.HasBegun id) (events : List FetchEvent) :
    (f.after c events).HasBegun id := by
  induction events using List.reverseRecOn with
  | nil => exact h
  | append_singleton events e ih => rw [after_concat]; exact ih.step e

/-- Git is asked to clone for a call once. -/
theorem clone_started_once {files : FileTree} {past₁ past₂ : List FetchEvent} {e₁ e₂ : FetchEvent} {id : Nat}
    {address₁ address₂ : String} {place₁ place₂ : Path}
    (h₁ : .start id (.clone address₁ place₁) ∈ (((start files).after c past₁).step c e₁).2)
    (h₂ : .start id (.clone address₂ place₂) ∈ (((start files).after c past₂).step c e₂).2) :
    ¬ past₁ ++ [e₁] <+: past₂ := by
  rintro ⟨rest, rfl⟩
  obtain ⟨call, -, -, a, ha, hid, hw⟩ := clone_started h₁
  obtain ⟨call₂, hcall₂, -⟩ := clone_started h₂
  rw [← after_concat] at ha
  have horderly := orderly_after_start c files (past₁ ++ [e₁])
  have hbegun : ((start files).after c (past₁ ++ [e₁])).HasBegun id := by
    refine ⟨hid ▸ horderly.lt_requests a ha, fun b hb hb' => ?_⟩
    rwa [horderly.eq_of_call? hb (hb'.trans hid.symm) (horderly.call?_of_mem ha)]
  have hlater := hbegun.after (c := c) rest
  rw [← after_append] at hlater
  have hwaits := hlater.2 _ (mem_of_call? hcall₂) rfl
  cases hwaits

/-! ## The place of a clone -/

/-- What the step of a call does to the place of a clone: nothing, or the call moves its
complete clone there, where there was none. -/
theorem own_step {f : Fetcher} {e : FetchEvent} (horderly : f.Orderly c) {repo : String}
    (hown : ∀ a ∈ f.calls, cloneName repo ≠ a.call.unfinishedName)
    (hevent : ∀ place content, e ≠ .changed place content) :
    (f.step c e).1.files.at? (c.spot (cloneName repo)) = f.files.at? (c.spot (cloneName repo)) ∨
      f.files.holds (c.spot (cloneName repo)) = false ∧ ∃ id ending a t, e.end? = some (id, ending) ∧
        ending.isSuccess ∧ f.call? id = some a ∧ a.MakesClone ∧
        f.files.at? (c.locate (a.call.unfinished c)) = some t ∧
        (f.step c e).1.files.at? (c.spot (cloneName repo)) = some t := by
  have taken := step_taken c f e
  generalize (f.step c e).1 = g at taken
  cases taken with
  | idle | refused | accepted | gaveUp => exact .inl rfl
  | begun =>
    rw [proceed_files]
    exact .inl (FetchCall.begin_spot c _ _)
  | changed => exact absurd rfl (hevent _ _)
  | @advanced _ id call stage command ending hend hcall =>
    have hmem := mem_of_call? hcall
    have haccepted := horderly.accepted _ hmem
    have hcallRepo : isRepository call.repo := call.isRepository_of_refusal? haccepted
    have hname : cloneName repo ≠ call.unfinishedName := hown ⟨id, call, some (stage, command)⟩ hmem
    have hadvanced := call.advance_advanced c f.files stage command ending
    rw [proceed_files]
    generalize call.advance c f.files stage command ending = r at hadvanced
    by_cases htarget : cloneName repo = cloneName call.repo
    · cases hadvanced with
      | failed => exact .inl (call.cleanUp_spot_of_ne c hcallRepo _ stage hname)
      | cloned | widened | listed => exact .inl rfl
      | settled hs hcompletes =>
        have hmakes : ActiveCall.MakesClone ⟨id, call, some (stage, command)⟩ := by
          refine ⟨stage, command, rfl, ?_⟩
          cases stage with
          | cloning => exact .inl rfl
          | checkingOut => exact .inr rfl
          | wideningOther | widening | listing => cases hcompletes
        rw [htarget]
        cases hheld : f.files.holds (c.spot (cloneName call.repo)) with
        | true =>
          rw [← call.locate_target c hcallRepo] at hheld
          rw [(call.settle_of_held c hheld).1, call.locate_unfinished c hcallRepo]
          exact .inl (FileTree.at?_remove_apart _ (c.apart_spot call.unfinishedName_ne))
        | false =>
          rcases call.settle_spot_target c hcallRepo f.files with hsame | ⟨t, ht, hplace, -⟩
          · exact .inl hsame
          · rw [← call.locate_unfinished c hcallRepo] at ht
            exact .inr ⟨rfl, id, ending, _, t, hend, hs, hcall, hmakes, ht, hplace⟩
    · exact .inl (hadvanced.spot_of_ne hcallRepo hname htarget)

/-- What an event does to the place of a clone: nothing, or git works below it, or a call
moves its complete clone there, where there was none. -/
theorem Alone.place_step {f : Fetcher} {e : FetchEvent} (halone : Alone c f e) (horderly : f.Orderly c) {repo : String}
    (hown : ∀ a ∈ f.calls, cloneName repo ≠ a.call.unfinishedName) :
    (f.step c e).1.files.at? (c.spot (cloneName repo)) = f.files.at? (c.spot (cloneName repo)) ∨
      (∃ below content, e = .changed (c.spot (cloneName repo) ++ below) content ∧ below ≠ [] ∧ below ≠ [".git"] ∧
        (f.files.at? (c.spot (cloneName repo))).isSome) ∨
      f.files.holds (c.spot (cloneName repo)) = false ∧ e.call?.isSome ∧
        (f.step c e).1.files.HoldsGit (c.spot (cloneName repo)) := by
  have hmember : ∀ a ∈ f.calls, isRepository a.call.repo := fun a ha =>
    a.call.isRepository_of_refusal? (horderly.accepted a ha)
  by_cases hchanged : ∃ place content, e = .changed place content
  · obtain ⟨place, content, rfl⟩ := hchanged
    cases halone.changes place content rfl with
    | @making a _ _ ha _ hplace =>
      rw [a.call.locate_unfinished c (hmember a ha)] at hplace
      exact .inl (FileTree.at?_change_apart _ (c.apart_of_spot hplace (hown a ha).symm) content)
    | @working a _ below _ ha _ hstands hbelow hgit =>
      rw [a.call.locate_target c (hmember a ha)] at hstands ⊢
      by_cases heq : cloneName a.call.repo = cloneName repo
      · rw [heq] at hstands ⊢
        exact .inr (.inl ⟨below, content, rfl, hbelow, hgit, hstands⟩)
      · exact .inl (FileTree.at?_change_apart _ (c.apart_of_spot (List.prefix_append _ _) heq) content)
    | elsewhere hplace => exact .inl (FileTree.at?_change_apart _ (c.apart_spot_of_apart hplace _) content)
  · rcases own_step (c := c) horderly hown fun place content heq => hchanged ⟨place, content, heq⟩ with
      hsame | ⟨hfree, id, ending, a, t, hend, hs, hcall, hmakes, ht, hmoved⟩
    · exact .inl hsame
    · refine .inr (.inr ⟨hfree, by rw [FetchEvent.call?_of_end? hend]; rfl, ?_⟩)
      exact (halone.cloned id ending a hend hs hcall hmakes).of_at?_eq (hmoved.trans ht.symm)

theorem dots_not_mem_spot {repo : String} (hrepo : isRepository repo) (hcache : ".." ∉ c.locate c.cache) :
    ".." ∉ c.spot (cloneName repo) := by
  intro hm
  rcases List.mem_append.mp hm with hm | hm
  · exact hcache hm
  · have hname := underscore_mem_cloneName hrepo
    rw [← List.mem_singleton.mp hm] at hname
    exact absurd hname (by decide)

/-- A clone in place stays one. -/
theorem Alone.holdsGit_step {f : Fetcher} {e : FetchEvent} (halone : Alone c f e) (horderly : f.Orderly c)
    {repo : String} (hown : ∀ a ∈ f.calls, cloneName repo ≠ a.call.unfinishedName)
    (hgit : f.files.HoldsGit (c.spot (cloneName repo))) : (f.step c e).1.files.HoldsGit (c.spot (cloneName repo)) := by
  rcases halone.place_step horderly hown with hsame | ⟨below, content, rfl, hbelow, hnot, -⟩ | ⟨-, -, hgit'⟩
  · exact hgit.of_at?_eq hsame
  · exact hgit.change hbelow hnot content
  · exact hgit'

/-- Nothing, or a clone, stands in the place of a clone. -/
theorem Alone.none_or_holdsGit_step {f : Fetcher} {e : FetchEvent} (halone : Alone c f e) (horderly : f.Orderly c)
    {repo : String} (hown : ∀ a ∈ f.calls, cloneName repo ≠ a.call.unfinishedName)
    (h : f.files.at? (c.spot (cloneName repo)) = none ∨ f.files.HoldsGit (c.spot (cloneName repo))) :
    (f.step c e).1.files.at? (c.spot (cloneName repo)) = none ∨
      (f.step c e).1.files.HoldsGit (c.spot (cloneName repo)) := by
  rcases h with hnone | hgit
  · rcases halone.place_step horderly hown with hsame | ⟨_, _, -, -, -, hstands⟩ | ⟨-, -, hgit⟩
    · exact .inl (hsame.trans hnone)
    · rw [hnone] at hstands
      cases hstands
    · exact .inr hgit
  · exact .inr (halone.holdsGit_step horderly hown hgit)

/-- What a call does leaves a clone in place as it is. -/
theorem Alone.at?_step_of_holdsGit {f : Fetcher} {e : FetchEvent} (halone : Alone c f e) (horderly : f.Orderly c)
    {repo : String} (hrepo : isRepository repo) (hown : ∀ a ∈ f.calls, cloneName repo ≠ a.call.unfinishedName)
    (hcache : ".." ∉ c.locate c.cache) (hgit : f.files.HoldsGit (c.spot (cloneName repo))) (he : e.call?.isSome) :
    (f.step c e).1.files.at? (c.spot (cloneName repo)) = f.files.at? (c.spot (cloneName repo)) := by
  rcases halone.place_step horderly hown with hsame | ⟨_, _, rfl, -⟩ | ⟨hfree, -⟩
  · exact hsame
  · cases he
  · obtain ⟨es, hes⟩ := hgit.at?_isDirectory
    rw [FileTree.holds_of_at? hes (dots_not_mem_spot hrepo hcache)] at hfree
    cases hfree

/-- A call for a repository whose clone is in place is told so. -/
theorem isCached_of_holdsGit {f : Fetcher} {call : FetchCall} (hrepo : isRepository call.repo)
    (hcache : ".." ∉ c.locate c.cache) (hgit : f.files.HoldsGit (c.spot (cloneName call.repo))) :
    call.isCached c f.files := by
  obtain ⟨es, hes⟩ := hgit
  rw [FetchCall.isCached, c.locate_child, call.locate_target c hrepo]
  refine FileTree.holds_of_at? hes fun hm => ?_
  rcases List.mem_append.mp hm with hm | hm
  · exact dots_not_mem_spot hrepo hcache hm
  · exact absurd hm (by decide)

/-! ## Runs -/

variable (c) in
/-- What a run of git has cloned ends up in a place: the run was started for a call after
`before`, and the call moves the clone there after `past`. -/
structure EndsUp (files : FileTree) (place : List String) (before past : List FetchEvent) (e : FetchEvent)
    (id : Nat) : Prop where
  started : ∃ e' address dir, before ++ [e'] <+: past ∧
    .start id (.clone address dir) ∈ (((start files).after c before).step c e').2 ∧
    ∃ t, ((start files).after c past).files.at? (c.locate dir) = some t ∧
      ((start files).after c (past ++ [e])).files.at? place = some t
  call : e.call? = some id
  moved : ((start files).after c (past ++ [e])).files.at? place ≠ ((start files).after c past).files.at? place

variable (c) in
/-- A fetcher that has its cache to itself, and no clone of a repository yet: no unfinished
clone has the name of that clone. -/
structure OwnCache (files : FileTree) (repo : String) (events : List FetchEvent) : Prop where
  alone : Throughout c (Alone c) (start files) events
  own : cloneName repo ∉ unfinishedNames events
  free : files.at? (c.locate (cloneDirectory c.cache repo)) = none

namespace OwnCache

variable {files : FileTree} {past later events : List FetchEvent} {repo : String}

theorem cloneName_ne (h : OwnCache c files repo events) (hpast : past <+: events) :
    ∀ a ∈ ((start files).after c past).calls, cloneName repo ≠ a.call.unfinishedName :=
  fun _ ha => Course.cloneName_ne hpast ha h.own

theorem none_or_holdsGit (h : OwnCache c files repo events) (hrepo : isRepository repo) (hpast : past <+: events) :
    ((start files).after c past).files.at? (c.spot (cloneName repo)) = none ∨
      ((start files).after c past).files.HoldsGit (c.spot (cloneName repo)) := by
  induction past using List.reverseRecOn with
  | nil => exact .inl (c.locate_cloneDirectory hrepo ▸ h.free)
  | append_singleton past e ih =>
    have hbefore : past <+: events := (List.prefix_append past [e]).trans hpast
    rw [after_concat]
    exact (h.alone.at_event hpast).none_or_holdsGit_step (orderly_after_start c files past) (h.cloneName_ne hbefore)
      (ih hbefore)

theorem holdsGit_later (h : OwnCache c files repo events) (hpast : past <+: later) (hlater : later <+: events)
    (hgit : ((start files).after c past).files.HoldsGit (c.spot (cloneName repo))) :
    ((start files).after c later).files.HoldsGit (c.spot (cloneName repo)) := by
  obtain ⟨rest, rfl⟩ := hpast
  induction rest using List.reverseRecOn with
  | nil => rwa [List.append_nil]
  | append_singleton rest e ih =>
    rw [← List.append_assoc] at hlater ⊢
    have hbefore : past ++ rest <+: events := (List.prefix_append _ [e]).trans hlater
    rw [after_concat]
    exact (h.alone.at_event hlater).holdsGit_step (orderly_after_start c files _) (h.cloneName_ne hbefore) (ih hbefore)

variable {before : List FetchEvent} {e : FetchEvent} {id : Nat}

/-- A clone moves where there is none. -/
theorem free_of_endsUp (h : OwnCache c files repo events) (hrepo : isRepository repo)
    (hcache : ".." ∉ c.locate c.cache) (hpast : past ++ [e] <+: events)
    (hends : EndsUp c files (c.spot (cloneName repo)) before past e id) :
    ((start files).after c past).files.at? (c.spot (cloneName repo)) = none := by
  have hbefore : past <+: events := (List.prefix_append past [e]).trans hpast
  refine (h.none_or_holdsGit hrepo hbefore).resolve_right fun hgit => hends.moved ?_
  rw [after_concat]
  exact (h.alone.at_event hpast).at?_step_of_holdsGit (orderly_after_start c files past) hrepo
    (h.cloneName_ne hbefore) hcache hgit (by rw [hends.call]; rfl)

theorem holdsGit_of_endsUp (h : OwnCache c files repo events) (hrepo : isRepository repo)
    (hpast : past ++ [e] <+: events) (hends : EndsUp c files (c.spot (cloneName repo)) before past e id) :
    ((start files).after c (past ++ [e])).files.HoldsGit (c.spot (cloneName repo)) := by
  obtain ⟨-, -, -, -, -, t, -, hstands⟩ := hends.started
  refine (h.none_or_holdsGit hrepo hpast).resolve_left fun hnone => ?_
  rw [hstands] at hnone
  cases hnone

/-- One run of git clones what ends up in the place of the clone. -/
theorem endsUp_unique (h : OwnCache c files repo events) (hrepo : isRepository repo)
    (hcache : ".." ∉ c.locate c.cache) {before₁ past₁ before₂ past₂ : List FetchEvent} {e₁ e₂ : FetchEvent}
    {id₁ id₂ : Nat}
    (hpast₁ : past₁ ++ [e₁] <+: events) (hpast₂ : past₂ ++ [e₂] <+: events)
    (h₁ : EndsUp c files (c.spot (cloneName repo)) before₁ past₁ e₁ id₁)
    (h₂ : EndsUp c files (c.spot (cloneName repo)) before₂ past₂ e₂ id₂) : before₁ = before₂ ∧ id₁ = id₂ := by
  have hnotLater : ∀ {before past e id before' past' e' id'}, past ++ [e] <+: events → past' ++ [e'] <+: events →
      EndsUp c files (c.spot (cloneName repo)) before past e id →
      EndsUp c files (c.spot (cloneName repo)) before' past' e' id' → ¬ past ++ [e] <+: past' := by
    intro before past e id before' past' e' id' hpast hpast' hends hends' hlater
    have hgit := h.holdsGit_later hlater ((List.prefix_append _ _).trans hpast')
      (h.holdsGit_of_endsUp hrepo hpast hends)
    obtain ⟨es, hes⟩ := hgit.at?_isDirectory
    rw [h.free_of_endsUp hrepo hcache hpast' hends'] at hes
    cases hes
  obtain ⟨rfl, rfl⟩ := concat_eq_of_not_before hpast₁ hpast₂ (hnotLater hpast₁ hpast₂ h₁ h₂)
    (hnotLater hpast₂ hpast₁ h₂ h₁)
  obtain rfl : id₁ = id₂ := Option.some.inj (h₁.call.symm.trans h₂.call)
  obtain ⟨e₁', address₁, dir₁, hbefore₁, hstart₁, -⟩ := h₁.started
  obtain ⟨e₂', address₂, dir₂, hbefore₂, hstart₂, -⟩ := h₂.started
  exact ⟨(concat_eq_of_not_before hbefore₁ hbefore₂ (clone_started_once hstart₁ hstart₂)
    (clone_started_once hstart₂ hstart₁)).1, rfl⟩

/-- When a clone is in place, git is not asked for another one. -/
theorem not_started_of_holdsGit (hrepo : isRepository repo) (hcache : ".." ∉ c.locate c.cache)
    (hgit : ((start files).after c later).files.HoldsGit (c.spot (cloneName repo))) {address : String} {place : Path}
    (hstart : .start id (.clone address place) ∈ (((start files).after c later).step c e).2) :
    cloneOf c later (id, .clone address place) ≠ some (cloneDirectory c.cache repo) := by
  intro hclone
  obtain ⟨call, hcall, hnot, -⟩ := clone_started hstart
  have hmem := mem_of_call? hcall
  have hcallRepo := Course.isRepository_of_mem hmem
  have hasked := (serial_after c files later).call _ hmem
  rw [cloneOf, hasked] at hclone
  have hplace := congrArg c.locate (Option.some.inj hclone)
  rw [call.locate_target c hcallRepo, c.locate_cloneDirectory hrepo] at hplace
  rw [← hplace] at hgit
  rw [isCached_of_holdsGit hcallRepo hcache hgit] at hnot
  cases hnot

end OwnCache

/-- Three calls for one repository. The first one is given up while git clones for it, the
second one clones and checks out its directory, the third one finds the clone. -/
def threeCalls : List FetchEvent :=
  [.request ⟨"o/r", none, .source "src", "1"⟩, .request ⟨"o/r", none, .source "src", "2"⟩,
    .request ⟨"o/r", none, .topDirectories, "3"⟩, .turn 0, .turn 1,
    .changed ["cache", "o__r.partial-1", ".git"] (some (.directory [])), .cancel 0, .turn 1,
    .changed ["cache", "o__r.partial-2", ".git"] (some (.directory [])), .ended 1 (.exited 0 [] []),
    .changed ["cache", "o__r.partial-2", "src"] (some (.directory [])), .ended 1 (.exited 0 [] []), .turn 2]

theorem ownCache_threeCalls : OwnCache diskConfig (.directory []) "o/r" threeCalls := by
  have hplace : diskConfig.locate (FetchCall.unfinished diskConfig ⟨"o/r", none, .source "src", "2"⟩) =
      ["cache", "o__r.partial-2"] := by decide +kernel
  have hgit₁ : ∀ {f : Fetcher} {content : Option FileTree}, f.calls.head? =
      some ⟨0, ⟨"o/r", none, .source "src", "1"⟩, some (.cloning, .clone "https://git.example/o/r.git"
        ⟨.slash, ["cache", "o__r.partial-1"]⟩)⟩ →
      Alone diskConfig f (.changed ["cache", "o__r.partial-1", ".git"] content) := fun hcall =>
    .of_making (List.mem_of_mem_head? hcall) ⟨_, _, rfl, .inl rfl⟩ (by decide +kernel)
  have hgit₂ : ∀ (stage : FetchStage) (command : GitCommand) {f : Fetcher} {name : String}
      {content : Option FileTree},
      f.calls.head? = some ⟨1, ⟨"o/r", none, .source "src", "2"⟩, some (stage, command)⟩ →
      stage = .cloning ∨ stage = .checkingOut →
      Alone diskConfig f (.changed ["cache", "o__r.partial-2", name] content) := by
    intro stage command f name content hcall hstage
    refine .of_making (List.mem_of_mem_head? hcall) ⟨stage, command, rfl, hstage⟩ ?_
    rw [hplace]
    exact List.prefix_append _ _
  have hended : ∀ (stage : FetchStage) (command : GitCommand) {f : Fetcher} {ending : GitEnd},
      f.call? 1 = some ⟨1, ⟨"o/r", none, .source "src", "2"⟩, some (stage, command)⟩ →
      f.files.at? ["cache", "o__r.partial-2", ".git"] = some (.directory []) →
      Alone diskConfig f (.ended 1 ending) := by
    intro stage command f ending hcall hstands
    refine .of_ended hcall ⟨[], ?_⟩
    rw [hplace]
    exact hstands
  refine ⟨⟨?_, ?_, ?_, ?_, ?_, ?_, ?_, ?_, ?_, ?_, ?_, ?_, ?_, trivial⟩, ?_, ?_⟩
  · exact .of_quiet nofun rfl
  · exact .of_quiet nofun rfl
  · exact .of_quiet nofun rfl
  · exact .of_quiet nofun rfl
  · exact .of_quiet nofun rfl
  · refine hgit₁ ?_
    with_unfolding_all rfl
  · exact .of_cancel
  · exact .of_quiet nofun rfl
  · refine hgit₂ .cloning (.clone "https://git.example/o/r.git" ⟨.slash, ["cache", "o__r.partial-2"]⟩) ?_ (.inl rfl)
    with_unfolding_all rfl
  · refine hended .cloning (.clone "https://git.example/o/r.git" ⟨.slash, ["cache", "o__r.partial-2"]⟩) ?_ ?_ <;>
      with_unfolding_all rfl
  · refine hgit₂ .checkingOut (.checkOut .set "src" ⟨.slash, ["cache", "o__r.partial-2"]⟩) ?_ (.inr rfl)
    with_unfolding_all rfl
  · refine hended .checkingOut (.checkOut .set "src" ⟨.slash, ["cache", "o__r.partial-2"]⟩) ?_ ?_ <;>
      with_unfolding_all rfl
  · exact .of_quiet nofun rfl
  · decide +kernel
  · with_unfolding_all rfl

theorem endsUp_threeCalls : EndsUp diskConfig (.directory []) ["cache", "o__r"] (threeCalls.take 7)
    (threeCalls.take 11) (.ended 1 (.exited 0 [] [])) 1 := by
  have hstands : ((start (.directory [])).after diskConfig
      (threeCalls.take 11 ++ [.ended 1 (.exited 0 [] [])])).files.at? ["cache", "o__r"] =
      some (.directory [(".git", .directory []), ("src", .directory [])]) := by
    with_unfolding_all rfl
  have hfree : ((start (.directory [])).after diskConfig (threeCalls.take 11)).files.at? ["cache", "o__r"] = none := by
    with_unfolding_all rfl
  refine ⟨⟨.turn 1, "https://git.example/o/r.git", ⟨.slash, ["cache", "o__r.partial-2"]⟩,
    ⟨(threeCalls.take 11).drop 8, rfl⟩, ?_, .directory [(".git", .directory []), ("src", .directory [])], ?_, hstands⟩,
    rfl, ?_⟩
  · with_unfolding_all exact List.Mem.head _
  · with_unfolding_all rfl
  · rw [hstands, hfree]
    exact nofun

end Fetcher

end RepoOrbit
