import RepoOrbit.Proofs.Fetch.Failure

/-!
# The cache holds whole clones only

A clone is made under a name of its own and moved to its place when it is complete.
`cache_atomic` says what that gives, for calls that come, begin, end and are given up
in any order, while git works on the clones and other programs put theirs in place
(`Fetcher.Outside`, `Fetcher.Course`): when no call is under way any more,

* every clone is there as a whole or not at all (`Fetcher.WholeClone`);
* nothing is left of the unfinished clones;
* a call whose clone or first checkout has failed has put nothing in place;
* a clone that was in place once is there still.

Two facts about the names in the cache carry the induction: under the name of an
unfinished clone something stands only while its call is making the clone
(`Course.unfinished_concat`), and under that of a clone only a whole one
(`Course.clones_concat`).
-/

namespace RepoOrbit

/-- The call that an event makes, if it is not turned down. -/
def FetchEvent.accepted? : FetchEvent → Option FetchCall
  | .request call => if call.refusal?.isNone then some call else none
  | _ => none

theorem FetchEvent.refusal?_of_accepted? {e : FetchEvent} {call : FetchCall} (h : e.accepted? = some call) :
    call.refusal? = none := by
  cases e with
  | request call' =>
    simp only [accepted?, Option.ite_none_right_eq_some, Option.some.injEq] at h
    obtain ⟨hnone, rfl⟩ := h
    exact Option.isNone_iff_eq_none.mp hnone
  | turn | ended | cancel | changed => cases h

/-- The names of the unfinished clones of all calls. -/
def unfinishedNames (events : List FetchEvent) : List String :=
  (events.filterMap FetchEvent.accepted?).map FetchCall.unfinishedName

namespace Fetcher

variable (c : FetchConfig)

/-- A run of a command has succeeded for a call. -/
def Succeeded (files : FileTree) (events : List FetchEvent) (id : Nat) (command : GitCommand) : Prop :=
  ∃ before e call stage ending, before ++ [e] <+: events ∧
    ((start files).after c before).call? id = some ⟨id, call, some (stage, command)⟩ ∧
    e.end? = some (id, ending) ∧ ending.isSuccess

/-- The clone at a place is whole. One that a call has made is what stood in its
unfinished clone when git had succeeded in cloning and, for a source directory, in
the first checkout. -/
inductive WholeClone (complete : FileTree → Prop) (files : FileTree) (place : List String) :
    List FetchEvent → Prop
  | standing {t : FileTree} : files.at? place = some t → complete t → WholeClone complete files place []
  /-- Another program has moved it there. -/
  | moved {past : List FetchEvent} {t : FileTree} : complete t →
      WholeClone complete files place (past ++ [.changed place (some t)])
  | made {past : List FetchEvent} {e : FetchEvent} {a : ActiveCall} {address : String} {t : FileTree} :
      ((start files).after c past).call? a.id = some a → c.locate (a.call.target c) = place →
      Succeeded c files (past ++ [e]) a.id (.clone address (a.call.unfinished c)) →
      (∀ dir, a.call.task = .source dir →
        Succeeded c files (past ++ [e]) a.id (.checkOut .set dir (a.call.unfinished c))) →
      ((start files).after c past).files.at? (c.locate (a.call.unfinished c)) = some t →
      ((start files).after c (past ++ [e])).files.at? place = some t → WholeClone complete files place (past ++ [e])
  | kept {past : List FetchEvent} {e : FetchEvent} : WholeClone complete files place past →
      ((start files).after c (past ++ [e])).files.at? place = ((start files).after c past).files.at? place →
      WholeClone complete files place (past ++ [e])
  /-- Something below it has changed. -/
  | worked {past : List FetchEvent} {below : List String} {content : Option FileTree} :
      WholeClone complete files place past → below ≠ [] →
      WholeClone complete files place (past ++ [.changed (place ++ below) content])

variable (complete : FileTree → Prop)

/-- What git and other programs change, given the names of the unfinished clones. -/
inductive Outside (names : List String) (f : Fetcher) : List String → Option FileTree → Prop
  /-- Git is at work on an unfinished clone. -/
  | git {a : ActiveCall} {place : List String} {content : Option FileTree} : a ∈ f.calls → a.MakesClone →
      c.locate (a.call.unfinished c) <+: place → Outside names f place content
  /-- Something changes below what stands in the cache. -/
  | inside {name : String} {below : List String} {content : Option FileTree} :
      (f.files.at? (c.spot name)).isSome → below ≠ [] → Outside names f (c.spot name ++ below) content
  /-- Another program moves a complete clone to its place. -/
  | moved {repo : String} {t : FileTree} : isRepository repo → cloneName repo ∉ names →
      f.files.at? (c.locate (cloneDirectory c.cache repo)) = none → complete t →
      Outside names f (c.locate (cloneDirectory c.cache repo)) (some t)
  /-- Something changes under a name that is not that of a clone. -/
  | beside {name : String} {below : List String} {content : Option FileTree} : name ∉ names →
      (∀ repo, isRepository repo → name ≠ cloneName repo) → Outside names f (c.spot name ++ below) content
  /-- Something changes outside of the cache. -/
  | elsewhere {place : List String} {content : Option FileTree} : FileTree.Apart place (c.locate c.cache) →
      Outside names f place content

/-- All changes from outside are of these kinds. -/
def Undisturbed (names : List String) : Fetcher → List FetchEvent → Prop
  | _, [] => True
  | f, e :: events =>
    (∀ place content, e = .changed place content → Outside c complete names f place content) ∧
      Undisturbed names (f.step c e).1 events

/-- What a run is given: whole clones to start with, names for the unfinished clones
that nobody else uses, and no changes from outside but the usual ones. -/
structure Course (files : FileTree) (events : List FetchEvent) : Prop where
  starts : ∀ repo, isRepository repo → files.at? (c.locate (cloneDirectory c.cache repo)) = none ∨
    ∃ t, files.at? (c.locate (cloneDirectory c.cache repo)) = some t ∧ complete t
  nodup : (unfinishedNames events).Nodup
  unused : ∀ name ∈ unfinishedNames events, files.at? (c.spot name) = none
  own : ∀ call ∈ events.filterMap FetchEvent.accepted?, cloneName call.repo ∉ unfinishedNames events
  undisturbed : Undisturbed c complete (unfinishedNames events) (start files) events

variable {c complete}

theorem undisturbed_concat {names : List String} {f : Fetcher} {events : List FetchEvent} {e : FetchEvent} :
    Undisturbed c complete names f (events ++ [e]) ↔ Undisturbed c complete names f events ∧
      ∀ place content, e = .changed place content → Outside c complete names (f.after c events) place content := by
  induction events generalizing f with
  | nil => simp [Undisturbed]
  | cons e' events ih =>
    rw [List.cons_append, Undisturbed, ih, Undisturbed, and_assoc]
    rfl

theorem undisturbed_before {names : List String} {f : Fetcher} {past events : List FetchEvent}
    (h : Undisturbed c complete names f events) (hpast : past <+: events) :
    Undisturbed c complete names f past := by
  obtain ⟨rest, rfl⟩ := hpast
  induction rest using List.reverseRecOn with
  | nil => rwa [List.append_nil] at h
  | append_singleton rest e ih =>
    rw [← List.append_assoc] at h
    exact ih (undisturbed_concat.mp h).1

theorem Succeeded.of_past {files : FileTree} {past events : List FetchEvent} {id : Nat} {command : GitCommand}
    (h : Succeeded c files past id command) (hpast : past <+: events) :
    Succeeded c files events id command := by
  obtain ⟨before, e, call, stage, ending, hbefore, hcall, hend, hs⟩ := h
  exact ⟨before, e, call, stage, ending, hbefore.trans hpast, hcall, hend, hs⟩

/-! ## The calls under way -/

/-- The calls under way are calls that have been made, in the order in which they came. -/
theorem calls_sublist (files : FileTree) (events : List FetchEvent) :
    (((start files).after c events).calls.map (·.call)).Sublist (events.filterMap FetchEvent.accepted?) := by
  induction events using List.reverseRecOn with
  | nil => exact List.Sublist.refl _
  | append_singleton events e ih =>
    rw [after_concat, List.filterMap_append]
    have taken := step_taken c ((start files).after c events) e
    generalize (((start files).after c events).step c e).1 = g at taken
    have hgrow := ih.trans (List.sublist_append_left _ ([e].filterMap FetchEvent.accepted?))
    cases taken with
    | idle | refused | changed => exact hgrow
    | accepted haccepted =>
      rw [List.map_append]
      refine ih.append ?_
      simp [FetchEvent.accepted?, haccepted]
    | begun | advanced => exact (map_proceed_sublist _ _ _ (·.call) fun _ _ => rfl).trans hgrow
    | gaveUp => exact (List.filter_sublist.map _).trans hgrow

theorem begin_not_checkingOut {call : FetchCall} {t : FileTree} {stage : FetchStage} {command : GitCommand}
    (h : (call.begin c t).2 = .run stage command) : stage ≠ .checkingOut := by
  unfold FetchCall.begin at h
  split at h
  · split at h
    · split at h
      · obtain ⟨answer, hanswer⟩ := call.conclude_eq c t _
        rw [hanswer] at h
        cases h
      · cases h; exact nofun
    · cases h; exact nofun
  · unfold FetchCall.beginClone at h
    split at h
    · cases h
    · dsimp only at h
      split at h
      · cases h
      · cases h; exact nofun

/-- A call that waits for its first checkout has been cloned. -/
theorem cloned_of_checkingOut {files : FileTree} {events : List FetchEvent} {a : ActiveCall}
    {command : GitCommand}
    (ha : a ∈ ((start files).after c events).calls) (hw : a.waitsFor = some (.checkingOut, command)) :
    ∃ address, Succeeded c files events a.id (.clone address (a.call.unfinished c)) := by
  induction events using List.reverseRecOn generalizing a command with
  | nil => cases ha
  | append_singleton events e ih =>
    have hbefore : events <+: events ++ [e] := List.prefix_append events [e]
    have hearlier : ∀ {a command}, a ∈ ((start files).after c events).calls →
        a.waitsFor = some (.checkingOut, command) →
        ∃ address, Succeeded c files (events ++ [e]) a.id (.clone address (a.call.unfinished c)) :=
      fun ha hw => (ih ha hw).imp fun _ h => h.of_past hbefore
    have horderly := orderly_after_start c files events
    rw [after_concat] at ha
    have taken := step_taken c ((start files).after c events) e
    generalize (((start files).after c events).step c e).1 = g at taken ha
    cases taken with
    | idle | refused | changed => exact hearlier ha hw
    | accepted =>
      rcases List.mem_append.mp ha with ha | ha
      · exact hearlier ha hw
      · obtain rfl := List.mem_singleton.mp ha
        cases hw
    | gaveUp => exact hearlier (List.mem_filter.mp ha).1 hw
    | begun hcall =>
      rcases mem_proceed ha with ⟨ha, -⟩ | ⟨b, -, -, stage, command', hrun, rfl⟩
      · exact hearlier ha hw
      · obtain ⟨rfl, -⟩ := Prod.mk.inj (Option.some.inj hw)
        exact absurd rfl (begin_not_checkingOut hrun)
    | @advanced _ id call stage₀ command₀ ending hend hcall =>
      rcases mem_proceed ha with ⟨ha, -⟩ | ⟨b, hb, hid, stage, command', hrun, rfl⟩
      · exact hearlier ha hw
      · obtain ⟨rfl, -⟩ := Prod.mk.inj (Option.some.inj hw)
        obtain rfl := horderly.eq_of_call? hb hid hcall
        have hadvanced := call.advance_advanced c ((start files).after c events).files stage₀ command₀ ending
        generalize call.advance c ((start files).after c events).files stage₀ command₀ ending = r at hadvanced hrun
        cases hadvanced with
        | failed | listed => cases hrun
        | widened => cases FetchCall.afterClone_listing hrun
        | settled =>
          rcases call.settle_next c ((start files).after c events).files with hnext | ⟨dir, -, hnext⟩ <;>
            rw [hnext] at hrun
          · cases FetchCall.afterClone_listing hrun
          · cases hrun
        | cloned hs hstage =>
          subst hstage
          have hruns : call.Runs c command₀ .cloning := horderly.runs _ hb .cloning command₀ rfl
          obtain ⟨address, rfl⟩ := hruns
          exact ⟨address, events, e, call, .cloning, ending, List.prefix_rfl, hcall, hend, hs⟩

/-! ## What stands in the cache -/

theorem not_makesClone_of_none {id : Nat} {call : FetchCall} : ¬ ActiveCall.MakesClone ⟨id, call, none⟩ := by
  rintro ⟨stage, command, hw, -⟩
  cases hw

namespace Course

variable {files : FileTree} {events past : List FetchEvent}

theorem accepted_of_mem {a : ActiveCall} (hpast : past <+: events)
    (ha : a ∈ ((start files).after c past).calls) :
    a.call ∈ events.filterMap FetchEvent.accepted? :=
  (hpast.filterMap _).subset ((calls_sublist files past).subset (List.mem_map_of_mem ha))

theorem name_mem {a : ActiveCall} (hpast : past <+: events) (ha : a ∈ ((start files).after c past).calls) :
    a.call.unfinishedName ∈ unfinishedNames events :=
  List.mem_map_of_mem (accepted_of_mem hpast ha)

/-- No two calls under way have one name for their unfinished clones. -/
theorem eq_of_name (h : Course c complete files events) (hpast : past <+: events) {a b : ActiveCall}
    (ha : a ∈ ((start files).after c past).calls) (hb : b ∈ ((start files).after c past).calls)
    (heq : a.call.unfinishedName = b.call.unfinishedName) : a = b := by
  have hsublist := (calls_sublist (c := c) files past).trans (hpast.filterMap FetchEvent.accepted?).sublist
  have hnodup := h.nodup.sublist (hsublist.map FetchCall.unfinishedName)
  rw [List.map_map] at hnodup
  exact List.inj_on_of_nodup_map hnodup ha hb heq

theorem outside (h : Course c complete files events) {place : List String} {content : Option FileTree}
    (hpast : past ++ [.changed place content] <+: events) :
    Outside c complete (unfinishedNames events) ((start files).after c past) place content :=
  (undisturbed_concat.mp (undisturbed_before h.undisturbed hpast)).2 place content rfl

theorem isRepository_of_mem {a : ActiveCall} (ha : a ∈ ((start files).after c past).calls) :
    isRepository a.call.repo :=
  a.call.isRepository_of_refusal? ((orderly_after_start c files past).accepted a ha)

theorem ne_of_makesClone {a b : ActiveCall} (ha : a ∈ ((start files).after c past).calls)
    (hmakes : a.MakesClone) (hb : ((start files).after c past).call? b.id = some b) (hnot : ¬ b.MakesClone) : a.id ≠ b.id := by
  intro hid
  obtain rfl := (orderly_after_start c files past).eq_of_call? ha hid hb
  exact hnot hmakes

theorem cloneName_ne {a : ActiveCall} (hpast : past <+: events) (ha : a ∈ ((start files).after c past).calls)
    {repo : String} (hown : cloneName repo ∉ unfinishedNames events) :
    cloneName repo ≠ a.call.unfinishedName := by
  intro heq
  rw [heq] at hown
  exact hown (name_mem hpast ha)

/-- A change from outside is apart from a clone or inside of it, or it puts a
complete clone where there was none. -/
theorem outside_clone (h : Course c complete files events) {place : List String} {content : Option FileTree}
    (hpast : past ++ [.changed place content] <+: events) {repo : String} (hrepo : isRepository repo)
    (hown : cloneName repo ∉ unfinishedNames events) :
    FileTree.Apart place (c.spot (cloneName repo)) ∨
      (∃ below, below ≠ [] ∧ place = c.spot (cloneName repo) ++ below ∧
        (((start files).after c past).files.at? (c.spot (cloneName repo))).isSome) ∨
      ∃ t, place = c.spot (cloneName repo) ∧ content = some t ∧ complete t ∧
        ((start files).after c past).files.at? (c.spot (cloneName repo)) = none := by
  have hbefore : past <+: events := (List.prefix_append past _).trans hpast
  cases h.outside hpast with
  | @git a _ _ ha _ hplace =>
    rw [a.call.locate_unfinished c (isRepository_of_mem ha)] at hplace
    exact .inl (c.apart_of_spot hplace (cloneName_ne hbefore ha hown).symm)
  | @inside name below _ hstands hbelow =>
    by_cases heq : name = cloneName repo
    · subst heq
      exact .inr (.inl ⟨below, hbelow, rfl, hstands⟩)
    · exact .inl (c.apart_of_spot (List.prefix_append _ _) heq)
  | @moved repo' t hrepo' _ hfree ht =>
    rw [c.locate_cloneDirectory hrepo'] at hfree ⊢
    by_cases heq : cloneName repo' = cloneName repo
    · rw [heq] at hfree ⊢
      exact .inr (.inr ⟨t, rfl, rfl, ht, hfree⟩)
    · exact .inl (c.apart_spot heq)
  | @beside name below _ _ hname => exact .inl (c.apart_of_spot (List.prefix_append _ _) (hname repo hrepo))
  | elsewhere hplace => exact .inl (c.apart_spot_of_apart hplace _)

/-- Under the name of an unfinished clone something stands only while its call is
making the clone. -/
theorem unfinished_concat (h : Course c complete files events) {e : FetchEvent} (hpast : past ++ [e] <+: events)
    (hunfinished : ∀ name ∈ unfinishedNames events, (((start files).after c past).files.at? (c.spot name)).isSome →
      ∃ a ∈ ((start files).after c past).calls, a.call.unfinishedName = name ∧ a.MakesClone) :
    ∀ name ∈ unfinishedNames events, (((start files).after c (past ++ [e])).files.at? (c.spot name)).isSome →
      ∃ a ∈ ((start files).after c (past ++ [e])).calls, a.call.unfinishedName = name ∧ a.MakesClone := by
  intro name hname hsome
  have hbefore : past <+: events := (List.prefix_append past [e]).trans hpast
  have horderly := orderly_after_start c files past
  rw [after_concat] at hsome ⊢
  have taken := step_taken c ((start files).after c past) e
  generalize (((start files).after c past).step c e).1 = g at taken hsome ⊢
  cases taken with
  | idle | refused => exact hunfinished name hname hsome
  | accepted =>
    obtain ⟨a, ha, hmakes⟩ := hunfinished name hname hsome
    exact ⟨a, List.mem_append_left _ ha, hmakes⟩
  | @gaveUp id call hcall =>
    obtain ⟨a, ha, heq, hmakes⟩ := hunfinished name hname hsome
    have hne := ne_of_makesClone ha hmakes hcall not_makesClone_of_none
    exact ⟨a, List.mem_filter.mpr ⟨ha, bne_iff_ne.mpr hne⟩, heq, hmakes⟩
  | @begun id call hcall =>
    rw [proceed_files, FetchCall.begin_spot] at hsome
    obtain ⟨a, ha, heq, hmakes⟩ := hunfinished name hname hsome
    have hne := ne_of_makesClone ha hmakes hcall not_makesClone_of_none
    exact ⟨a, mem_proceed_of_ne _ ha hne, heq, hmakes⟩
  | @advanced _ id call stage command ending hend hcall =>
    have hmem := mem_of_call? hcall
    have hrepo := isRepository_of_mem hmem
    have hadvanced := call.advance_advanced c ((start files).after c past).files stage command ending
    rw [proceed_files] at hsome
    generalize call.advance c ((start files).after c past).files stage command ending = r at hadvanced hsome ⊢
    by_cases hown : name = call.unfinishedName
    · subst hown
      rcases hadvanced.spot_unfinished hrepo with hnone | ⟨hsame, hcloning, hcheckingOut⟩ | ⟨command', hrun⟩
      · rw [hnone] at hsome
        cases hsome
      · rw [hsame] at hsome
        obtain ⟨a, ha, heq, hmakes⟩ := hunfinished _ hname hsome
        obtain rfl := h.eq_of_name hbefore ha hmem heq
        obtain ⟨stage', command', hw, hstage⟩ := hmakes
        obtain ⟨rfl, -⟩ := Prod.mk.inj (Option.some.inj hw)
        rcases hstage with hstage | hstage
        · exact absurd hstage hcloning
        · exact absurd hstage hcheckingOut
      · rw [hrun]
        exact ⟨_, mem_proceed_self hmem, rfl, .checkingOut, command', rfl, .inr rfl⟩
    · have htarget : name ≠ cloneName call.repo := fun heq => h.own _ (accepted_of_mem hbefore hmem) (heq ▸ hname)
      rw [hadvanced.spot_of_ne hrepo hown htarget] at hsome
      obtain ⟨a, ha, heq, hmakes⟩ := hunfinished name hname hsome
      refine ⟨a, mem_proceed_of_ne _ ha fun hid => hown ?_, heq, hmakes⟩
      obtain rfl := horderly.eq_of_call? ha hid hcall
      exact heq.symm
  | @changed place content =>
    have hchange : ∀ {other}, c.spot other <+: place → other ≠ name →
        ∃ a ∈ ((start files).after c past).calls, a.call.unfinishedName = name ∧ a.MakesClone := by
      intro other hplace hne
      rw [FileTree.at?_change_apart _ (c.apart_of_spot hplace hne)] at hsome
      exact hunfinished name hname hsome
    cases h.outside hpast with
    | @git a _ _ ha hmakes hplace =>
      by_cases hown : a.call.unfinishedName = name
      · exact ⟨a, ha, hown, hmakes⟩
      · exact hchange (a.call.locate_unfinished c (isRepository_of_mem ha) ▸ hplace) hown
    | @inside other below _ hstands hbelow =>
      by_cases hown : other = name
      · exact hunfinished name hname (hown ▸ hstands)
      · exact hchange (List.prefix_append _ _) hown
    | @moved repo t hrepo hfree =>
      rw [c.locate_cloneDirectory hrepo] at hchange
      exact hchange List.prefix_rfl fun heq => hfree (heq.symm ▸ hname)
    | @beside other below _ hother =>
      exact hchange (List.prefix_append _ _) fun heq => hother (heq.symm ▸ hname)
    | elsewhere hplace =>
      rw [FileTree.at?_change_apart _ (c.apart_spot_of_apart hplace name)] at hsome
      exact hunfinished name hname hsome

/-- A call that has succeeded in all that goes into its clone. -/
theorem succeeded_of_completes {e : FetchEvent} {id : Nat} {call : FetchCall} {stage : FetchStage}
    {command : GitCommand} {ending : GitEnd}
    (ha : ((start files).after c past).call? id = some ⟨id, call, some (stage, command)⟩)
    (hend : e.end? = some (id, ending)) (hs : ending.isSuccess) (hcompletes : call.completes stage) :
    (∃ address, Succeeded c files (past ++ [e]) id (.clone address (call.unfinished c))) ∧
      ∀ dir, call.task = .source dir →
        Succeeded c files (past ++ [e]) id (.checkOut .set dir (call.unfinished c)) := by
  have hruns : call.Runs c command stage :=
    (orderly_after_start c files past).runs _ (mem_of_call? ha) stage command rfl
  have hnow : Succeeded c files (past ++ [e]) id command :=
    ⟨past, e, call, stage, ending, List.prefix_rfl, ha, hend, hs⟩
  cases stage with
  | cloning =>
    obtain ⟨address, rfl⟩ := hruns
    refine ⟨⟨address, hnow⟩, fun dir htask => ?_⟩
    simp only [FetchCall.completes, beq_iff_eq] at hcompletes
    cases hcompletes.symm.trans htask
  | checkingOut =>
    obtain ⟨dir, htask, rfl⟩ := hruns
    obtain ⟨address, hcloned⟩ := cloned_of_checkingOut (mem_of_call? ha) rfl
    refine ⟨⟨address, hcloned.of_past (List.prefix_append past [e])⟩, fun dir' htask' => ?_⟩
    obtain rfl : dir = dir' := FetchTask.source.inj (htask.symm.trans htask')
    exact hnow
  | wideningOther | widening | listing => cases hcompletes

/-- Under the name of a clone stands nothing or a whole clone. -/
theorem clones_concat (h : Course c complete files events) {e : FetchEvent} (hpast : past ++ [e] <+: events)
    {repo : String} (hrepo : isRepository repo) (hown : cloneName repo ∉ unfinishedNames events)
    (hwhole : ((start files).after c past).files.at? (c.spot (cloneName repo)) = none ∨
      WholeClone c complete files (c.spot (cloneName repo)) past) :
    ((start files).after c (past ++ [e])).files.at? (c.spot (cloneName repo)) = none ∨
      WholeClone c complete files (c.spot (cloneName repo)) (past ++ [e]) := by
  have hbefore : past <+: events := (List.prefix_append past [e]).trans hpast
  have hkept : ((start files).after c (past ++ [e])).files.at? (c.spot (cloneName repo)) =
      ((start files).after c past).files.at? (c.spot (cloneName repo)) → _ := fun hsame =>
    hwhole.imp (hsame.trans ·) fun hw => WholeClone.kept hw hsame
  have taken := step_taken c ((start files).after c past) e
  obtain ⟨g, hg⟩ : ∃ g, (start files).after c (past ++ [e]) = g := ⟨_, rfl⟩
  rw [← after_concat, hg] at taken
  cases taken with
  | idle | refused | accepted | gaveUp => exact hkept (by rw [hg])
  | begun => exact hkept (by rw [hg, proceed_files]; exact FetchCall.begin_spot c _ _)
  | @advanced _ id call stage command ending hend hcall =>
    have hmem := mem_of_call? hcall
    have hcallRepo := isRepository_of_mem hmem
    have hname : cloneName repo ≠ call.unfinishedName := cloneName_ne hbefore hmem hown
    have hadvanced := call.advance_advanced c ((start files).after c past).files stage command ending
    have hfiles := congrArg Fetcher.files hg
    rw [proceed_files] at hfiles
    generalize call.advance c ((start files).after c past).files stage command ending = r at hadvanced hfiles
    by_cases htarget : cloneName repo = cloneName call.repo
    · cases hadvanced with
      | failed => exact hkept (by rw [hfiles]; exact call.cleanUp_spot_of_ne c hcallRepo _ stage hname)
      | cloned | widened | listed => exact hkept (by rw [hfiles])
      | settled hs hcompletes =>
        rcases call.settle_spot_target c hcallRepo ((start files).after c past).files with
          hsame | ⟨t, ht, htarget', -⟩
        · exact hkept (by rw [hfiles, htarget]; exact hsame)
        · obtain ⟨⟨address, hcloned⟩, hchecked⟩ := succeeded_of_completes hcall hend hs hcompletes
          refine .inr
            (WholeClone.made (a := ⟨id, call, some (stage, command)⟩) (t := t) hcall ?_ hcloned hchecked ?_ ?_)
          · rw [call.locate_target c hcallRepo, htarget]
          · rw [call.locate_unfinished c hcallRepo]; exact ht
          · rw [hfiles, htarget]; exact htarget'
    · exact hkept (by rw [hfiles]; exact hadvanced.spot_of_ne hcallRepo hname htarget)
  | @changed place content =>
    rcases h.outside_clone hpast hrepo hown with hplace | ⟨below, hbelow, rfl, hstands⟩ | ⟨t, rfl, rfl, ht, -⟩
    · exact hkept (by rw [hg]; exact FileTree.at?_change_apart _ hplace content)
    · rcases hwhole with hnone | hw
      · rw [hnone] at hstands
        cases hstands
      · exact .inr (.worked hw hbelow)
    · exact .inr (.moved ht)

/-- What stands under the name of a clone is never taken away. -/
theorem isSome_concat (h : Course c complete files events) {e : FetchEvent} (hpast : past ++ [e] <+: events)
    {repo : String} (hrepo : isRepository repo) (hown : cloneName repo ∉ unfinishedNames events)
    (hsome : (((start files).after c past).files.at? (c.spot (cloneName repo))).isSome) :
    (((start files).after c (past ++ [e])).files.at? (c.spot (cloneName repo))).isSome := by
  have hbefore : past <+: events := (List.prefix_append past [e]).trans hpast
  rw [after_concat]
  have taken := step_taken c ((start files).after c past) e
  generalize (((start files).after c past).step c e).1 = g at taken
  cases taken with
  | idle | refused | accepted | gaveUp => exact hsome
  | begun =>
    rw [proceed_files, FetchCall.begin_spot]
    exact hsome
  | @advanced _ id call stage command ending _ hcall =>
    have hmem := mem_of_call? hcall
    have hcallRepo := isRepository_of_mem hmem
    have hname : cloneName repo ≠ call.unfinishedName := cloneName_ne hbefore hmem hown
    have hadvanced := call.advance_advanced c ((start files).after c past).files stage command ending
    rw [proceed_files]
    generalize call.advance c ((start files).after c past).files stage command ending = r at hadvanced
    by_cases htarget : cloneName repo = cloneName call.repo
    · rw [htarget] at hsome ⊢
      cases hadvanced with
      | failed =>
        rw [call.cleanUp_spot_of_ne c hcallRepo _ stage (htarget ▸ hname)]
        exact hsome
      | cloned | widened | listed => exact hsome
      | settled =>
        rcases call.settle_spot_target c hcallRepo ((start files).after c past).files with hsame | ⟨t, -, ht, -⟩
        · rw [hsame]; exact hsome
        · rw [ht]; rfl
    · rw [hadvanced.spot_of_ne hcallRepo hname htarget]
      exact hsome
  | @changed place content =>
    rcases h.outside_clone hpast hrepo hown with hplace | ⟨below, hbelow, rfl, -⟩ | ⟨t, -, -, -, hfree⟩
    · dsimp only
      rw [FileTree.at?_change_apart _ hplace]
      exact hsome
    · exact FileTree.isSome_at?_change_below _ _ hbelow _ hsome
    · rw [hfree] at hsome
      cases hsome

/-! ## Runs -/

theorem unfinished_after (h : Course c complete files events) (hpast : past <+: events) :
    ∀ name ∈ unfinishedNames events, (((start files).after c past).files.at? (c.spot name)).isSome →
      ∃ a ∈ ((start files).after c past).calls, a.call.unfinishedName = name ∧ a.MakesClone := by
  induction past using List.reverseRecOn with
  | nil =>
    intro name hname hsome
    rw [after_nil, start, h.unused name hname] at hsome
    cases hsome
  | append_singleton past e ih => exact h.unfinished_concat hpast (ih ((List.prefix_append past [e]).trans hpast))

theorem clones_after (h : Course c complete files events) (hpast : past <+: events) {repo : String}
    (hrepo : isRepository repo) (hown : cloneName repo ∉ unfinishedNames events) :
    ((start files).after c past).files.at? (c.spot (cloneName repo)) = none ∨
      WholeClone c complete files (c.spot (cloneName repo)) past := by
  induction past using List.reverseRecOn with
  | nil =>
    have hstarts := h.starts repo hrepo
    rw [c.locate_cloneDirectory hrepo] at hstarts
    exact hstarts.imp id fun ⟨t, ht, hcomplete⟩ => .standing ht hcomplete
  | append_singleton past e ih =>
    exact h.clones_concat hpast hrepo hown (ih ((List.prefix_append past [e]).trans hpast))

theorem isSome_after (h : Course c complete files events) (hpast : past <+: events) {repo : String}
    (hrepo : isRepository repo) (hown : cloneName repo ∉ unfinishedNames events)
    (hsome : (((start files).after c past).files.at? (c.spot (cloneName repo))).isSome) :
    (((start files).after c events).files.at? (c.spot (cloneName repo))).isSome := by
  have hgrow : ∀ rest, past ++ rest <+: events →
      (((start files).after c (past ++ rest)).files.at? (c.spot (cloneName repo))).isSome := by
    intro rest
    induction rest using List.reverseRecOn with
    | nil => intro _; rwa [List.append_nil]
    | append_singleton rest e ih =>
      intro hrest
      rw [← List.append_assoc] at hrest ⊢
      exact h.isSome_concat hrest hrepo hown (ih ((List.prefix_append _ _).trans hrest))
  obtain ⟨rest, rfl⟩ := hpast
  exact hgrow rest List.prefix_rfl

end Course

/-- Two calls for one repository. While the first one makes its clone, another
program moves its own there; git fails in what the second one asks for. -/
def twoCalls : List FetchEvent :=
  [.request ⟨"o/r", none, .source "src", "1"⟩, .request ⟨"o/r", none, .topDirectories, "2"⟩, .turn 0,
    .changed ["cache", "o__r.partial-1"] (some (.directory [(".git", .directory [])])),
    .ended 0 (.exited 0 [] []),
    .changed ["cache", "o__r"] (some (.directory [(".git", .directory []), ("src", .directory [])])),
    .ended 0 (.exited 0 [] []), .turn 1, .ended 1 (.exited 128 [] [])]

theorem course_twoCalls :
    Course diskConfig (fun t => (t.child? ".git").isSome) (.directory []) twoCalls := by
  refine ⟨fun repo hrepo => .inl ?_, by decide +kernel, fun name _ => rfl, by decide +kernel, ?_⟩
  · rw [diskConfig.locate_cloneDirectory hrepo]
    rfl
  · refine ⟨nofun, nofun, nofun, ?_, nofun, ?_, nofun, nofun, nofun, trivial⟩
    · rintro place content heq
      cases heq
      refine .git (a := ⟨0, ⟨"o/r", none, .source "src", "1"⟩, some (.cloning, .clone "https://git.example/o/r.git"
        ⟨.slash, ["cache", "o__r.partial-1"]⟩)⟩) ?_ ⟨_, _, rfl, .inl rfl⟩ (by decide +kernel)
      with_unfolding_all exact List.Mem.head _
    · rintro place content heq
      cases heq
      have hrepo : isRepository "o/r" := by decide +kernel
      have hplace : diskConfig.locate (cloneDirectory diskConfig.cache "o/r") = ["cache", "o__r"] := by decide +kernel
      rw [← hplace]
      refine .moved hrepo (by decide +kernel) ?_ rfl
      rw [hplace]
      with_unfolding_all rfl

end Fetcher

end RepoOrbit
