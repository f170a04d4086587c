import RepoOrbit.Proofs.Fetch.ClonePlaces
import RepoOrbit.Proofs.Fetch.Steps

/-!
# Calls whose clone fails

A call puts a clone in place at most once, and from then on changes nothing in the
cache (`Fetcher.IsPastClone`, `IsPastClone.files_step`). The same is true once it has
failed, so that no call does both (`not_changedClone_of_failedToClone`).
-/

namespace RepoOrbit

/-- Whether a call waits for its clone, or for the first checkout in it. -/
def ActiveCall.MakesClone (a : ActiveCall) : Prop :=
  ∃ stage command, a.waitsFor = some (stage, command) ∧ (stage = .cloning ∨ stage = .checkingOut)

theorem FetchCall.afterClone_listing {c : FetchConfig} {call : FetchCall} {t : FileTree} {stage : FetchStage}
    {command : GitCommand} (h : call.afterClone c t = .run stage command) : stage = .listing := by
  unfold afterClone at h
  split at h
  · obtain ⟨answer, hanswer⟩ := call.conclude_eq c t _
    rw [hanswer] at h
    cases h
  · cases h; rfl

namespace Fetcher

variable {c : FetchConfig}

/-- Whether a call has been made and has nothing left to do with files: it is no
longer under way, or asks git for the directories. -/
def IsPastClone (f : Fetcher) (id : Nat) : Prop :=
  id < f.requests ∧ ∀ a ∈ f.calls, a.id = id → ∃ command, a.waitsFor = some (.listing, command)

theorem isPastClone_proceed {f : Fetcher} {id : Nat} {next : FetchNext} (t : FileTree) (hid : id < f.requests)
    (hnext : ∀ stage command, next = .run stage command → stage = .listing) :
    (proceed { f with files := t } id next).1.IsPastClone id := by
  refine ⟨by rw [proceed_requests]; exact hid, fun a ha heq => ?_⟩
  rcases mem_proceed ha with ⟨-, hne⟩ | ⟨b, -, -, stage, command, hrun, rfl⟩
  · exact absurd heq hne
  · rw [hnext stage command hrun]
    exact ⟨command, rfl⟩

/-- The end of a run leaves nothing to do with files if it has failed, or if the
clone was complete before. -/
theorem isPastClone_of_advanced {f : Fetcher} {id : Nat} {call : FetchCall} {stage : FetchStage}
    {ending : GitEnd} {r : FileTree × FetchNext} (hid : id < f.requests)
    (h : call.Advanced c f.files stage ending r) (hlate : ending.isSuccess = false ∨ stage = .listing) :
    (proceed { f with files := r.1 } id r.2).1.IsPastClone id := by
  cases h with
  | failed | listed => exact isPastClone_proceed _ hid nofun
  | widened => exact isPastClone_proceed _ hid fun _ _ => FetchCall.afterClone_listing
  | cloned hs hstage =>
    rcases hlate with hfailed | rfl
    · cases hs.symm.trans hfailed
    · cases hstage
  | settled hs hcompletes =>
    rcases hlate with hfailed | rfl
    · cases hs.symm.trans hfailed
    · cases hcompletes

theorem IsPastClone.step {f : Fetcher} {id : Nat} (h : f.IsPastClone id) (e : FetchEvent) :
    (f.step c e).1.IsPastClone id := by
  have taken := step_taken c f e
  generalize (f.step c e).1 = g at taken
  -- a call of another number is not touched, whatever it goes on with
  have hother : ∀ {i next t}, i ≠ id → (proceed { f with files := t } i next).1.IsPastClone id := by
    intro i next t hi
    refine ⟨by rw [proceed_requests]; exact h.1, fun a ha heq => ?_⟩
    rcases mem_proceed ha with ⟨ha, -⟩ | ⟨b, -, hb, stage, command, -, rfl⟩
    · exact h.2 a ha heq
    · exact absurd (hb.symm.trans heq) hi
  cases taken with
  | idle | changed => exact h
  | refused => exact ⟨Nat.lt_succ_of_lt h.1, h.2⟩
  | accepted =>
    refine ⟨Nat.lt_succ_of_lt h.1, fun a ha heq => ?_⟩
    rcases List.mem_append.mp ha with ha | ha
    · exact h.2 a ha heq
    · obtain rfl := List.mem_singleton.mp ha
      exact absurd heq (Nat.ne_of_gt h.1)
  | @begun i call hcall =>
    by_cases hi : i = id
    · obtain ⟨command, hw⟩ := h.2 _ (mem_of_call? hcall) hi
      cases hw
    · exact hother hi
  | @advanced _ i call stage command ending _ hcall =>
    by_cases hi : i = id
    · obtain ⟨command, hw⟩ := h.2 _ (mem_of_call? hcall) hi
      obtain ⟨rfl, -⟩ := Prod.mk.inj (Option.some.inj hw)
      exact hi ▸ isPastClone_of_advanced (hi ▸ h.1) (call.advance_advanced c f.files _ _ ending) (.inr rfl)
    · exact hother hi
  | gaveUp => exact ⟨h.1, fun a ha => h.2 a (List.mem_filter.mp ha).1⟩

theorem IsPastClone.after {f : Fetcher} {id : Nat} (h : f.IsPastClone id) (events : List FetchEvent) :
    (f.after c events).IsPastClone id := by
  induction events using List.reverseRecOn with
  | nil => exact h
  | append_singleton events e ih => rw [after_concat]; exact ih.step e

/-- Nothing that happens to such a call changes a file. -/
theorem IsPastClone.files_step {f : Fetcher} {id : Nat} (h : f.IsPastClone id) {e : FetchEvent}
    (he : e.call? = some id) : (f.step c e).1.files = f.files := by
  have taken := step_taken c f e
  generalize (f.step c e).1 = g at taken
  cases taken with
  | idle | refused | accepted | gaveUp => rfl
  | changed => cases he
  | @begun i call hcall =>
    obtain rfl : i = id := Option.some.inj he
    obtain ⟨command, hw⟩ := h.2 _ (mem_of_call? hcall) rfl
    cases hw
  | @advanced _ i call stage command ending hend hcall =>
    obtain rfl : i = id := Option.some.inj ((FetchEvent.call?_of_end? hend).symm.trans he)
    obtain ⟨command', hw⟩ := h.2 _ (mem_of_call? hcall) rfl
    obtain ⟨rfl, -⟩ := Prod.mk.inj (Option.some.inj hw)
    rw [proceed_files]
    have hadvanced := call.advance_advanced c f.files .listing command ending
    generalize call.advance c f.files .listing command ending = r at hadvanced
    cases hadvanced with
    | failed | listed => rfl
    | cloned _ hstage => cases hstage
    | settled _ hcompletes => cases hcompletes
    | widened _ hstage => rcases hstage with hstage | hstage <;> cases hstage

/-! ## Changing the place of a clone, and failing -/

/-- A call that changes the place of its clone has put it there. -/
theorem isPastClone_of_changed {f : Fetcher} {id : Nat} {a : ActiveCall} {e : FetchEvent}
    (horderly : f.Orderly c) (ha : f.call? id = some a) (he : e.call? = some id)
    (hchanged : (f.step c e).1.files.at? (c.locate (a.call.target c)) ≠ f.files.at? (c.locate (a.call.target c))) :
    (f.step c e).1.IsPastClone id := by
  have hid : id < f.requests := id_of_call? ha ▸ horderly.lt_requests a (mem_of_call? ha)
  have hrepo := a.call.isRepository_of_refusal? (horderly.accepted a (mem_of_call? ha))
  rw [a.call.locate_target c hrepo] at hchanged
  have taken := step_taken c f e
  generalize (f.step c e).1 = g at taken hchanged
  cases taken with
  | idle | refused | accepted | gaveUp => exact absurd rfl hchanged
  | changed => cases he
  | @begun i call hcall =>
    rw [proceed_files] at hchanged
    exact absurd (call.begin_spot c f.files _) hchanged
  | @advanced _ i call stage command ending hend hcall =>
    obtain rfl : i = id := Option.some.inj ((FetchEvent.call?_of_end? hend).symm.trans he)
    obtain rfl : a = ⟨i, call, some (stage, command)⟩ := Option.some.inj (ha.symm.trans hcall)
    rw [proceed_files] at hchanged
    have hadvanced := call.advance_advanced c f.files stage command ending
    generalize call.advance c f.files stage command ending = r at hadvanced hchanged
    cases hadvanced with
    | failed => exact absurd (call.cleanUp_spot_of_ne c hrepo _ _ call.unfinishedName_ne.symm) hchanged
    | cloned | widened | listed => exact absurd rfl hchanged
    | settled =>
      rcases call.settle_spot_target c hrepo f.files with hsame | ⟨_, -, -, hnext⟩
      · exact absurd hsame hchanged
      · rw [hnext]
        exact isPastClone_proceed _ hid fun _ _ => FetchCall.afterClone_listing

/-- A call whose clone or first checkout fails leaves the place of its clone alone. -/
theorem step_of_failed {f : Fetcher} {id : Nat} {a : ActiveCall} {e : FetchEvent} {ending : GitEnd}
    (horderly : f.Orderly c) (ha : f.call? id = some a) (hmakes : a.MakesClone)
    (he : e.end? = some (id, ending)) (hfailed : ending.isSuccess = false) :
    (f.step c e).1.IsPastClone id ∧
      (f.step c e).1.files.at? (c.locate (a.call.target c)) = f.files.at? (c.locate (a.call.target c)) := by
  obtain ⟨i, call, w⟩ := a
  obtain rfl : i = id := id_of_call? ha
  obtain ⟨stage, command, rfl, -⟩ := hmakes
  have hid := horderly.lt_requests _ (mem_of_call? ha)
  have haccepted := horderly.accepted _ (mem_of_call? ha)
  have hrepo := FetchCall.isRepository_of_refusal? _ haccepted
  have hadvanced := call.advance_advanced c f.files stage command ending
  rw [step_of_running c he ha]
  refine ⟨isPastClone_of_advanced hid hadvanced (.inl hfailed), ?_⟩
  rw [proceed_files, FetchCall.locate_target c _ hrepo]
  generalize call.advance c f.files stage command ending = r at hadvanced
  cases hadvanced with
  | failed => exact call.cleanUp_spot_of_ne c hrepo _ _ call.unfinishedName_ne.symm
  | cloned hs | settled hs | widened hs | listed hs => cases hs.symm.trans hfailed

variable (c)

/-- The clone or the first checkout of a call has failed. -/
def FailedToClone (files : FileTree) (events : List FetchEvent) (id : Nat) : Prop :=
  ∃ before e a ending, before ++ [e] <+: events ∧ ((start files).after c before).call? id = some a ∧
    a.MakesClone ∧ e.end? = some (id, ending) ∧ ending.isSuccess = false

/-- A call has changed the place of its clone. -/
def ChangedClone (files : FileTree) (events : List FetchEvent) (id : Nat) : Prop :=
  ∃ before e a, before ++ [e] <+: events ∧ ((start files).after c before).call? id = some a ∧ e.call? = some id ∧
    ((start files).after c (before ++ [e])).files.at? (c.locate (a.call.target c)) ≠
      ((start files).after c before).files.at? (c.locate (a.call.target c))

theorem orderly_after_start (files : FileTree) (events : List FetchEvent) :
    ((start files).after c events).Orderly c :=
  (orderly_of_no_calls rfl).after events

variable {c}

theorem not_changedClone_of_failedToClone {files : FileTree} {events : List FetchEvent} {id : Nat}
    (hfailed : FailedToClone c files events id) : ¬ ChangedClone c files events id := by
  rintro ⟨before₂, e₂, a₂, h₂, ha₂, he₂, hchanged⟩
  obtain ⟨before₁, e₁, a₁, ending, h₁, ha₁, hmakes, he₁, hending⟩ := hfailed
  obtain ⟨hpast₁, hsame⟩ := step_of_failed (orderly_after_start c files before₁) ha₁ hmakes he₁ hending
  rw [after_concat] at hchanged
  have hpast₂ := isPastClone_of_changed (orderly_after_start c files before₂) ha₂ he₂ hchanged
  rw [← after_concat] at hpast₁ hpast₂
  rcases List.prefix_or_prefix_of_prefix h₁ h₂ with h | h
  · rcases List.prefix_concat_iff.mp h with heq | ⟨rest, rfl⟩
    · obtain ⟨rfl, rfl⟩ := List.append_singleton_inj.mp heq
      obtain rfl : a₁ = a₂ := Option.some.inj (ha₁.symm.trans ha₂)
      exact hchanged hsame
    · have hlater := hpast₁.after (c := c) rest
      rw [← after_append] at hlater
      exact hchanged (by rw [hlater.files_step he₂])
  · rcases List.prefix_concat_iff.mp h with heq | ⟨rest, rfl⟩
    · obtain ⟨rfl, rfl⟩ := List.append_singleton_inj.mp heq
      obtain rfl : a₂ = a₁ := Option.some.inj (ha₂.symm.trans ha₁)
      exact hchanged hsame
    · have hlater := hpast₂.after (c := c) rest
      rw [← after_append] at hlater
      obtain ⟨command, hw⟩ := hlater.2 a₁ (mem_of_call? ha₁) (id_of_call? ha₁)
      obtain ⟨stage, command', hw', hstage⟩ := hmakes
      obtain ⟨rfl, -⟩ := Prod.mk.inj (Option.some.inj (hw.symm.trans hw'))
      rcases hstage with hstage | hstage <;> cases hstage

end Fetcher

end RepoOrbit
