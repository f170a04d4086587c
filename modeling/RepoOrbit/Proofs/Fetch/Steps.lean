import Mathlib.Data.List.Induction
import Mathlib.Data.List.Nodup
import RepoOrbit.Fetch.Fetcher
import RepoOrbit.Proofs.Fetch.Stages

/-!
# What an event does to a fetcher

`Fetcher.Did` lists what an event can do to a fetcher and what the fetcher does then,
one constructor each; `step_did` says that there is nothing else. `Fetcher.Taken` and
`step_taken` are the same for those who only ask for the fetcher. From them:

* `Fetcher.Orderly`: calls have numbers of their own, have not been turned down, and
  wait for runs of their own stage (`Orderly.step`, `Orderly.after`);
* `step_of_turn`, `step_of_running`: what its turn does to a call that has not begun,
  and the end of a run to the call that waits for it;
* `answered_cases`: when a call is answered without an error.
-/

namespace RepoOrbit

/-- The run that an event ends: the number of its call, and how it ends. -/
def FetchEvent.end? : FetchEvent → Option (Nat × GitEnd)
  | .ended id ending => some (id, ending)
  | .cancel id => some (id, .cancelled)
  | _ => none

/-- The call that an event asks for. -/
def FetchEvent.request? : FetchEvent → Option FetchCall
  | .request call => some call
  | _ => none

/-- The call under way that an event is about. -/
def FetchEvent.call? : FetchEvent → Option Nat
  | .turn id | .ended id _ | .cancel id => some id
  | _ => none

/-- The run that an event has killed, if it does not end by itself. -/
def FetchEvent.kills : FetchEvent → List FetchAction
  | .ended id .timedOut | .cancel id => [.kill id]
  | _ => []

theorem FetchEvent.call?_of_end? {e : FetchEvent} {id : Nat} {ending : GitEnd}
    (h : e.end? = some (id, ending)) :
    e.call? = some id := by
  cases e <;> simp_all [end?, call?]

namespace Fetcher

variable (c : FetchConfig)

/-- The fetcher after some events. -/
def after (f : Fetcher) (events : List FetchEvent) : Fetcher :=
  events.foldl (fun f e => (f.step c e).1) f

@[simp] theorem after_nil (f : Fetcher) : f.after c [] = f := rfl

@[simp] theorem after_concat (f : Fetcher) (events : List FetchEvent) (e : FetchEvent) :
    f.after c (events ++ [e]) = ((f.after c events).step c e).1 := by
  simp [after]

theorem after_append (f : Fetcher) (events events' : List FetchEvent) :
    f.after c (events ++ events') = (f.after c events).after c events' := by
  simp [after]

@[simp] theorem proceed_files (f : Fetcher) (id : Nat) (next : FetchNext) :
    (f.proceed id next).1.files = f.files := by
  cases next <;> rfl

@[simp] theorem proceed_requests (f : Fetcher) (id : Nat) (next : FetchNext) :
    (f.proceed id next).1.requests = f.requests := by
  cases next <;> rfl

/-- The ways in which an event changes a fetcher, if it does. -/
inductive Taken (f : Fetcher) : FetchEvent → Fetcher → Prop
  | idle (e : FetchEvent) : f.Taken e f
  | refused {call : FetchCall} {failure : CallFailure} : call.refusal? = some failure →
      f.Taken (.request call) { f with requests := f.requests + 1 }
  | accepted {call : FetchCall} : call.refusal? = none →
      f.Taken (.request call)
        { f with requests := f.requests + 1, calls := f.calls ++ [⟨f.requests, call, none⟩] }
  | begun {id : Nat} {call : FetchCall} : f.call? id = some ⟨id, call, none⟩ →
      f.Taken (.turn id) (proceed { f with files := (call.begin c f.files).1 } id (call.begin c f.files).2).1
  | advanced {e : FetchEvent} {id : Nat} {call : FetchCall} {stage : FetchStage} {command : GitCommand}
      {ending : GitEnd} : e.end? = some (id, ending) → f.call? id = some ⟨id, call, some (stage, command)⟩ →
      f.Taken e (proceed { f with files := (call.advance c f.files stage command ending).1 } id
        (call.advance c f.files stage command ending).2).1
  | gaveUp {id : Nat} {call : FetchCall} : f.call? id = some ⟨id, call, none⟩ →
      f.Taken (.cancel id) { f with calls := f.calls.filter (·.id != id) }
  | changed {place : List String} {content : Option FileTree} :
      f.Taken (.changed place content) { f with files := f.files.change place content }

/-- What an event does to a fetcher, and what the fetcher does then. -/
inductive Did (f : Fetcher) : FetchEvent → Fetcher × List FetchAction → Prop
  /-- The event is about a call that does not wait for it; a run may be killed that is no more. -/
  | idle {e : FetchEvent} {actions : List FetchAction} : e.request? = none →
      (∀ id ending call w, e.end? = some (id, ending) → f.call? id ≠ some ⟨id, call, some w⟩) →
      actions = [] ∨ actions = e.kills → f.Did e (f, actions)
  | refused {call : FetchCall} {failure : CallFailure} : call.refusal? = some failure →
      f.Did (.request call) ({ f with requests := f.requests + 1 }, [.answer f.requests (.error failure)])
  | accepted {call : FetchCall} : call.refusal? = none →
      f.Did (.request call)
        ({ f with requests := f.requests + 1, calls := f.calls ++ [⟨f.requests, call, none⟩] }, [])
  | begun {id : Nat} {call : FetchCall} : f.call? id = some ⟨id, call, none⟩ → f.isInTurn c ⟨id, call, none⟩ →
      f.Did (.turn id) (proceed { f with files := (call.begin c f.files).1 } id (call.begin c f.files).2)
  | advanced {e : FetchEvent} {id : Nat} {call : FetchCall} {stage : FetchStage} {command : GitCommand}
      {ending : GitEnd} {g : Fetcher} {actions : List FetchAction} : e.end? = some (id, ending) →
      f.call? id = some ⟨id, call, some (stage, command)⟩ →
      proceed { f with files := (call.advance c f.files stage command ending).1 } id
        (call.advance c f.files stage command ending).2 = (g, actions) →
      f.Did e (g, e.kills ++ actions)
  | gaveUp {id : Nat} {call : FetchCall} : f.call? id = some ⟨id, call, none⟩ →
      f.Did (.cancel id) ({ f with calls := f.calls.filter (·.id != id) }, [.answer id (.error .cancelled)])
  | changed {place : List String} {content : Option FileTree} :
      f.Did (.changed place content) ({ f with files := f.files.change place content }, [])

theorem id_of_call? {f : Fetcher} {id : Nat} {a : ActiveCall} (h : f.call? id = some a) : a.id = id := by
  have := List.find?_some h
  simpa using this

theorem mem_of_call? {f : Fetcher} {id : Nat} {a : ActiveCall} (h : f.call? id = some a) : a ∈ f.calls :=
  List.mem_of_find?_eq_some h

theorem step_of_turn {f : Fetcher} {id : Nat} {call : FetchCall} (h : f.call? id = some ⟨id, call, none⟩)
    (ht : f.isInTurn c ⟨id, call, none⟩) :
    f.step c (.turn id) = proceed { f with files := (call.begin c f.files).1 } id (call.begin c f.files).2 := by
  simp only [step, takeTurn, h]
  rw [if_pos ht]

/-- The end of a run, for the call that waits for it. -/
theorem endRun_of_running {f : Fetcher} {id : Nat} {call : FetchCall} {stage : FetchStage}
    {command : GitCommand} (h : f.call? id = some ⟨id, call, some (stage, command)⟩) (ending : GitEnd) :
    f.endRun c id ending = proceed { f with files := (call.advance c f.files stage command ending).1 } id
      (call.advance c f.files stage command ending).2 := by
  simp only [endRun, h]

theorem step_eq_of_running {f : Fetcher} {e : FetchEvent} {id : Nat} {call : FetchCall} {stage : FetchStage}
    {command : GitCommand} {ending : GitEnd} (he : e.end? = some (id, ending))
    (h : f.call? id = some ⟨id, call, some (stage, command)⟩) :
    f.step c e = ((f.endRun c id ending).1, e.kills ++ (f.endRun c id ending).2) := by
  cases e with
  | ended _ ending' =>
    obtain ⟨rfl, rfl⟩ : _ = id ∧ _ = ending := by simpa [FetchEvent.end?] using he
    cases ending' <;> rfl
  | cancel =>
    obtain ⟨rfl, rfl⟩ : _ = id ∧ GitEnd.cancelled = ending := by simpa [FetchEvent.end?] using he
    simp only [step, h]
    rfl
  | request | turn | changed => simp [FetchEvent.end?] at he

theorem step_of_running {f : Fetcher} {e : FetchEvent} {id : Nat} {call : FetchCall} {stage : FetchStage}
    {command : GitCommand} {ending : GitEnd} (he : e.end? = some (id, ending))
    (h : f.call? id = some ⟨id, call, some (stage, command)⟩) :
    (f.step c e).1 = (proceed { f with files := (call.advance c f.files stage command ending).1 } id
      (call.advance c f.files stage command ending).2).1 := by
  rw [step_eq_of_running c he h, endRun_of_running c h]

theorem endRun_of_idle {f : Fetcher} {id : Nat} (h : ∀ call w, f.call? id ≠ some ⟨id, call, some w⟩) (ending : GitEnd) :
    f.endRun c id ending = (f, []) := by
  unfold endRun
  split
  · rename_i i call stage command hi
    obtain rfl : i = id := id_of_call? hi
    exact absurd hi (h call _)
  · rfl

theorem step_did (f : Fetcher) (e : FetchEvent) : f.Did c e (f.step c e) := by
  cases e with
  | request call =>
    simp only [step]
    split
    · rename_i h; exact .refused h
    · rename_i h; exact .accepted h
  | turn id =>
    have hidle : f.Did c (.turn id) (f, []) := .idle rfl nofun (.inl rfl)
    simp only [step, takeTurn]
    split
    · rename_i i call h
      obtain rfl : i = id := id_of_call? h
      split
      · rename_i hturn; exact .begun h hturn
      · exact hidle
    · exact hidle
  | ended id ending =>
    by_cases hw : ∃ call w, f.call? id = some ⟨id, call, some w⟩
    · obtain ⟨call, ⟨stage, command⟩, h⟩ := hw
      rw [step_eq_of_running c rfl h, endRun_of_running c h]
      exact .advanced rfl h rfl
    · have hnone : ∀ call w, f.call? id ≠ some ⟨id, call, some w⟩ := fun call w h => hw ⟨call, w, h⟩
      have hidle : ∀ i ending' call w, FetchEvent.end? (.ended id ending) = some (i, ending') →
          f.call? i ≠ some ⟨i, call, some w⟩ := by
        intro i ending' call w he
        obtain ⟨rfl, -⟩ := Prod.mk.inj (Option.some.inj he)
        exact hnone call w
      cases ending with
      | timedOut =>
        simp only [step, endRun_of_idle c hnone]
        exact .idle rfl hidle (.inr rfl)
      | exited | notStarted | cancelled =>
        simp only [step, endRun_of_idle c hnone]
        exact .idle rfl hidle (.inl rfl)
  | cancel id =>
    cases h : f.call? id with
    | none =>
      simp only [step, h]
      refine .idle rfl (fun i ending call w he => ?_) (.inl rfl)
      obtain ⟨rfl, -⟩ := Prod.mk.inj (Option.some.inj he)
      rw [h]
      exact nofun
    | some a =>
      obtain ⟨i, call, waitsFor⟩ := a
      obtain rfl : i = id := id_of_call? h
      cases waitsFor with
      | none => simp only [step, h]; exact .gaveUp h
      | some w =>
        rw [step_eq_of_running c rfl h, endRun_of_running c h]
        exact .advanced rfl h rfl
  | changed place content => exact .changed

theorem step_taken (f : Fetcher) (e : FetchEvent) : f.Taken c e (f.step c e).1 := by
  have did := step_did c f e
  generalize f.step c e = r at did
  cases did with
  | idle => exact .idle _
  | refused h => exact .refused h
  | accepted h => exact .accepted h
  | begun h => exact .begun h
  | advanced he h hnext =>
    have hfiles := congrArg Prod.fst hnext
    rw [← hfiles]
    exact .advanced he h
  | gaveUp h => exact .gaveUp h
  | changed => exact .changed

/-! ## Answers -/

theorem mem_proceed_answer {f : Fetcher} {i id : Nat} {next : FetchNext}
    {answer : Except CallFailure FetchAnswer} (h : .answer id answer ∈ (f.proceed i next).2) :
    i = id ∧ next = .finish answer := by
  cases next with
  | run stage command => simp [proceed] at h
  | finish answer' =>
    obtain ⟨rfl, rfl⟩ : id = i ∧ answer = answer' := by simpa [proceed] using h
    exact ⟨rfl, rfl⟩

theorem mem_endRun_answer {f : Fetcher} {i id : Nat} {ending : GitEnd}
    {answer : Except CallFailure FetchAnswer} (h : .answer id answer ∈ (f.endRun c i ending).2) :
    i = id ∧ ∃ call stage command, f.call? id = some ⟨id, call, some (stage, command)⟩ ∧
      (call.advance c f.files stage command ending).2 = .finish answer := by
  unfold endRun at h
  split at h
  · rename_i j call stage command hi
    obtain ⟨rfl, hn⟩ := mem_proceed_answer h
    obtain rfl : j = i := id_of_call? hi
    exact ⟨rfl, call, stage, command, hi, hn⟩
  · simp at h

/-- A call is answered without an error when its turn comes or when its run ends. -/
theorem answered_cases {f : Fetcher} {e : FetchEvent} {id : Nat} {answer : FetchAnswer}
    (h : .answer id (.ok answer) ∈ (f.step c e).2) :
    (∃ call, e = .turn id ∧ f.call? id = some ⟨id, call, none⟩ ∧ f.isInTurn c ⟨id, call, none⟩ ∧
      (call.begin c f.files).2 = .finish (.ok answer)) ∨
    ∃ call stage command ending, e.end? = some (id, ending) ∧
      f.call? id = some ⟨id, call, some (stage, command)⟩ ∧
      (call.advance c f.files stage command ending).2 = .finish (.ok answer) := by
  cases e with
  | request call =>
    simp only [step] at h
    split at h <;> simp at h
  | turn i =>
    simp only [step, takeTurn] at h
    split at h
    · rename_i j call hi
      obtain rfl : j = i := id_of_call? hi
      split at h
      · rename_i ht
        obtain ⟨rfl, hn⟩ := mem_proceed_answer h
        exact .inl ⟨call, rfl, hi, ht, hn⟩
      · simp at h
    · simp at h
  | ended i ending =>
    have h' : .answer id (.ok answer) ∈ (f.endRun c i ending).2 := by
      cases ending <;> simpa [step] using h
    obtain ⟨rfl, call, stage, command, hi, hn⟩ := mem_endRun_answer c h'
    exact .inr ⟨call, stage, command, ending, rfl, hi, hn⟩
  | cancel i =>
    simp only [step] at h
    split at h
    · have h' : .answer id (.ok answer) ∈ (f.endRun c i .cancelled).2 := by simpa using h
      obtain ⟨rfl, call, stage, command, hi, hn⟩ := mem_endRun_answer c h'
      exact .inr ⟨call, stage, command, .cancelled, rfl, hi, hn⟩
    · simp at h
    · simp at h
  | changed place content => simp [step] at h

/-! ## Calls in good order -/

/-- Calls have numbers of their own, have not been turned down, and wait for runs
of their own stage. -/
structure Orderly (f : Fetcher) : Prop where
  nodup : (f.calls.map (·.id)).Nodup
  lt_requests : ∀ a ∈ f.calls, a.id < f.requests
  accepted : ∀ a ∈ f.calls, a.call.refusal? = none
  runs : ∀ a ∈ f.calls, ∀ stage command, a.waitsFor = some (stage, command) → a.call.Runs c command stage

variable {c}

/-- A call is found by its number. -/
theorem Orderly.call?_of_mem {f : Fetcher} (h : f.Orderly c) {a : ActiveCall} (ha : a ∈ f.calls) :
    f.call? a.id = some a := by
  have hn := h.nodup
  unfold call?
  generalize f.calls = calls at ha hn
  induction calls with
  | nil => exact absurd ha List.not_mem_nil
  | cons b calls ih =>
    rw [List.map_cons, List.nodup_cons] at hn
    rw [List.find?_cons]
    rcases List.mem_cons.mp ha with rfl | ha
    · simp
    · have hne : b.id ≠ a.id := fun e => hn.1 (e ▸ List.mem_map_of_mem ha)
      simp only [beq_eq_false_iff_ne.mpr hne, ih ha hn.2]

/-- Calls of one number are one call. -/
theorem Orderly.eq_of_call? {f : Fetcher} (h : f.Orderly c) {a b : ActiveCall} {id : Nat} (ha : a ∈ f.calls)
    (hid : a.id = id) (hb : f.call? id = some b) : a = b := by
  subst hid
  exact Option.some.inj ((h.call?_of_mem ha).symm.trans hb)

theorem orderly_of_no_calls {f : Fetcher} (h : f.calls = []) : f.Orderly c := by
  constructor <;> simp [h]

/-- The calls that are left once one of them has gone on are the others, as they
were, and the one itself if it waits for another run. -/
theorem mem_proceed {f : Fetcher} {id : Nat} {next : FetchNext} {a : ActiveCall}
    (h : a ∈ (f.proceed id next).1.calls) :
    (a ∈ f.calls ∧ a.id ≠ id) ∨
      ∃ b ∈ f.calls, b.id = id ∧ ∃ stage command, next = .run stage command ∧
        a = { b with waitsFor := some (stage, command) } := by
  cases next with
  | finish answer =>
    obtain ⟨ha, hne⟩ := List.mem_filter.mp h
    exact .inl ⟨ha, bne_iff_ne.mp hne⟩
  | run stage command =>
    obtain ⟨b, hb, rfl⟩ := List.mem_map.mp h
    by_cases hid : b.id = id
    · exact .inr ⟨b, hb, hid, stage, command, rfl, by rw [if_pos hid]⟩
    · rw [if_neg hid]; exact .inl ⟨hb, hid⟩

/-- Calls may end, and are the same otherwise. -/
theorem map_proceed_sublist {β : Type} (f : Fetcher) (id : Nat) (next : FetchNext) (g : ActiveCall → β)
    (hg : ∀ a w, g { a with waitsFor := w } = g a) :
    ((f.proceed id next).1.calls.map g).Sublist (f.calls.map g) := by
  cases next with
  | finish answer => exact List.filter_sublist.map _
  | run stage command =>
    have hcalls : (f.calls.map fun a =>
        if a.id = id then { a with waitsFor := some (stage, command) } else a).map g = f.calls.map g := by
      rw [List.map_map]
      refine List.map_congr_left fun a _ => ?_
      rw [Function.comp_apply]
      split
      · exact hg a _
      · rfl
    rw [proceed, hcalls]

theorem mem_proceed_self {f : Fetcher} {a : ActiveCall} {stage : FetchStage} {command : GitCommand}
    (ha : a ∈ f.calls) :
    { a with waitsFor := some (stage, command) } ∈ (f.proceed a.id (.run stage command)).1.calls :=
  List.mem_map.mpr ⟨a, ha, if_pos rfl⟩

/-- The other calls are left. -/
theorem mem_proceed_of_ne {f : Fetcher} {id : Nat} {a : ActiveCall} (next : FetchNext) (ha : a ∈ f.calls)
    (hne : a.id ≠ id) : a ∈ (f.proceed id next).1.calls := by
  cases next with
  | finish answer => exact List.mem_filter.mpr ⟨ha, bne_iff_ne.mpr hne⟩
  | run stage command => exact List.mem_map.mpr ⟨a, ha, by rw [if_neg hne]⟩

theorem Orderly.proceed {f : Fetcher} (h : f.Orderly c) (t : FileTree) {id : Nat} {call : FetchCall}
    {w : Option (FetchStage × GitCommand)} (hid : f.call? id = some ⟨id, call, w⟩) {next : FetchNext}
    (hn : call.Fits c next) : (Fetcher.proceed { f with files := t } id next).1.Orderly c := by
  have hcall : ∀ b ∈ f.calls, b.id = id → b = ⟨id, call, w⟩ := fun b hb e => h.eq_of_call? hb e hid
  refine ⟨?_, fun a ha => ?_, fun a ha => ?_, fun a ha stage command hw => ?_⟩
  · exact h.nodup.sublist (map_proceed_sublist _ _ _ (·.id) fun _ _ => rfl)
  · rw [proceed_requests]
    rcases mem_proceed ha with ⟨ha, -⟩ | ⟨b, hb, -, _, _, -, rfl⟩
    · exact h.lt_requests a ha
    · exact h.lt_requests b hb
  · rcases mem_proceed ha with ⟨ha, -⟩ | ⟨b, hb, -, _, _, -, rfl⟩
    · exact h.accepted a ha
    · exact h.accepted b hb
  · rcases mem_proceed ha with ⟨ha, -⟩ | ⟨b, hb, e, _, _, rfl, rfl⟩
    · exact h.runs a ha stage command hw
    · obtain ⟨rfl, rfl⟩ := Prod.mk.inj (Option.some.inj hw)
      rw [hcall b hb e]
      exact hn

theorem Orderly.step {f : Fetcher} (h : f.Orderly c) (e : FetchEvent) : (f.step c e).1.Orderly c := by
  have taken := step_taken c f e
  generalize (f.step c e).1 = g at taken
  cases taken with
  | idle => exact h
  | refused =>
    exact ⟨h.nodup, fun a ha => Nat.lt_succ_of_lt (h.lt_requests a ha), h.accepted, h.runs⟩
  | @accepted call hc =>
    refine ⟨?_, fun a ha => ?_, fun a ha => ?_, fun a ha stage command hw => ?_⟩
    · rw [List.map_append, List.nodup_append]
      refine ⟨h.nodup, List.nodup_singleton _, fun i hi j hj => ?_⟩
      obtain ⟨a, ha, rfl⟩ := List.mem_map.mp hi
      obtain rfl : j = f.requests := by simpa using hj
      exact Nat.ne_of_lt (h.lt_requests a ha)
    all_goals rcases List.mem_append.mp ha with ha | ha
    · exact Nat.lt_succ_of_lt (h.lt_requests a ha)
    · obtain rfl := List.mem_singleton.mp ha; exact Nat.lt_succ_self _
    · exact h.accepted a ha
    · obtain rfl := List.mem_singleton.mp ha; exact hc
    · exact h.runs a ha stage command hw
    · obtain rfl := List.mem_singleton.mp ha; simp at hw
  | begun hid => exact h.proceed _ hid (FetchCall.begin_fits c _ _)
  | advanced _ hid => exact h.proceed _ hid (FetchCall.advance_fits c _ _ _ _ _)
  | gaveUp =>
    exact ⟨h.nodup.sublist (List.filter_sublist.map _), fun a ha => h.lt_requests a (List.mem_filter.mp ha).1,
      fun a ha => h.accepted a (List.mem_filter.mp ha).1, fun a ha => h.runs a (List.mem_filter.mp ha).1⟩
  | changed => exact ⟨h.nodup, h.lt_requests, h.accepted, h.runs⟩

theorem Orderly.after {f : Fetcher} (h : f.Orderly c) (events : List FetchEvent) :
    (f.after c events).Orderly c := by
  induction events using List.reverseRecOn with
  | nil => exact h
  | append_singleton events e ih => rw [after_concat]; exact ih.step e

end Fetcher

end RepoOrbit
