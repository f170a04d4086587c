import RepoOrbit.Proofs.Fetch.Failure

/-!
# One run of git at a time

Which runs of git are going on is told by what a fetcher has done: a run goes on from
when it was started until it has ended or has been killed (`Fetcher.atWork`). Every run
is for the clone of the call that asked for it (`Fetcher.cloneOf`).

Calls for one clone stand in a queue, and only the first of them has git run for it
(`Serial`, `serial_after`). So no two runs are for one clone (`nodup_cloneOf`), and each is
at work in the clone itself or in the unfinished one beside it (`place_of_atWork`).
-/

namespace RepoOrbit

/-- The place a command works in. -/
def GitCommand.place : GitCommand → Path
  | .clone _ target => target
  | .checkOut _ _ place => place
  | .listDirectories place => place

@[simp] theorem GitCommand.place_clone (address : String) (place : Path) : (clone address place).place = place := rfl

@[simp] theorem GitCommand.place_checkOut (mode : SparseMode) (dir : String) (place : Path) :
    (checkOut mode dir place).place = place := rfl

@[simp] theorem GitCommand.place_listDirectories (place : Path) : (listDirectories place).place = place := rfl

theorem FetchCall.place_of_runs {c : FetchConfig} {call : FetchCall} {command : GitCommand} {stage : FetchStage}
    (h : call.Runs c command stage) : command.place = call.target c ∨ command.place = call.unfinished c := by
  cases stage with
  | cloning => obtain ⟨address, rfl⟩ := h; simp
  | checkingOut => obtain ⟨dir, -, rfl⟩ := h; simp
  | wideningOther | widening => obtain ⟨dir, -, rfl⟩ := h; simp
  | listing => obtain ⟨-, rfl⟩ := h; simp

/-- The run that has come to its end without being killed. -/
def FetchEvent.exited? : FetchEvent → Option Nat
  | .ended _ .timedOut => none
  | .ended id _ => some id
  | _ => none

/-- The runs that go on once something has been done. -/
def FetchAction.record (runs : List (Nat × GitCommand)) : FetchAction → List (Nat × GitCommand)
  | .start id command => runs ++ [(id, command)]
  | .kill id => runs.filter (·.1 != id)
  | .answer _ _ => runs

/-- The others go on when a run is over. -/
theorem filter_ne_of_not_mem {runs : List (Nat × GitCommand)} {id : Nat} (h : id ∉ runs.map (·.1)) :
    runs.filter (·.1 != id) = runs :=
  List.filter_eq_self.mpr fun _ hrun => bne_iff_ne.mpr fun heq => h (heq ▸ List.mem_map_of_mem hrun)

/-- The runs that go on after an event, given what has been done. -/
def FetchEvent.record (e : FetchEvent) (runs : List (Nat × GitCommand)) (actions : List FetchAction) :
    List (Nat × GitCommand) :=
  actions.foldl FetchAction.record (runs.filter fun run => e.exited? != some run.1)

theorem FetchEvent.record_of_not_exited {e : FetchEvent} (h : e.exited? = none) (runs : List (Nat × GitCommand))
    (actions : List FetchAction) : e.record runs actions = actions.foldl FetchAction.record runs := by
  have hall : ∀ run ∈ runs, (e.exited? != some run.1) = true := fun run _ => by
    rw [h]
    exact bne_iff_ne.mpr nofun
  rw [record, List.filter_eq_self.mpr hall]

theorem FetchEvent.record_of_not_end {e : FetchEvent} (h : e.end? = none) (runs : List (Nat × GitCommand))
    (actions : List FetchAction) : e.record runs actions = actions.foldl FetchAction.record runs := by
  cases e with
  | ended | cancel => cases h
  | request | turn | changed => exact record_of_not_exited rfl runs actions

/-- The run that an event ends is over, by itself or killed. -/
theorem FetchEvent.record_of_end {e : FetchEvent} {id : Nat} {ending : GitEnd} (h : e.end? = some (id, ending))
    (runs : List (Nat × GitCommand)) (actions : List FetchAction) :
    e.record runs (e.kills ++ actions) = actions.foldl FetchAction.record (runs.filter (·.1 != id)) := by
  have hkilled : e.exited? = none → e.kills = [.kill id] →
      e.record runs (e.kills ++ actions) = actions.foldl FetchAction.record (runs.filter (·.1 != id)) := by
    intro hexited hkills
    rw [record_of_not_exited hexited, hkills]
    rfl
  have hexited : e.exited? = some id → e.kills = [] →
      e.record runs (e.kills ++ actions) = actions.foldl FetchAction.record (runs.filter (·.1 != id)) := by
    intro hexited hkills
    have hsame : (fun run : Nat × GitCommand => some id != some run.1) = fun run => run.1 != id := by
      funext run
      rw [Bool.eq_iff_iff, bne_iff_ne, bne_iff_ne, ne_comm, Option.some_inj.ne]
    rw [record, hexited, hkills, hsame]
    rfl
  cases e with
  | ended i ending' =>
    obtain ⟨rfl, -⟩ : i = id ∧ ending' = ending := by simpa [end?] using h
    cases ending' with
    | timedOut => exact hkilled rfl rfl
    | exited | notStarted | cancelled => exact hexited rfl rfl
  | cancel i =>
    obtain ⟨rfl, -⟩ : i = id ∧ GitEnd.cancelled = ending := by simpa [end?] using h
    exact hkilled rfl rfl
  | request | turn | changed => cases h

/-- An event about a run that does not go on leaves all that do. -/
theorem FetchEvent.record_of_absent {e : FetchEvent} {runs : List (Nat × GitCommand)} {actions : List FetchAction}
    (h : ∀ id ending, e.end? = some (id, ending) → id ∉ runs.map (·.1))
    (ha : actions = [] ∨ actions = e.kills) : e.record runs actions = runs := by
  cases hend : e.end? with
  | none =>
    rw [record_of_not_end hend]
    have hkills : e.kills = [] := by
      cases e with
      | ended | cancel => cases hend
      | request | turn | changed => rfl
    rw [hkills, or_self] at ha
    rw [ha]
    rfl
  | some run =>
    obtain ⟨id, ending⟩ := run
    have hid := h id ending hend
    rcases ha with rfl | rfl
    · have hkeep : ∀ run ∈ runs, (e.exited? != some run.1) = true := by
        intro run hrun
        refine bne_iff_ne.mpr fun heq => hid ?_
        cases e with
        | ended i ending' =>
          obtain ⟨rfl, rfl⟩ : i = id ∧ ending' = ending := by simpa [end?] using hend
          cases ending' with
          | timedOut => cases heq
          | exited | notStarted | cancelled =>
            obtain rfl : i = run.1 := by simpa [exited?] using heq
            exact List.mem_map_of_mem hrun
        | request | turn | cancel | changed => cases heq
      exact List.filter_eq_self.mpr hkeep
    · have hkilled := record_of_end hend runs []
      rw [List.append_nil] at hkilled
      rw [hkilled]
      exact filter_ne_of_not_mem hid

namespace Fetcher

variable (c : FetchConfig)

/-- A fetcher, and the runs of git that go on, after an event. -/
def stepWithRuns (s : Fetcher × List (Nat × GitCommand)) (e : FetchEvent) : Fetcher × List (Nat × GitCommand) :=
  ((s.1.step c e).1, e.record s.2 (s.1.step c e).2)

/-- The runs of git that go on after some events, each with the number of its call. -/
def atWork (files : FileTree) (events : List FetchEvent) : List (Nat × GitCommand) :=
  (events.foldl (stepWithRuns c) (start files, [])).2

theorem foldl_stepWithRuns (files : FileTree) (events : List FetchEvent) :
    (events.foldl (stepWithRuns c) (start files, [])).1 = (start files).after c events := by
  induction events using List.reverseRecOn with
  | nil => rfl
  | append_singleton events e ih =>
    rw [List.foldl_append, List.foldl_cons, List.foldl_nil, stepWithRuns, ih, after_concat]

theorem atWork_concat (files : FileTree) (events : List FetchEvent) (e : FetchEvent) :
    atWork c files (events ++ [e]) =
      e.record (atWork c files events) (((start files).after c events).step c e).2 := by
  rw [atWork, List.foldl_append, List.foldl_cons, List.foldl_nil, stepWithRuns, foldl_stepWithRuns]
  rfl

/-- All calls that have been asked for, by their numbers. -/
def asked (events : List FetchEvent) : List FetchCall := events.filterMap FetchEvent.request?

theorem asked_concat (events : List FetchEvent) (e : FetchEvent) :
    asked (events ++ [e]) = asked events ++ e.request?.toList := by
  unfold asked
  rw [List.filterMap_append]
  cases e <;> rfl

/-- The clone that a run of git is for. -/
def cloneOf (events : List FetchEvent) (run : Nat × GitCommand) : Option Path :=
  ((asked events)[run.1]?).map (·.target c)

/-! ## Turns -/

variable {c}

/-- A call is in turn if no call for its clone came before it. -/
theorem isInTurn_iff {f : Fetcher} {a : ActiveCall} :
    f.isInTurn c a ↔ ∃ before b after, f.calls = before ++ b :: after ∧ b.id = a.id ∧
      b.call.target c = a.call.target c ∧ ∀ x ∈ before, x.call.target c ≠ a.call.target c := by
  unfold isInTurn
  constructor
  · intro h
    obtain ⟨b, hb, hid⟩ := (Option.any_eq_true _ _).mp h
    obtain ⟨htarget, before, after, hcalls, hbefore⟩ := List.find?_eq_some_iff_append.mp hb
    refine ⟨before, b, after, hcalls, beq_iff_eq.mp hid, beq_iff_eq.mp htarget, fun x hx => ?_⟩
    simpa using hbefore x hx
  · rintro ⟨before, b, after, hcalls, hid, htarget, hbefore⟩
    have hfirst : f.calls.find? (fun b => b.call.target c == a.call.target c) = some b :=
      List.find?_eq_some_iff_append.mpr
        ⟨beq_iff_eq.mpr htarget, before, after, hcalls, fun x hx => by simpa using hbefore x hx⟩
    rw [hfirst]
    exact beq_iff_eq.mpr hid

/-- One call for a clone is in turn. -/
theorem id_eq_of_isInTurn {f : Fetcher} {a b : ActiveCall} (ha : f.isInTurn c a) (hb : f.isInTurn c b)
    (h : a.call.target c = b.call.target c) : a.id = b.id := by
  unfold isInTurn at ha hb
  rw [h] at ha
  obtain ⟨x, hx, hax⟩ := (Option.any_eq_true _ _).mp ha
  obtain ⟨y, hy, hby⟩ := (Option.any_eq_true _ _).mp hb
  obtain rfl := Option.some.inj (hx.symm.trans hy)
  exact (beq_iff_eq.mp hax).symm.trans (beq_iff_eq.mp hby)

/-- A call keeps its turn when a call comes. -/
theorem isInTurn_append {f g : Fetcher} {a : ActiveCall} {new : List ActiveCall} (hg : g.calls = f.calls ++ new)
    (h : f.isInTurn c a) : g.isInTurn c a := by
  obtain ⟨before, b, after, hcalls, hb⟩ := isInTurn_iff.mp h
  exact isInTurn_iff.mpr ⟨before, b, after ++ new, by rw [hg, hcalls]; simp, hb⟩

/-- A call keeps its turn when another one ends. -/
theorem isInTurn_filter {f g : Fetcher} {a : ActiveCall} {id : Nat} (hg : g.calls = f.calls.filter (·.id != id))
    (hne : a.id ≠ id) (h : f.isInTurn c a) : g.isInTurn c a := by
  obtain ⟨before, b, after, hcalls, hid, htarget, hbefore⟩ := isInTurn_iff.mp h
  have hstays : (b.id != id) = true := bne_iff_ne.mpr (hid ▸ hne)
  refine isInTurn_iff.mpr ⟨before.filter (·.id != id), b, after.filter (·.id != id), ?_, hid, htarget,
    fun x hx => hbefore x (List.mem_filter.mp hx).1⟩
  rw [hg, hcalls, List.filter_append, List.filter_cons, if_pos hstays]

/-- A call keeps its turn whatever calls wait for. -/
theorem isInTurn_map {f g : Fetcher} {a : ActiveCall} {u : ActiveCall → ActiveCall} (hg : g.calls = f.calls.map u)
    (hu : ∀ x, (u x).id = x.id ∧ (u x).call = x.call) (h : f.isInTurn c a) : g.isInTurn c a := by
  obtain ⟨before, b, after, hcalls, hid, htarget, hbefore⟩ := isInTurn_iff.mp h
  refine isInTurn_iff.mpr ⟨before.map u, u b, after.map u, ?_, (hu b).1.trans hid, (hu b).2 ▸ htarget,
    fun x hx => ?_⟩
  · rw [hg, hcalls, List.map_append, List.map_cons]
  · obtain ⟨y, hy, rfl⟩ := List.mem_map.mp hx
    rw [(hu y).2]
    exact hbefore y hy

/-- When a call goes on, all that are left keep their turns. -/
theorem isInTurn_proceed {f : Fetcher} {a : ActiveCall} {id : Nat} {next : FetchNext} (t : FileTree)
    (hne : ∀ answer, next = .finish answer → a.id ≠ id) (h : f.isInTurn c a) :
    (proceed { f with files := t } id next).1.isInTurn c a := by
  cases next with
  | run stage command =>
    refine isInTurn_map (u := fun a => if a.id = id then { a with waitsFor := some (stage, command) } else a) rfl
      (fun x => ?_) h
    split <;> exact ⟨rfl, rfl⟩
  | finish answer => exact isInTurn_filter rfl (hne answer rfl) h

/-! ## Calls and their runs -/

variable (c) in
/-- Only calls in turn have git run for them, each has one run, and calls are numbered as
they have been asked for. -/
structure Serial (f : Fetcher) (runs : List (Nat × GitCommand)) (asked : List FetchCall) : Prop where
  inTurn : ∀ a ∈ f.calls, a.waitsFor.isSome → f.isInTurn c a
  runs_iff : ∀ id command, (id, command) ∈ runs ↔
    ∃ a ∈ f.calls, a.id = id ∧ ∃ stage, a.waitsFor = some (stage, command)
  nodup : (runs.map (·.1)).Nodup
  requests : f.requests = asked.length
  call : ∀ a ∈ f.calls, asked[a.id]? = some a.call

theorem serial_start (files : FileTree) : Serial c (start files) [] [] := by
  constructor <;> simp [start]

/-- A call that has had no run, or whose run is over, goes on. -/
theorem Serial.proceed {f : Fetcher} {runs : List (Nat × GitCommand)} {asked : List FetchCall}
    (h : Serial c f runs asked) (horderly : f.Orderly c) (t : FileTree) {id : Nat} {call : FetchCall}
    {w : Option (FetchStage × GitCommand)} (hcall : f.call? id = some ⟨id, call, w⟩)
    (hturn : f.isInTurn c ⟨id, call, w⟩) (next : FetchNext) :
    Serial c (Fetcher.proceed { f with files := t } id next).1
      ((Fetcher.proceed { f with files := t } id next).2.foldl FetchAction.record (runs.filter (·.1 != id))) asked := by
  have hself : ∀ a ∈ f.calls, a.id = id → a = ⟨id, call, w⟩ := fun a ha hid => horderly.eq_of_call? ha hid hcall
  have hothers : ∀ i command, (i, command) ∈ runs.filter (·.1 != id) ↔
      ∃ a ∈ f.calls, a.id ≠ id ∧ a.id = i ∧ ∃ stage, a.waitsFor = some (stage, command) := by
    intro i command
    rw [List.mem_filter, h.runs_iff, bne_iff_ne]
    constructor
    · rintro ⟨⟨a, ha, rfl, hw⟩, hne⟩; exact ⟨a, ha, hne, rfl, hw⟩
    · rintro ⟨a, ha, hne, rfl, hw⟩; exact ⟨⟨a, ha, rfl, hw⟩, hne⟩
  have hnodup : ((runs.filter (·.1 != id)).map (·.1)).Nodup := h.nodup.sublist (List.filter_sublist.map _)
  refine ⟨fun a ha hw => ?_, fun i command => ?_, ?_, ?_, fun a ha => ?_⟩
  · rcases mem_proceed ha with ⟨ha, hne⟩ | ⟨b, hb, hid, stage, command, rfl, rfl⟩
    · exact isInTurn_proceed t (fun _ _ => hne) (h.inTurn a ha hw)
    · obtain rfl := hself b hb hid
      exact isInTurn_proceed t nofun hturn
  · cases next with
    | finish answer =>
      rw [Fetcher.proceed, List.foldl_cons, List.foldl_nil, FetchAction.record, hothers]
      constructor
      · rintro ⟨a, ha, hne, rfl, hw⟩
        exact ⟨a, List.mem_filter.mpr ⟨ha, bne_iff_ne.mpr hne⟩, rfl, hw⟩
      · rintro ⟨a, ha, rfl, hw⟩
        obtain ⟨ha, hne⟩ := List.mem_filter.mp ha
        exact ⟨a, ha, bne_iff_ne.mp hne, rfl, hw⟩
    | run stage command' =>
      have hstarted : (Fetcher.proceed { f with files := t } id (.run stage command')).2.foldl FetchAction.record
          (runs.filter (·.1 != id)) = runs.filter (·.1 != id) ++ [(id, command')] := rfl
      rw [hstarted, List.mem_append, hothers, List.mem_singleton]
      constructor
      · rintro (⟨a, ha, hne, rfl, hw⟩ | heq)
        · exact ⟨a, mem_proceed_of_ne _ ha hne, rfl, hw⟩
        · obtain ⟨rfl, rfl⟩ := Prod.mk.inj heq
          exact ⟨_, mem_proceed_self (f := { f with files := t }) (mem_of_call? hcall), rfl, stage, rfl⟩
      · rintro ⟨a, ha, rfl, stage', hw⟩
        rcases mem_proceed ha with ⟨ha, hne⟩ | ⟨b, hb, hid, stage'', command'', hnext, rfl⟩
        · exact .inl ⟨a, ha, hne, rfl, stage', hw⟩
        · obtain ⟨rfl, rfl⟩ := FetchNext.run.inj hnext
          obtain ⟨-, rfl⟩ := Prod.mk.inj (Option.some.inj hw)
          exact .inr (Prod.ext hid rfl)
  · cases next with
    | finish answer => exact hnodup
    | run stage command =>
      have hstarted : (Fetcher.proceed { f with files := t } id (.run stage command)).2.foldl FetchAction.record
          (runs.filter (·.1 != id)) = runs.filter (·.1 != id) ++ [(id, command)] := rfl
      rw [hstarted, List.map_append, List.nodup_append]
      refine ⟨hnodup, List.nodup_singleton _, fun i hi j hj => ?_⟩
      obtain ⟨run, hrun, rfl⟩ := List.mem_map.mp hi
      obtain rfl : j = id := by simpa using hj
      exact bne_iff_ne.mp (List.mem_filter.mp hrun).2
  · rw [proceed_requests]; exact h.requests
  · rcases mem_proceed ha with ⟨ha, -⟩ | ⟨b, hb, -, _, _, -, rfl⟩
    · exact h.call a ha
    · exact h.call b hb

/-- Calls that have been asked for keep their numbers. -/
theorem getElem?_append_of_eq_some {asked more : List FetchCall} {i : Nat} {call : FetchCall}
    (h : asked[i]? = some call) : (asked ++ more)[i]? = some call := by
  rw [List.getElem?_append_left (List.getElem?_eq_some_iff.mp h).1]
  exact h

/-- A call that is turned down has a number, and nothing else. -/
theorem Serial.refused {f : Fetcher} {runs : List (Nat × GitCommand)} {asked : List FetchCall}
    (h : Serial c f runs asked) (call : FetchCall) :
    Serial c { f with requests := f.requests + 1 } runs (asked ++ [call]) := by
  refine ⟨h.inTurn, h.runs_iff, h.nodup, ?_, fun a ha => getElem?_append_of_eq_some (h.call a ha)⟩
  rw [List.length_append, ← h.requests]
  rfl

/-- A call that comes has no run yet. -/
theorem Serial.accepted {f : Fetcher} {runs : List (Nat × GitCommand)} {asked : List FetchCall}
    (h : Serial c f runs asked) (call : FetchCall) :
    Serial c { f with requests := f.requests + 1, calls := f.calls ++ [⟨f.requests, call, none⟩] } runs
      (asked ++ [call]) := by
  have hearlier : ∀ a ∈ f.calls ++ [⟨f.requests, call, none⟩], a.waitsFor.isSome → a ∈ f.calls := by
    intro a ha hw
    rcases List.mem_append.mp ha with ha | ha
    · exact ha
    · obtain rfl := List.mem_singleton.mp ha
      cases hw
  refine ⟨fun a ha hw => isInTurn_append rfl (h.inTurn a (hearlier a ha hw) hw), fun i command => ?_, h.nodup, ?_,
    fun a ha => ?_⟩
  · refine (h.runs_iff i command).trans ⟨?_, ?_⟩
    · rintro ⟨a, ha, hid, hw⟩
      exact ⟨a, List.mem_append_left _ ha, hid, hw⟩
    · rintro ⟨a, ha, hid, stage, hw⟩
      exact ⟨a, hearlier a ha (by rw [hw]; rfl), hid, stage, hw⟩
  · rw [List.length_append, ← h.requests]
    rfl
  · rcases List.mem_append.mp ha with ha | ha
    · exact getElem?_append_of_eq_some (h.call a ha)
    · obtain rfl := List.mem_singleton.mp ha
      show (asked ++ [call])[f.requests]? = some call
      rw [h.requests, List.getElem?_append_right (Nat.le_refl _), Nat.sub_self]
      rfl

/-- A call that is given up before it has begun has no run to leave behind. -/
theorem Serial.gaveUp {f : Fetcher} {runs : List (Nat × GitCommand)} {asked : List FetchCall}
    (h : Serial c f runs asked) (horderly : f.Orderly c) {id : Nat} {call : FetchCall}
    (hcall : f.call? id = some ⟨id, call, none⟩) :
    Serial c { f with calls := f.calls.filter (·.id != id) } runs asked := by
  have hrunning : ∀ a ∈ f.calls, a.waitsFor.isSome → a.id ≠ id := by
    intro a ha hw hid
    rw [horderly.eq_of_call? ha hid hcall] at hw
    cases hw
  refine ⟨fun a ha hw => ?_, fun i command => ?_, h.nodup, h.requests,
    fun a ha => h.call a (List.mem_filter.mp ha).1⟩
  · have hmem := (List.mem_filter.mp ha).1
    exact isInTurn_filter rfl (hrunning a hmem hw) (h.inTurn a hmem hw)
  · refine (h.runs_iff i command).trans ⟨?_, ?_⟩
    · rintro ⟨a, ha, hid, stage, hw⟩
      exact ⟨a, List.mem_filter.mpr ⟨ha, bne_iff_ne.mpr (hrunning a ha (by rw [hw]; rfl))⟩, hid, stage, hw⟩
    · rintro ⟨a, ha, hid, hw⟩
      exact ⟨a, (List.mem_filter.mp ha).1, hid, hw⟩

/-- A call that does not wait for a run has none at work. -/
theorem Serial.not_mem_runs {f : Fetcher} {runs : List (Nat × GitCommand)} {asked : List FetchCall}
    (h : Serial c f runs asked) (horderly : f.Orderly c) {id : Nat}
    (hnone : ∀ call w, f.call? id ≠ some ⟨id, call, some w⟩) : id ∉ runs.map (·.1) := by
  intro hm
  obtain ⟨⟨i, command⟩, hrun, rfl⟩ := List.mem_map.mp hm
  obtain ⟨⟨i', call, w⟩, ha, hid, stage, hw⟩ := (h.runs_iff i command).mp hrun
  obtain rfl : i' = i := hid
  obtain rfl : w = _ := hw
  exact hnone call _ (horderly.call?_of_mem ha)

theorem Serial.step {f : Fetcher} {runs : List (Nat × GitCommand)} {asked : List FetchCall}
    (h : Serial c f runs asked) (horderly : f.Orderly c) (e : FetchEvent) :
    Serial c (f.step c e).1 (e.record runs (f.step c e).2) (asked ++ e.request?.toList) := by
  have did := step_did c f e
  generalize f.step c e = r at did
  have hnothing : e.request? = none → asked ++ e.request?.toList = asked := fun hrequest => by
    rw [hrequest, Option.toList_none, List.append_nil]
  cases did with
  | @idle _ actions hrequest hnone hactions =>
    have hsame : e.record runs actions = runs := FetchEvent.record_of_absent (fun id ending he =>
      h.not_mem_runs horderly fun call w => hnone id ending call w he) hactions
    rw [hsame, hnothing hrequest]
    exact h
  | refused =>
    rw [FetchEvent.record_of_not_end rfl]
    exact h.refused _
  | accepted =>
    rw [FetchEvent.record_of_not_end rfl]
    exact h.accepted _
  | @begun id call hcall hturn =>
    have hproceeded := h.proceed horderly (call.begin c f.files).1 hcall hturn (call.begin c f.files).2
    rw [filter_ne_of_not_mem (h.not_mem_runs horderly fun call' w hw => ?_)] at hproceeded
    · rw [FetchEvent.record_of_not_end rfl, hnothing rfl]
      exact hproceeded
    · have hboth := hcall.symm.trans hw
      cases hboth
  | @advanced _ id call stage command ending g actions hend hcall hnext =>
    have hturn := h.inTurn _ (mem_of_call? hcall) rfl
    have hproceeded := h.proceed horderly (call.advance c f.files stage command ending).1 hcall hturn
      (call.advance c f.files stage command ending).2
    have hrequest : e.request? = none := by
      cases e with
      | ended | cancel => rfl
      | request | turn | changed => cases hend
    rw [FetchEvent.record_of_end hend, hnothing hrequest]
    rw [hnext] at hproceeded
    exact hproceeded
  | @gaveUp id call hcall =>
    rw [FetchEvent.record_of_not_exited rfl, hnothing rfl]
    exact h.gaveUp horderly hcall
  | changed =>
    rw [FetchEvent.record_of_not_end rfl, hnothing rfl]
    exact ⟨h.inTurn, h.runs_iff, h.nodup, h.requests, h.call⟩

theorem serial_after (c : FetchConfig) (files : FileTree) (events : List FetchEvent) :
    Serial c ((start files).after c events) (atWork c files events) (asked events) := by
  induction events using List.reverseRecOn with
  | nil => exact serial_start files
  | append_singleton events e ih =>
    rw [after_concat, atWork_concat, asked_concat]
    exact ih.step (orderly_after_start c files events) e

/-! ## Runs of git for one clone -/

/-- A run at work is that of a call under way, which is in turn. -/
theorem call_of_atWork {files : FileTree} {events : List FetchEvent} {run : Nat × GitCommand}
    (h : run ∈ atWork c files events) : ∃ a ∈ ((start files).after c events).calls, a.id = run.1 ∧
      (∃ stage, a.waitsFor = some (stage, run.2)) ∧ ((start files).after c events).isInTurn c a ∧
      (asked events)[run.1]? = some a.call := by
  have hserial := serial_after c files events
  obtain ⟨a, ha, hid, stage, hw⟩ := (hserial.runs_iff run.1 run.2).mp h
  exact ⟨a, ha, hid, ⟨stage, hw⟩, hserial.inTurn a ha (by rw [hw]; rfl), hid ▸ hserial.call a ha⟩

/-- No two runs are for one clone. -/
theorem nodup_cloneOf (c : FetchConfig) (files : FileTree) (events : List FetchEvent) :
    ((atWork c files events).map (cloneOf c events)).Nodup := by
  have hids := (serial_after c files events).nodup
  refine hids.of_map.map_on fun run₁ h₁ run₂ h₂ hclone => List.inj_on_of_nodup_map hids h₁ h₂ ?_
  obtain ⟨a, -, ha, -, hturnA, hcallA⟩ := call_of_atWork h₁
  obtain ⟨b, -, hb, -, hturnB, hcallB⟩ := call_of_atWork h₂
  rw [cloneOf, cloneOf, hcallA, hcallB] at hclone
  have htarget : a.call.target c = b.call.target c := Option.some.inj hclone
  rw [← ha, ← hb]
  exact id_eq_of_isInTurn hturnA hturnB htarget

/-- A run works in the clone it is for, or in the unfinished one of its call. -/
theorem place_of_atWork {files : FileTree} {events : List FetchEvent} {run : Nat × GitCommand}
    (h : run ∈ atWork c files events) : ∃ call, (asked events)[run.1]? = some call ∧
      (run.2.place = call.target c ∨ run.2.place = call.unfinished c) := by
  obtain ⟨a, ha, -, ⟨stage, hw⟩, -, hcall⟩ := call_of_atWork h
  exact ⟨a.call, hcall, FetchCall.place_of_runs ((orderly_after_start c files events).runs a ha stage run.2 hw)⟩

end Fetcher

end RepoOrbit
