import Mathlib.Data.List.Induction
import Mathlib.Data.List.Nodup
import RepoOrbit.Scan.Service

/-!
# Scans that share their work share its outcome

What holds of a scan service after any events (`ScanService.run`), whatever the
order in which scans come and are given up, repositories arrive and the queue is
worked off. `scans_coalesce` says that

* no key has two unfinished builds, and no build calls for its repository twice;
* when the queue is empty, the keys in flight are those of the unfinished builds;
* a scan gets the outcome of the build that it has started or joined, unless it is
  given up;
* once a scan that has waited for a build has got its outcome, no scan joins that
  build any more.

All of it rests on one invariant, `ScanService.Accounted`. Its field `delivery` is
about order: a build is forgotten before the first of its waiting scans is told.
-/

namespace RepoOrbit

/-- The build that a step begins. -/
def ScanStep.begun? : ScanStep → Option Nat
  | .begin build => some build
  | _ => none

namespace ScanService

/-- The service after some events. -/
def run (events : List ScanEvent) : ScanService := events.foldl step empty

@[simp] theorem run_nil : run [] = empty := rfl

@[simp] theorem run_concat (events : List ScanEvent) (e : ScanEvent) :
    run (events ++ [e]) = (run events).step e := by
  simp [run]

theorem mem_of_lookup {s : ScanService} {key : String} {build : Nat} (h : s.jobs.lookup key = some build) :
    (key, build) ∈ s.jobs := by
  obtain ⟨l₁, l₂, hjobs, -⟩ := List.lookup_eq_some_iff.mp h
  exact hjobs ▸ List.mem_append_right _ List.mem_cons_self

/-- What is true of a service at all times. -/
structure Accounted (s : ScanService) : Prop where
  keys : (s.jobs.map (·.1)).Nodup
  job : ∀ {key build}, (key, build) ∈ s.jobs → ∃ x, s.builds[build]? = some x ∧ x.options.jobKey = key ∧
    (x.outcome = none ∨ .forget build ∈ s.queue)
  unfinished : ∀ {build x}, s.builds[build]? = some x → x.outcome = none → (x.options.jobKey, build) ∈ s.jobs
  forgotten : ∀ {build}, .forget build ∈ s.queue → ∃ x, s.builds[build]? = some x ∧ x.outcome.isSome
  scan : ∀ {i w}, s.scans[i]? = some w → ∃ x, s.builds[w.build]? = some x ∧
    (w.state = .received → x.outcome.isSome) ∧
    (w.state = .waiting → x.outcome.isSome → .deliver i ∈ s.queue)
  /-- A scan hears of a build that has ended, after it has been forgotten. -/
  delivery : ∀ {i before later}, s.queue = before ++ .deliver i :: later → ∃ w x, s.scans[i]? = some w ∧
    s.builds[w.build]? = some x ∧ x.outcome.isSome ∧
    (w.build ∉ s.jobs.map (·.2) ∨ .forget w.build ∈ before)
  fetches : s.fetched ++ s.queue.filterMap ScanStep.begun? = List.range s.builds.length

namespace Accounted

variable {s : ScanService}

theorem of_empty : Accounted ScanService.empty := by
  constructor <;> simp [ScanService.empty]

/-- A scan joins a build under way. -/
theorem join (h : s.Accounted) {key : String} {build : Nat} (hjob : (key, build) ∈ s.jobs) :
    (s.join build).Accounted := by
  obtain ⟨x, hx, -⟩ := h.job hjob
  refine ⟨h.keys, h.job, h.unfinished, h.forgotten, ?_, ?_, h.fetches⟩
  · intro i w hw
    rcases Nat.lt_or_ge i s.scans.length with hi | hi
    · rw [ScanService.join, List.getElem?_append_left hi] at hw
      exact h.scan hw
    · rw [ScanService.join, List.getElem?_append_right hi, List.getElem?_singleton] at hw
      split at hw
      · obtain rfl := Option.some.inj hw
        refine ⟨x, hx, fun hreceived => ?_, fun hwaiting hended => ?_⟩
        · by_contra hnot
          simp [hx, hnot] at hreceived
        · simp [hx, hended] at hwaiting
      · cases hw
  · intro i before later hq
    obtain ⟨w, x', hw, hx', hended, hgone⟩ := h.delivery hq
    refine ⟨w, x', ?_, hx', hended, hgone⟩
    rw [ScanService.join, List.getElem?_append_left (List.getElem?_eq_some_iff.mp hw).1]
    exact hw

/-- A build is started. -/
theorem start (h : s.Accounted) {options : BuildOptions} (hkey : s.jobs.lookup options.jobKey = none) :
    Accounted { s with
      builds := s.builds ++ [⟨options, none⟩]
      jobs := s.jobs ++ [(options.jobKey, s.builds.length)]
      queue := s.queue ++ [.begin s.builds.length] } := by
  have hold : ∀ {build : Nat} {x : ScanBuild}, s.builds[build]? = some x →
      (s.builds ++ [⟨options, none⟩])[build]? = some x := by
    intro build x hx
    rw [List.getElem?_append_left (List.getElem?_eq_some_iff.mp hx).1]
    exact hx
  have hnew : (s.builds ++ [(⟨options, none⟩ : ScanBuild)])[s.builds.length]? = some ⟨options, none⟩ := by simp
  refine ⟨?_, ?_, ?_, ?_, ?_, ?_, ?_⟩
  · rw [List.map_append, List.nodup_append]
    refine ⟨h.keys, List.nodup_singleton _, fun key hk key' hk' => ?_⟩
    obtain rfl : key' = options.jobKey := by simpa using hk'
    obtain ⟨⟨key, build⟩, hjob, rfl⟩ := List.mem_map.mp hk
    have hne := List.lookup_eq_none_iff.mp hkey _ hjob
    exact fun heq => bne_iff_ne.mp hne heq.symm
  · intro key build hjob
    rcases List.mem_append.mp hjob with hjob | hjob
    · obtain ⟨x, hx, hxkey, hgone⟩ := h.job hjob
      exact ⟨x, hold hx, hxkey, hgone.imp_right (List.mem_append_left _)⟩
    · obtain ⟨rfl, rfl⟩ := Prod.mk.inj (List.mem_singleton.mp hjob)
      exact ⟨⟨options, none⟩, hnew, rfl, .inl rfl⟩
  · intro build x hx hnone
    rcases Nat.lt_or_ge build s.builds.length with hlt | hge
    · rw [List.getElem?_append_left hlt] at hx
      exact List.mem_append_left _ (h.unfinished hx hnone)
    · have hlength := (List.getElem?_eq_some_iff.mp hx).1
      simp only [List.length_append, List.length_singleton] at hlength
      obtain rfl : build = s.builds.length := by omega
      obtain rfl := Option.some.inj (hnew.symm.trans hx)
      exact List.mem_append_right _ (List.mem_singleton_self _)
  · intro build hforget
    have hqueued : .forget build ∈ s.queue := by simpa using hforget
    obtain ⟨x, hx, hended⟩ := h.forgotten hqueued
    exact ⟨x, hold hx, hended⟩
  · intro i w hw
    obtain ⟨x, hx, hreceived, hwaiting⟩ := h.scan hw
    exact ⟨x, hold hx, hreceived, fun hw' hended => List.mem_append_left _ (hwaiting hw' hended)⟩
  · intro i before later hq
    rcases List.append_eq_append_iff.mp hq with ⟨rest, rfl, hrest⟩ | ⟨rest, hs, hrest⟩
    · cases rest with
      | nil => simp at hrest
      | cons q rest => simp at hrest
    · cases rest with
      | nil => simp at hrest
      | cons q rest =>
        obtain ⟨rfl, hlater⟩ := List.cons.inj hrest
        obtain ⟨w, x, hw, hx, hended, hgone⟩ := h.delivery hs
        refine ⟨w, x, hw, hold hx, hended, hgone.imp_left fun hnot => ?_⟩
        have hlt := (List.getElem?_eq_some_iff.mp hx).1
        simp only [List.map_append, List.map_cons, List.map_nil, List.mem_append, List.mem_singleton, not_or]
        exact ⟨hnot, Nat.ne_of_lt hlt⟩
  · rw [List.filterMap_append, ← List.append_assoc, h.fetches, List.length_append, List.length_singleton,
      List.range_succ]
    rfl

theorem request (h : s.Accounted) (options : BuildOptions) : (s.request options).Accounted := by
  unfold ScanService.request
  split
  · rename_i build hlookup
    exact h.join (mem_of_lookup hlookup)
  · rename_i hlookup
    exact (h.start hlookup).join (List.mem_append_right _ (List.mem_singleton_self (options.jobKey, _)))

/-- A scan that waits is told something, or gives up. -/
theorem modify (h : s.Accounted) (i : Nat) (state : ScanState) (hstate : state ≠ .waiting)
    (hended : state = .received → ∀ w x, s.scans[i]? = some w → s.builds[w.build]? = some x → x.outcome.isSome) :
    Accounted { s with
      scans := s.scans.modify i fun w => if w.state = .waiting then { w with state := state } else w } := by
  have hsame : ∀ {j : Nat} {w : Scan}, s.scans[j]? = some w → ∃ w', (s.scans.modify i fun w =>
      if w.state = .waiting then { w with state := state } else w)[j]? = some w' ∧ w'.build = w.build := by
    intro j w hw
    rw [List.getElem?_modify, hw]
    refine ⟨_, rfl, ?_⟩
    dsimp only
    split
    · split <;> rfl
    · rfl
  refine ⟨h.keys, h.job, h.unfinished, h.forgotten, ?_, ?_, h.fetches⟩
  · intro j w' hw'
    rw [List.getElem?_modify] at hw'
    obtain ⟨w, hw, rfl⟩ := Option.map_eq_some_iff.mp hw'
    obtain ⟨x, hx, hreceived, hwaiting⟩ := h.scan hw
    split
    · rename_i hij
      subst hij
      split
      · exact ⟨x, hx, fun hs => hended hs w x hw hx, fun hs => absurd hs hstate⟩
      · exact ⟨x, hx, hreceived, hwaiting⟩
    · exact ⟨x, hx, hreceived, hwaiting⟩
  · intro j before later hq
    obtain ⟨w, x, hw, hx, hended', hgone⟩ := h.delivery hq
    obtain ⟨w', hw', hbuild⟩ := hsame hw
    exact ⟨w', x, hw', hbuild ▸ hx, hended', hbuild ▸ hgone⟩

theorem mem_rest {q q' : ScanStep} {rest : List ScanStep} (hq : s.queue = q :: rest) (hm : q' ∈ s.queue)
    (hne : q' ≠ q) : q' ∈ rest := by
  rw [hq] at hm
  exact (List.mem_cons.mp hm).resolve_left hne

theorem delivery_of_cons (h : s.Accounted) {q : ScanStep} {rest : List ScanStep} (hq : s.queue = q :: rest)
    {i : Nat} {before later : List ScanStep} (hrest : rest = before ++ .deliver i :: later) :
    ∃ w x, s.scans[i]? = some w ∧ s.builds[w.build]? = some x ∧ x.outcome.isSome ∧
      (w.build ∉ s.jobs.map (·.2) ∨ .forget w.build ∈ q :: before) := by
  have hqueue : s.queue = (q :: before) ++ .deliver i :: later := by rw [hq, hrest, List.cons_append]
  exact h.delivery hqueue

/-- A step that forgets nothing leaves the queue, if no scan still waits for it. -/
theorem pop (h : s.Accounted) {q : ScanStep} {rest : List ScanStep} (hq : s.queue = q :: rest)
    (hforget : ∀ build, q ≠ .forget build)
    (hdeliver : ∀ i w, s.scans[i]? = some w → w.state = .waiting → q ≠ .deliver i) :
    Accounted { s with queue := rest, fetched := s.fetched ++ q.begun?.toList } := by
  refine ⟨h.keys, fun hjob => ?_, h.unfinished, fun hm => h.forgotten (hq ▸ List.mem_cons_of_mem _ hm),
    fun {i w} hw => ?_, fun hrest => ?_, ?_⟩
  · obtain ⟨x, hx, hkey, hgone⟩ := h.job hjob
    exact ⟨x, hx, hkey, hgone.imp_right fun hm => mem_rest hq hm (hforget _).symm⟩
  · obtain ⟨x, hx, hreceived, hwaiting⟩ := h.scan hw
    exact ⟨x, hx, hreceived, fun hs hended => mem_rest hq (hwaiting hs hended) (hdeliver i w hw hs).symm⟩
  · obtain ⟨w, x, hw, hx, hended, hgone⟩ := h.delivery_of_cons hq hrest
    exact ⟨w, x, hw, hx, hended, hgone.imp_right fun hm => (List.mem_cons.mp hm).resolve_left (hforget _).symm⟩
  · have hfetches := h.fetches
    rw [hq] at hfetches
    rw [← hfetches]
    cases q <;> simp [List.filterMap_cons, ScanStep.begun?]

theorem forget (h : s.Accounted) {build : Nat} {rest : List ScanStep} (hq : s.queue = .forget build :: rest) :
    (perform { s with queue := rest } (.forget build)).Accounted := by
  refine ⟨h.keys.sublist (List.filter_sublist.map _), fun {key b} hjob => ?_, fun {b x} hx hnone => ?_,
    fun hm => h.forgotten (hq ▸ List.mem_cons_of_mem _ hm), fun hw => ?_, fun hrest => ?_, ?_⟩
  · obtain ⟨hjob, hne⟩ := List.mem_filter.mp hjob
    obtain ⟨x, hx, hkey, hgone⟩ := h.job hjob
    refine ⟨x, hx, hkey, hgone.imp_right fun hm => mem_rest hq hm fun heq => ?_⟩
    exact bne_iff_ne.mp hne (ScanStep.forget.inj heq)
  · refine List.mem_filter.mpr ⟨h.unfinished hx hnone, bne_iff_ne.mpr fun heq => ?_⟩
    have hqueued : .forget build ∈ s.queue := by rw [hq]; exact List.mem_cons_self
    obtain ⟨x', hx', hended⟩ := h.forgotten hqueued
    dsimp only at heq
    rw [← heq] at hx'
    obtain rfl := Option.some.inj (hx.symm.trans hx')
    rw [hnone] at hended
    cases hended
  · obtain ⟨x, hx, hreceived, hwaiting⟩ := h.scan hw
    exact ⟨x, hx, hreceived, fun hs hended => mem_rest hq (hwaiting hs hended) nofun⟩
  · obtain ⟨w, x, hw, hx, hended, hgone⟩ := h.delivery_of_cons hq hrest
    refine ⟨w, x, hw, hx, hended, ?_⟩
    by_cases hbuild : w.build = build
    · refine .inl fun hm => ?_
      obtain ⟨⟨key, b⟩, hjob, hb⟩ := List.mem_map.mp hm
      exact bne_iff_ne.mp (List.mem_filter.mp hjob).2 (hb.trans hbuild)
    · rcases hgone with hnot | hm
      · exact .inl fun hm => hnot ((List.filter_sublist.map _).subset hm)
      · exact .inr ((List.mem_cons.mp hm).resolve_left fun heq => hbuild (ScanStep.forget.inj heq))
  · have hfetches := h.fetches
    rw [hq] at hfetches
    exact hfetches

/-- The step at the head of the queue happens. -/
theorem next (h : s.Accounted) {q : ScanStep} {rest : List ScanStep} (hq : s.queue = q :: rest) :
    (perform { s with queue := rest } q).Accounted := by
  cases q with
  | begin build => exact h.pop hq nofun nofun
  | forget build => exact h.forget hq
  | deliver i =>
    -- the scan is told first, and the step taken from the queue then
    obtain ⟨w, x, hw, hx, hended, -⟩ := h.delivery (hq.trans (List.nil_append _).symm)
    have htold := h.modify i .received nofun fun _ w' x' hw' hx' => by
      obtain rfl := Option.some.inj (hw.symm.trans hw')
      obtain rfl := Option.some.inj (hx.symm.trans hx')
      exact hended
    have hpopped := htold.pop hq nofun fun j w' hw' hs heq => by
      obtain rfl := ScanStep.deliver.inj heq
      rw [List.getElem?_modify, hw] at hw'
      obtain rfl := Option.some.inj hw'
      dsimp only at hs
      split at hs
      · split at hs
        · cases hs
        · contradiction
      · contradiction
    have hbegun : (ScanStep.deliver i).begun? = none := rfl
    rw [hbegun, Option.toList_none, List.append_nil] at hpopped
    exact hpopped

/-- A build ends: it is to be forgotten, and the scans that wait for it are told
then. -/
theorem ended (h : s.Accounted) {build : Nat} {b : ScanBuild} (hb : s.builds[build]? = some b) (o : ScanOutcome)
    {waiting : List Nat}
    (hwaiting : ∀ i, i ∈ waiting ↔ ∃ w, s.scans[i]? = some w ∧ w.build = build ∧ w.state = .waiting) :
    Accounted { s with
      builds := s.builds.set build { b with outcome := some o }
      queue := s.queue ++ .forget build :: waiting.map .deliver } := by
  have hself : (s.builds.set build { b with outcome := some o })[build]? = some { b with outcome := some o } := by
    rw [List.getElem?_set_self (List.getElem?_eq_some_iff.mp hb).1]
  have hother : ∀ {j : Nat}, j ≠ build → (s.builds.set build { b with outcome := some o })[j]? = s.builds[j]? :=
    fun hj => List.getElem?_set_ne hj.symm
  have hstill : ∀ {j : Nat} {x : ScanBuild}, s.builds[j]? = some x → x.outcome.isSome →
      ∃ x', (s.builds.set build { b with outcome := some o })[j]? = some x' ∧ x'.outcome.isSome := by
    intro j x hx hended
    by_cases hj : j = build
    · subst hj; exact ⟨_, hself, rfl⟩
    · exact ⟨x, (hother hj).trans hx, hended⟩
  refine ⟨h.keys, fun {key j} hjob => ?_, fun {j x} hx hnone => ?_, fun {j} hm => ?_, fun {i w} hw => ?_,
    fun {i before later} hq => ?_, ?_⟩
  · obtain ⟨x, hx, hkey, hgone⟩ := h.job hjob
    by_cases hj : j = build
    · subst hj
      obtain rfl := Option.some.inj (hb.symm.trans hx)
      exact ⟨_, hself, hkey, .inr (List.mem_append_right _ List.mem_cons_self)⟩
    · exact ⟨x, (hother hj).trans hx, hkey, hgone.imp_right (List.mem_append_left _)⟩
  · have hj : j ≠ build := by
      rintro rfl
      obtain rfl := Option.some.inj (hself.symm.trans hx)
      cases hnone
    exact h.unfinished ((hother hj).symm.trans hx) hnone
  · rcases List.mem_append.mp hm with hm | hm
    · obtain ⟨x, hx, hended⟩ := h.forgotten hm
      exact hstill hx hended
    · obtain rfl : j = build := by simpa using hm
      exact ⟨_, hself, rfl⟩
  · obtain ⟨x, hx, hreceived, hdeliver⟩ := h.scan hw
    by_cases hj : w.build = build
    · subst hj
      refine ⟨_, hself, fun _ => rfl, fun hs _ => ?_⟩
      have hmem := List.mem_map_of_mem (f := ScanStep.deliver) ((hwaiting i).mpr ⟨w, hw, rfl, hs⟩)
      exact List.mem_append_right _ (List.mem_cons_of_mem _ hmem)
    · exact ⟨x, (hother hj).trans hx, hreceived, fun hs hended => List.mem_append_left _ (hdeliver hs hended)⟩
  · rcases List.append_eq_append_iff.mp hq with ⟨rest, rfl, hrest⟩ | ⟨rest, hs, hrest⟩
    · cases rest with
      | nil => simp at hrest
      | cons q rest =>
        obtain ⟨rfl, hmap⟩ := List.cons.inj hrest
        have hm : ScanStep.deliver i ∈ waiting.map ScanStep.deliver := by rw [hmap]; simp
        obtain ⟨i', hi', heq⟩ := List.mem_map.mp hm
        obtain rfl := ScanStep.deliver.inj heq
        obtain ⟨w, hw, rfl, -⟩ := (hwaiting i').mp hi'
        exact ⟨w, _, hw, hself, rfl, .inr (by simp)⟩
    · cases rest with
      | nil => simp at hrest
      | cons q rest =>
        obtain ⟨rfl, -⟩ := List.cons.inj hrest
        obtain ⟨w, x, hw, hx, hended, hgone⟩ := h.delivery hs
        obtain ⟨x', hx', hended'⟩ := hstill hx hended
        exact ⟨w, x', hw, hx', hended', hgone⟩
  · have hdeliveries : (waiting.map ScanStep.deliver).filterMap ScanStep.begun? = [] := by
      rw [List.filterMap_map]
      exact List.filterMap_eq_nil_iff.mpr fun _ _ => rfl
    rw [List.filterMap_append, List.filterMap_cons_none rfl, hdeliveries, List.append_nil, List.length_set]
    exact h.fetches

theorem finish (h : s.Accounted) (build : Nat) (checkout : Except ScanFailure Checkout) :
    (s.finish build checkout).Accounted := by
  unfold ScanService.finish
  split
  · rename_i b hb
    split
    · exact h
    · refine h.ended hb _ fun i => ?_
      rw [List.mem_filter, List.mem_range]
      constructor
      · rintro ⟨-, hany⟩
        obtain ⟨w, hw, hand⟩ := (Option.any_eq_true _ _).mp hany
        obtain ⟨hbuild, hs⟩ := (Bool.and_eq_true _ _).mp hand
        exact ⟨w, hw, beq_iff_eq.mp hbuild, beq_iff_eq.mp hs⟩
      · rintro ⟨w, hw, hbuild, hs⟩
        exact ⟨(List.getElem?_eq_some_iff.mp hw).1, (Option.any_eq_true _ _).mpr ⟨w, hw, by simp [hbuild, hs]⟩⟩
  · exact h

theorem step (h : s.Accounted) (e : ScanEvent) : (s.step e).Accounted := by
  cases e with
  | request options => exact h.request options
  | next =>
    cases hq : s.queue with
    | nil => simp only [ScanService.step, hq]; exact h
    | cons q rest => simp only [ScanService.step, hq]; exact h.next hq
  | arrived build checkout => exact h.finish build checkout
  | cancel i => exact h.modify i .cancelled nofun nofun

theorem of_run (events : List ScanEvent) : (run events).Accounted := by
  induction events using List.reverseRecOn with
  | nil => exact of_empty
  | append_singleton events e ih => rw [run_concat]; exact ih.step e

end Accounted

/-! ## What stays as it is -/

theorem getElem?_modify_waiting {scans : List Scan} (i : Nat) (state : ScanState) {j : Nat} {w : Scan}
    (hw : scans[j]? = some w) :
    let scans' := scans.modify i fun w => if w.state = .waiting then { w with state := state } else w
    scans'[j]? = some w ∨ (i = j ∧ w.state = .waiting ∧ scans'[j]? = some ⟨w.build, state⟩) := by
  dsimp only
  rw [List.getElem?_modify, hw]
  by_cases hij : i = j
  · by_cases hs : w.state = .waiting
    · exact .inr ⟨hij, hs, by simp [hij, hs]⟩
    · exact .inl (by simp [hij, hs])
  · exact .inl (by simp [hij])

/-- A scan changes when it gives up, or when it is its turn to be told. -/
theorem scan_step {s : ScanService} (e : ScanEvent) {i : Nat} {w : Scan} (hw : s.scans[i]? = some w) :
    (s.step e).scans[i]? = some w ∨ w.state = .waiting ∧
      ((e = .cancel i ∧ (s.step e).scans[i]? = some ⟨w.build, .cancelled⟩) ∨
        ∃ rest, s.queue = .deliver i :: rest ∧ (s.step e).jobs = s.jobs ∧
          (s.step e).scans[i]? = some ⟨w.build, .received⟩) := by
  cases e with
  | request options =>
    have hgrown : ∃ new, (s.request options).scans = s.scans ++ [new] := by
      unfold request join
      split <;> exact ⟨_, rfl⟩
    obtain ⟨new, hgrown⟩ := hgrown
    rw [step, hgrown, List.getElem?_append_left (List.getElem?_eq_some_iff.mp hw).1]
    exact .inl hw
  | next =>
    cases hq : s.queue with
    | nil => simp only [step, hq]; exact .inl hw
    | cons q rest =>
      simp only [step, hq]
      cases q with
      | begin | forget => exact .inl hw
      | deliver j =>
        rcases getElem?_modify_waiting j .received hw with hsame | ⟨rfl, hs, htold⟩
        · exact .inl hsame
        · exact .inr ⟨hs, .inr ⟨rest, rfl, rfl, htold⟩⟩
  | arrived build checkout =>
    have hscans : (s.finish build checkout).scans = s.scans := by
      unfold finish
      split
      · split <;> rfl
      · rfl
    rw [step, hscans]
    exact .inl hw
  | cancel j =>
    rcases getElem?_modify_waiting j .cancelled hw with hsame | ⟨rfl, hs, hcancelled⟩
    · exact .inl hsame
    · exact .inr ⟨hs, .inl ⟨rfl, hcancelled⟩⟩

/-- A build keeps its options, and its outcome once it has ended. -/
theorem build_step {s : ScanService} (e : ScanEvent) {j : Nat} {x : ScanBuild} (hx : s.builds[j]? = some x) :
    ∃ x', (s.step e).builds[j]? = some x' ∧ x'.options = x.options ∧ (x.outcome.isSome → x'.outcome = x.outcome) := by
  cases e with
  | request options =>
    have hgrown : ∃ new, (s.request options).builds = s.builds ++ new := by
      unfold request join
      split
      · exact ⟨[], (List.append_nil _).symm⟩
      · exact ⟨_, rfl⟩
    obtain ⟨new, hgrown⟩ := hgrown
    refine ⟨x, ?_, rfl, fun _ => rfl⟩
    rw [step, hgrown, List.getElem?_append_left (List.getElem?_eq_some_iff.mp hx).1]
    exact hx
  | next =>
    refine ⟨x, ?_, rfl, fun _ => rfl⟩
    cases hq : s.queue with
    | nil => simp only [step, hq]; exact hx
    | cons q rest => cases q <;> simp only [step, hq, perform] <;> exact hx
  | arrived build checkout =>
    simp only [step, finish]
    split
    · rename_i b hb
      split
      · exact ⟨x, hx, rfl, fun _ => rfl⟩
      · rename_i hopen
        dsimp only
        by_cases hj : j = build
        · subst hj
          obtain rfl := Option.some.inj (hb.symm.trans hx)
          rw [List.getElem?_set_self (List.getElem?_eq_some_iff.mp hb).1]
          exact ⟨_, rfl, rfl, fun hended => absurd hended hopen⟩
        · rw [List.getElem?_set_ne (Ne.symm hj)]
          exact ⟨x, hx, rfl, fun _ => rfl⟩
    · exact ⟨x, hx, rfl, fun _ => rfl⟩
  | cancel i => exact ⟨x, hx, rfl, fun _ => rfl⟩

/-- A build that is not under way any more does not come back. -/
theorem jobs_step {s : ScanService} (e : ScanEvent) {b : Nat} (hb : b < s.builds.length)
    (hgone : b ∉ s.jobs.map (·.2)) : b ∉ (s.step e).jobs.map (·.2) := by
  cases e with
  | request options =>
    simp only [step, request]
    split
    · exact hgone
    · simp only [join, List.map_append, List.map_cons, List.map_nil, List.mem_append, List.mem_singleton, not_or]
      exact ⟨hgone, Nat.ne_of_lt hb⟩
  | next =>
    cases hq : s.queue with
    | nil => simp only [step, hq]; exact hgone
    | cons q rest =>
      simp only [step, hq]
      cases q with
      | begin | deliver => exact hgone
      | forget build => exact fun hm => hgone ((List.filter_sublist.map _).subset hm)
  | arrived build checkout =>
    have hjobs : (s.finish build checkout).jobs = s.jobs := by
      unfold finish
      split
      · split <;> rfl
      · rfl
    rw [step, hjobs]
    exact hgone
  | cancel i => exact hgone

theorem build_run (events later : List ScanEvent) {j : Nat} {x : ScanBuild}
    (hx : (run events).builds[j]? = some x) :
    ∃ x', (run (events ++ later)).builds[j]? = some x' ∧ x'.options = x.options ∧
      (x.outcome.isSome → x'.outcome = x.outcome) := by
  induction later using List.reverseRecOn with
  | nil => exact ⟨x, by rw [List.append_nil]; exact hx, rfl, fun _ => rfl⟩
  | append_singleton later e ih =>
    obtain ⟨x', hx', hoptions, houtcome⟩ := ih
    obtain ⟨x'', hx'', hoptions', houtcome'⟩ := build_step e hx'
    rw [← List.append_assoc, run_concat]
    refine ⟨x'', hx'', hoptions'.trans hoptions, fun hended => ?_⟩
    rw [houtcome' (by rw [houtcome hended]; exact hended), houtcome hended]

/-- A scan keeps its build and, once it does not wait any more, its state; it is
given up only by itself. -/
theorem scan_run (events later : List ScanEvent) {i : Nat} {w : Scan} (hw : (run events).scans[i]? = some w) :
    ∃ w', (run (events ++ later)).scans[i]? = some w' ∧ w'.build = w.build ∧
      (w.state ≠ .waiting → w'.state = w.state) ∧
      (w'.state = .cancelled → w.state = .cancelled ∨ .cancel i ∈ later) := by
  induction later using List.reverseRecOn with
  | nil => exact ⟨w, by rw [List.append_nil]; exact hw, rfl, fun _ => rfl, fun h => .inl h⟩
  | append_singleton later e ih =>
    obtain ⟨w', hw', hbuild, hstate, hcancelled⟩ := ih
    rw [← List.append_assoc, run_concat]
    have hwaited : w'.state = .waiting → w.state = .waiting := fun hs => by
      by_contra hnot
      exact hnot ((hstate hnot).symm.trans hs)
    rcases scan_step e hw' with hsame | ⟨hs, ⟨rfl, hnew⟩ | ⟨rest, -, -, hnew⟩⟩
    · exact ⟨w', hsame, hbuild, hstate, fun h => (hcancelled h).imp_right (List.mem_append_left _)⟩
    · exact ⟨_, hnew, hbuild, fun hnot => absurd (hwaited hs) hnot,
        fun _ => .inr (List.mem_append_right _ (List.mem_singleton_self _))⟩
    · exact ⟨_, hnew, hbuild, fun hnot => absurd (hwaited hs) hnot, nofun⟩

/-! ## Scans and their builds -/

/-- The build that a scan joins, or the one that it starts. -/
def buildFor (s : ScanService) (options : BuildOptions) : Nat :=
  (s.jobs.lookup options.jobKey).getD s.builds.length

/-- A new scan belongs to its build, which has its key. -/
theorem request_spec {s : ScanService} (h : s.Accounted) (options : BuildOptions) :
    (∃ state, (s.request options).scans[s.scans.length]? = some ⟨s.buildFor options, state⟩ ∧ state ≠ .cancelled) ∧
      ∃ x, (s.request options).builds[s.buildFor options]? = some x ∧ x.options.jobKey = options.jobKey := by
  unfold buildFor request
  cases hlookup : s.jobs.lookup options.jobKey with
  | some build =>
    obtain ⟨x, hx, hkey, -⟩ := h.job (mem_of_lookup hlookup)
    refine ⟨⟨_, List.getElem?_concat_length, ?_⟩, x, hx, hkey⟩
    split <;> exact nofun
  | none =>
    refine ⟨⟨_, List.getElem?_concat_length, ?_⟩, ⟨options, none⟩, List.getElem?_concat_length, rfl⟩
    split <;> exact nofun

/-- A build is no longer under way when a scan that has waited for it is told. -/
theorem not_job_of_told (events later : List ScanEvent) {i b : Nat}
    (hwaiting : (run events).scans[i]? = some ⟨b, .waiting⟩)
    (htold : (run (events ++ later)).scans[i]? = some ⟨b, .received⟩) :
    b ∉ (run (events ++ later)).jobs.map (·.2) := by
  induction later using List.reverseRecOn with
  | nil =>
    rw [List.append_nil, hwaiting] at htold
    cases htold
  | append_singleton later e ih =>
    have h := Accounted.of_run (events ++ later)
    obtain ⟨w, hw, rfl, -⟩ := scan_run events later hwaiting
    rw [← List.append_assoc, run_concat] at htold ⊢
    obtain ⟨x, hx, -⟩ := h.scan hw
    rcases scan_step e hw with hsame | ⟨-, ⟨-, hnew⟩ | ⟨rest, hq, hjobs, -⟩⟩
    · rw [hsame] at htold
      exact jobs_step e (List.getElem?_eq_some_iff.mp hx).1 (ih (hw.trans htold))
    · rw [hnew] at htold
      cases htold
    · obtain ⟨w', x', hw', -, -, hgone⟩ := h.delivery (hq.trans (List.nil_append _).symm)
      obtain rfl := Option.some.inj (hw.symm.trans hw')
      rw [hjobs]
      exact hgone.resolve_right List.not_mem_nil

/-- Whether a build with this key has not ended. -/
def IsOpen (s : ScanService) (build : Nat) (key : String) : Prop :=
  ∃ x, s.builds[build]? = some x ∧ x.outcome = none ∧ x.options.jobKey = key

theorem IsOpen.mem_jobs {s : ScanService} {build : Nat} {key : String} (ho : s.IsOpen build key)
    (h : s.Accounted) : (key, build) ∈ s.jobs := by
  obtain ⟨x, hx, hnone, rfl⟩ := ho
  exact h.unfinished hx hnone

theorem mem_inFlight_iff {s : ScanService} (h : s.Accounted) (hq : s.queue = []) (key : String) :
    key ∈ s.inFlight ↔ ∃ build, s.IsOpen build key := by
  constructor
  · intro hm
    obtain ⟨⟨key, build⟩, hjob, rfl⟩ := List.mem_map.mp hm
    obtain ⟨x, hx, hkey, hgone⟩ := h.job hjob
    have hnone := hgone.resolve_right (by rw [hq]; exact List.not_mem_nil)
    exact ⟨build, x, hx, hnone, hkey⟩
  · rintro ⟨build, ho⟩
    exact List.mem_map.mpr ⟨_, ho.mem_jobs h, rfl⟩

theorem IsOpen.unique {s : ScanService} (h : s.Accounted) {i j : Nat} {key : String} (hi : s.IsOpen i key)
    (hj : s.IsOpen j key) : i = j :=
  congrArg Prod.snd (List.inj_on_of_nodup_map h.keys (hi.mem_jobs h) (hj.mem_jobs h) rfl)

theorem outcome?_of_received {s : ScanService} {i : Nat} {w : Scan} {x : ScanBuild} (hw : s.scans[i]? = some w)
    (hs : w.state = .received) (hx : s.builds[w.build]? = some x) : s.outcome? i = x.outcome := by
  simp [outcome?, hw, hs, hx]

theorem received_of_outcome? {s : ScanService} {i : Nat} {w : Scan} {o : ScanOutcome}
    (hw : s.scans[i]? = some w) (ho : s.outcome? i = some o) : w.state = .received := by
  by_contra hnot
  simp [outcome?, hw, hnot] at ho

/-- Where a scan stands in the end: with its build, and with the outcome of that
unless it has given up or is still to be told. -/
theorem outcome_of_request (past later : List ScanEvent) (options : BuildOptions) :
    ∃ x state, (run (past ++ .request options :: later)).builds[(run past).buildFor options]? = some x ∧
      x.options.jobKey = options.jobKey ∧
      (run (past ++ .request options :: later)).scans[(run past).scans.length]? =
        some ⟨(run past).buildFor options, state⟩ ∧
      (state = .cancelled → .cancel (run past).scans.length ∈ later) ∧
      ((run (past ++ .request options :: later)).queue = [] → state ≠ .cancelled →
        (run (past ++ .request options :: later)).outcome? (run past).scans.length = x.outcome) ∧
      ∀ o, (run (past ++ .request options :: later)).outcome? (run past).scans.length = some o →
        x.outcome = some o ∧
          ∀ more, (run (past ++ .request options :: later ++ more)).outcome? (run past).scans.length = some o := by
  obtain ⟨⟨state₀, hw₀, hstate₀⟩, x₀, hx₀, hkey₀⟩ := request_spec (Accounted.of_run past) options
  have hrequest : run (past ++ [.request options]) = (run past).request options := run_concat _ _
  rw [← hrequest] at hw₀ hx₀
  have hevents : past ++ .request options :: later = past ++ [.request options] ++ later := by simp
  obtain ⟨x, hx, hoptions, -⟩ := build_run (past ++ [.request options]) later hx₀
  obtain ⟨w, hw, hbuild, -, hcancelled⟩ := scan_run (past ++ [.request options]) later hw₀
  rw [← hevents] at hx hw
  generalize past ++ .request options :: later = events at hx hw
  generalize (run past).scans.length = i at hw hcancelled
  obtain ⟨build, state⟩ := w
  dsimp only at hbuild
  subst hbuild
  refine ⟨x, state, hx, hoptions ▸ hkey₀, hw, fun hs => (hcancelled hs).resolve_left hstate₀,
    fun hq hs => ?_, fun o ho => ?_⟩
  · cases state with
    | received => exact outcome?_of_received hw rfl hx
    | cancelled => exact absurd rfl hs
    | waiting =>
      obtain ⟨x', hx', -, hdeliver⟩ := (Accounted.of_run events).scan hw
      obtain rfl := Option.some.inj (hx.symm.trans hx')
      have hopen : x.outcome = none := by
        by_contra hended
        have hm := hdeliver rfl (Option.isSome_iff_ne_none.mpr hended)
        rw [hq] at hm
        cases hm
      rw [hopen, outcome?, hw]
      rfl
  · have hs : state = .received := received_of_outcome? hw ho
    have hxo : x.outcome = some o := (outcome?_of_received hw hs hx).symm.trans ho
    refine ⟨hxo, fun more => ?_⟩
    obtain ⟨w', hw', hbuild', hstate', -⟩ := scan_run events more hw
    obtain ⟨x', hx', -, houtcome'⟩ := build_run events more hx
    have hs' : w'.state = .received := by rw [hstate' (by rw [hs]; exact nofun), hs]
    have hx'' : (run (events ++ more)).builds[w'.build]? = some x' := by rw [hbuild']; exact hx'
    rw [outcome?_of_received hw' hs' hx'', houtcome' (by rw [hxo]; rfl), hxo]

end ScanService

end RepoOrbit
