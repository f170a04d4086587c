import Mathlib.Data.List.Induction
import RepoOrbit.Proofs.Scan.Coalescing

/-!
# Giving up does not show

A scan that gives up takes nothing from the others: leave out of a schedule that any scans are
given up, and the same builds are started, fetch and end, the same keys are in flight at any
time, and the other scans get the same outcomes (`giving_up_does_not_show`).

A scan that is not given up is told of the end of its build, which takes an event of its own.
So schedules are compared by the events that matter to the others (`course`): all but those
that give a scan up and those that tell one of these scans. A service is a function of them,
once these scans are taken out of it (`without_run`): an event that does not matter leaves the
rest of the service as it is (`without_step_of_not_matters`), and what one that matters does
depends on the rest only (`without_step`).
-/

namespace RepoOrbit.ScanService

/-! ## A service without some of its scans -/

/-- Whether a step is anything but telling one of the scans `gone`. -/
def concernsOthers (gone : Nat → Bool) : ScanStep → Bool
  | .deliver i => !gone i
  | _ => true

/-- A scan, taken as given up if it is one of the scans `gone`. -/
def maskScan (gone : Nat → Bool) (i : Nat) (w : Scan) : Scan := if gone i then { w with state := .cancelled } else w

/-- The service without the scans `gone`: they are taken as given up, and nobody is about to tell
them anything. -/
def without (s : ScanService) (gone : Nat → Bool) : ScanService :=
  { s with
    scans := s.scans.mapIdx (maskScan gone)
    queue := s.queue.filter (concernsOthers gone) }

/-- Whether an event does anything but give up a scan or tell one of the scans `gone`. -/
def matters (s : ScanService) (gone : Nat → Bool) : ScanEvent → Bool
  | .next => s.queue.head?.any (concernsOthers gone)
  | .cancel _ => false
  | _ => true

section

variable {s t : ScanService} {gone : Nat → Bool}

theorem matters_next {q : ScanStep} {rest : List ScanStep} (h : s.queue = q :: rest) :
    s.matters gone .next = concernsOthers gone q := by
  rw [matters, h]
  rfl

theorem maskScan_of_not {i : Nat} (h : ¬ gone i) (w : Scan) : maskScan gone i w = w := if_neg h

@[simp] theorem maskScan_build (i : Nat) (w : Scan) : (maskScan gone i w).build = w.build := by
  unfold maskScan
  split <;> rfl

theorem maskScan_eq_of_build {i : Nat} (h : gone i) {w w' : Scan} (hbuild : w.build = w'.build) :
    maskScan gone i w = maskScan gone i w' := by
  rw [maskScan, maskScan, if_pos h, if_pos h, hbuild]

@[simp] theorem maskScan_maskScan (i : Nat) (w : Scan) : maskScan gone i (maskScan gone i w) = maskScan gone i w := by
  by_cases h : gone i
  · exact maskScan_eq_of_build h (maskScan_build i w)
  · rw [maskScan_of_not h (maskScan gone i w)]

theorem without_scans (i : Nat) : (s.without gone).scans[i]? = (s.scans[i]?).map (maskScan gone i) :=
  List.getElem?_mapIdx

/-- What services have to agree on to be the same without some scans. -/
theorem without_congr (hbuilds : s.builds = t.builds) (hjobs : s.jobs = t.jobs) (hfetched : s.fetched = t.fetched)
    (hqueue : s.queue.filter (concernsOthers gone) = t.queue.filter (concernsOthers gone))
    (hscans : ∀ i, (s.scans[i]?).map (maskScan gone i) = (t.scans[i]?).map (maskScan gone i)) :
    s.without gone = t.without gone := by
  have hmasked : s.scans.mapIdx (maskScan gone) = t.scans.mapIdx (maskScan gone) :=
    List.ext_getElem? fun i => by rw [List.getElem?_mapIdx, List.getElem?_mapIdx, hscans i]
  simp only [without, hbuilds, hjobs, hfetched, hqueue, hmasked]

theorem map_maskScan_without (i : Nat) :
    ((s.without gone).scans[i]?).map (maskScan gone i) = (s.scans[i]?).map (maskScan gone i) := by
  rw [without_scans, Option.map_map]
  congr 1
  exact funext (maskScan_maskScan i)

theorem filter_queue_without (queue : List ScanStep) :
    (queue.filter (concernsOthers gone)).filter (concernsOthers gone) = queue.filter (concernsOthers gone) := by
  rw [List.filter_filter]
  simp only [Bool.and_self]

/-- Scans that come do so without the others, too. -/
theorem map_maskScan_append (scans : List Scan) (i : Nat) :
    ((s.scans ++ scans)[i]?).map (maskScan gone i) =
      (((s.without gone).scans ++ scans)[i]?).map (maskScan gone i) := by
  have hlength : (s.without gone).scans.length = s.scans.length := List.length_mapIdx
  rcases Nat.lt_or_ge i s.scans.length with hi | hi
  · rw [List.getElem?_append_left hi, List.getElem?_append_left (hlength ▸ hi), map_maskScan_without]
  · rw [List.getElem?_append_right hi, List.getElem?_append_right (hlength ▸ hi), hlength]

theorem map_maskScan_modify {j : Nat} {f : Scan → Scan} (hf : ∀ w, (f w).build = w.build) (i : Nat) :
    ((s.scans.modify j f)[i]?).map (maskScan gone i) =
      (((s.without gone).scans.modify j f)[i]?).map (maskScan gone i) := by
  rw [List.getElem?_modify, List.getElem?_modify, without_scans]
  cases s.scans[i]? with
  | none => rfl
  | some w =>
    simp only [Option.map_some, Option.map_eq_map]
    by_cases hi : gone i
    · refine congrArg some (maskScan_eq_of_build hi ?_)
      split
      · rw [hf, hf, maskScan_build]
      · exact (maskScan_build i w).symm
    · rw [maskScan_of_not hi w]

/-- What a scan hears that is taken as given up does not show. -/
theorem map_maskScan_modify_of_gone {j : Nat} (hj : gone j) {f : Scan → Scan} (hf : ∀ w, (f w).build = w.build)
    (i : Nat) : ((s.scans.modify j f)[i]?).map (maskScan gone i) = (s.scans[i]?).map (maskScan gone i) := by
  rw [List.getElem?_modify]
  cases s.scans[i]? with
  | none => rfl
  | some w =>
    simp only [Option.map_some, Option.map_eq_map]
    split
    · rename_i hij
      subst hij
      exact congrArg some (maskScan_eq_of_build hj (hf w))
    · rfl

theorem build_setState (state : ScanState) (w : Scan) :
    (if w.state = .waiting then { w with state := state } else w).build = w.build := by
  split <;> rfl

/-! ## Events that matter -/

theorem without_request (s : ScanService) (options : BuildOptions) :
    (s.request options).without gone = ((s.without gone).request options).without gone := by
  have hjobs : (s.without gone).jobs.lookup options.jobKey = s.jobs.lookup options.jobKey := rfl
  unfold request
  rw [hjobs]
  cases s.jobs.lookup options.jobKey with
  | some build =>
    exact without_congr rfl rfl rfl (filter_queue_without _).symm (map_maskScan_append _)
  | none =>
    refine without_congr rfl rfl rfl ?_ (map_maskScan_append _)
    simp only [join, List.filter_append, without, filter_queue_without]

theorem without_perform {q : ScanStep} {rest : List ScanStep} (hq : concernsOthers gone q) :
    (perform { s with queue := rest } q).without gone =
      (perform { s.without gone with queue := rest.filter (concernsOthers gone) } q).without gone := by
  cases q with
  | begin build | forget build =>
    exact without_congr rfl rfl rfl (filter_queue_without _).symm fun i => (map_maskScan_without i).symm
  | deliver j =>
    exact without_congr rfl rfl rfl (filter_queue_without _).symm (map_maskScan_modify (build_setState .received))

/-- Of the scans that wait for a build, the others are the same ones. -/
theorem waits_without (s : ScanService) (gone : Nat → Bool) (build i : Nat) :
    (!gone i && (s.scans[i]?).any fun w => w.build == build && w.state == .waiting) =
      (!gone i && ((s.without gone).scans[i]?).any fun w => w.build == build && w.state == .waiting) := by
  by_cases hi : gone i
  · simp only [hi, Bool.not_true, Bool.false_and]
  · have hself : maskScan gone i = id := funext (maskScan_of_not hi)
    rw [without_scans, hself, Option.map_id_fun, id]

theorem without_finish (s : ScanService) (build : Nat) (checkout : Except ScanFailure Checkout) :
    (s.finish build checkout).without gone = ((s.without gone).finish build checkout).without gone := by
  have hbuilds : (s.without gone).builds[build]? = s.builds[build]? := rfl
  have hsame : s.without gone = (s.without gone).without gone :=
    without_congr rfl rfl rfl (filter_queue_without _).symm fun i => (map_maskScan_without i).symm
  have hwaits := funext (s.waits_without gone build)
  unfold finish
  rw [hbuilds]
  split
  · split
    · exact hsame
    · refine without_congr rfl rfl rfl ?_ fun i => (map_maskScan_without i).symm
      have hlength : (s.without gone).scans.length = s.scans.length := List.length_mapIdx
      simp only [List.filter_append, List.filter_cons, concernsOthers, if_true, List.filter_map, List.filter_filter,
        Function.comp_def, hlength, hwaits]
      rw [without, filter_queue_without]
  · exact hsame

/-- What an event that matters does depends only on the other scans. -/
theorem without_step {e : ScanEvent} (h : s.matters gone e) :
    (s.step e).without gone = ((s.without gone).step e).without gone := by
  cases e with
  | request options => exact without_request s options
  | arrived build checkout => exact without_finish s build checkout
  | cancel i => cases h
  | next =>
    cases hq : s.queue with
    | nil => simp [matters, hq] at h
    | cons q rest =>
      have hseen : concernsOthers gone q := matters_next hq ▸ h
      have hq' : (s.without gone).queue = q :: rest.filter (concernsOthers gone) := by
        rw [without, hq, List.filter_cons_of_pos hseen]
      simp only [step, hq, hq']
      exact without_perform hseen

/-- An event that does not matter to the others leaves them as they are. -/
theorem without_step_of_not_matters {e : ScanEvent} (h : ¬ s.matters gone e)
    (hcancel : ∀ i, e = .cancel i → ¬ gone i → s.step e = s) : (s.step e).without gone = s.without gone := by
  cases e with
  | request | arrived => exact absurd rfl h
  | cancel i =>
    by_cases hi : gone i
    · exact without_congr rfl rfl rfl rfl (map_maskScan_modify_of_gone hi (build_setState .cancelled))
    · rw [hcancel i rfl hi]
  | next =>
    cases hq : s.queue with
    | nil => simp only [step, hq]
    | cons q rest =>
      have hunseen : ¬ concernsOthers gone q := matters_next hq ▸ h
      cases q with
      | begin | forget => exact absurd rfl hunseen
      | deliver i =>
        have hi : gone i := by simpa [concernsOthers] using hunseen
        simp only [step, hq]
        refine without_congr rfl rfl rfl ?_ (map_maskScan_modify_of_gone hi (build_setState .received))
        rw [perform, hq, List.filter_cons_of_neg hunseen]

end

/-! ## What others see of a schedule -/

/-- The events that matter, from a service on. -/
def mattering (gone : Nat → Bool) : ScanService → List ScanEvent → List ScanEvent
  | _, [] => []
  | s, e :: rest => (if s.matters gone e then [e] else []) ++ mattering gone (s.step e) rest

/-- What happens in a schedule but that scans give up, and that the scans `gone` are told. -/
def course (gone : Nat → Bool) (events : List ScanEvent) : List ScanEvent := mattering gone empty events

/-- Only the scans `gone` are given up. -/
def GivesUpOnly (gone : Nat → Bool) (events : List ScanEvent) : Prop :=
  ∀ before i, before ++ [.cancel i] <+: events → ¬ gone i → (run before).step (.cancel i) = run before

section

variable {gone : Nat → Bool} {events : List ScanEvent}

theorem mattering_append (s : ScanService) (before later : List ScanEvent) :
    mattering gone s (before ++ later) = mattering gone s before ++ mattering gone (before.foldl step s) later := by
  induction before generalizing s with
  | nil => rfl
  | cons e before ih => rw [List.cons_append, mattering, ih, mattering, List.append_assoc, List.foldl_cons]

theorem course_append (before later : List ScanEvent) :
    course gone (before ++ later) = course gone before ++ mattering gone (run before) later :=
  mattering_append _ _ _

theorem course_concat (gone : Nat → Bool) (events : List ScanEvent) (e : ScanEvent) :
    course gone (events ++ [e]) = course gone events ++ if (run events).matters gone e then [e] else [] := by
  rw [course_append, mattering, mattering, List.append_nil]

theorem GivesUpOnly.before (h : GivesUpOnly gone events) {before : List ScanEvent} (hbefore : before <+: events) :
    GivesUpOnly gone before :=
  fun past i hpast => h past i (hpast.trans hbefore)

/-- Without the scans that are given up, a service depends only on what happens besides. -/
theorem without_run (h : GivesUpOnly gone events) :
    (run events).without gone = (course gone events).foldl (fun s e => (s.step e).without gone) empty := by
  induction events using List.reverseRecOn with
  | nil => rfl
  | append_singleton events e ih =>
    rw [run_concat, course_concat, List.foldl_append, ← ih (h.before (List.prefix_append _ _))]
    by_cases he : (run events).matters gone e
    · rw [if_pos he, without_step he]
      rfl
    · rw [if_neg he]
      refine without_step_of_not_matters he fun i hi hgone => ?_
      subst hi
      exact h events i List.prefix_rfl hgone

/-- A scan that is not given up hears the same if it looks the same. -/
theorem outcome?_eq_of_without {s t : ScanService} (h : s.without gone = t.without gone) {i : Nat} (hi : ¬ gone i) :
    s.outcome? i = t.outcome? i := by
  have hbuilds : s.builds = t.builds := congrArg (·.builds) h
  have hself : maskScan gone i = id := funext (maskScan_of_not hi)
  have hscans : s.scans[i]? = t.scans[i]? := by
    have hmasked := congrArg (fun s : ScanService => s.scans[i]?) h
    simpa only [without_scans, hself, Option.map_id_fun, id] using hmasked
  rw [outcome?, outcome?, hscans, hbuilds]

/-! ## The scans that are given up -/

/-- Whether a scan has been given up. -/
def isGivenUp (s : ScanService) (i : Nat) : Bool := (s.scans[i]?).any fun w => w.state == .cancelled

/-- Nothing happens when a scan is given up that does not wait. -/
theorem step_cancel_of_not_waiting {s : ScanService} {i : Nat} (h : ∀ w, s.scans[i]? = some w → w.state ≠ .waiting) :
    s.step (.cancel i) = s := by
  have hscans : (s.scans.modify i fun w => if w.state = .waiting then { w with state := .cancelled } else w) =
      s.scans := by
    refine List.ext_getElem? fun j => ?_
    rw [List.getElem?_modify]
    cases hw : s.scans[j]? with
    | none => rfl
    | some w =>
      simp only [Option.map_eq_map, Option.map_some]
      split
      · rename_i hij
        subst hij
        rw [if_neg (h w hw)]
      · rfl
  rw [step, hscans]

theorem givesUpOnly_isGivenUp (events : List ScanEvent) : GivesUpOnly (run events).isGivenUp events := by
  rintro before i ⟨later, rfl⟩ hnot
  refine step_cancel_of_not_waiting fun w hw hwaiting => hnot ?_
  have hcancelled : (run (before ++ [.cancel i])).scans[i]? = some { w with state := .cancelled } := by
    rw [run_concat, step, List.getElem?_modify, hw]
    simp [hwaiting]
  obtain ⟨w', hw', -, hstate, -⟩ := scan_run _ later hcancelled
  rw [isGivenUp, hw', Option.any_some, hstate ScanState.noConfusion]
  rfl

/-- A schedule in which no scan is given up. -/
def GivesUpNone (events : List ScanEvent) : Prop :=
  ∀ before i, before ++ [.cancel i] <+: events → (run before).scans.length ≤ i

theorem GivesUpNone.givesUpOnly (h : GivesUpNone events) (gone : Nat → Bool) : GivesUpOnly gone events :=
  fun before i hbefore _ => step_cancel_of_not_waiting fun _ hw =>
    absurd (List.getElem?_eq_some_iff.mp hw).1 (Nat.not_lt.mpr (h before i hbefore))

theorem givesUpNone_of_not_mem (h : ∀ i, .cancel i ∉ events) : GivesUpNone events :=
  fun _ i hbefore => absurd (hbefore.mem (List.mem_append_right _ (List.mem_singleton_self _))) (h i)

/-- The beginnings of a course are the courses of beginnings. -/
theorem exists_before_of_course {beginning : List ScanEvent} (h : beginning <+: course gone events) :
    ∃ before, before <+: events ∧ course gone before = beginning := by
  induction events using List.reverseRecOn with
  | nil => exact ⟨[], List.prefix_rfl, (List.prefix_nil.mp h).symm⟩
  | append_singleton events e ih =>
    have hearlier : beginning <+: course gone events → ∃ before, before <+: events ++ [e] ∧
        course gone before = beginning := fun h => by
      obtain ⟨before, hbefore, hcourse⟩ := ih h
      exact ⟨before, hbefore.trans (List.prefix_append _ _), hcourse⟩
    have hcourse := course_concat gone events e
    split at hcourse
    · rw [hcourse] at h
      rcases List.prefix_concat_iff.mp h with rfl | h
      · exact ⟨events ++ [e], List.prefix_rfl, hcourse⟩
      · exact hearlier h
    · rw [hcourse, List.append_nil] at h
      exact hearlier h

theorem course_before {before : List ScanEvent} (h : before <+: events) : course gone before <+: course gone events := by
  obtain ⟨later, rfl⟩ := h
  rw [course_append]
  exact List.prefix_append _ _

/-- Once those who are given up have been told, it is the turn of the others. -/
theorem exists_nexts {s : ScanService} (h : s.queue.filter (concernsOthers gone) ≠ []) :
    ∃ n, mattering gone s (List.replicate n .next) = [] ∧
      ((List.replicate n .next).foldl step s).matters gone .next := by
  induction hq : s.queue generalizing s with
  | nil => simp [hq] at h
  | cons q rest ih =>
    by_cases hseen : concernsOthers gone q
    · exact ⟨0, rfl, (matters_next hq).trans hseen⟩
    · have hmatters : ¬ s.matters gone .next := by rwa [matters_next hq]
      have hrest : (s.step .next).queue = rest := by
        rw [step, hq]
        cases q <;> rfl
      rw [hq, List.filter_cons_of_neg hseen, ← hrest] at h
      obtain ⟨n, hnone, hnext⟩ := ih h hrest
      refine ⟨n + 1, ?_, hnext⟩
      rw [List.replicate_succ, mattering, if_neg hmatters, hnone]
      rfl

/-- A schedule that is as far as another takes its next turn as well, once those are told who
are given up in the other. -/
theorem exists_same_turn {others : List ScanEvent} (hsame : (run others).without gone = (run events).without gone)
    (h : (run events).matters gone .next) :
    ∃ n, course gone (others ++ List.replicate n .next ++ [.next]) = course gone others ++ [.next] := by
  have hqueue : (run others).queue.filter (concernsOthers gone) = (run events).queue.filter (concernsOthers gone) :=
    congrArg (·.queue) hsame
  have hturn : (run others).queue.filter (concernsOthers gone) ≠ [] := by
    rw [hqueue]
    cases hq : (run events).queue with
    | nil => simp [matters, hq] at h
    | cons q rest =>
      rw [matters_next hq] at h
      rw [List.filter_cons_of_pos h]
      exact List.cons_ne_nil _ _
  obtain ⟨n, hidle, hnext⟩ := exists_nexts hturn
  have hrun : run (others ++ List.replicate n .next) = (List.replicate n .next).foldl step (run others) := by
    rw [run, List.foldl_append]
    rfl
  exact ⟨n, by rw [course_concat, course_append, hidle, List.append_nil, hrun, if_pos hnext]⟩

/-- A schedule goes on without anyone giving up. -/
theorem exists_without_giving_up (h : GivesUpOnly gone events) :
    ∃ others, (∀ i, .cancel i ∉ others) ∧ course gone others = course gone events := by
  induction events using List.reverseRecOn with
  | nil => exact ⟨[], fun i => List.not_mem_nil, rfl⟩
  | append_singleton events e ih =>
    have hearlier := h.before (List.prefix_append events [e])
    obtain ⟨others, hnone, hcourse⟩ := ih hearlier
    by_cases he : (run events).matters gone e
    · rw [course_concat, if_pos he]
      cases e with
      | cancel i => cases he
      | request options =>
        exact ⟨others ++ [.request options], fun i => by simp [hnone i], by rw [course_concat, hcourse]; rfl⟩
      | arrived build checkout =>
        exact ⟨others ++ [.arrived build checkout], fun i => by simp [hnone i], by rw [course_concat, hcourse]; rfl⟩
      | next =>
        have hsame : (run others).without gone = (run events).without gone := by
          rw [without_run hearlier, without_run ((givesUpNone_of_not_mem hnone).givesUpOnly gone), hcourse]
        obtain ⟨n, hn⟩ := exists_same_turn hsame he
        exact ⟨others ++ List.replicate n .next ++ [.next], fun i => by simp [hnone i], by rw [hn, hcourse]⟩
    · exact ⟨others, hnone, by rw [course_concat, if_neg he, List.append_nil, hcourse]⟩

end

/-- Leave out of a schedule that any scans are given up, and otherwise let the same happen: then
the same builds are started, fetch and end at the same times, the same keys are in flight, and
all other scans get the same outcomes. The schedule can be gone through in this way. -/
theorem giving_up_does_not_show (events : List ScanEvent) :
    (∃ others, GivesUpNone others ∧
      course (run events).isGivenUp others = course (run events).isGivenUp events) ∧
    ∀ others, GivesUpNone others → course (run events).isGivenUp others = course (run events).isGivenUp events →
      (∀ before, before <+: events → ∃ before', before' <+: others ∧
        course (run events).isGivenUp before' = course (run events).isGivenUp before) ∧
      (∀ before', before' <+: others → ∃ before, before <+: events ∧
        course (run events).isGivenUp before' = course (run events).isGivenUp before) ∧
      ∀ before before', before <+: events → before' <+: others →
        course (run events).isGivenUp before' = course (run events).isGivenUp before →
        (run before').builds = (run before).builds ∧ (run before').fetched = (run before).fetched ∧
          (run before').inFlight = (run before).inFlight ∧
          ∀ i, ¬ (run events).isGivenUp i → (run before').outcome? i = (run before).outcome? i := by
  have hgone := givesUpOnly_isGivenUp events
  constructor
  · obtain ⟨others, hnone, hcourse⟩ := exists_without_giving_up hgone
    exact ⟨others, givesUpNone_of_not_mem hnone, hcourse⟩
  · intro others hnone hcourse
    refine ⟨fun before hbefore => ?_, fun before' hbefore' => ?_, fun before before' hbefore hbefore' hsame => ?_⟩
    · exact exists_before_of_course (hcourse ▸ course_before hbefore)
    · obtain ⟨before, hbefore, heq⟩ := exists_before_of_course (hcourse ▸ course_before hbefore')
      exact ⟨before, hbefore, heq.symm⟩
    · have hwithout : (run before').without (run events).isGivenUp = (run before).without (run events).isGivenUp := by
        rw [without_run (hgone.before hbefore), without_run ((hnone.givesUpOnly _).before hbefore'), hsame]
      have hjobs : (run before').jobs = (run before).jobs := congrArg (·.jobs) hwithout
      exact ⟨congrArg (·.builds) hwithout, congrArg (·.fetched) hwithout, by rw [inFlight, hjobs, inFlight],
        fun i hi => outcome?_eq_of_without hwithout hi⟩

/-- What three scans of one key want. -/
def oneKey : BuildOptions := ⟨"owner/name", "src", .directory, 3, none⟩

/-- Two scans wait for one build and are given up, also the one that has started it. A third joins
the build after that, and is told of its end. -/
def twoGiveUp : List ScanEvent :=
  [.request oneKey, .next, .request oneKey, .cancel 0, .cancel 1, .request oneKey,
    .arrived 0 (.error (.fetch ⟨.timedOut, "late"⟩)), .next, .next]

/-- The same, but the two are not given up and told before the third. -/
def noneGivesUp : List ScanEvent :=
  [.request oneKey, .next, .request oneKey, .request oneKey,
    .arrived 0 (.error (.fetch ⟨.timedOut, "late"⟩)), .next, .next, .next, .next]

theorem giving_up_does_not_show_twoGiveUp :
    GivesUpNone noneGivesUp ∧
      course (run twoGiveUp).isGivenUp noneGivesUp = course (run twoGiveUp).isGivenUp twoGiveUp ∧
      (run twoGiveUp).isGivenUp 0 ∧ (run twoGiveUp).isGivenUp 1 ∧
      (run noneGivesUp).builds = (run twoGiveUp).builds ∧ (run noneGivesUp).fetched = (run twoGiveUp).fetched ∧
      (run noneGivesUp).inFlight = (run twoGiveUp).inFlight ∧
      (run noneGivesUp).outcome? 2 = (run twoGiveUp).outcome? 2 := by
  have hnone : GivesUpNone noneGivesUp := givesUpNone_of_not_mem fun i => by simp [noneGivesUp]
  have hcourse : course (run twoGiveUp).isGivenUp noneGivesUp = course (run twoGiveUp).isGivenUp twoGiveUp := by
    with_unfolding_all rfl
  obtain ⟨-, -, hsame⟩ := (giving_up_does_not_show twoGiveUp).2 noneGivesUp hnone hcourse
  obtain ⟨hbuilds, hfetched, hkeys, houtcomes⟩ :=
    hsame twoGiveUp noneGivesUp List.prefix_rfl List.prefix_rfl hcourse
  exact ⟨hnone, hcourse, by decide +kernel, by decide +kernel, hbuilds, hfetched, hkeys,
    houtcomes 2 (by decide +kernel)⟩

end RepoOrbit.ScanService
