import RepoOrbit.Proofs.Control.Runs
import RepoOrbit.Proofs.Gesture.Limited
import RepoOrbit.Proofs.Lists

/-!
# What a run gives back

A run holds an open tracker and the camera. However it ends, the tracker has been closed
once and not while it read, the hands have been forgotten and the camera has been given
back (`GaveBack`), unless the run was given up: cancelled while it was waiting for a read
after something had failed (`run_gives_back`). Then it leaves its tracker open
(`run_not_always_gives_back`).
-/

namespace RepoOrbit

variable {α : Type}

/-- Whether an event cancels a run. -/
def SessionEvent.cancels (i : Nat) : SessionEvent α → Bool
  | .cancel k => k = i
  | _ => false

/-! ## Trackers that read -/

/-- The log of a tracker that has been opened and whose reads have ended. -/
def IsPaired (log : List TrackerMark) : Prop :=
  ∃ reads, log = .opened :: (List.replicate reads [.readBegun, .readEnded]).flatten

theorem isPaired_opened : IsPaired [.opened] := ⟨0, rfl⟩

theorem IsPaired.read {log : List TrackerMark} (h : IsPaired log) : IsPaired (log ++ [.readBegun, .readEnded]) := by
  obtain ⟨reads, rfl⟩ := h
  refine ⟨reads + 1, ?_⟩
  rw [List.replicate_succ', List.flatten_append, List.flatten_singleton, List.cons_append]

theorem IsPaired.closed_not_mem {log : List TrackerMark} (h : IsPaired log) : .closed ∉ log := by
  obtain ⟨reads, rfl⟩ := h
  simp

namespace SessionRun

variable {i : Nat} {r r' : SessionRun} {e : SessionEvent α} {marks log : List TrackerMark} {cancels : Nat}

/-- A run that has not ended: its tracker reads at most once at a time, and if it waits for
a read to end, something has failed or it has been cancelled. -/
structure Underway (r : SessionRun) (log : List TrackerMark) (cancels : Nat) : Prop where
  paired : IsPaired (log ++ r.pending)
  notEnded : ∀ how, r.phase ≠ .ended how
  closing : ∀ how, r.phase = .closing how → 0 < cancels ∨ ∃ m, how = .failed m

/-- A turn after which a run has not ended. -/
theorem Underway.turn (h : r.Underway log cancels) (hturn : r.Turn marks r') (hopen : ∀ how, r'.phase ≠ .ended how) :
    r'.Underway (log ++ marks) cancels := by
  obtain ⟨hpaired, -, hclosing⟩ := h
  cases hturn with
  | keeps hwithin =>
    refine ⟨?_, hopen, fun how hphase => hclosing how (hwithin.phase ▸ hphase)⟩
    rw [List.append_nil, pending, hwithin.isReading]
    exact hpaired
  | reads _ hreading =>
    rw [pending_of_free hreading, List.append_nil] at hpaired
    refine ⟨?_, hopen, hclosing⟩
    rw [pending_of_reading rfl, List.append_assoc]
    exact hpaired.read
  | waits _ hreading hphase hreading' =>
    refine ⟨?_, hopen, fun how hclosing' => ?_⟩
    · rw [List.append_nil, pending_of_reading hreading', ← pending_of_reading hreading]
      exact hpaired
    · rw [hphase] at hclosing'
      exact .inr ⟨_, (RunPhase.closing.inj hclosing').symm⟩
  | closes _ _ hphase => exact absurd hphase (hopen _)

/-- A read ends, and its end is taken. -/
theorem Underway.readEnded (h : r.Underway log cancels) (hreading : r.isReading) :
    ({ r with isReading := false } : SessionRun).Underway (log ++ [.readEnded]) cancels := by
  obtain ⟨hpaired, hopen, hclosing⟩ := h
  refine ⟨?_, hopen, hclosing⟩
  rw [pending_of_free rfl, List.append_nil, ← pending_of_reading hreading]
  exact hpaired

/-- An event after which a run has not ended. -/
theorem Underway.took (h : r.Underway log cancels) (htook : Took i r e marks r')
    (hopen : ∀ how, r'.phase ≠ .ended how) :
    r'.Underway (log ++ marks) (cancels + [e].countP (·.cancels i)) := by
  have hmore : ∀ {r' : SessionRun} {log : List TrackerMark}, r'.Underway log cancels →
      r'.Underway log (cancels + [e].countP (·.cancels i)) := fun h =>
    ⟨h.paired, h.notEnded, fun how hphase => (h.closing how hphase).imp_left fun hlt => by omega⟩
  cases htook with
  | turned hturn => exact hmore (h.turn hturn hopen)
  | read hreading _ hturn =>
    rw [List.append_cons]
    exact hmore ((h.readEnded hreading).turn hturn hopen)
  | cancelledReading hphase hreading hphase' hreading' =>
    refine ⟨?_, hopen, fun _ _ => .inl ?_⟩
    · rw [List.append_nil, pending_of_reading hreading', ← pending_of_reading hreading]
      exact h.paired
    · simp [SessionEvent.cancels]
  | settled | abandoned => exact absurd rfl (hopen _)
  | cancelled _ _ hphase => exact absurd hphase (hopen _)

/-- A turn with which a run ends. -/
theorem Underway.turn_ended (h : r.Underway log cancels) {how : RunEnd} (hturn : r.Turn marks r')
    (hended : r'.phase = .ended how) : marks = [.closed] ∧ IsPaired log := by
  cases hturn with
  | keeps hwithin => exact absurd (hwithin.phase.symm.trans hended) (h.notEnded how)
  | reads => exact absurd hended (h.notEnded how)
  | waits _ _ hphase =>
    rw [hphase] at hended
    cases hended
  | closes _ hreading =>
    have hpaired := h.paired
    rw [pending_of_free hreading, List.append_nil] at hpaired
    exact ⟨rfl, hpaired⟩

/-- An event with which a run ends: its tracker is closed while it does not read, or the
run was cancelled while it waited. -/
theorem Underway.took_ended (h : r.Underway log cancels) {how : RunEnd} (htook : Took i r e marks r')
    (hended : r'.phase = .ended how) :
    (∃ marks', marks = marks' ++ [.closed] ∧ IsPaired (log ++ marks')) ∨
      (e = .cancel i ∧ marks = [] ∧ ∃ how', r.phase = .closing how') := by
  cases htook with
  | turned hturn =>
    obtain ⟨rfl, hpaired⟩ := h.turn_ended hturn hended
    exact .inl ⟨[], rfl, (List.append_nil log).symm ▸ hpaired⟩
  | read hreading _ hturn =>
    obtain ⟨rfl, hpaired⟩ := (h.readEnded hreading).turn_ended hturn hended
    exact .inl ⟨[.readEnded], rfl, hpaired⟩
  | settled hphase hreading hturn =>
    rename_i marks' r' _
    have hopen : ∀ how, r'.phase ≠ .ended how := fun how hended' => by
      cases hturn with
      | keeps hwithin => exact h.notEnded how (hwithin.phase.symm.trans hended')
      | reads => exact h.notEnded how hended'
      | waits hrunning | closes hrunning => cases hphase.symm.trans hrunning
    have hpaired := ((h.readEnded hreading).turn hturn hopen).paired
    refine .inl ⟨.readEnded :: (marks' ++ r'.pending), by simp, ?_⟩
    rw [List.append_cons, ← List.append_assoc]
    exact hpaired
  | cancelledReading _ _ hphase =>
    rw [hphase] at hended
    cases hended
  | cancelled _ hreading =>
    have hpaired := h.paired
    rw [pending_of_free hreading, List.append_nil] at hpaired
    exact .inl ⟨[], rfl, (List.append_nil log).symm ▸ hpaired⟩
  | abandoned hphase => exact .inr ⟨rfl, rfl, _, hphase⟩

end SessionRun

namespace ControlSession

open SessionRun

variable [Scalar α]

/-! ## Runs from start to end -/

section

variable (s : ControlSession α) (opening : TrackerOpening) (now : α) (during : List (SessionEvent α))

/-- All that happens while a session runs once more: no other run is started, and this
one is cancelled at most once. -/
structure RunsOnce : Prop where
  alone : ∀ e ∈ during, e.run? ≠ none
  cancels : during.countP (·.cancels s.runs.length) ≤ 1
  ends : (s.through (.start opening now :: during)).hasEnded s.runs.length
  goesOn : ∀ n < during.length, (s.through (.start opening now :: during.take n)).hasEnded s.runs.length = false

/-- The run is cancelled while it waits for a read after something has failed. -/
def IsGivenUp : Prop :=
  ∃ n m, during[n]? = some (.cancel s.runs.length) ∧
    (s.through (.start opening now :: during.take n)).phase? s.runs.length = some (.closing (.failed m))

end

section

variable (s : ControlSession α) (events : List (SessionEvent α))

/-- All that the next run of a session took has been given back. -/
structure GaveBack : Prop where
  /-- The tracker is closed once, after all reads have ended. -/
  tracker : ∃ log, IsPaired log ∧ s.trackerLog s.runs.length events = log ++ [.closed]
  calls : callsOf (s.actsIn events) = [.orbitControls false false, .orbitControls true true, .flyTo overviewPose]
  hands : (s.through events).hands = .initial
  camera : (s.through events).camera.isControlling = false

/-- The next run of a session took nothing, as its tracker was not to be had. -/
structure TookNothing (log : List TrackerMark) : Prop where
  tracker : s.trackerLog s.runs.length events = log
  calls : callsOf (s.actsIn events) = []
  hands : (s.through events).hands = s.hands
  camera : (s.through events).camera = s.camera

end

variable {s : ControlSession α} {opening : TrackerOpening} {now : α} {during : List (SessionEvent α)}

theorem started_running (s : ControlSession α) (now : α) :
    (s.through [.start .opened now]).runs[s.runs.length]? = some .opened :=
  List.getElem?_concat_length

/-- A run that has opened its tracker is under way until it ends. -/
theorem underway_after (hsound : s.IsSound) (now : α) (during : List (SessionEvent α))
    (hgoes : ∀ n ≤ during.length, (s.through (.start .opened now :: during.take n)).hasEnded s.runs.length = false) :
    ∃ r, (s.through (.start .opened now :: during)).runs[s.runs.length]? = some r ∧
      r.Underway (s.trackerLog s.runs.length (.start .opened now :: during))
        (during.countP (·.cancels s.runs.length)) := by
  induction during using List.reverseRecOn with
  | nil =>
    have hlog : s.trackerLog s.runs.length [.start .opened now] = [.opened] := by
      have hseen : s.trackerLog s.runs.length [.start .opened now] =
          marksOf s.runs.length ([.trackerOpened s.runs.length] ++ (s.camera.activate now).2.map .told) ++ [] := rfl
      rw [hseen, marksOf_append, marksOf_told]
      simp [marksOf, SessionAct.mark?]
    have hrunning : opened.phase = .running := rfl
    refine ⟨.opened, started_running s now, ?_, by simp [hrunning], by simp [hrunning]⟩
    rw [hlog]
    exact isPaired_opened
  | append_singleton during e ih =>
    obtain ⟨r, hr, hunder⟩ := ih (forall_take_of_concat
      (p := fun l => (s.through (.start .opened now :: l)).hasEnded s.runs.length = false)
      fun n hn => hgoes n (Nat.le_of_lt hn))
    obtain ⟨r', hr', htook⟩ := step_took (hsound.through _) hr e
    have hend := hgoes (during ++ [e]).length (Nat.le_refl _)
    rw [List.take_length, ← List.cons_append, through_concat] at hend
    rw [← List.cons_append, through_concat, trackerLog_concat, List.countP_append]
    exact ⟨r', hr', hunder.took htook ((hasEnded_eq_false_iff hr').mp hend)⟩

/-- The camera yields at most once while no run is started. -/
theorem yields_through (hsound : s.IsSound) (halone : ∀ e ∈ during, e.run? ≠ none) :
    s.camera.Yields (s.through during).camera (callsOf (s.actsIn during)) := by
  induction during using List.reverseRecOn with
  | nil => exact .refl
  | append_singleton during e ih =>
    have hbefore := ih fun e he => halone e (List.mem_append_left _ he)
    have hstep := step_yields (hsound.through during) (halone e (by simp))
    rw [through_concat, actsIn_concat, callsOf_append]
    exact hbefore.trans hstep

/-- What the renderer has been told when a run that took the camera leaves it idle. -/
theorem calls_of_idle (hsound : s.IsSound) (hidle : s.camera.isControlling = false)
    (halone : ∀ e ∈ during, e.run? ≠ none)
    (hback : (s.through (.start .opened now :: during)).camera.isControlling = false) :
    callsOf (s.actsIn (.start .opened now :: during)) =
      [.orbitControls false false, .orbitControls true true, .flyTo overviewPose] := by
  have hactivate : s.camera.activate now =
      ({ s.camera with mode := .controlling, lastDetected := some now }, [.orbitControls false false]) := by
    rw [CameraController.activate, hidle, if_neg Bool.false_ne_true]
  have hacts : (s.step (.start .opened now)).2 =
      [.trackerOpened s.runs.length] ++ (s.camera.activate now).2.map .told := rfl
  have hcamera : (s.step (.start .opened now)).1.camera = (s.camera.activate now).1 := rfl
  have hyields := yields_through (hsound.step (.start .opened now)) halone
  rw [actsIn, callsOf_append, hacts, callsOf_append, callsOf_told, hactivate]
  rw [hcamera, hactivate] at hyields
  rw [through_cons] at hback
  generalize callsOf ((s.step (.start .opened now)).1.actsIn during) = calls at hyields
  generalize (((s.step (.start .opened now)).1.through during).camera) = c at hyields hback
  cases hyields with
  | keeps hmode =>
    rw [CameraController.isControlling, hmode] at hback
    cases hback
  | releases => rfl

/-- The event with which a run ends, and the run before and after it. -/
theorem RunsOnce.last (hsound : s.IsSound) (hruns : s.RunsOnce .opened now during) :
    ∃ before e r r' how, during = before ++ [e] ∧
      (s.through (.start .opened now :: before)).runs[s.runs.length]? = some r ∧
      r.Underway (s.trackerLog s.runs.length (.start .opened now :: before))
        (before.countP (·.cancels s.runs.length)) ∧
      Took s.runs.length r e ((s.through (.start .opened now :: before)).seen s.runs.length e) r' ∧
      r'.phase = .ended how := by
  obtain ⟨-, -, hends, hgoes⟩ := hruns
  induction during using List.reverseRecOn with
  | nil =>
    rw [hasEnded_eq (started_running s now)] at hends
    cases hends
  | append_singleton before e =>
    obtain ⟨r, hr, hunder⟩ := underway_after hsound now before (forall_take_of_concat
      (p := fun l => (s.through (.start .opened now :: l)).hasEnded s.runs.length = false) hgoes)
    obtain ⟨r', hr', htook⟩ := step_took (hsound.through _) hr e
    rw [← List.cons_append, through_concat] at hends
    obtain ⟨how, hhow⟩ := (hasEnded_iff hr').mp hends
    exact ⟨before, e, r, r', how, rfl, hr, hunder, htook, hhow⟩

/-- Unless it is given up, a run gives back all that it took. -/
theorem RunsOnce.gaveBack (hsound : s.IsSound) (hidle : s.camera.isControlling = false)
    (hruns : s.RunsOnce .opened now during) (hkept : ¬ s.IsGivenUp .opened now during) :
    s.GaveBack (.start .opened now :: during) := by
  obtain ⟨before, e, r, r', how, rfl, hr, hunder, htook, hhow⟩ := hruns.last hsound
  have hlog := s.trackerLog_concat (.start .opened now :: before) e s.runs.length
  rw [List.cons_append] at hlog
  rcases hunder.took_ended htook hhow with ⟨marks, hmarks, hpaired⟩ | ⟨rfl, -, how', hclosing⟩
  · have hback := step_closed (hsound.through _) (hruns.alone e (by simp)) (i := s.runs.length)
      (by rw [hmarks]; simp)
    rw [← through_concat, List.cons_append] at hback
    refine ⟨⟨_, hpaired, ?_⟩, calls_of_idle hsound hidle hruns.alone hback.2, hback.1, hback.2⟩
    rw [hlog, hmarks, List.append_assoc]
  -- It is not cancelled twice, so that it was a failure after which it waited.
  · rcases hunder.closing how' hclosing with hcancelled | ⟨m, rfl⟩
    · have htwice := hruns.cancels
      rw [List.countP_append] at htwice
      have hlast : [(.cancel s.runs.length : SessionEvent α)].countP (·.cancels s.runs.length) = 1 := by
        simp [SessionEvent.cancels]
      omega
    · refine absurd ⟨before.length, m, by simp, ?_⟩ hkept
      rw [List.take_left]
      exact phase?_eq_some_iff.mpr ⟨r, hr, hclosing⟩

/-- A run that is given up has ended. -/
theorem hasEnded_of_givenUp {t : ControlSession α} {i : Nat} {how : RunEnd}
    (hphase : t.phase? i = some (.closing how)) :
    (t.step (.cancel i)).1.hasEnded i := by
  obtain ⟨r, hr, hclosing⟩ := phase?_eq_some_iff.mp hphase
  have hlt : i < t.runs.length := (List.getElem?_eq_some_iff.mp hr).1
  rw [step_cancel_closing hr hclosing, hasEnded_eq (List.getElem?_set_self hlt)]
  rfl

/-- A run that is given up leaves its tracker open. -/
theorem RunsOnce.closed_not_mem (hsound : s.IsSound) (hruns : s.RunsOnce .opened now during)
    (hgiven : s.IsGivenUp .opened now during) :
    .closed ∉ s.trackerLog s.runs.length (.start .opened now :: during) := by
  obtain ⟨before, e, r, r', how, rfl, hr, hunder, -⟩ := hruns.last hsound
  obtain ⟨n, m, hcancel, hphase⟩ := hgiven
  have hn : n < (before ++ [e]).length := (List.getElem?_eq_some_iff.mp hcancel).1
  have hlength : (before ++ [e]).length = before.length + 1 := List.length_append
  -- It ends when it is given up, so that this is the last event.
  have hlast : n = before.length := by
    by_contra hne
    have hgoes := hruns.goesOn (n + 1) (by omega)
    rw [List.take_add_one, hcancel, Option.toList_some, ← List.cons_append, through_concat,
      hasEnded_of_givenUp hphase] at hgoes
    cases hgoes
  subst hlast
  rw [List.take_left] at hphase
  obtain ⟨r₀, hr₀, hclosing⟩ := phase?_eq_some_iff.mp hphase
  obtain rfl : e = .cancel s.runs.length := by simpa using hcancel
  have hlog := hunder.paired.closed_not_mem
  rw [List.mem_append, not_or] at hlog
  rw [← List.cons_append, trackerLog_concat, seen, step_cancel_closing hr₀ hclosing]
  simpa [endsRead, marksOf] using hlog.1

/-- A run whose tracker is not to be had takes nothing. -/
theorem RunsOnce.tookNothing (hruns : s.RunsOnce opening now during) :
    (∀ message, opening = .unbuilt message → s.TookNothing (.start opening now :: during) []) ∧
      ∀ message, opening = .refused message → s.TookNothing (.start opening now :: during) [.opened, .closed] := by
  have hend : ∀ message, (s.through [.start opening now]).runs = s.runs ++ [.unopened message] → during = [] := by
    intro message hrun
    by_contra hmore
    have hr : (s.through [.start opening now]).runs[s.runs.length]? = some (.unopened message) := by
      rw [hrun, List.getElem?_concat_length]
    have hgoes := hruns.goesOn 0 (List.length_pos_iff.mpr hmore)
    rw [List.take_zero, hasEnded_eq hr] at hgoes
    cases hgoes
  refine ⟨?_, ?_⟩ <;> rintro message rfl
  · obtain rfl := hend message rfl
    exact ⟨rfl, rfl, rfl, rfl⟩
  · obtain rfl := hend message rfl
    refine ⟨?_, rfl, rfl, rfl⟩
    simp [trackerLog, seen, endsRead, step, start, marksOf, SessionAct.mark?]

/-- A run of a session whose camera is idle gives back all that it took, whenever it ends
and however, unless it is given up. -/
theorem run_gives_back (past during : List (SessionEvent α)) (opening : TrackerOpening) (now : α) :
    let s : ControlSession α := initial.through past
    let events := .start opening now :: during
    s.camera.isControlling = false → s.RunsOnce opening now during →
      (∀ message, opening = .unbuilt message → s.TookNothing events []) ∧
      (∀ message, opening = .refused message → s.TookNothing events [.opened, .closed]) ∧
      (opening = .opened → ¬ s.IsGivenUp opening now during → s.GaveBack events) ∧
      (opening = .opened → s.IsGivenUp opening now during → .closed ∉ s.trackerLog s.runs.length events) := by
  intro s events hidle hruns
  have hsound : s.IsSound := isSound_initial.through past
  obtain ⟨hunbuilt, hrefused⟩ := hruns.tookNothing
  refine ⟨hunbuilt, hrefused, ?_, ?_⟩ <;> rintro rfl
  · exact hruns.gaveBack hsound hidle
  · exact hruns.closed_not_mem hsound

/-! ## A run that fails while its tracker reads -/

/-- A hand goes so far away that the camera is to turn by an infinite angle. The next
frame cannot be displayed, and the tracker is reading when it is due. -/
def handOutOfSight : List (SessionEvent Limited) :=
  [.look 0, .frame 0 0.0, .readEnded 0 (.ok (some [Limited.openHand 0.5])) 0.1,
    .readEnded 0 (.ok (some [Limited.openHand 999.0])) 0.2, .frame 0 0.25]

theorem run_gives_back_handOutOfSight :
    let s : ControlSession Limited := initial.through []
    let during := handOutOfSight ++ [.readEnded 0 (.ok (some [Limited.openHand 0.5])) 0.3]
    s.camera.isControlling = false ∧ s.RunsOnce .opened 0.0 during ∧ ¬ s.IsGivenUp .opened 0.0 during ∧
      s.GaveBack (.start .opened 0.0 :: during) := by
  intro s during
  have hidle : s.camera.isControlling = false := by decide
  have hruns : s.RunsOnce .opened 0.0 during :=
    ⟨by decide +kernel, by decide +kernel, by decide +kernel, by decide +kernel⟩
  have hkept : ¬ s.IsGivenUp .opened 0.0 during := by
    rintro ⟨n, m, hcancel, -⟩
    have hnone : ∀ e ∈ during, e.cancels 0 = false := by decide +kernel
    exact Bool.false_ne_true (hnone _ (List.mem_of_getElem? hcancel)).symm
  exact ⟨hidle, hruns, hkept, (run_gives_back [] during .opened 0.0 hidle hruns).2.2.1 rfl hkept⟩

/-- Whether an event is one of a session that goes on as it should: hands are at finite
places, and frames follow each other at a rate. -/
def isRegular : SessionEvent α → Bool
  | .readEnded _ (.ok (some hands)) _ => hands.all fun o =>
    o.landmarks.toList.all fun p => Scalar.isFinite p.x && Scalar.isFinite p.y && Scalar.isFinite p.z
  | .breakDown _ _ => false
  | _ => true

/-- A run that is cancelled while it waits for a read after a failure does not even close
its tracker. -/
theorem run_not_always_gives_back :
    ¬ ∀ (past during : List (SessionEvent Limited)) (now : Limited),
      (initial.through past).camera.isControlling = false → (initial.through past).RunsOnce .opened now during →
      (∀ e ∈ during, isRegular e) → (initial.through past).GaveBack (.start .opened now :: during) := by
  intro hall
  have hruns : (initial.through []).RunsOnce .opened 0.0 (handOutOfSight ++ [.cancel 0]) :=
    ⟨by decide +kernel, by decide +kernel, by decide +kernel, by decide +kernel⟩
  obtain ⟨log, -, hlog⟩ := (hall [] _ 0.0 (by decide) hruns (by decide +kernel)).tracker
  have hopen : .closed ∉ (initial.through []).trackerLog (initial.through [] : ControlSession Limited).runs.length
      (.start .opened 0.0 :: (handOutOfSight ++ [.cancel 0])) := by decide +kernel
  rw [hlog] at hopen
  exact hopen (List.mem_append_right _ List.mem_cons_self)

end ControlSession

end RepoOrbit
