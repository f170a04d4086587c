import RepoOrbit.Proofs.Camera.Answers

/-!
# When hands lose the camera

Hands that have the camera have had it since it was given to them
(`CameraController.ControlledSince`). Each input that comes of a hand is a sighting, and
so is the beginning (`sightings`).

* `lastDetected_of_controlledSince`: a camera knows the last sighting.
* `release_iff`: hands lose the camera by a wish, or by an input that looks at the clock
  when they have not been seen for long enough.
* `calls_eq`: the renderer is told of one time with hands after the other.

`camera_released_when_overdue` puts these together for a run in which time does not go
back, where the last sighting is the latest.
-/

namespace RepoOrbit

open Scalar

variable {α : Type}

namespace CameraInput

/-- The time of an input, if it has one. -/
def time? : CameraInput α → Option α
  | .activate now | .checkTimeout now | .recenter now | .handle _ now | .frame now => some now
  | .deactivate => none

/-- The time at which a hand is seen. -/
def handTime? : CameraInput α → Option α
  | .handle (.gesture _) now | .handle .handsJoined now => some now
  | _ => none

/-- The time at which it is looked whether hands have been away for too long. -/
def checkTime? : CameraInput α → Option α
  | .handle .noHands now | .checkTimeout now | .frame now => some now
  | _ => none

theorem time?_of_handTime? {i : CameraInput α} {now : α} (h : i.handTime? = some now) : i.time? = some now := by
  cases i with
  | handle event => cases event <;> first | exact h | cases h
  | activate | deactivate | checkTimeout | recenter | frame => cases h

end CameraInput

/-- A look at the clock sees no hand. -/
theorem CameraInput.handTime?_of_checkTime? {i : CameraInput α} {now : α} (h : i.checkTime? = some now) :
    i.handTime? = none := by
  cases i with
  | handle event => cases event <;> first | rfl | cases h
  | activate | deactivate | checkTimeout | recenter | frame => rfl

/-- The times of some inputs. -/
def times (inputs : List (CameraInput α)) : List α := inputs.filterMap CameraInput.time?

/-- The times at which hands are seen that have had the camera from a time on. -/
def sightings (t : α) (inputs : List (CameraInput α)) : List α := t :: inputs.filterMap CameraInput.handTime?

theorem sightings_ne_nil (t : α) (inputs : List (CameraInput α)) : sightings t inputs ≠ [] := List.cons_ne_nil _ _

theorem sightings_concat (t : α) (inputs : List (CameraInput α)) (i : CameraInput α) :
    sightings t (inputs ++ [i]) = sightings t inputs ++ i.handTime?.toList := by
  rw [sightings, List.filterMap_append, List.filterMap_cons]
  cases i.handTime? <;> simp [sightings]

theorem sightings_sublist (t : α) (inputs : List (CameraInput α)) :
    (sightings t inputs).Sublist (times (.activate t :: inputs)) := by
  have hrest : (inputs.filterMap CameraInput.handTime?).Sublist (times inputs) := by
    induction inputs with
    | nil => exact .slnil
    | cons i inputs ih =>
      rw [times, List.filterMap_cons, List.filterMap_cons]
      cases hhand : i.handTime? with
      | none =>
        refine ih.trans ?_
        cases i.time? with
        | none => exact .refl _
        | some => exact List.sublist_cons_self _ _
      | some now =>
        rw [CameraInput.time?_of_handTime? hhand]
        exact ih.cons_cons now
  exact hrest.cons_cons t

variable [Scalar α]

/-- The latest of some times: the last, and none before it is later. -/
def IsLatest (ts : List α) (latest : α) : Prop :=
  ∃ before, ts = before ++ [latest] ∧ ∀ t ∈ before, atMost t latest

theorem isLatest_getLast {ts : List α} (hne : ts ≠ []) (h : ts.Pairwise fun t t' => atMost t t') :
    IsLatest ts (ts.getLast hne) := by
  have hcut := List.dropLast_append_getLast hne
  rw [← hcut, List.pairwise_append] at h
  exact ⟨ts.dropLast, hcut.symm, fun t ht => h.2.2 t ht _ (List.mem_singleton_self _)⟩

namespace CameraController

variable {c : CameraController α} {i : CameraInput α}

/-! ## Inputs to a camera that hands have -/

theorem takeGesture_lastDetected (c : CameraController α) (g : HandGesture α) (now : α) :
    (c.takeGesture g now).lastDetected = some now := by
  rw [takeGesture, enterPass_eq]
  unfold applyGesture
  cases g.role <;> cases g.isPinching <;> rfl

/-- A look at the clock takes the camera from hands that have been away for too long. -/
theorem step_of_checkTime (hcontrol : c.isControlling) {now : α} (hlooks : i.checkTime? = some now) :
    if c.isOverdue now then c.step i = initial
    else (c.step i).isControlling ∧ (c.step i).lastDetected = c.lastDetected := by
  have hstep : ∃ c', c.step i = (if c.isOverdue now then initial else c') ∧ c'.isControlling ∧
      c'.lastDetected = c.lastDetected := by
    cases i with
    | checkTimeout =>
      cases hlooks
      exact ⟨c, by rw [step_checkTimeout, hcontrol, Bool.true_and], hcontrol, rfl⟩
    | frame =>
      cases hlooks
      exact ⟨_, step_frame hcontrol now, hcontrol, rfl⟩
    | handle event =>
      cases event with
      | noHands =>
        cases hlooks
        exact ⟨c.clearDrags, step_noHands hcontrol now, hcontrol, rfl⟩
      | handsJoined | gesture => cases hlooks
    | activate | deactivate | recenter => cases hlooks
  obtain ⟨c', hstep, hkept⟩ := hstep
  rw [hstep]
  cases c.isOverdue now with
  | true => rfl
  | false => exact hkept

/-- What looks at no clock and is no wish to end leaves the camera to the hands. -/
theorem step_of_no_checkTime (hcontrol : c.isControlling) (hlooks : i.checkTime? = none) (hi : i ≠ .deactivate) :
    (c.step i).isControlling ∧ (c.step i).lastDetected = i.handTime?.or c.lastDetected := by
  cases i with
  | activate now => rw [step_activate, if_pos hcontrol]; exact ⟨hcontrol, rfl⟩
  | deactivate => exact absurd rfl hi
  | recenter now => rw [step_recenter]; split <;> exact ⟨hcontrol, rfl⟩
  | handle event now =>
    cases event with
    | noHands => cases hlooks
    | handsJoined => rw [step_handsJoined hcontrol]; split <;> exact ⟨hcontrol, rfl⟩
    | gesture g =>
      rw [step_gesture hcontrol]
      exact ⟨(takeGesture_isControlling c g now).trans hcontrol, takeGesture_lastDetected c g now⟩
  | checkTimeout | frame => cases hlooks

/-- Hands lose the camera when someone wishes it, or when they have been away for too long
and the clock is looked at. -/
theorem release_iff (hcontrol : c.isControlling) :
    (c.step i).isControlling = false ↔ i = .deactivate ∨ ∃ now, i.checkTime? = some now ∧ c.isOverdue now := by
  by_cases hi : i = .deactivate
  · subst hi
    rw [step_deactivate, if_pos hcontrol]
    simp [not_isControlling_initial]
  · cases hlooks : i.checkTime? with
    | none => simp [hi, (step_of_no_checkTime hcontrol hlooks hi).1]
    | some now =>
      have hstep := step_of_checkTime hcontrol hlooks
      cases hdue : c.isOverdue now with
      | true =>
        rw [hdue, if_pos rfl] at hstep
        simp [hstep, hdue, not_isControlling_initial]
      | false =>
        rw [hdue, if_neg Bool.false_ne_true] at hstep
        simp [hstep.1, hi, hdue]

/-- As long as hands have the camera, it knows when one was seen last. -/
theorem step_lastDetected (hcontrol : c.isControlling) (hstays : (c.step i).isControlling) :
    (c.step i).lastDetected = i.handTime?.or c.lastDetected := by
  cases hlooks : i.checkTime? with
  | none =>
    refine (step_of_no_checkTime hcontrol hlooks ?_).2
    rintro rfl
    have hidle := (release_iff hcontrol).mpr (.inl rfl)
    exact absurd (hidle.symm.trans hstays) Bool.false_ne_true
  | some now =>
    have hstep := step_of_checkTime hcontrol hlooks
    split at hstep
    · rw [hstep] at hstays
      exact absurd hstays not_isControlling_initial
    · rw [hstep.2, CameraInput.handTime?_of_checkTime? hlooks, Option.none_or]

/-! ## Since the camera was given to the hands -/

/-- Hands have the camera since it was given to them at a time, after some inputs, when
nobody had it. -/
structure ControlledSince (inputs past : List (CameraInput α)) (t : α) (rest : List (CameraInput α)) : Prop where
  cut : inputs = past ++ .activate t :: rest
  idle : (run past).isControlling = false
  controlled : ∀ part, part <+: rest → (run (past ++ .activate t :: part)).isControlling

variable {inputs past rest : List (CameraInput α)} {t : α}

theorem ControlledSince.isControlling (h : ControlledSince inputs past t rest) : (run inputs).isControlling := by
  rw [h.cut]
  exact h.controlled rest List.prefix_rfl

theorem ControlledSince.of_concat (h : ControlledSince (inputs ++ [i]) past t (rest ++ [i])) :
    ControlledSince inputs past t rest := by
  obtain ⟨hcut, hidle, hcontrolled⟩ := h
  refine ⟨?_, hidle, fun part hpart => hcontrolled part (hpart.trans (List.prefix_append _ _))⟩
  rw [← List.cons_append, ← List.append_assoc] at hcut
  exact List.append_cancel_right hcut

theorem ControlledSince.concat (h : ControlledSince inputs past t rest) (hstays : ((run inputs).step i).isControlling) :
    ControlledSince (inputs ++ [i]) past t (rest ++ [i]) := by
  obtain ⟨rfl, hidle, hcontrolled⟩ := h
  refine ⟨by simp, hidle, fun part hpart => ?_⟩
  rcases List.prefix_concat_iff.mp hpart with rfl | hpart
  · rwa [← List.cons_append, ← List.append_assoc, run_concat]
  · exact hcontrolled part hpart

/-- The time at which a hand was seen last is the last sighting. -/
theorem lastDetected_of_controlledSince (h : ControlledSince inputs past t rest) :
    (run inputs).lastDetected = some ((sightings t rest).getLast (sightings_ne_nil t rest)) := by
  induction rest using List.reverseRecOn generalizing inputs with
  | nil =>
    rw [h.cut, run_concat, step_activate, h.idle, if_neg Bool.false_ne_true]
    rfl
  | append_singleton rest i ih =>
    obtain rfl : inputs = past ++ .activate t :: rest ++ [i] := by rw [h.cut]; simp
    have hbefore := h.of_concat
    have hlast := ih hbefore
    have hstays := h.isControlling
    rw [run_concat] at hstays ⊢
    rw [step_lastDetected hbefore.isControlling hstays, hlast]
    cases hhand : i.handTime? <;> simp [sightings_concat, hhand]

/-- Hands that have the camera have had it since it was given to them. -/
theorem exists_controlledSince (hcontrol : (run inputs).isControlling) :
    ∃ past t rest, ControlledSince inputs past t rest := by
  induction inputs using List.reverseRecOn with
  | nil => exact absurd hcontrol not_isControlling_initial
  | append_singleton inputs i ih =>
    cases hmode : (run inputs).isControlling with
    | true =>
      obtain ⟨past, t, rest, hsince⟩ := ih hmode
      rw [run_concat] at hcontrol
      exact ⟨past, t, rest ++ [i], hsince.concat hcontrol⟩
    | false =>
      have hgiven : ∃ now, i = .activate now := by
        by_contra hno
        rw [run_concat] at hcontrol
        have hyields := (run inputs).answer_yields (not_exists.mp hno)
        generalize ((run inputs).answer i).calls = told at hyields
        cases hyields with
        | keeps hkept =>
          rw [isControlling_eq_of_mode hkept, hmode] at hcontrol
          cases hcontrol
        | releases hheld => exact absurd (hmode.symm.trans hheld) Bool.false_ne_true
      obtain ⟨now, rfl⟩ := hgiven
      refine ⟨inputs, now, [], rfl, hmode, fun part hpart => ?_⟩
      rw [List.prefix_nil.mp hpart]
      exact hcontrol

/-! ## What the renderer is told over a run -/

/-- What the renderer is told in a run. -/
def calls (inputs : List (CameraInput α)) : List (CameraCall α) :=
  (initial.answers inputs).flatMap CameraAnswer.calls

theorem calls_concat (inputs : List (CameraInput α)) (i : CameraInput α) :
    calls (inputs ++ [i]) = calls inputs ++ ((run inputs).answer i).calls := by
  rw [calls, answers_append, List.flatMap_append, ← calls, ← run]
  simp [answers]

/-- What the renderer is told of one time in which hands have the camera. -/
def sessionCalls : List (CameraCall α) :=
  [.orbitControls false false, .orbitControls true true, .flyTo overviewPose]

/-- Each time in which hands have the camera is told of once, the last one to its beginning
if it has not ended. -/
theorem calls_eq (inputs : List (CameraInput α)) :
    ∃ n, calls inputs = (List.replicate n sessionCalls).flatten ++
      if (run inputs).isControlling then [.orbitControls false false] else [] := by
  induction inputs using List.reverseRecOn with
  | nil => exact ⟨0, rfl⟩
  | append_singleton inputs i ih =>
    obtain ⟨n, hcalls⟩ := ih
    rw [calls_concat, hcalls, run_concat]
    generalize run inputs = c
    by_cases hgiven : ∃ now, i = .activate now
    · obtain ⟨now, rfl⟩ := hgiven
      refine ⟨n, ?_⟩
      rw [answer_activate, step_activate]
      cases hmode : c.isControlling with
      | true => simp [hmode]
      | false => simp [isControlling]
    · have hyields := c.answer_yields (not_exists.mp hgiven)
      generalize (c.answer i).calls = told, c.step i = c' at hyields
      cases hyields with
      | keeps hkept => exact ⟨n, by rw [isControlling_eq_of_mode hkept, List.append_nil]⟩
      | releases hheld hidle =>
        refine ⟨n + 1, ?_⟩
        rw [hheld, hidle, if_pos rfl, if_neg Bool.false_ne_true, List.append_nil, List.replicate_succ',
          List.flatten_append, List.flatten_singleton, List.append_assoc]
        rfl

/-! ## Runs in which time does not go back -/

/-- Hands that have the camera lose it by an input if that is a wish, or if it looks at the
clock and the latest sighting of a hand since they were given the camera is long enough
ago, and by no other input. Over a whole run the renderer is told of one time with hands
after the other: that its own controls rest, that they are free again, and where to fly. -/
theorem camera_released_when_overdue {inputs : List (CameraInput α)}
    (hordered : (times inputs).Pairwise fun t t' => atMost t t') :
    (∀ before i, before ++ [i] <+: inputs → (run before).isControlling →
      ∃ past t rest latest, ControlledSince before past t rest ∧ IsLatest (sightings t rest) latest ∧
        ((run (before ++ [i])).isControlling = false ↔
          i = .deactivate ∨ ∃ now, i.checkTime? = some now ∧ atMost idleTimeout (now - latest))) ∧
      ∃ n, calls inputs = (List.replicate n sessionCalls).flatten ++
        if (run inputs).isControlling then [.orbitControls false false] else [] := by
  refine ⟨fun before i hpart hcontrol => ?_, calls_eq inputs⟩
  obtain ⟨past, t, rest, hsince⟩ := exists_controlledSince hcontrol
  have hseen : (sightings t rest).Sublist (times inputs) := by
    obtain ⟨later, rfl⟩ := hpart
    rw [hsince.cut]
    refine (sightings_sublist t rest).trans (List.Sublist.filterMap _ ?_)
    rw [List.append_assoc, List.append_assoc]
    exact (List.sublist_append_left _ _).trans (List.sublist_append_right _ _)
  refine ⟨past, t, rest, _, hsince, isLatest_getLast (sightings_ne_nil t rest) (hordered.sublist hseen), ?_⟩
  rw [run_concat, release_iff hcontrol]
  unfold isOverdue
  rw [lastDetected_of_controlledSince hsince]

/-- Hands are given the camera, join, and are not seen any more. -/
def joinedAndGone : List (CameraInput Limited) :=
  [.recenter 0.0, .activate 0.5, .handle (.gesture ⟨0.2, 0.1, false, 0.0, 0.2, .left⟩) 1.0, .frame 1.5,
    .handle .handsJoined 2.0, .activate 3.0, .handle .noHands 4.5]

theorem camera_released_when_overdue_joinedAndGone :
    (times (joinedAndGone ++ [.frame 5.0])).Pairwise (fun t t' => atMost t t') ∧ (run joinedAndGone).isControlling ∧
      (run (joinedAndGone ++ [.frame 5.0])).isControlling = false ∧
      (∃ past t rest latest, ControlledSince joinedAndGone past t rest ∧ IsLatest (sightings t rest) latest ∧
        ((run (joinedAndGone ++ [.frame 5.0])).isControlling = false ↔ CameraInput.frame (5.0 : Limited) = .deactivate ∨
          ∃ now, (CameraInput.frame (5.0 : Limited)).checkTime? = some now ∧ atMost idleTimeout (now - latest))) ∧
      ∃ n, calls (joinedAndGone ++ [.frame 5.0]) = (List.replicate n sessionCalls).flatten ++
        if (run (joinedAndGone ++ [.frame 5.0])).isControlling then [.orbitControls false false] else [] := by
  have hordered : (times (joinedAndGone ++ [.frame 5.0])).Pairwise fun t t' => atMost t t' := by decide +kernel
  have hcontrol : (run joinedAndGone).isControlling := by decide +kernel
  obtain ⟨hreleased, hcalls⟩ := camera_released_when_overdue hordered
  exact ⟨hordered, hcontrol, by decide +kernel, hreleased _ _ List.prefix_rfl hcontrol, hcalls⟩

end CameraController

end RepoOrbit
