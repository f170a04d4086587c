import RepoOrbit.Proofs.Camera.Drags
import RepoOrbit.Proofs.Gesture.Events
import RepoOrbit.Proofs.Gesture.Upright
import RepoOrbit.Control.Session

/-!
# Hands that come back

A session takes pictures one after the other (`ControlSession.watch`). Its camera learns
of a picture only by the events, so that what it knows of the hands is told by the latest
picture that had any (`Knows`, `knows_watch`). A hand that made no gesture then moves
nothing with its first gesture in the next picture (`returning_hand_keeps_aim`).

A picture may show hands and have no events, when none of them is followed: then a hand
that was away in it may make the camera jump (`hand_absent_from_silent_picture_jumps`).
-/

namespace RepoOrbit

open Scalar CameraController

/-- The hands in a picture, and its time. -/
structure HandPicture (α : Type) where
  hands : List (Observation α)
  time : α

/-- What is done to a camera by the events of a picture. -/
def handled {α : Type} (events : List (GestureEvent α)) (time : α) : List (CameraInput α) :=
  events.map (.handle · time)

theorem handled_concat {α : Type} (events : List (GestureEvent α)) (e : GestureEvent α) (time : α) :
    handled (events ++ [e]) time = handled events time ++ [CameraInput.handle e time] :=
  List.map_append

section

variable {α : Type} [Scalar α]

namespace Interpreter

/-- What is known of the hands after some pictures. -/
def watch (i : Interpreter α) (pictures : List (HandPicture α)) : Interpreter α :=
  pictures.foldl (fun i p => (i.process p.hands).1) i

/-- The events of some pictures, one list for each. -/
def events (i : Interpreter α) : List (HandPicture α) → List (List (GestureEvent α))
  | [] => []
  | p :: rest => (i.process p.hands).2 :: events (i.process p.hands).1 rest

/-- The events of the latest picture that had any. -/
def latestEvents (i : Interpreter α) (pictures : List (HandPicture α)) : List (GestureEvent α) :=
  ((i.events pictures).filter (!·.isEmpty)).getLast?.getD []

theorem events_concat (i : Interpreter α) (pictures : List (HandPicture α)) (p : HandPicture α) :
    i.events (pictures ++ [p]) = i.events pictures ++ [((i.watch pictures).process p.hands).2] := by
  induction pictures generalizing i with
  | nil => rfl
  | cons q pictures ih => rw [List.cons_append, events, ih, events]; rfl

theorem watch_concat (i : Interpreter α) (pictures : List (HandPicture α)) (p : HandPicture α) :
    i.watch (pictures ++ [p]) = ((i.watch pictures).process p.hands).1 := by
  simp [watch]

theorem latestEvents_concat (i : Interpreter α) (pictures : List (HandPicture α)) (p : HandPicture α) :
    i.latestEvents (pictures ++ [p]) =
      if ((i.watch pictures).process p.hands).2 = [] then i.latestEvents pictures
      else ((i.watch pictures).process p.hands).2 := by
  rw [latestEvents, events_concat, List.filter_append]
  split
  · rename_i hnone
    rw [hnone]
    simp [latestEvents]
  · rename_i hsome
    have hkept : [((i.watch pictures).process p.hands).2].filter (!·.isEmpty) =
        [((i.watch pictures).process p.hands).2] := by simpa using hsome
    rw [hkept]
    simp

end Interpreter

namespace ControlSession

/-- A session that has taken some pictures, one after the other. -/
def watch (s : ControlSession α) (pictures : List (HandPicture α)) : ControlSession α :=
  pictures.foldl (fun s p => (s.see p.hands p.time).1) s

theorem watch_concat (s : ControlSession α) (pictures : List (HandPicture α)) (p : HandPicture α) :
    s.watch (pictures ++ [p]) = ((s.watch pictures).see p.hands p.time).1 := by
  simp [watch]

theorem handle_foldl (events : List (GestureEvent α)) (now : α) (a : Acting α) :
    (events.foldl (fun a e => handle a e now) a).1 = { a.1 with camera := a.1.camera.after (handled events now) } := by
  induction events generalizing a with
  | nil => rfl
  | cons e events ih =>
    rw [List.foldl_cons, ih]
    rfl

/-- A picture leaves a session with what is known of its hands, and has its events
handled at its time. -/
theorem see_eq (s : ControlSession α) (hands : List (Observation α)) (now : α) :
    (s.see hands now).1 = { s with
      hands := (s.hands.process hands).1
      camera := s.camera.after (handled (s.hands.process hands).2 now) } := by
  unfold see
  exact handle_foldl _ _ _

theorem watch_hands (s : ControlSession α) (pictures : List (HandPicture α)) :
    (s.watch pictures).hands = s.hands.watch pictures := by
  induction pictures using List.reverseRecOn with
  | nil => rfl
  | append_singleton pictures p ih => rw [watch_concat, see_eq, Interpreter.watch_concat, ih]

/-- A session that has just been started. -/
def begun (t₀ : α) : ControlSession α := (initial.start .opened t₀).1

/-- A session that has taken two pictures. -/
theorem watch_pair (t₀ : α) {p q : HandPicture α} {i j : Interpreter α} {events events' : List (GestureEvent α)}
    (hp : Interpreter.initial.process p.hands = (i, events)) (hq : i.process q.hands = (j, events')) :
    (begun t₀).watch [p, q] = { begun t₀ with
      hands := j
      camera := ((begun t₀).camera.after (handled events p.time)).after (handled events' q.time) } := by
  have hfirst : ((begun t₀).see p.hands p.time).1 =
      { begun t₀ with hands := i, camera := (begun t₀).camera.after (handled events p.time) } := by
    rw [see_eq]
    have hfresh : (begun t₀).hands.process p.hands = (i, events) := hp
    rw [hfresh]
  have hboth : (begun t₀).watch [p, q] = (((begun t₀).see p.hands p.time).1.see q.hands q.time).1 := rfl
  rw [hboth, hfirst, see_eq]
  dsimp only
  rw [hq]

theorem watch_camera (t₀ : α) (pictures : List (HandPicture α)) :
    ∃ inputs, ((begun t₀).watch pictures).camera = run inputs := by
  induction pictures using List.reverseRecOn with
  | nil => exact ⟨[.activate t₀], rfl⟩
  | append_singleton pictures p ih =>
    obtain ⟨inputs, h⟩ := ih
    refine ⟨inputs ++ handled ((((begun t₀).watch pictures).hands).process p.hands).2 p.time, ?_⟩
    rw [watch_concat, see_eq, run_append, ← h]

end ControlSession

end

open ControlSession

/-! ## The gestures of one picture -/

theorem startsPass_eq_false_iff {c : CameraController ℝ} {now : ℝ} :
    c.startsPass now = false ↔ c.passTime = some now := by
  unfold startsPass
  cases c.passTime with
  | none => simp
  | some t =>
    rw [Bool.not_eq_false', same_iff, Option.some_inj, eq_comm]

theorem isControlling_gestures {c : CameraController ℝ} (h : c.isControlling) (gs : List (HandGesture ℝ)) (now : ℝ) :
    (c.after (handled (gs.map .gesture) now)).isControlling := by
  induction gs generalizing c with
  | nil => exact h
  | cons g gs ih =>
    rw [List.map_cons, handled, List.map_cons, after_cons, step_gesture h]
    exact ih (by rwa [takeGesture_isControlling])

/-- What the gestures of a new picture leave of a hand that makes none of them. -/
theorem after_gestures {c : CameraController ℝ} {now : ℝ} {gs : List (HandGesture ℝ)} (hcontrol : c.isControlling)
    (hnew : c.startsPass now) (hgs : gs ≠ []) :
    (c.after (handled (gs.map .gesture) now)).passTime = some now ∧
      ∀ r, (∀ g ∈ gs, g.role ≠ r) →
        (c.after (handled (gs.map .gesture) now)).drags.get r = (c.drags.get r).nextPass := by
  induction gs using List.reverseRecOn with
  | nil => exact absurd rfl hgs
  | append_singleton gs g ih =>
    rw [List.map_append, List.map_singleton, handled_concat, after_concat,
      step_gesture (isControlling_gestures hcontrol gs now)]
    rcases eq_or_ne gs [] with rfl | hsome
    · rw [show c.after (handled (List.map GestureEvent.gesture []) now) = c from rfl]
      refine ⟨by rw [takeGesture_passTime, if_pos hnew], fun r hr => ?_⟩
      rw [takeGesture_drag_of_ne c g now (hr g (by simp)).symm, atTime, if_pos hnew]
    · obtain ⟨htime, hdrags⟩ := ih hsome
      generalize c.after (handled (gs.map .gesture) now) = c' at htime hdrags ⊢
      have hold : c'.startsPass now = false := startsPass_eq_false_iff.mpr htime
      refine ⟨by rw [takeGesture_passTime, hold, htime]; rfl, fun r hr => ?_⟩
      rw [takeGesture_drag_of_ne c' g now (hr g (by simp)).symm, atTime, hold, if_neg Bool.false_ne_true]
      exact hdrags r fun x hx => hr x (List.mem_append_left _ hx)

/-! ## Picture by picture -/

/-- What a camera knows of the pictures taken so far: the time of one of them, and of
which hands there was a gesture in the latest that had events. -/
structure Knows (c : CameraController ℝ) (times : List ℝ) (latest : List (GestureEvent ℝ)) : Prop where
  passTime : ∀ t, c.passTime = some t → t ∈ times
  isSeen : ∀ r, (c.drags.get r).isSeen → ∃ g, .gesture g ∈ latest ∧ g.role = r

theorem knows_of_forgotten {c : CameraController ℝ} {times : List ℝ} {latest : List (GestureEvent ℝ)}
    (hdrags : c.drags = ⟨.none, .none⟩) (htime : c.passTime = none) : Knows c times latest := by
  refine ⟨fun t ht => ?_, fun r hr => ?_⟩
  · rw [htime] at ht
    cases ht
  · rw [hdrags] at hr
    cases r <;> cases hr

theorem Knows.startsPass {c : CameraController ℝ} {times : List ℝ} {latest : List (GestureEvent ℝ)}
    (h : Knows c times latest) {now : ℝ} (hlater : ∀ t ∈ times, t < now) : c.startsPass now := by
  by_contra hold
  have htime := startsPass_eq_false_iff.mp (Bool.eq_false_iff.mpr hold)
  exact lt_irrefl now (hlater now (h.passTime now htime))

theorem after_handled_of_idle {c : CameraController ℝ} (h : c.isControlling = false) (events : List (GestureEvent ℝ))
    (now : ℝ) : c.after (handled events now) = c := by
  induction events with
  | nil => rfl
  | cons e events ih =>
    rw [handled, List.map_cons, after_cons, step_handle_idle h]
    exact ih

/-- Joined hands change nothing in what is known of the pictures. -/
theorem Knows.joined {c : CameraController ℝ} {times : List ℝ} {latest : List (GestureEvent ℝ)}
    (h : Knows c times latest) (hcontrol : c.isControlling) (now : ℝ) :
    Knows (c.step (.handle .handsJoined now)) times latest := by
  rw [step_handsJoined hcontrol]
  split
  · exact ⟨h.passTime, h.isSeen⟩
  · refine ⟨h.passTime, fun r hr => h.isSeen r ?_⟩
    rwa [centred, PerRole.get_map] at hr

theorem Knows.see {c : CameraController ℝ} {times : List ℝ} {latest : List (GestureEvent ℝ)}
    (h : Knows c times latest) {i : Interpreter ℝ} {p : HandPicture ℝ} (hlater : ∀ t ∈ times, t < p.time)
    (hidle : c.isControlling = false → c.drags = ⟨.none, .none⟩ ∧ c.passTime = none) :
    Knows (c.after (handled (i.process p.hands).2 p.time)) (times ++ [p.time])
      (if (i.process p.hands).2 = [] then latest else (i.process p.hands).2) := by
  cases hmode : c.isControlling with
  | false =>
    obtain ⟨hdrags, htime⟩ := hidle hmode
    rw [after_handled_of_idle hmode]
    exact knows_of_forgotten hdrags htime
  | true =>
    rcases i.process_cases p.hands with hnone | ⟨gs, tail, hevents, htail⟩
    · rw [hnone, handled, List.map_singleton, after_cons, after_nil, step_noHands hmode]
      split <;> exact knows_of_forgotten rfl rfl
    · rcases eq_or_ne gs [] with rfl | hgs
      -- None of the hands is followed: nothing is handled, and nothing new is known.
      · obtain rfl : tail = [] := htail.resolve_right fun hjoined => hjoined.2 rfl
        rw [List.map_nil, List.append_nil] at hevents
        rw [hevents, if_pos rfl]
        exact ⟨fun t ht => List.mem_append_left _ (h.passTime t ht), h.isSeen⟩
      · have hcontrol := isControlling_gestures hmode gs p.time
        obtain ⟨htime, hdrags⟩ := after_gestures hmode (h.startsPass hlater) hgs
        have hknows : Knows (c.after (handled (gs.map .gesture) p.time)) (times ++ [p.time])
            (gs.map .gesture ++ tail) := by
          refine ⟨fun t ht => ?_, fun r hr => ?_⟩
          · rw [htime] at ht
            cases ht
            simp
          · by_contra habsent
            have hunseen := hdrags r fun g hg hgr => habsent ⟨g, by simp [hg], hgr⟩
            rw [hunseen] at hr
            cases hr
        have hnonempty : gs.map GestureEvent.gesture ++ tail ≠ [] := by simp [hgs]
        rw [hevents, if_neg hnonempty, handled, List.map_append, after_append]
        rcases htail with rfl | ⟨rfl, -⟩
        · exact hknows
        · exact hknows.joined hcontrol p.time

theorem knows_watch {t₀ : ℝ} {pictures : List (HandPicture ℝ)}
    (htimes : (pictures.map HandPicture.time).Pairwise (· < ·)) :
    Knows ((begun t₀).watch pictures).camera (pictures.map HandPicture.time)
      ((Interpreter.initial : Interpreter ℝ).latestEvents pictures) := by
  induction pictures using List.reverseRecOn with
  | nil => exact knows_of_forgotten rfl rfl
  | append_singleton pictures p ih =>
    rw [List.map_append, List.pairwise_append] at htimes
    obtain ⟨htimes, -, hlater⟩ := htimes
    obtain ⟨inputs, hrun⟩ := watch_camera t₀ pictures
    have hidle : (run inputs).isControlling = false → _ := forgets_of_idle
    rw [← hrun] at hidle
    have h := (ih htimes).see (i := ((begun t₀).watch pictures).hands) (p := p)
      (fun t ht => hlater t ht p.time (by simp)) hidle
    rw [watch_concat, see_eq, List.map_append, Interpreter.latestEvents_concat]
    rw [watch_hands] at h ⊢
    exact h

/-- A hand that made no gesture in the latest picture that had events moves nothing with
its first gesture in the next one. -/
theorem returning_hand_keeps_aim {t₀ : ℝ} {pictures : List (HandPicture ℝ)} {p : HandPicture ℝ}
    {before after : List (GestureEvent ℝ)} {g : HandGesture ℝ}
    (htimes : ((pictures ++ [p]).map HandPicture.time).Pairwise (· < ·))
    (hcontrol : ((begun t₀).watch pictures).camera.isControlling)
    (habsent : ∀ g', .gesture g' ∈ (Interpreter.initial : Interpreter ℝ).latestEvents pictures → g'.role ≠ g.role)
    (hevents : (((begun t₀).watch pictures).hands.process p.hands).2 = before ++ GestureEvent.gesture g :: after)
    (hfirst : ∀ g', .gesture g' ∈ before → g'.role ≠ g.role) :
    SameAim (((begun t₀).watch pictures).camera.after (handled before p.time)).target
      (((begun t₀).watch pictures).camera.after (handled (before ++ [GestureEvent.gesture g]) p.time)).target := by
  rw [List.map_append, List.pairwise_append] at htimes
  obtain ⟨htimes, -, hlater⟩ := htimes
  obtain ⟨inputs, hrun⟩ := watch_camera t₀ pictures
  have hknows : Knows ((begun t₀).watch pictures).camera _ _ := knows_watch htimes
  have hnew := hknows.startsPass fun t ht => hlater t ht p.time (by simp)
  have hunseen : (((begun t₀).watch pictures).camera.drags.get g.role).isSeen = false := by
    by_contra hseen
    obtain ⟨g', hg', hrole⟩ := hknows.isSeen g.role (eq_true_of_ne_false hseen)
    exact habsent g' hg' hrole
  obtain ⟨gs, rfl⟩ := Interpreter.gestures_before hevents
  generalize ((begun t₀).watch pictures).camera = c at *
  have hrun' : c.after (handled (gs.map .gesture) p.time) = run (inputs ++ handled (gs.map .gesture) p.time) := by
    rw [run_append, ← hrun]
  -- The hand has not been seen in this picture, nor in the one before, whether a gesture of
  -- another hand has begun this one or not.
  have htime' : (c.after (handled (gs.map .gesture) p.time)).atTime g.role p.time = (c.drags.get g.role).nextPass := by
    rcases eq_or_ne gs [] with rfl | hgs
    · exact if_pos hnew
    · obtain ⟨htime, hdrags⟩ := after_gestures hcontrol hnew hgs
      rw [atTime, startsPass_eq_false_iff.mpr htime, if_neg Bool.false_ne_true]
      exact hdrags g.role fun g' hg' => hfirst g' (List.mem_map_of_mem hg')
  rw [handled_concat, after_concat, step_gesture (isControlling_gestures hcontrol gs p.time)]
  rw [hrun'] at htime' ⊢
  refine sameAim_of_unseen ?_
  rw [htime']
  rintro (hwas | his)
  · exact Bool.false_ne_true (hunseen.symm.trans hwas)
  · cases his

/-! ## A hand that comes back after the other one was alone

The left hand at one time and, further to the right, at a later one; in between, the
right hand alone. -/

noncomputable def leftFirst : HandPicture ℝ := ⟨[leftHand 0.5], 0.1⟩

noncomputable def rightAlone : HandPicture ℝ := ⟨[rightHand 0.5], 0.2⟩

noncomputable def backAlone : HandPicture ℝ := ⟨[backOfRightHand 0.5], 0.2⟩

noncomputable def leftAgain : HandPicture ℝ := ⟨[leftHand 0.9], 0.3⟩

/-- After a picture with the palm of the right hand alone, the left hand comes back. -/
theorem returning_hand_keeps_aim_rightHandBetween :
    ∃ g, g.role = .left ∧
      (((begun 0).watch [leftFirst, rightAlone]).hands.process leftAgain.hands).2 = [.gesture g] ∧
      SameAim ((begun 0).watch [leftFirst, rightAlone]).camera.target
        (((begun 0).watch [leftFirst, rightAlone]).camera.after (handled [.gesture g] leftAgain.time)).target := by
  obtain ⟨s₁, g₁, hseen₁, -⟩ := update_uprightHand .initial (leftHand_showsPalm 0.5)
  obtain ⟨s, g, hseen, hrole, -⟩ := update_uprightHand .initial (rightHand_showsPalm 0.5)
  obtain ⟨s₂, g₂, hseen₂, hrole₂, -⟩ := update_uprightHand s₁ (leftHand_showsPalm 0.9)
  have hprocess₁ : Interpreter.initial.process leftFirst.hands = (⟨s₁, .initial⟩, [.gesture g₁]) :=
    Interpreter.process_alone (i := .initial) (o := leftHand 0.5) hseen₁
  have hprocess : Interpreter.process ⟨s₁, .initial⟩ rightAlone.hands = (⟨s₁, s⟩, [.gesture g]) :=
    Interpreter.process_alone (i := ⟨s₁, .initial⟩) (o := rightHand 0.5) hseen
  have hprocess₂ : Interpreter.process ⟨s₁, s⟩ leftAgain.hands = (⟨s₂, s⟩, [.gesture g₂]) :=
    Interpreter.process_alone (i := ⟨s₁, s⟩) (o := leftHand 0.9) hseen₂
  have hwatched := watch_pair 0 hprocess₁ hprocess
  have htimes : (([leftFirst, rightAlone] ++ [leftAgain]).map HandPicture.time).Pairwise (· < ·) := by
    norm_num [leftFirst, rightAlone, leftAgain]
  have hcontrol : ((begun 0).watch [leftFirst, rightAlone]).camera.isControlling := by
    rw [hwatched]
    exact isControlling_gestures (isControlling_gestures rfl [g₁] _) [g] _
  have habsent : ∀ g', .gesture g' ∈ Interpreter.initial.latestEvents [leftFirst, rightAlone] →
      g'.role ≠ g₂.role := by
    have hfirst : Interpreter.initial.watch [leftFirst] = ⟨s₁, .initial⟩ := congrArg Prod.fst hprocess₁
    have hlatest := Interpreter.latestEvents_concat .initial [leftFirst] rightAlone
    rw [hfirst, hprocess, if_neg (List.cons_ne_nil _ _), List.singleton_append] at hlatest
    rw [hlatest]
    intro g' hg'
    obtain rfl : g' = g := by simpa using hg'
    have hright : g'.role = .right := hrole
    have hleft : g₂.role = .left := hrole₂
    rw [hright, hleft]
    exact Role.noConfusion
  have hevents : (((begun 0).watch [leftFirst, rightAlone]).hands.process leftAgain.hands).2 =
      [] ++ GestureEvent.gesture g₂ :: [] := by
    rw [hwatched, hprocess₂]
    rfl
  exact ⟨g₂, hrole₂, hevents, returning_hand_keeps_aim htimes hcontrol habsent hevents nofun⟩

/-! ## A hand that comes back after a picture without events -/

theorem updatePinch_eq_false {d : ℝ} (h : 0.22 ≤ d) : updatePinch false d = false :=
  Bool.eq_false_iff.mpr (mt less_iff.mp (not_lt.mpr h))

/-- The left hand goes to the right. -/
theorem update_leftHand_twice :
    ∃ s₁ g₁ s₂ g₂, (HandState.initial : HandState ℝ).update (leftHand 0.5) = (s₁, some g₁) ∧
      s₁.update (leftHand 0.9) = (s₂, some g₂) ∧ g₁.role = .left ∧ g₂.role = .left ∧
      g₁.isPinching = g₂.isPinching ∧ g₂.panX - g₁.panX = 0.2 := by
  obtain ⟨s₁, g₁, hseen₁, hrole₁, hpan₁, hpinch₁, hx₁, hd₁, hp₁⟩ :=
    update_uprightHand .initial (leftHand_showsPalm 0.5)
  obtain ⟨s₂, g₂, hseen₂, hrole₂, hpan₂, hpinch₂, hx₂, hd₂, hp₂⟩ :=
    update_uprightHand s₁ (leftHand_showsPalm 0.9)
  have hclosing₁ : s₁.smoothPinch = 0.75 := hd₁.trans (by norm_num [blend, smoothing, HandState.initial])
  have hclosing₂ : s₂.smoothPinch = 0.5625 := by
    rw [hd₂, hclosing₁]
    norm_num [blend, smoothing]
  have hopen₁ : s₁.isPinching = false := hp₁.trans (updatePinch_eq_false (by rw [hclosing₁]; norm_num))
  have hopen₂ : s₂.isPinching = false := by
    rw [hp₂, hopen₁]
    exact updatePinch_eq_false (by rw [hclosing₂]; norm_num)
  refine ⟨s₁, g₁, s₂, g₂, hseen₁, hseen₂, hrole₁, hrole₂, ?_, ?_⟩
  · rw [hpinch₁, hopen₁, hpinch₂, hopen₂]
  · rw [hpan₁, hpan₂, hx₂, hx₁]
    norm_num [blend, smoothing, HandState.initial]

/-- Two gestures of a hand, one right after the other, turn the camera as far as the hand
has gone in between. -/
theorem theta_takeGesture_twice {inputs : List (CameraInput ℝ)} {s g : HandGesture ℝ} {t : ℝ}
    (hunseen : ¬ (((run inputs).atTime s.role t).wasSeen ∨ ((run inputs).atTime s.role t).isSeen))
    (hrole : s.role = g.role) (hpinch : s.isPinching = g.isPinching) (hturns : g.role = .left)
    (now : ℝ) :
    (((run inputs).takeGesture s t).takeGesture g now).target.theta.target =
      ((run inputs).takeGesture s t).target.theta.target + (g.panX - s.panX) * rotateScaleX := by
  have hdrag := followsDrag_next (anchor?_ready_of_unseen hunseen) hrole hpinch now
  rw [(hdrag.turned (.inl hturns)).1, (sameAim_of_unseen hunseen).theta]

/-- A right hand that has not shown its palm yet has no gesture in a picture, and then the
camera does not learn that the left hand was away: it jumps to where the left hand comes
back. -/
theorem hand_absent_from_silent_picture_jumps :
    ¬ ∀ (t₀ : ℝ) (pictures : List (HandPicture ℝ)) (last next : HandPicture ℝ)
      (before after : List (GestureEvent ℝ)) (g : HandGesture ℝ),
      ((pictures ++ [last, next]).map HandPicture.time).Pairwise (· < ·) →
      ((begun t₀).watch (pictures ++ [last])).camera.isControlling →
      (∀ o ∈ last.hands, o.role ≠ g.role) →
      (((begun t₀).watch (pictures ++ [last])).hands.process next.hands).2 = before ++ GestureEvent.gesture g :: after →
      (∀ g', .gesture g' ∈ before → g'.role ≠ g.role) →
      SameAim (((begun t₀).watch (pictures ++ [last])).camera.after (handled before next.time)).target
        (((begun t₀).watch (pictures ++ [last])).camera.after
          (handled (before ++ [GestureEvent.gesture g]) next.time)).target := by
  intro hkeeps
  obtain ⟨s₁, g₁, s₂, g₂, hseen₁, hseen₂, hrole₁, hrole₂, hpinch, hgone⟩ := update_leftHand_twice
  have hhidden : (HandState.initial : HandState ℝ).update (backOfRightHand 0.5) = (.initial, none) := by
    rw [HandState.update, backOfRightHand_showsPalm]
    rfl
  have hprocess₁ : Interpreter.initial.process leftFirst.hands = (⟨s₁, .initial⟩, [.gesture g₁]) :=
    Interpreter.process_alone (i := .initial) (o := leftHand 0.5) hseen₁
  have hprocess : Interpreter.process ⟨s₁, .initial⟩ backAlone.hands = (⟨s₁, .initial⟩, []) :=
    Interpreter.process_alone (i := ⟨s₁, .initial⟩) (o := backOfRightHand 0.5) hhidden
  have hprocess₂ : Interpreter.process ⟨s₁, .initial⟩ leftAgain.hands = (⟨s₂, .initial⟩, [.gesture g₂]) :=
    Interpreter.process_alone (i := ⟨s₁, .initial⟩) (o := leftHand 0.9) hseen₂
  -- The picture in between leaves the camera as it is.
  have hwatched : (begun 0).watch [leftFirst, backAlone] = { begun (0 : ℝ) with
      hands := ⟨s₁, .initial⟩, camera := (run [.activate 0]).takeGesture g₁ leftFirst.time } :=
    watch_pair 0 hprocess₁ hprocess
  have htimes : (([leftFirst] ++ [backAlone, leftAgain]).map HandPicture.time).Pairwise (· < ·) := by
    norm_num [leftFirst, backAlone, leftAgain]
  have hcontrol : ((run [.activate (0 : ℝ)]).takeGesture g₁ leftFirst.time).isControlling := takeGesture_isControlling _ _ _
  have hother : ∀ o ∈ backAlone.hands, o.role ≠ g₂.role := by
    intro o ho
    rw [List.mem_singleton.mp ho, hrole₂]
    exact Role.noConfusion
  have hevents : (((begun 0).watch [leftFirst, backAlone]).hands.process leftAgain.hands).2 =
      [] ++ GestureEvent.gesture g₂ :: [] := by
    rw [hwatched, hprocess₂]
    rfl
  have hjump := hkeeps 0 [leftFirst] backAlone leftAgain [] [] g₂ htimes (hwatched ▸ hcontrol) hother hevents
    fun _ hg' => absurd hg' List.not_mem_nil
  rw [List.singleton_append, hwatched] at hjump
  have hstays : (((run [.activate (0 : ℝ)]).takeGesture g₁ leftFirst.time).takeGesture g₂ leftAgain.time).target.theta.target =
      ((run [.activate (0 : ℝ)]).takeGesture g₁ leftFirst.time).target.theta.target := by
    rw [← step_gesture hcontrol]
    exact hjump.theta
  have hunseen : ¬ (((run [.activate (0 : ℝ)]).atTime g₁.role leftFirst.time).wasSeen ∨
      ((run [.activate (0 : ℝ)]).atTime g₁.role leftFirst.time).isSeen) := by
    rw [hrole₁]
    rintro (h | h) <;> cases h
  have hmoves := theta_takeGesture_twice hunseen (hrole₁.trans hrole₂.symm) hpinch hrole₂ leftAgain.time
  rw [hgone, rotateScaleX, pi_eq, hstays] at hmoves
  linarith [Real.pi_pos]

end RepoOrbit
