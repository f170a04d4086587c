import Mathlib.Data.List.Induction
import RepoOrbit.Camera.Controller

/-!
# What is done to a camera

Everything that is done to a camera is an input (`CameraInput`), and a run is a list
of inputs (`CameraController.run`).

* `step_activate` and its siblings: what becomes of a camera by each input but a
  gesture, with the conditions for it.
* `takeGesture`: what becomes of it by a gesture. `ready` is what is remembered of the
  hand then, and `dragAnchor` the anchor that the gesture is measured from;
  `takeGesture_drag`, `takeGesture_drag_of_ne` and `takeGesture_target` say the rest in
  these terms.
-/

namespace RepoOrbit

open Scalar

/-- What is done to a camera. -/
inductive CameraInput (α : Type) where
  | activate (now : α)
  | deactivate
  | checkTimeout (now : α)
  | recenter (now : α)
  | handle (event : GestureEvent α) (now : α)
  | frame (now : α)

/-- The gesture that is handled, and its time. -/
def CameraInput.gesture? {α : Type} : CameraInput α → Option (HandGesture α × α)
  | .handle (.gesture g) now => some (g, now)
  | _ => none

theorem CameraInput.eq_handle_of_gesture? {α : Type} {i : CameraInput α} {g : HandGesture α} {now : α}
    (hi : i.gesture? = some (g, now)) :
    i = .handle (.gesture g) now := by
  unfold gesture? at hi
  split at hi
  · cases hi; rfl
  · cases hi

/-- The gestures among some inputs. -/
def gestures {α : Type} (inputs : List (CameraInput α)) : List (HandGesture α × α) :=
  inputs.filterMap CameraInput.gesture?

theorem gestures_concat {α : Type} (inputs : List (CameraInput α)) (i : CameraInput α) :
    gestures (inputs ++ [i]) = gestures inputs ++ i.gesture?.toList := by
  rw [gestures, List.filterMap_append, List.filterMap_cons]
  cases i.gesture? <;> rfl

variable {α : Type}

/-- Whether a hand moves the point that is looked at; otherwise it turns the camera. -/
def Role.pans (r : Role) (isPinching : Bool) : Bool := r = .right && isPinching

/-- Whether a gesture moves the point that is looked at. -/
def HandGesture.pans (g : HandGesture α) : Bool := g.role.pans g.isPinching

namespace HandDrag

/-- The drag of one kind that a hand is in. -/
def anchor? (d : HandDrag α) (pans : Bool) : Option (DragAnchor α) := if pans then d.pan else d.rotate

/-- Have a hand be in a drag of one kind. -/
def setAnchor (d : HandDrag α) (pans : Bool) (a : DragAnchor α) : HandDrag α :=
  if pans then { d with pan := some a } else { d with rotate := some a }

/-- Whether a hand is in a drag. -/
def IsAnchored (d : HandDrag α) : Prop := d.rotate.isSome ∨ d.pan.isSome

theorem isAnchored_of_anchor? {d : HandDrag α} {pans : Bool} (h : (d.anchor? pans).isSome) : d.IsAnchored := by
  cases pans
  · exact .inl h
  · exact .inr h

theorem not_isAnchored_none : ¬ (none : HandDrag α).IsAnchored := by
  rintro (h | h) <;> cases h

theorem not_isAnchored_dropAnchors (d : HandDrag α) : ¬ d.dropAnchors.IsAnchored := by
  rintro (h | h) <;> cases h

@[simp] theorem anchor?_setAnchor (d : HandDrag α) (pans : Bool) (a : DragAnchor α) :
    (d.setAnchor pans a).anchor? pans = some a := by
  cases pans <;> rfl

@[simp] theorem pinching_setAnchor (d : HandDrag α) (pans : Bool) (a : DragAnchor α) :
    (d.setAnchor pans a).pinching = d.pinching := by
  cases pans <;> rfl

@[simp] theorem isSeen_setAnchor (d : HandDrag α) (pans : Bool) (a : DragAnchor α) :
    (d.setAnchor pans a).isSeen = d.isSeen := by
  cases pans <;> rfl

@[simp] theorem isSeen_enter (d : HandDrag α) : d.enter.isSeen = true := rfl

@[simp] theorem isSeen_pinch (d : HandDrag α) (isPinching : Bool) : (d.pinch isPinching).isSeen = d.isSeen := by
  unfold pinch
  split <;> rfl

@[simp] theorem pinching_pinch (d : HandDrag α) (isPinching : Bool) :
    (d.pinch isPinching).pinching = some isPinching := by
  unfold pinch
  split
  · assumption
  · rfl

theorem pinch_of_eq {d : HandDrag α} {isPinching : Bool} (h : d.pinching = some isPinching) :
    d.pinch isPinching = d := if_pos h

/-- The drags of a hand go on as long as it pinches, or does not. -/
theorem pinching_of_isAnchored_pinch {d : HandDrag α} {isPinching : Bool} (h : (d.pinch isPinching).IsAnchored) :
    d.pinching = some isPinching := by
  by_contra hne
  rw [pinch, if_neg hne] at h
  exact not_isAnchored_dropAnchors d h

theorem enter_of_seen {d : HandDrag α} (h : d.wasSeen ∨ d.isSeen) : d.enter = { d with isSeen := true } := by
  unfold enter
  dsimp only
  rw [if_pos (by simpa using h)]

/-- The drags of a hand go on if it has been seen before. -/
theorem seen_of_isAnchored_enter {d : HandDrag α} (h : d.enter.IsAnchored) : d.wasSeen ∨ d.isSeen := by
  by_contra hnot
  unfold enter at h
  dsimp only at h
  rw [if_neg (by simpa using hnot)] at h
  exact not_isAnchored_dropAnchors d h

end HandDrag

/-- The targets that gestures of one kind move. -/
def CameraTarget.bases (t : CameraTarget α) (pans : Bool) : α × α :=
  if pans then (t.lookX.target, t.lookY.target) else (t.theta.target, t.phi.target)

namespace CameraController

variable [Scalar α] (c : CameraController α)

/-- The camera after an input. -/
def step : CameraInput α → CameraController α
  | .activate now => (c.activate now).1
  | .deactivate => c.deactivate.1
  | .checkTimeout now => (c.checkTimeout now).1
  | .recenter now => (c.recenter now).1
  | .handle event now => (c.handle event now).1
  | .frame now => (c.frame now).controller

/-- The camera after some inputs. -/
def after (inputs : List (CameraInput α)) : CameraController α := inputs.foldl step c

@[simp] theorem after_nil : c.after [] = c := rfl

@[simp] theorem after_cons (i : CameraInput α) (inputs : List (CameraInput α)) :
    c.after (i :: inputs) = (c.step i).after inputs := rfl

@[simp] theorem after_append (inputs inputs' : List (CameraInput α)) :
    c.after (inputs ++ inputs') = (c.after inputs).after inputs' := by
  simp [after]

@[simp] theorem after_concat (inputs : List (CameraInput α)) (i : CameraInput α) :
    c.after (inputs ++ [i]) = (c.after inputs).step i := by
  simp [after]

/-- The camera after some inputs, from the beginning. -/
def run (inputs : List (CameraInput α)) : CameraController α := initial.after inputs

@[simp] theorem run_append (inputs inputs' : List (CameraInput α)) : run (inputs ++ inputs') = (run inputs).after inputs' :=
  after_append _ _ _

@[simp] theorem run_concat (inputs : List (CameraInput α)) (i : CameraInput α) :
    run (inputs ++ [i]) = (run inputs).step i :=
  after_concat _ _ _

/-! ## Inputs that are no gestures -/

/-- Whether no hand has been seen for long enough. -/
def isOverdue (now : α) : Bool :=
  match c.lastDetected with
  | some last => atMost idleTimeout (now - last)
  | none => false

/-- A camera that has just been centred. -/
def centred (now : α) : CameraController α :=
  { c with
    lastRecenter := some now
    target := { c.target with
      theta.target := defaultTheta, phi.target := defaultPhi
      lookX.target := 0.0, lookY.target := 0.0 }
    drags := c.drags.map HandDrag.dropAnchors }

/-- A camera that has just seen a hand. -/
def detected (now : α) : CameraController α := { c with lastDetected := some now }

theorem step_activate (now : α) :
    c.step (.activate now) =
      if c.isControlling then c else { c with mode := .controlling, lastDetected := some now } := by
  rw [step, activate]
  split <;> rfl

/-- A camera that is taken from the hands is as it was before anyone has moved it. -/
theorem step_deactivate : c.step .deactivate = if c.isControlling then .initial else c := by
  rw [step, deactivate]
  split <;> rfl

theorem checkTimeout_eq (now : α) :
    c.checkTimeout now = if c.isControlling && c.isOverdue now then c.deactivate else (c, false, []) := by
  unfold checkTimeout isOverdue
  cases c.isControlling <;> cases c.lastDetected <;> rfl

theorem step_checkTimeout (now : α) :
    c.step (.checkTimeout now) = if c.isControlling && c.isOverdue now then .initial else c := by
  rw [step, checkTimeout_eq]
  split
  · rename_i h
    exact c.step_deactivate.trans (if_pos (by simp_all))
  · rfl

theorem step_recenter (now : α) : c.step (.recenter now) = if c.isCooling now then c else c.centred now := by
  rw [step, recenter]
  split <;> rfl

variable {c}

theorem step_handle_idle (h : c.isControlling = false) (event : GestureEvent α) (now : α) :
    c.step (.handle event now) = c := by
  rw [step]
  unfold handle
  rw [h]
  rfl

theorem step_noHands (h : c.isControlling) (now : α) :
    c.step (.handle .noHands now) = if c.isOverdue now then .initial else c.clearDrags := by
  have hcheck := c.clearDrags.step_checkTimeout now
  have hcleared : c.clearDrags.isControlling = true := h
  rw [hcleared, Bool.true_and] at hcheck
  rw [step, handle, h]
  exact hcheck

theorem step_handsJoined (h : c.isControlling) (now : α) :
    c.step (.handle .handsJoined now) = if c.isCooling now then c.detected now else (c.detected now).centred now := by
  rw [step, handle, h]
  exact (c.detected now).step_recenter now

theorem step_frame_idle (h : c.isControlling = false) (now : α) : c.step (.frame now) = c := by
  rw [step, frame, checkTimeout_eq, h]
  simp [h]

theorem step_frame (h : c.isControlling) (now : α) :
    c.step (.frame now) =
      if c.isOverdue now then .initial else { c with target := c.target.step cameraSmoothing } := by
  rw [step, frame, checkTimeout_eq, h, Bool.true_and]
  cases c.isOverdue now with
  | true =>
    have hreleased := c.step_deactivate
    rw [if_pos h] at hreleased
    rw [if_pos rfl, if_pos rfl, ← hreleased]
    simp [step, deactivate, h]
  | false =>
    rw [if_neg Bool.false_ne_true, if_neg Bool.false_ne_true]
    simp [h]

/-! ## Gestures -/

variable (c)

/-- Whether a picture begins at a time. -/
def startsPass (now : α) : Bool :=
  match c.passTime with
  | some t => !same now t
  | none => true

/-- What is remembered of a hand when it is seen at a time. -/
def atTime (r : Role) (now : α) : HandDrag α :=
  if c.startsPass now then (c.drags.get r).nextPass else c.drags.get r

/-- What is remembered of a hand when its gesture is about to move the targets. -/
def ready (g : HandGesture α) (now : α) : HandDrag α := (c.atTime g.role now).enter.pinch g.isPinching

/-- The anchor that a gesture is measured from: that of the drag which the hand is in,
or its own place where a drag begins. -/
def dragAnchor (g : HandGesture α) (now : α) : DragAnchor α :=
  ((c.ready g now).anchor? g.pans).getD
    ⟨g.panX, g.panY, (c.target.bases g.pans).1, (c.target.bases g.pans).2⟩

/-- The camera once it has seen a gesture. -/
def takeGesture (g : HandGesture α) (now : α) : CameraController α :=
  ((c.detected now).enterPass g.role now).applyGesture g

variable {c}

theorem step_gesture (h : c.isControlling) (g : HandGesture α) (now : α) :
    c.step (.handle (.gesture g) now) = c.takeGesture g now := by
  rw [step, handle, h]
  rfl

variable (c) (g : HandGesture α) (now : α)

theorem enterPass_eq (r : Role) :
    c.enterPass r now = { c with
      drags := (if c.startsPass now then c.drags.map HandDrag.nextPass else c.drags).set r (c.atTime r now).enter
      passTime := if c.startsPass now then some now else c.passTime } := by
  unfold enterPass atTime startsPass modifyDrag
  cases htime : c.passTime with
  | none => simp
  | some t => cases hs : same now t <;> simp [htime, hs]

theorem enterPass_drags (r r' : Role) :
    (c.enterPass r now).drags.get r' = if r' = r then (c.atTime r now).enter else c.atTime r' now := by
  rw [enterPass_eq]
  by_cases h : r' = r
  · simp [h]
  · simp only [h, ne_eq, not_false_eq_true, PerRole.get_set_of_ne, if_false]
    unfold atTime
    split <;> simp

theorem applyGesture_drags (r : Role) :
    (c.applyGesture g).drags.get r =
      if r = g.role then ((c.drags.get r).pinch g.isPinching).setAnchor g.pans
        ((((c.drags.get r).pinch g.isPinching).anchor? g.pans).getD
          ⟨g.panX, g.panY, (c.target.bases g.pans).1, (c.target.bases g.pans).2⟩)
      else c.drags.get r := by
  unfold applyGesture HandGesture.pans Role.pans
  cases r <;> cases hrole : g.role <;> cases g.isPinching <;>
    simp [hrole, rotate, pan, zoom, modifyDrag, HandDrag.setAnchor, HandDrag.anchor?, CameraTarget.bases,
      PerRole.get, PerRole.set]

theorem applyGesture_target :
    (c.applyGesture g).target.bases g.pans =
      let place := ((((c.drags.get g.role).pinch g.isPinching).anchor? g.pans).getD
        ⟨g.panX, g.panY, (c.target.bases g.pans).1, (c.target.bases g.pans).2⟩)
      if g.pans then place.apply g.panX g.panY panScale panScale
      else
        let (theta, phi) := place.apply g.panX g.panY rotateScaleX rotateScaleY
        (theta, clamp phi (-maxPhi) maxPhi) := by
  unfold applyGesture HandGesture.pans Role.pans
  cases hrole : g.role <;> cases g.isPinching <;>
    simp [hrole, rotate, pan, zoom, modifyDrag, HandDrag.anchor?, CameraTarget.bases]

theorem applyGesture_target_other :
    (c.applyGesture g).target.bases (!g.pans) = c.target.bases (!g.pans) := by
  unfold applyGesture HandGesture.pans Role.pans
  cases hrole : g.role <;> cases g.isPinching <;>
    simp [hrole, rotate, pan, zoom, modifyDrag, CameraTarget.bases]

theorem applyGesture_passTime : (c.applyGesture g).passTime = c.passTime := by
  unfold applyGesture
  cases g.role <;> cases g.isPinching <;> simp [rotate, pan, zoom, modifyDrag]

theorem applyGesture_mode : (c.applyGesture g).mode = c.mode := by
  unfold applyGesture
  cases g.role <;> cases g.isPinching <;> simp [rotate, pan, zoom, modifyDrag]

theorem takeGesture_mode : (c.takeGesture g now).mode = c.mode := by
  rw [takeGesture, applyGesture_mode, enterPass_eq]
  rfl

theorem takeGesture_passTime :
    (c.takeGesture g now).passTime = if c.startsPass now then some now else c.passTime := by
  rw [takeGesture, applyGesture_passTime, enterPass_eq]
  rfl

/-- The hand of a gesture is in the drag that the gesture is measured from. -/
theorem takeGesture_drag :
    (c.takeGesture g now).drags.get g.role = (c.ready g now).setAnchor g.pans (c.dragAnchor g now) := by
  rw [takeGesture, applyGesture_drags, enterPass_drags, enterPass_eq, if_pos rfl, if_pos rfl]
  rfl

theorem takeGesture_drag_of_ne {r : Role} (h : r ≠ g.role) :
    (c.takeGesture g now).drags.get r = c.atTime r now := by
  rw [takeGesture, applyGesture_drags, enterPass_drags, if_neg h, if_neg h]
  rfl

/-- A gesture takes the targets of its kind as far as the hand has come in its drag. -/
theorem takeGesture_target :
    (c.takeGesture g now).target.bases g.pans =
      if g.pans then (c.dragAnchor g now).apply g.panX g.panY panScale panScale
      else
        let (theta, phi) := (c.dragAnchor g now).apply g.panX g.panY rotateScaleX rotateScaleY
        (theta, clamp phi (-maxPhi) maxPhi) := by
  rw [takeGesture, applyGesture_target, enterPass_drags, enterPass_eq, if_pos rfl]
  rfl

/-- It leaves those of the other kind. -/
theorem takeGesture_target_other : (c.takeGesture g now).target.bases (!g.pans) = c.target.bases (!g.pans) := by
  rw [takeGesture, applyGesture_target_other, enterPass_eq]
  rfl

theorem takeGesture_isControlling : (c.takeGesture g now).isControlling = c.isControlling := by
  rw [isControlling, takeGesture_mode, isControlling]

variable {c g now} {r : Role}

@[simp] theorem atTime_pinching : (c.atTime r now).pinching = (c.drags.get r).pinching := by
  unfold atTime
  split <;> rfl

@[simp] theorem atTime_anchor? (pans : Bool) : (c.atTime r now).anchor? pans = (c.drags.get r).anchor? pans := by
  unfold atTime
  split <;> rfl

@[simp] theorem atTime_isAnchored : (c.atTime r now).IsAnchored ↔ (c.drags.get r).IsAnchored := by
  unfold atTime
  split <;> rfl

theorem ready_of_kept (hseen : (c.atTime g.role now).wasSeen ∨ (c.atTime g.role now).isSeen)
    (hpinch : (c.drags.get g.role).pinching = some g.isPinching) :
    c.ready g now = { c.atTime g.role now with isSeen := true } := by
  rw [ready, HandDrag.enter_of_seen hseen]
  exact HandDrag.pinch_of_eq (atTime_pinching.trans hpinch)

/-- A hand is still in its drag if it has been seen before and has not opened or closed
since. -/
theorem kept_of_isAnchored_ready (h : (c.ready g now).IsAnchored) :
    ((c.atTime g.role now).wasSeen ∨ (c.atTime g.role now).isSeen) ∧
      (c.drags.get g.role).pinching = some g.isPinching ∧ (c.drags.get g.role).IsAnchored := by
  unfold ready at h
  have hpinch := HandDrag.pinching_of_isAnchored_pinch h
  rw [HandDrag.pinch_of_eq hpinch] at h
  have hseen := HandDrag.seen_of_isAnchored_enter h
  rw [HandDrag.enter_of_seen hseen] at hpinch h
  exact ⟨hseen, atTime_pinching.symm.trans hpinch, atTime_isAnchored.mp h⟩

/-! ## All inputs -/

variable (c) in
/-- The ways in which an input changes a camera, if it does. -/
inductive Moved : CameraInput α → CameraController α → Prop
  | ignored {i : CameraInput α} : (c.isControlling → i.gesture? = none) → Moved i c
  | activated {now : α} : c.isControlling = false →
      Moved (.activate now) { c with mode := .controlling, lastDetected := some now }
  | released {i : CameraInput α} : c.isControlling → Moved i .initial
  | centred {now : α} : c.isCooling now = false → Moved (.recenter now) (c.centred now)
  | refused {now : α} : c.isControlling → c.isCooling now → Moved (.handle .handsJoined now) (c.detected now)
  | joined {now : α} : c.isControlling → c.isCooling now = false →
      Moved (.handle .handsJoined now) ((c.detected now).centred now)
  | cleared {now : α} : c.isControlling → Moved (.handle .noHands now) c.clearDrags
  | gesture {g : HandGesture α} {now : α} : c.isControlling →
      Moved (.handle (.gesture g) now) (c.takeGesture g now)
  | displayed {now : α} : c.isControlling →
      Moved (.frame now) { c with target := c.target.step cameraSmoothing }

variable (c) in
theorem step_moved (i : CameraInput α) : c.Moved i (c.step i) := by
  cases i with
  | activate now =>
    rw [step_activate]
    split
    · exact .ignored fun _ => rfl
    · rename_i h; exact .activated (Bool.eq_false_iff.mpr h)
  | deactivate =>
    rw [step_deactivate]
    split
    · rename_i h; exact .released h
    · exact .ignored fun _ => rfl
  | checkTimeout now =>
    rw [step_checkTimeout]
    split
    · rename_i h; exact .released ((Bool.and_eq_true _ _).mp h).1
    · exact .ignored fun _ => rfl
  | recenter now =>
    rw [step_recenter]
    split
    · exact .ignored fun _ => rfl
    · rename_i h; exact .centred (Bool.eq_false_iff.mpr h)
  | handle event now =>
    cases hmode : c.isControlling with
    | false =>
      rw [step_handle_idle hmode]
      exact .ignored fun h => absurd (hmode.symm.trans h) Bool.false_ne_true
    | true =>
      cases event with
      | gesture g => rw [step_gesture hmode]; exact .gesture hmode
      | noHands =>
        rw [step_noHands hmode]
        split
        · exact .released hmode
        · exact .cleared hmode
      | handsJoined =>
        rw [step_handsJoined hmode]
        split
        · rename_i h; exact .refused hmode h
        · rename_i h; exact .joined hmode (Bool.eq_false_iff.mpr h)
  | frame now =>
    cases hmode : c.isControlling with
    | false => rw [step_frame_idle hmode]; exact .ignored fun _ => rfl
    | true =>
      rw [step_frame hmode]
      split
      · exact .released hmode
      · exact .displayed hmode

/-- A camera that hands do not control remembers neither drags nor pictures. -/
theorem forgets_of_idle {inputs : List (CameraInput α)} (h : (run inputs).isControlling = false) :
    (run inputs).drags = ⟨.none, .none⟩ ∧ (run inputs).passTime = none := by
  induction inputs using List.reverseRecOn with
  | nil => exact ⟨rfl, rfl⟩
  | append_singleton inputs i ih =>
    rw [run_concat] at h ⊢
    generalize run inputs = c at h ih ⊢
    have moved := c.step_moved i
    generalize c.step i = c' at moved h ⊢
    cases moved with
    | ignored => exact ih h
    | activated => cases h
    | released => exact ⟨rfl, rfl⟩
    | centred =>
      obtain ⟨hdrags, htime⟩ := ih h
      exact ⟨by rw [centred, hdrags]; rfl, htime⟩
    | gesture hmode =>
      rw [takeGesture_isControlling, hmode] at h
      cases h
    | refused hmode | joined hmode | cleared hmode | displayed hmode =>
      cases hmode.symm.trans h

end CameraController

end RepoOrbit
