import RepoOrbit.Proofs.Camera.Steps

/-!
# Who has the camera, and what it displays

What is done to a camera leaves it with whom it is, without a word, or gives it back
(`CameraController.Yields`). What it displays (`CameraTarget.view`) only a frame changes,
by one step to the targets (`CameraController.frame_cases`): all else leaves it or gives
the camera back (`CameraController.Leaves`).
-/

namespace RepoOrbit

variable {α : Type} [Scalar α]

/-- The numbers that are displayed. -/
def CameraTarget.view {α : Type} (t : CameraTarget α) : List α :=
  [t.theta.current, t.phi.current, t.distance.current, t.lookX.current, t.lookY.current]

/-! ## Cameras that are given back -/

namespace CameraController

/-- A camera is left with whom it is, or given back. -/
inductive Yields (c : CameraController α) : CameraController α → List (CameraCall α) → Prop
  | keeps {c' : CameraController α} : c'.mode = c.mode → Yields c c' []
  | releases {c' : CameraController α} : c.isControlling → c'.isControlling = false →
      Yields c c' [.orbitControls true true, .flyTo overviewPose]

variable {c c' c'' : CameraController α}

omit [Scalar α] in
theorem isControlling_eq_of_mode (h : c'.mode = c.mode) : c'.isControlling = c.isControlling := by
  rw [isControlling, h, isControlling]

theorem Yields.refl : c.Yields c [] := .keeps rfl

/-- A camera is given back once. -/
theorem Yields.trans {calls calls' : List (CameraCall α)} (h : c.Yields c' calls) (h' : c'.Yields c'' calls') :
    c.Yields c'' (calls ++ calls') := by
  cases h with
  | keeps hmode =>
    cases h' with
    | keeps hmode' => exact .keeps (hmode'.trans hmode)
    | releases hcontrol hidle => exact .releases (isControlling_eq_of_mode hmode ▸ hcontrol) hidle
  | releases hcontrol hidle =>
    cases h' with
    | keeps hmode' => exact .releases hcontrol (isControlling_eq_of_mode hmode' ▸ hidle)
    | releases hcontrol' => exact absurd (hidle.symm.trans hcontrol') Bool.false_ne_true

variable (c)

theorem yields_deactivate : c.Yields c.deactivate.1 c.deactivate.2.2 := by
  unfold deactivate
  split
  · rename_i h
    exact .releases h rfl
  · exact .refl

theorem deactivate_isControlling : c.deactivate.1.isControlling = false := by
  unfold deactivate
  split
  · rfl
  · rename_i h
    exact Bool.eq_false_iff.mpr h

theorem yields_checkTimeout (now : α) : c.Yields (c.checkTimeout now).1 (c.checkTimeout now).2.2 := by
  rw [checkTimeout_eq]
  split
  · exact c.yields_deactivate
  · exact .refl

theorem recenter_keeps (now : α) :
    (c.recenter now).1.mode = c.mode ∧ (c.recenter now).1.target.view = c.target.view := by
  unfold recenter
  split <;> exact ⟨rfl, rfl⟩

theorem yields_handle (event : GestureEvent α) (now : α) :
    c.Yields (c.handle event now).1 (c.handle event now).2 := by
  unfold handle
  cases hmode : c.isControlling with
  | false => exact .refl
  | true =>
    cases event with
    | noHands =>
      have hcleared : c.Yields c.clearDrags [] := .keeps rfl
      exact hcleared.trans (c.clearDrags.yields_checkTimeout now)
    | handsJoined => exact .keeps ((c.detected now).recenter_keeps now).1
    | gesture g => exact .keeps (c.takeGesture_mode g now)

theorem yields_frame (now : α) : c.Yields (c.frame now).controller (c.frame now).calls := by
  have hyields := c.yields_checkTimeout now
  unfold frame
  generalize c.checkTimeout now = checked at hyields
  obtain ⟨c', released, calls⟩ := checked
  dsimp only at hyields ⊢
  split
  · exact hyields
  · have hstepped : c'.Yields { c' with target := c'.target.step cameraSmoothing } [] := .keeps rfl
    have hboth := hyields.trans hstepped
    rwa [List.append_nil] at hboth

end CameraController

/-! ## What is displayed -/

namespace CameraController

/-- A camera displays what it did, or it has been given back. -/
def Leaves {α : Type} (c c' : CameraController α) : Prop :=
  c'.isControlling = false ∨ c'.mode = c.mode ∧ c'.target.view = c.target.view

variable {c c' c'' : CameraController α}

omit [Scalar α] in
theorem Leaves.refl (c : CameraController α) : c.Leaves c := .inr ⟨rfl, rfl⟩

omit [Scalar α] in
theorem Leaves.trans (h : c.Leaves c') (h' : c'.Leaves c'') : c.Leaves c'' := by
  rcases h' with hidle' | ⟨hmode', hview'⟩
  · exact .inl hidle'
  · rcases h with hidle | ⟨hmode, hview⟩
    · exact .inl (isControlling_eq_of_mode hmode' ▸ hidle)
    · exact .inr ⟨hmode'.trans hmode, hview'.trans hview⟩

variable (c)

theorem leaves_checkTimeout (now : α) : c.Leaves (c.checkTimeout now).1 := by
  rw [checkTimeout_eq]
  split
  · exact .inl c.deactivate_isControlling
  · exact .refl c

theorem takeGesture_view (g : HandGesture α) (now : α) : (c.takeGesture g now).target.view = c.target.view := by
  rw [takeGesture, enterPass_eq]
  unfold applyGesture
  cases g.role <;> cases g.isPinching <;> rfl

theorem leaves_handle (event : GestureEvent α) (now : α) : c.Leaves (c.handle event now).1 := by
  unfold handle
  cases hmode : c.isControlling with
  | false => exact .refl c
  | true =>
    cases event with
    | noHands =>
      have hcleared : c.Leaves c.clearDrags := .inr ⟨rfl, rfl⟩
      exact hcleared.trans (c.clearDrags.leaves_checkTimeout now)
    | handsJoined => exact .inr ((c.detected now).recenter_keeps now)
    | gesture g => exact .inr ⟨c.takeGesture_mode g now, c.takeGesture_view g now⟩

/-- A frame goes one step to the targets if hands control the camera and have not been
away for too long. Otherwise there is no pose, and nobody has the camera. -/
theorem frame_cases (now : α) :
    if c.isControlling && !c.isOverdue now then
      c.frame now = ⟨{ c with target := c.target.step cameraSmoothing },
        (c.target.step cameraSmoothing).pose.map some, []⟩
    else (c.frame now).controller.isControlling = false ∧ (c.frame now).pose = .ok none := by
  unfold frame
  rw [checkTimeout_eq]
  cases hmode : c.isControlling with
  | false => simp [hmode]
  | true =>
    cases c.isOverdue now with
    | true => simp [c.deactivate_isControlling]
    | false => simp [hmode]

end CameraController

end RepoOrbit
