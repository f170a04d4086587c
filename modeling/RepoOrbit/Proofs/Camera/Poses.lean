import Mathlib.Analysis.SpecialFunctions.Trigonometric.Bounds
import RepoOrbit.Proofs.Camera.Bounds
import RepoOrbit.Proofs.Camera.Custody

/-!
# Where the camera can be

Whatever is done to a camera, it is displayed between `minDistance` and `maxDistance` from
the point it looks at and raised or lowered by `maxPhi` at most, and is meant to stay so
(`CameraTarget.InBounds`, `inBounds_run`): a step goes part of the way to a target, and
with both its ends the way is in these ranges (`blend_mem`).

So its poses are as far from the point they look at as they should be, and never straight
above or below it (`pose_in_bounds`).
-/

namespace RepoOrbit

open Scalar

/-! ## Numbers on their way -/

theorem cameraSmoothing_mem : (cameraSmoothing : ℝ) ∈ Set.Icc 0 1 := by
  rw [cameraSmoothing, Set.mem_Icc]
  norm_num

theorem minDistance_le_maxDistance : (minDistance : ℝ) ≤ maxDistance := by
  rw [minDistance, maxDistance]
  norm_num

theorem minDistance_pos : (0 : ℝ) < minDistance := by
  rw [minDistance]
  norm_num

theorem defaultDistance_mem : (defaultDistance : ℝ) ∈ Set.Icc minDistance maxDistance := by
  rw [defaultDistance, minDistance, maxDistance, Set.mem_Icc]
  norm_num

/-- The distance for a hand of any size is in the range of distances. -/
theorem zoomDistance_mem (handSize : ℝ) : zoomDistance handSize ∈ Set.Icc minDistance maxDistance := by
  have hunit : Set.Icc (0.0 : ℝ) 1.0 = Set.Icc 0 1 := by norm_num
  have hnear : clamp ((handSize - handSizeFar) / (handSizeNear - handSizeFar)) 0.0 1.0 ∈ Set.Icc (0.0 : ℝ) 1.0 :=
    clamp_mem (by norm_num) _
  rw [hunit] at hnear
  rw [zoomDistance]
  generalize clamp ((handSize - handSizeFar) / (handSizeNear - handSizeFar)) 0.0 1.0 = t at hnear
  have hway := blend_mem (Set.right_mem_Icc.mpr minDistance_le_maxDistance)
    (Set.left_mem_Icc.mpr minDistance_le_maxDistance) hnear
  have hsame : blend maxDistance minDistance t = maxDistance - t * (maxDistance - minDistance) := by
    rw [blend]
    ring
  rwa [hsame] at hway

/-! ## The numbers of a camera -/

/-- The distance and the height of a camera are in their ranges, as displayed and as
meant. -/
structure CameraTarget.InBounds (t : CameraTarget ℝ) : Prop where
  distance : t.distance.current ∈ Set.Icc minDistance maxDistance
  distance_target : t.distance.target ∈ Set.Icc minDistance maxDistance
  phi : t.phi.current ∈ Set.Icc (-maxPhi) maxPhi
  phi_target : t.phi.target ∈ Set.Icc (-maxPhi) maxPhi

theorem CameraTarget.inBounds_initial : CameraTarget.initial.InBounds :=
  ⟨defaultDistance_mem, defaultDistance_mem, CameraController.defaultPhi_mem, CameraController.defaultPhi_mem⟩

theorem CameraTarget.InBounds.step {t : CameraTarget ℝ} (h : t.InBounds) : (t.step cameraSmoothing).InBounds where
  distance := blend_mem h.distance h.distance_target cameraSmoothing_mem
  distance_target := h.distance_target
  phi := blend_mem h.phi h.phi_target cameraSmoothing_mem
  phi_target := h.phi_target

namespace CameraController

theorem takeGesture_distance_target {α : Type} [Scalar α] (c : CameraController α) (g : HandGesture α) (now : α) :
    (c.takeGesture g now).target.distance.target =
      if g.role = .left then zoomDistance g.handSize else c.target.distance.target := by
  rw [takeGesture, enterPass_eq]
  unfold applyGesture
  cases g.role <;> cases g.isPinching <;> rfl

theorem inBounds_run (inputs : List (CameraInput ℝ)) : (run inputs).target.InBounds := by
  induction inputs using List.reverseRecOn with
  | nil => exact CameraTarget.inBounds_initial
  | append_singleton inputs i ih =>
    have hphi := phi_target_mem (inputs ++ [i])
    rw [run_concat] at hphi ⊢
    generalize run inputs = c at ih hphi
    have moved := c.step_moved i
    generalize c.step i = c' at moved hphi
    cases moved with
    | ignored | activated | refused | cleared => exact ih
    | released => exact CameraTarget.inBounds_initial
    | centred | joined => exact ⟨ih.distance, ih.distance_target, ih.phi, hphi⟩
    | displayed => exact ih.step
    | @gesture g now =>
      have hview := c.takeGesture_view g now
      simp only [CameraTarget.view, List.cons.injEq] at hview
      obtain ⟨-, hphi_current, hdistance, -⟩ := hview
      refine ⟨hdistance ▸ ih.distance, ?_, hphi_current ▸ ih.phi, hphi⟩
      rw [takeGesture_distance_target]
      split
      · exact zoomDistance_mem _
      · exact ih.distance_target

end CameraController

/-! ## Poses -/

/-- How far a camera is from the point it looks at. -/
noncomputable def CameraPose.distance (p : CameraPose ℝ) : ℝ :=
  √((p.position.x - p.lookAt.x) ^ 2 + (p.position.y - p.lookAt.y) ^ 2 + (p.position.z - p.lookAt.z) ^ 2)

/-- How far a camera is from the upright line through the point it looks at. -/
noncomputable def CameraPose.offset (p : CameraPose ℝ) : ℝ :=
  √((p.position.x - p.lookAt.x) ^ 2 + (p.position.z - p.lookAt.z) ^ 2)

section

variable {theta phi distance : ℝ} (lookX lookY : ℝ)

theorem offset_poseAt (hdistance : 0 ≤ distance) (hphi : 0 ≤ Real.cos phi) :
    (poseAt theta phi distance lookX lookY).offset = distance * Real.cos phi := by
  have hsquare : (lookX + distance * Real.cos phi * Real.sin theta - lookX) ^ 2 +
      (distance * Real.cos phi * Real.cos theta - 0.0) ^ 2 = (distance * Real.cos phi) ^ 2 := by
    norm_num
    linear_combination (distance * Real.cos phi) ^ 2 * Real.sin_sq_add_cos_sq theta
  exact (congrArg Real.sqrt hsquare).trans (Real.sqrt_sq (mul_nonneg hdistance hphi))

theorem distance_poseAt (hdistance : 0 ≤ distance) : (poseAt theta phi distance lookX lookY).distance = distance := by
  have hsquare : (lookX + distance * Real.cos phi * Real.sin theta - lookX) ^ 2 +
      (lookY + distance * Real.sin phi - lookY) ^ 2 + (distance * Real.cos phi * Real.cos theta - 0.0) ^ 2 =
      distance ^ 2 := by
    norm_num
    linear_combination (distance * Real.cos phi) ^ 2 * Real.sin_sq_add_cos_sq theta +
      distance ^ 2 * Real.sin_sq_add_cos_sq phi
  exact (congrArg Real.sqrt hsquare).trans (Real.sqrt_sq hdistance)

end

theorem maxPhi_lt : (maxPhi : ℝ) < Real.pi / 2 := by
  have hpi := Real.pi_pos
  rw [maxPhi, pi_eq]
  norm_num
  linarith

theorem cos_maxPhi_pos : 0 < Real.cos maxPhi :=
  Real.cos_pos_of_mem_Ioo ⟨by linarith [CameraController.maxPhi_pos, Real.pi_pos], maxPhi_lt⟩

/-- A camera that is raised or lowered less is farther from the upright line. -/
theorem cos_maxPhi_le {phi : ℝ} (h : phi ∈ Set.Icc (-maxPhi) maxPhi) : Real.cos maxPhi ≤ Real.cos phi := by
  rw [← Real.cos_abs phi]
  exact Real.cos_le_cos_of_nonneg_of_le_pi (abs_nonneg phi) (by linarith [maxPhi_lt, Real.pi_pos]) (abs_le.mpr h)

namespace CameraController

/-- Whatever has been done to a camera, its distance and its height are in their ranges, as
displayed and as meant. A frame never fails; if hands still have the camera after it, it
shows a pose that is exactly as far from the point it looks at as is displayed then, and
nowhere near the upright line through that point. -/
theorem pose_in_bounds (inputs : List (CameraInput ℝ)) :
    (run inputs).target.InBounds ∧ 0 < minDistance * Real.cos maxPhi ∧
      ∀ now, ∃ pose?, ((run inputs).frame now).pose = .ok pose? ∧
        (pose?.isSome ↔ (run (inputs ++ [.frame now])).isControlling) ∧
        ∀ pose ∈ pose?, pose.distance = (run (inputs ++ [.frame now])).target.distance.current ∧
          minDistance * Real.cos maxPhi ≤ pose.offset := by
  refine ⟨inBounds_run inputs, mul_pos minDistance_pos cos_maxPhi_pos, fun now => ?_⟩
  have hbounds := inBounds_run (inputs ++ [.frame now])
  rw [run_concat] at hbounds ⊢
  rw [step] at hbounds ⊢
  have hframe := (run inputs).frame_cases now
  generalize (run inputs).frame now = shown at hbounds hframe ⊢
  split at hframe
  · rename_i hcontrol
    subst hframe
    have hcontrolled := ((Bool.and_eq_true _ _).mp hcontrol).1
    refine ⟨some _, rfl, ⟨fun _ => hcontrolled, fun _ => rfl⟩, fun pose hpose => ?_⟩
    obtain rfl := Option.some.inj hpose
    have hfar : minDistance ≤ _ := hbounds.distance.1
    have hhigh := cos_maxPhi_le hbounds.phi
    have hdistance := minDistance_pos.le.trans hfar
    refine ⟨distance_poseAt _ _ hdistance, ?_⟩
    rw [offset_poseAt _ _ hdistance (cos_maxPhi_pos.le.trans hhigh)]
    exact mul_le_mul hfar hhigh cos_maxPhi_pos.le hdistance
  · obtain ⟨hidle, hnone⟩ := hframe
    exact ⟨none, hnone, by simp [hidle], by simp⟩

end CameraController

end RepoOrbit
