import RepoOrbit.Proofs.Gesture.Exact
import RepoOrbit.Proofs.Camera.Steps

/-!
# How far the camera is raised

Whatever is done to a camera, it is meant to be raised as it is at first, or to a height that
has been cut to the range from `-maxPhi` to `maxPhi` (`CameraController.isHeight_phi_target`).
Both are in this range (`CameraController.phi_target_mem`).
-/

namespace RepoOrbit

open Scalar

/-- A height that the camera can be meant to have. -/
def IsHeight {α : Type} [Scalar α] (x : α) : Prop := x = defaultPhi ∨ ∃ y, x = clamp y (-maxPhi) maxPhi

namespace CameraController

theorem maxPhi_pos : (0 : ℝ) < maxPhi := by
  have hpi := Real.two_le_pi
  rw [maxPhi, pi_eq]
  norm_num
  linarith

theorem defaultPhi_mem : (defaultPhi : ℝ) ∈ Set.Icc (-maxPhi) maxPhi := by
  have hpi := Real.two_le_pi
  rw [defaultPhi, maxPhi, pi_eq, Set.mem_Icc]
  constructor <;> norm_num <;> linarith

/-- The heights that can be meant are in the range in which the camera can be raised. -/
theorem mem_of_isHeight {x : ℝ} (h : IsHeight x) : x ∈ Set.Icc (-maxPhi) maxPhi := by
  rcases h with rfl | ⟨y, rfl⟩
  · exact defaultPhi_mem
  · exact clamp_mem (by linarith [maxPhi_pos]) _

theorem isHeight_phi_target {α : Type} [Scalar α] (inputs : List (CameraInput α)) :
    IsHeight (run inputs).target.phi.target := by
  induction inputs using List.reverseRecOn with
  | nil => exact .inl rfl
  | append_singleton inputs i ih =>
    rw [run_concat]
    generalize run inputs = c at ih
    have moved := c.step_moved i
    generalize c.step i = c' at moved
    cases moved with
    | ignored | activated | refused | cleared | displayed => exact ih
    | released | centred | joined => exact .inl rfl
    | @gesture g now hmode =>
      cases hpans : g.pans with
      | false =>
        have htarget := congrArg Prod.snd (c.takeGesture_target g now)
        rw [hpans] at htarget
        exact .inr ⟨_, htarget⟩
      | true =>
        have htarget := congrArg Prod.snd (c.takeGesture_target_other g now)
        rw [hpans] at htarget
        rw [show (c.takeGesture g now).target.phi.target = _ from htarget]
        exact ih

/-- The target never leaves the range in which the camera can be raised. -/
theorem phi_target_mem (inputs : List (CameraInput ℝ)) :
    (run inputs).target.phi.target ∈ Set.Icc (-maxPhi) maxPhi :=
  mem_of_isHeight (isHeight_phi_target inputs)

end CameraController

end RepoOrbit
