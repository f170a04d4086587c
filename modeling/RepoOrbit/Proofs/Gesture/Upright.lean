import RepoOrbit.Proofs.Gesture.Exact
import RepoOrbit.Gesture.Interpreter

/-!
# Upright hands

Hands with their fingers upwards and their palm to the camera or away from it, over exact
numbers (`leftHand`, `rightHand`, `backOfRightHand`), and what comes of a sight of one
(`update_uprightHand`).
-/

namespace RepoOrbit

open Scalar

/-- A hand with its fingers upwards and its forefinger to one side; thumb and forefinger
touch. -/
noncomputable def uprightHand (label : String) (side x : ℝ) : Observation ℝ :=
  let base : Landmark ℝ := ⟨x, 0.4, 0⟩
  let joint : Landmark ℝ := ⟨x, 0.3, 0⟩
  let tip : Landmark ℝ := ⟨x, 0.1, 0⟩
  ⟨#v[⟨x, 0.9, 0⟩, base, base, base, tip, ⟨x + side, 0.4, 0⟩, joint, joint, tip, base, joint, joint, tip,
    base, joint, joint, tip, ⟨x - side, 0.4, 0⟩, joint, joint, tip], label⟩

/-- The left hand, its palm to the camera. -/
noncomputable def leftHand (x : ℝ) : Observation ℝ := uprightHand "Right" 0.1 x

/-- The right hand, its palm to the camera. -/
noncomputable def rightHand (x : ℝ) : Observation ℝ := uprightHand "Left" (-0.1) x

/-- The right hand, its back to the camera. -/
noncomputable def backOfRightHand (x : ℝ) : Observation ℝ := uprightHand "Left" 0.1 x

section

variable (label : String) (side x : ℝ)

theorem uprightHand_palmCenter : (uprightHand label side x).palmCenter.x = x := by
  have hmean : mean5 x (x + side) x x (x - side) = x := by
    norm_num [mean5]
    ring
  exact hmean

theorem uprightHand_size : (uprightHand label side x).size = 0.8 := by
  have hlength : Real.sqrt ((x - x) ^ 2 + (0.9 - 0.1) ^ 2) = 0.8 := by
    rw [sub_self, zero_pow two_ne_zero, zero_add, Real.sqrt_sq (by norm_num)]
    norm_num
  exact hlength

theorem uprightHand_pinch : (uprightHand label side x).pinch? = some 0 := by
  have hspan : (uprightHand label side x).thumbTip.distanceTo (uprightHand label side x).indexTip = 0 := by
    have hlength : Real.sqrt ((x - x) ^ 2 + ((0.1 : ℝ) - 0.1) ^ 2) = 0 := by simp
    exact hlength
  have hpositive : less (0.0 : ℝ) (0.8 : ℝ) := less_iff.mpr (by norm_num)
  have hpart : some ((0 : ℝ) / 0.8) = some 0 := by rw [zero_div]
  rw [Observation.pinch?, uprightHand_size, hspan, if_pos hpositive]
  exact hpart

theorem uprightHand_palmTurn : (uprightHand label side x).palmTurn = -side := by
  have hturn : (x + side - x) * (0.4 - 0.9) - (0.4 - 0.9) * (x - side - x) = -side := by ring
  exact hturn

theorem uprightHand_showsPalm : (uprightHand label side x).showsPalm =
    if (uprightHand label side x).isLeft then less (-side) 0.0 else less 0.0 (-side) := by
  have hupright : less (uprightHand label side x).wrist.y (uprightHand label side x).middleBase.y = false := by
    have hlow : less (0.9 : ℝ) (0.4 : ℝ) = false := Bool.eq_false_iff.mpr (mt less_iff.mp (by norm_num))
    exact hlow
  have hstretched : (uprightHand label side x).stretchedFingers = 4 := by
    have htip : less (0.1 : ℝ) (0.3 : ℝ) := less_iff.mpr (by norm_num)
    refine List.countP_eq_length.mpr fun f hf => ?_
    simp only [Observation.fingers, List.mem_cons, List.not_mem_nil, or_false] at hf
    rcases hf with rfl | rfl | rfl | rfl <;> exact htip
  rw [Observation.showsPalm, hupright, hstretched, uprightHand_palmTurn]
  rfl

end

theorem leftHand_showsPalm (x : ℝ) : (leftHand x).showsPalm := by
  have hleft : (uprightHand "Right" 0.1 x).isLeft = true := rfl
  rw [leftHand, uprightHand_showsPalm, hleft, if_pos rfl, less_iff]
  norm_num

theorem rightHand_showsPalm (x : ℝ) : (rightHand x).showsPalm := by
  have hright : (uprightHand "Left" (-0.1) x).isLeft = false := rfl
  rw [rightHand, uprightHand_showsPalm, hright, if_neg Bool.false_ne_true, less_iff]
  norm_num

theorem backOfRightHand_showsPalm (x : ℝ) : (backOfRightHand x).showsPalm = false := by
  have hright : (uprightHand "Left" 0.1 x).isLeft = false := rfl
  rw [backOfRightHand, uprightHand_showsPalm, hright, if_neg Bool.false_ne_true, Bool.eq_false_iff, ne_eq, less_iff]
  norm_num

/-- What comes of an upright hand that shows its palm. -/
theorem update_uprightHand (s : HandState ℝ) {label : String} {side x : ℝ}
    (hpalm : (uprightHand label side x).showsPalm) :
    ∃ s' g, s.update (uprightHand label side x) = (s', some g) ∧ g.role = (uprightHand label side x).role ∧
      g.panX = (s'.smoothX - 0.5) * 2.0 ∧ g.isPinching = s'.isPinching ∧ s'.smoothX = blend s.smoothX x smoothing ∧
      s'.smoothPinch = blend s.smoothPinch 0 smoothing ∧ s'.isPinching = updatePinch s.isPinching s'.smoothPinch := by
  rw [HandState.update, hpalm, Bool.or_true, if_pos rfl]
  refine ⟨_, _, rfl, rfl, rfl, rfl, ?_, ?_, rfl⟩
  · exact congrArg (blend s.smoothX · smoothing) (uprightHand_palmCenter label side x)
  · have hpinch : ∀ o : Observation ℝ, o.pinch? = some 0 →
        (s.smooth o).smoothPinch = blend s.smoothPinch 0 smoothing := by
      intro o ho
      rw [HandState.smooth, ho]
    exact hpinch _ (uprightHand_pinch label side x)

end RepoOrbit
