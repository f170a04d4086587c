import Mathlib.Analysis.Convex.Basic
import Mathlib.Analysis.SpecialFunctions.Complex.Arg
import RepoOrbit.Gesture.Scalar

/-!
# Exact numbers

Hands and the camera over the real numbers, where nothing is rounded and every number
is finite. `Scalar.less_iff`, `same_iff`, `clamp_eq` and `blend_mem` say what the operations on
them are.
-/

namespace RepoOrbit

namespace Scalar

noncomputable instance : Scalar ℝ where
  less a b := decide (a < b)
  same a b := decide (a = b)
  isFinite _ := true
  isInfinite _ := false
  pi := Real.pi
  sin := Real.sin
  cos := Real.cos
  angle y x := Complex.arg ⟨x, y⟩
  distance a b := Real.sqrt (a ^ 2 + b ^ 2)
  turns x := ⌈x / (2 * Real.pi)⌉₊

@[simp] theorem less_iff {a b : ℝ} : less a b = true ↔ a < b := decide_eq_true_iff

@[simp] theorem same_iff {a b : ℝ} : same a b = true ↔ a = b := decide_eq_true_iff

theorem pi_eq : (pi : ℝ) = Real.pi := rfl

theorem clamp_eq (x low high : ℝ) : clamp x low high = max low (min high x) := by
  have htop : (if less x high then x else high) = min high x := by
    by_cases h : x < high
    · rw [if_pos (less_iff.mpr h), min_eq_right h.le]
    · rw [if_neg (mt less_iff.mp h), min_eq_left (not_lt.mp h)]
  unfold clamp
  dsimp only
  rw [htop]
  by_cases h : low < min high x
  · rw [if_pos (less_iff.mpr h), max_eq_right h.le]
  · rw [if_neg (mt less_iff.mp h), max_eq_left (not_lt.mp h)]

theorem clamp_mem {low high : ℝ} (h : low ≤ high) (x : ℝ) : clamp x low high ∈ Set.Icc low high := by
  rw [clamp_eq]
  exact ⟨le_max_left _ _, max_le h (min_le_left _ _)⟩

/-- A range, open or not, holds the way between any two numbers in it. -/
theorem blend_mem_of_convex {s : Set ℝ} (hs : Convex ℝ s) {a b t : ℝ} (ha : a ∈ s) (hb : b ∈ s)
    (ht : t ∈ Set.Icc 0 1) : blend a b t ∈ s := by
  have hway := hs.add_smul_sub_mem ha hb ht
  rwa [smul_eq_mul, mul_comm] at hway

theorem blend_mem {a b low high t : ℝ} (ha : a ∈ Set.Icc low high) (hb : b ∈ Set.Icc low high)
    (ht : t ∈ Set.Icc 0 1) : blend a b t ∈ Set.Icc low high :=
  blend_mem_of_convex (convex_Icc low high) ha hb ht

end Scalar

end RepoOrbit
