import RepoOrbit.Proofs.Gesture.Exact
import RepoOrbit.Proofs.Rounds

/-!
# The way between two angles

Over the reals the number of rounds that an angle is given suffices: full turns are taken off it
until none is left to take off (`loopEnds_unwind_turns`), and adding full turns is the same in a
mirror (`rewind_eq_neg`). Only one of the two loops does anything: where the first one takes turns
off, it stops less than half a turn back, and where it takes none off, the second one is the first
in a mirror (`angleDelta_eq_unwind`, `angleDelta_eq_neg_unwind`). So the way from one angle to
another is the way back, the other way round, and that also where both are half a turn.

* `angleDelta_exact`: the way between two angles is their difference up to full turns, half a turn
  at most, and no such difference is shorter.
-/

namespace RepoOrbit.Scalar

theorem fullTurn_eq : (fullTurn : ℝ) = 2 * Real.pi := by
  norm_num [fullTurn, pi_eq]

theorem turns_eq (x : ℝ) : turns x = ⌈x / (2 * Real.pi)⌉₊ := rfl

/-- An angle is no longer than the turns that are counted for it. -/
theorem le_turns_mul (d : ℝ) : d ≤ turns d * (2 * Real.pi) := by
  rw [turns_eq, ← div_le_iff₀ (by positivity)]
  exact Nat.le_ceil _

/-! ## Taking full turns off -/

theorem unwind_of_le {d : ℝ} (h : d ≤ Real.pi) (n : Nat) : unwind n d = d := by
  cases n with
  | zero => rfl
  | succ n => rw [unwind, pi_eq, if_neg (mt less_iff.mp (not_lt.mpr h))]

theorem unwind_of_gt {d : ℝ} (h : Real.pi < d) (n : Nat) : unwind (n + 1) d = unwind n (d - 2 * Real.pi) := by
  rw [unwind, pi_eq, if_pos (less_iff.mpr h), fullTurn_eq]

/-- Enough rounds take off all that there is to take off. -/
theorem loopEnds_unwind {n : Nat} {d : ℝ} (h : d ≤ Real.pi + n * (2 * Real.pi)) :
    ∃ rounds, LoopEnds (Real.pi < ·) (· - 2 * Real.pi) rounds d (unwind n d) := by
  induction n generalizing d with
  | zero =>
    rw [Nat.cast_zero, zero_mul, add_zero] at h
    exact ⟨0, .stop (not_lt.mpr h)⟩
  | succ n ih =>
    by_cases hd : Real.pi < d
    · have hrest : d - 2 * Real.pi ≤ Real.pi + n * (2 * Real.pi) := by
        push_cast at h
        linarith
      obtain ⟨rounds, hends⟩ := ih hrest
      refine ⟨rounds + 1, .round hd ?_⟩
      rw [unwind_of_gt hd]
      exact hends
    · refine ⟨0, ?_⟩
      rw [unwind_of_le (not_lt.mp hd)]
      exact .stop hd

theorem loopEnds_unwind_turns (d : ℝ) :
    ∃ rounds, LoopEnds (Real.pi < ·) (· - 2 * Real.pi) rounds d (unwind (turns d) d) :=
  loopEnds_unwind (by linarith [le_turns_mul d, Real.pi_pos])

theorem unwind_turns_le (d : ℝ) : unwind (turns d) d ≤ Real.pi := by
  obtain ⟨_, hends⟩ := loopEnds_unwind_turns d
  exact not_lt.mp hends.not_again

/-- A turn is only taken off an angle of more than half a turn. -/
theorem lt_unwind_turns {d : ℝ} (h : -Real.pi < d) : -Real.pi < unwind (turns d) d := by
  obtain ⟨_, hends⟩ := loopEnds_unwind_turns d
  exact hends.keeps (-Real.pi < ·) (fun z hz _ => by linarith) h

theorem exists_unwind_turns_eq (d : ℝ) : ∃ k : ℤ, unwind (turns d) d = d + k * (2 * Real.pi) := by
  obtain ⟨_, hends⟩ := loopEnds_unwind_turns d
  refine hends.keeps (fun z => ∃ k : ℤ, z = d + k * (2 * Real.pi)) ?_ ⟨0, by simp⟩
  rintro _ - ⟨k, rfl⟩
  refine ⟨k - 1, ?_⟩
  push_cast
  ring

/-! ## Adding full turns -/

/-- Adding full turns is taking them off in a mirror. -/
theorem rewind_eq_neg (n : Nat) (d : ℝ) : rewind n d = -unwind n (-d) := by
  induction n generalizing d with
  | zero => rw [rewind, unwind, neg_neg]
  | succ n ih =>
    by_cases hd : d < -Real.pi
    · have hmirror : -d - 2 * Real.pi = -(d + 2 * Real.pi) := by ring
      rw [rewind, pi_eq, if_pos (less_iff.mpr hd), fullTurn_eq, ih, unwind_of_gt (lt_neg.mp hd), hmirror]
    · rw [rewind, pi_eq, if_neg (mt less_iff.mp hd), unwind_of_le (neg_le.mp (not_lt.mp hd)), neg_neg]

theorem rewind_of_le {d : ℝ} (h : -Real.pi ≤ d) (n : Nat) : rewind n d = d := by
  rw [rewind_eq_neg, unwind_of_le (neg_le.mp h), neg_neg]

theorem loopEnds_rewind_turns (d : ℝ) :
    ∃ rounds, LoopEnds (· < -Real.pi) (· + 2 * Real.pi) rounds d (rewind (turns (-d)) d) := by
  obtain ⟨rounds, hends⟩ := loopEnds_unwind_turns (-d)
  have hmirror : LoopEnds (· < -Real.pi) (· + 2 * Real.pi) rounds (- -d) (-unwind (turns (-d)) (-d)) :=
    hends.map (-·) (fun z => neg_lt_neg_iff) (fun z => by ring)
  rw [neg_neg, ← rewind_eq_neg] at hmirror
  exact ⟨rounds, hmirror⟩

/-! ## The way between two angles -/

section

variable {a b : ℝ}

/-- Where the first loop takes turns off, the second one has nothing to add. -/
theorem angleDelta_eq_unwind (h : Real.pi < a - b) : angleDelta a b = unwind (turns (a - b)) (a - b) := by
  have hpi := Real.pi_pos
  exact rewind_of_le (lt_unwind_turns (by linarith)).le _

/-- Where it takes none off, the second loop does the same in a mirror. -/
theorem angleDelta_eq_neg_unwind (h : a - b ≤ Real.pi) : angleDelta a b = -unwind (turns (b - a)) (b - a) := by
  rw [angleDelta, unwind_of_le h, rewind_eq_neg, neg_sub]

/-- Where two angles are half a turn apart at most, the way between them is their difference. -/
theorem angleDelta_of_abs_le (h : |a - b| ≤ Real.pi) : angleDelta a b = a - b := by
  obtain ⟨hlow, hhigh⟩ := abs_le.mp h
  rw [angleDelta_eq_neg_unwind hhigh, unwind_of_le (by linarith), neg_sub]

/-- The way back is the same way, the other way round. -/
theorem angleDelta_swap (a b : ℝ) : angleDelta b a = -angleDelta a b := by
  have hpi := Real.pi_pos
  by_cases h : Real.pi < a - b
  · rw [angleDelta_eq_unwind h, angleDelta_eq_neg_unwind (by linarith)]
  · by_cases h' : Real.pi < b - a
    · rw [angleDelta_eq_unwind h', angleDelta_eq_neg_unwind (not_lt.mp h), neg_neg]
    · have hnear : |a - b| ≤ Real.pi := abs_le.mpr ⟨by linarith, by linarith⟩
      rw [angleDelta_of_abs_le hnear, angleDelta_of_abs_le (by rwa [abs_sub_comm]), neg_sub]

/-- The way to an angle that is not behind is more than half a turn back, and half a turn on at most. -/
theorem angleDelta_mem_Ioc (h : b ≤ a) : angleDelta a b ∈ Set.Ioc (-Real.pi) Real.pi := by
  have hpi := Real.pi_pos
  by_cases hfar : Real.pi < a - b
  · rw [angleDelta_eq_unwind hfar]
    exact ⟨lt_unwind_turns (by linarith), unwind_turns_le _⟩
  · rw [angleDelta_of_abs_le (abs_le.mpr ⟨by linarith, not_lt.mp hfar⟩)]
    exact ⟨by linarith, not_lt.mp hfar⟩

theorem abs_angleDelta_le (a b : ℝ) : |angleDelta a b| ≤ Real.pi := by
  rcases le_total b a with h | h
  · obtain ⟨hlow, hhigh⟩ := angleDelta_mem_Ioc h
    exact abs_le.mpr ⟨hlow.le, hhigh⟩
  · obtain ⟨hlow, hhigh⟩ := angleDelta_mem_Ioc h
    rw [angleDelta_swap, abs_neg]
    exact abs_le.mpr ⟨hlow.le, hhigh⟩

theorem exists_angleDelta_eq (a b : ℝ) : ∃ k : ℤ, angleDelta a b = a - b + k * (2 * Real.pi) := by
  by_cases h : Real.pi < a - b
  · rw [angleDelta_eq_unwind h]
    exact exists_unwind_turns_eq _
  · obtain ⟨k, hk⟩ := exists_unwind_turns_eq (b - a)
    refine ⟨-k, ?_⟩
    rw [angleDelta_eq_neg_unwind (not_lt.mp h), hk]
    push_cast
    ring

end

/-- An angle of half a turn at most is not made shorter by full turns. -/
theorem abs_le_abs_add_turns {d : ℝ} (h : |d| ≤ Real.pi) (k : ℤ) : |d| ≤ |d + k * (2 * Real.pi)| := by
  rcases eq_or_ne k 0 with rfl | hk
  · simp
  · have hturns : 2 * Real.pi ≤ |(k : ℝ) * (2 * Real.pi)| := by
      have hone : (1 : ℝ) ≤ |(k : ℝ)| := by exact_mod_cast Int.one_le_abs hk
      rw [abs_mul, abs_of_pos (by positivity : 0 < 2 * Real.pi)]
      exact le_mul_of_one_le_left (by positivity) hone
    have hsub : |(k : ℝ) * (2 * Real.pi)| ≤ |d + k * (2 * Real.pi)| + |d| := by
      calc |(k : ℝ) * (2 * Real.pi)| = |d + k * (2 * Real.pi) - d| := by rw [add_sub_cancel_left]
        _ ≤ |d + k * (2 * Real.pi)| + |d| := abs_sub _ _
    linarith

/-- The way from one angle to another is found: both loops end. It is the difference of the angles
up to full turns, half a turn at most, and of all such differences none is shorter; and the way back
is the same way, the other way round. -/
theorem angleDelta_exact (a b : ℝ) :
    (∃ off on d, LoopEnds (Real.pi < ·) (· - 2 * Real.pi) off (a - b) d ∧
      LoopEnds (· < -Real.pi) (· + 2 * Real.pi) on d (angleDelta a b)) ∧
      angleDelta a b ∈ Set.Icc (-Real.pi) Real.pi ∧
      (∃ k : ℤ, angleDelta a b = a - b + k * (2 * Real.pi)) ∧
      (∀ k : ℤ, |angleDelta a b| ≤ |a - b + k * (2 * Real.pi)|) ∧
      angleDelta b a = -angleDelta a b := by
  have hnear := abs_angleDelta_le a b
  obtain ⟨k, hk⟩ := exists_angleDelta_eq a b
  refine ⟨?_, abs_le.mp hnear, ⟨k, hk⟩, fun j => ?_, angleDelta_swap a b⟩
  · obtain ⟨off, hoff⟩ := loopEnds_unwind_turns (a - b)
    obtain ⟨on, hon⟩ := loopEnds_rewind_turns (unwind (turns (a - b)) (a - b))
    exact ⟨off, on, _, hoff, hon⟩
  · have hother : a - b + j * (2 * Real.pi) = angleDelta a b + (j - k : ℤ) * (2 * Real.pi) := by
      rw [hk]
      push_cast
      ring
    rw [hother]
    exact abs_le_abs_add_turns hnear _

end RepoOrbit.Scalar
