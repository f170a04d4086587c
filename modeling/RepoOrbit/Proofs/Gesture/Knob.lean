import Mathlib
import RepoOrbit.Proofs.Gesture.Angles
import RepoOrbit.Proofs.Gesture.Events
import RepoOrbit.Proofs.Gesture.Histories
import RepoOrbit.Proofs.Gesture.Upright

/-!
# Turns of the knob

A knob angle is smoothed as a number, and only then is the way from the last smoothed angle
to this one brought within half a turn. Smoothed angles stay within half a turn of zero
(`HandState.KnobHeld`), so that the knob of a pinching hand turns by a part of the plain
difference between the angle seen and the last smoothed one (`KnobHeld.knobDelta_eq`). That
is a part of the way between the two (`Scalar.angleDelta`) as long as this way does not
cross the seam between `π` and `-π`; where it does, the knob turns further and the other way
round (`knob_turn_exact`). A hand that is held near the seam for some pictures and then
turned a little across it (`steadyCalls`, `seamHand`) shows that this happens
(`far_across_seam`).
-/

namespace RepoOrbit

namespace Scalar

/-- One full turn is enough for an angle that is no longer. -/
theorem turns_of_mem {d : ℝ} (hpos : 0 < d) (hle : d ≤ 2 * Real.pi) : turns d = 1 := by
  have hturn : 0 < 2 * Real.pi := by positivity
  rw [turns_eq, Nat.ceil_eq_iff one_ne_zero]
  refine ⟨?_, ?_⟩
  · simpa using div_pos hpos hturn
  · simpa using (div_le_one hturn).mpr hle

/-- Where two angles are further apart, it is shorter to go the other way round. -/
theorem angleDelta_of_gt {a b : ℝ} (h : Real.pi < a - b) (hle : a - b ≤ 2 * Real.pi) :
    angleDelta a b = a - b - 2 * Real.pi := by
  rw [angleDelta_eq_unwind h, turns_of_mem (Real.pi_pos.trans h) hle, unwind_of_gt h, unwind]

theorem angleDelta_of_lt {a b : ℝ} (h : a - b < -Real.pi) (hle : -(2 * Real.pi) ≤ a - b) :
    angleDelta a b = a - b + 2 * Real.pi := by
  rw [angleDelta_swap, angleDelta_of_gt (by linarith) (by linarith)]
  ring

/-- Of two angles less than a full turn apart, the way between them is the shorter one, and
goes the way of their difference or the other way round. -/
theorem angleDelta_cases {a b : ℝ} (h : |a - b| < 2 * Real.pi) :
    |a - b| ≤ Real.pi ∧ angleDelta a b = a - b ∨
      Real.pi < |a - b| ∧ |angleDelta a b| < |a - b| ∧ (a - b) * angleDelta a b < 0 := by
  have hpi := Real.pi_pos
  obtain ⟨hlow, hhigh⟩ := abs_lt.mp h
  by_cases hnear : |a - b| ≤ Real.pi
  · exact .inl ⟨hnear, angleDelta_of_abs_le hnear⟩
  · refine .inr ⟨not_le.mp hnear, ?_⟩
    rcases lt_abs.mp (not_le.mp hnear) with hgt | hlt
    · have hpos : 0 < a - b := hpi.trans hgt
      rw [angleDelta_of_gt hgt hhigh.le, abs_of_pos hpos]
      exact ⟨abs_lt.mpr ⟨by linarith, by linarith⟩, mul_neg_of_pos_of_neg (by linarith) (by linarith)⟩
    · have hneg : a - b < 0 := by linarith
      rw [angleDelta_of_lt (by linarith) hlow.le, abs_of_neg hneg]
      exact ⟨abs_lt.mpr ⟨by linarith, by linarith⟩, mul_neg_of_neg_of_pos (by linarith) (by linarith)⟩

end Scalar

open Scalar

theorem knobSmoothing_eq : (knobSmoothing : ℝ) = 0.3 := rfl

theorem knobSmoothing_pos : (0 : ℝ) < knobSmoothing := by norm_num [knobSmoothing_eq]

theorem Observation.abs_knobAngle_le (o : Observation ℝ) : |o.knobAngle| ≤ Real.pi :=
  Complex.abs_arg_le_pi _

namespace HandState

/-- What is known of the knob of a hand: its angle is smoothed from angles of half a turn at
most, and it is the angle that is kept while the hand pinches. -/
structure KnobHeld (s : HandState ℝ) : Prop where
  within : |s.smoothKnobAngle| < Real.pi
  kept : s.isPinching → s.lastKnobAngle = some s.smoothKnobAngle

theorem knobHeld_initial : (initial : HandState ℝ).KnobHeld := by
  have hzero : (initial : HandState ℝ).smoothKnobAngle = 0 := by norm_num [initial]
  refine ⟨?_, nofun⟩
  rw [hzero, abs_zero]
  exact Real.pi_pos

variable {s : HandState ℝ}

theorem KnobHeld.deactivate (h : s.KnobHeld) : s.deactivate.KnobHeld := ⟨h.within, nofun⟩

/-- A knob angle is smoothed by a part of its difference from the angle seen. -/
theorem smoothKnobAngle_smooth (s : HandState ℝ) (o : Observation ℝ) :
    (s.smooth o).smoothKnobAngle - s.smoothKnobAngle = knobSmoothing * (o.knobAngle - s.smoothKnobAngle) := by
  have hsmooth : (s.smooth o).smoothKnobAngle =
      s.smoothKnobAngle + (o.knobAngle - s.smoothKnobAngle) * knobSmoothing := rfl
  rw [hsmooth]
  ring

theorem KnobHeld.abs_sub_lt (h : s.KnobHeld) (o : Observation ℝ) :
    |o.knobAngle - s.smoothKnobAngle| < 2 * Real.pi := by
  calc |o.knobAngle - s.smoothKnobAngle| ≤ |o.knobAngle| + |s.smoothKnobAngle| := abs_sub _ _
    _ < 2 * Real.pi := by linarith [o.abs_knobAngle_le, h.within]

theorem KnobHeld.smooth_within (h : s.KnobHeld) (o : Observation ℝ) : |(s.smooth o).smoothKnobAngle| < Real.pi := by
  have hsub := s.smoothKnobAngle_smooth o
  have hangle := abs_le.mp o.abs_knobAngle_le
  have hwithin := abs_lt.mp h.within
  rw [knobSmoothing_eq] at hsub
  rw [abs_lt]
  constructor <;> linarith

theorem KnobHeld.update (h : s.KnobHeld) (o : Observation ℝ) : (s.update o).1.KnobHeld := by
  unfold HandState.update
  split
  · refine ⟨h.smooth_within o, fun hpinching => ?_⟩
    simp only [follow] at hpinching ⊢
    rw [if_pos hpinching]
  · exact h

/-- A gesture tells how far the knob has turned to the angle as it is smoothed now. -/
theorem knobDelta_of_update {s' : HandState ℝ} {o : Observation ℝ} {g : HandGesture ℝ}
    (h : s.update o = (s', some g)) :
    g.knobDelta = if s'.isPinching then s.turned (s.smooth o).smoothKnobAngle else 0.0 := by
  cases follow_of_update h
  rfl

section Turn

variable {s' : HandState ℝ} {o : Observation ℝ} {g : HandGesture ℝ}

theorem KnobHeld.knobDelta_eq (h : s.KnobHeld) (hwas : s.isPinching) (hupdate : s.update o = (s', some g))
    (hstill : s'.isPinching) : g.knobDelta = knobSmoothing * (o.knobAngle - s.smoothKnobAngle) := by
  have hsub := s.smoothKnobAngle_smooth o
  -- The smoothed angles are never half a turn apart, so no full turn is taken off or added.
  have hnear : |(s.smooth o).smoothKnobAngle - s.smoothKnobAngle| ≤ Real.pi := by
    rw [hsub, knobSmoothing_eq, abs_mul, abs_of_pos (by norm_num)]
    linarith [h.abs_sub_lt o, Real.pi_pos]
  rw [knobDelta_of_update hupdate, if_pos hstill, turned, hwas, h.kept hwas, ← hsub]
  exact angleDelta_of_abs_le hnear

theorem KnobHeld.abs_knobDelta_le_iff (h : s.KnobHeld) (hwas : s.isPinching) (hupdate : s.update o = (s', some g))
    (hstill : s'.isPinching) :
    |g.knobDelta| ≤ knobSmoothing * |angleDelta o.knobAngle s.smoothKnobAngle| ↔
      |o.knobAngle - s.smoothKnobAngle| ≤ Real.pi := by
  rw [h.knobDelta_eq hwas hupdate hstill, abs_mul, abs_of_pos knobSmoothing_pos,
    mul_le_mul_iff_right₀ knobSmoothing_pos]
  rcases angleDelta_cases (h.abs_sub_lt o) with ⟨hnear, heq⟩ | ⟨hfar, hless, -⟩
  · rw [heq]
    exact iff_of_true le_rfl hnear
  · exact iff_of_false (not_le.mpr hless) (not_le.mpr hfar)

theorem KnobHeld.same_sense_iff (h : s.KnobHeld) (hwas : s.isPinching) (hupdate : s.update o = (s', some g))
    (hstill : s'.isPinching) :
    0 ≤ g.knobDelta * angleDelta o.knobAngle s.smoothKnobAngle ↔ |o.knobAngle - s.smoothKnobAngle| ≤ Real.pi := by
  rw [h.knobDelta_eq hwas hupdate hstill, mul_assoc, mul_nonneg_iff_of_pos_left knobSmoothing_pos]
  rcases angleDelta_cases (h.abs_sub_lt o) with ⟨hnear, heq⟩ | ⟨hfar, -, hopposite⟩
  · rw [heq]
    exact iff_of_true (mul_self_nonneg _) hnear
  · exact iff_of_false (not_le.mpr hopposite) (not_le.mpr hfar)

end Turn

theorem knobHeld_lived (events : List (HandEvent ℝ)) : (lived events).KnobHeld :=
  lived_always knobHeld_initial (fun _ h => h.deactivate) (fun _ o h => h.update o) events

end HandState

namespace Interpreter

theorem knobHeld_sight (calls : List (Call ℝ)) (hands : List (Observation ℝ)) (r : Role) :
    ((((initial : Interpreter ℝ).after calls).sight hands).hands.get r).KnobHeld := by
  rw [get_sight]
  exact HandState.knobHeld_lived _

/-- While a hand goes on pinching, its knob turns by a part of the plain difference of the angle
seen from the smoothed one. That is no more than this part of the shorter way between the two,
and goes the same way, just if they are half a turn apart at most; beyond that the shorter way
crosses the seam, and the knob turns the other way round. -/
theorem knob_turn_exact (calls : List (Call ℝ)) (hands : List (Observation ℝ)) (o : Observation ℝ) {s s' : HandState ℝ}
    {g : HandGesture ℝ} (hs : (((initial : Interpreter ℝ).after calls).sight hands).hands.get o.role = s)
    (hwas : s.isPinching) (hupdate : s.update o = (s', some g)) (hstill : s'.isPinching) :
    g.knobDelta = knobSmoothing * (o.knobAngle - s.smoothKnobAngle) ∧
      (|g.knobDelta| ≤ knobSmoothing * |angleDelta o.knobAngle s.smoothKnobAngle| ↔
        |o.knobAngle - s.smoothKnobAngle| ≤ Real.pi) ∧
      (0 ≤ g.knobDelta * angleDelta o.knobAngle s.smoothKnobAngle ↔ |o.knobAngle - s.smoothKnobAngle| ≤ Real.pi) := by
  have hheld : s.KnobHeld := hs ▸ knobHeld_sight calls hands o.role
  exact ⟨hheld.knobDelta_eq hwas hupdate hstill, hheld.abs_knobDelta_le_iff hwas hupdate hstill,
    hheld.same_sense_iff hwas hupdate hstill⟩

end Interpreter

/-! ## A turn across the seam -/

/-- The left hand, its palm to the camera; the tip of the thumb is to the right of that of the
forefinger and below it. -/
noncomputable def seamHand (below : ℝ) : Observation ℝ :=
  { leftHand 0.5 with landmarks := (leftHand 0.5).landmarks.setIfInBounds 4 ⟨0.508, 0.1 + below, 0⟩ }

section

variable (below : ℝ)

theorem seamHand_showsPalm : (seamHand below).showsPalm := by
  have hpalm : (seamHand below).showsPalm = (leftHand 0.5).showsPalm := rfl
  rw [hpalm]
  exact leftHand_showsPalm 0.5

theorem seamHand_knobAngle : (seamHand below).knobAngle = Complex.arg ⟨-0.008, -below⟩ := by
  have hangle : (seamHand below).knobAngle = Complex.arg ⟨0.5 - 0.508, 0.1 - (0.1 + below)⟩ := rfl
  rw [hangle]
  congr 2 <;> norm_num

theorem seamHand_pinch {length : ℝ} (hlength : 0 ≤ length) (hsquare : length ^ 2 = 0.008 ^ 2 + below ^ 2) :
    (seamHand below).pinch? = some (length / 0.8) := by
  have hsize : (seamHand below).size = 0.8 := by
    have hupright : (seamHand below).size = (uprightHand "Right" 0.1 0.5).size := rfl
    rw [hupright, uprightHand_size]
  have hspan : (seamHand below).thumbTip.distanceTo (seamHand below).indexTip = length := by
    have hroot : (seamHand below).thumbTip.distanceTo (seamHand below).indexTip =
        Real.sqrt ((0.508 - 0.5) ^ 2 + (0.1 + below - 0.1) ^ 2) := rfl
    rw [hroot, Real.sqrt_eq_iff_mul_self_eq (by positivity) hlength, ← sq, hsquare]
    ring
  have hpositive : less (0.0 : ℝ) (0.8 : ℝ) := less_iff.mpr (by norm_num)
  rw [Observation.pinch?, hsize, hspan, if_pos hpositive]
  rfl

/-- What comes of a sight of the hand. -/
theorem update_seamHand (s : HandState ℝ) (length : ℝ) (hlength : 0 ≤ length)
    (hsquare : length ^ 2 = 0.008 ^ 2 + below ^ 2) :
    ∃ s' g, s.update (seamHand below) = (s', some g) ∧
      s'.smoothKnobAngle = blend s.smoothKnobAngle (seamHand below).knobAngle knobSmoothing ∧
      s'.smoothPinch = blend s.smoothPinch (length / 0.8) smoothing ∧
      s'.isPinching = updatePinch s.isPinching s'.smoothPinch := by
  have hpinch : (s.smooth (seamHand below)).smoothPinch = blend s.smoothPinch (length / 0.8) smoothing := by
    rw [HandState.smooth, seamHand_pinch below hlength hsquare]
  rw [HandState.update, seamHand_showsPalm, Bool.or_true, if_pos rfl]
  exact ⟨_, _, rfl, rfl, hpinch, rfl⟩

end

/-- A hand whose thumb stays beside the forefinger, to the right of it. -/
noncomputable def steadyCalls (n : Nat) : List (Interpreter.Call ℝ) := List.replicate n (.picture [seamHand 0])

theorem knobAngle_steady : (seamHand 0).knobAngle = Real.pi := by
  have hleft : (⟨-0.008, -0⟩ : ℂ) = ((-0.008 : ℝ) : ℂ) := by
    rw [neg_zero]
    rfl
  rw [seamHand_knobAngle, hleft]
  exact Complex.arg_ofReal_of_neg (by norm_num)

namespace Interpreter

/-- What is known of the left hand after some pictures of it. -/
noncomputable def steady (n : Nat) : HandState ℝ := ((initial : Interpreter ℝ).after (steadyCalls n)).get .left

theorem steady_succ (n : Nat) :
    (steady (n + 1)).smoothKnobAngle = blend (steady n).smoothKnobAngle Real.pi knobSmoothing ∧
      (steady (n + 1)).smoothPinch = blend (steady n).smoothPinch 0.01 smoothing ∧
      (steady (n + 1)).isPinching = updatePinch (steady n).isPinching (steady (n + 1)).smoothPinch := by
  obtain ⟨s', g, hupdate, hknob, hpinch, hpinching⟩ :=
    update_seamHand 0 (steady n) 0.008 (by norm_num) (by norm_num)
  have hsucc : steadyCalls (n + 1) = steadyCalls n ++ [.picture [seamHand 0]] := List.replicate_succ'
  have hs' : steady (n + 1) = s' := by
    have hprocess := process_alone (i := (initial : Interpreter ℝ).after (steadyCalls n)) (o := seamHand 0) hupdate
    rw [steady, hsucc, after_concat, take, hprocess]
    exact PerRole.get_set_self _ .left s'
  have hlength : (0.008 / 0.8 : ℝ) = 0.01 := by norm_num
  rw [hs', ← knobAngle_steady, ← hlength]
  exact ⟨hknob, hpinch, hpinching⟩

/-- The pinch grows tighter and the knob angle comes closer to half a turn with every picture. -/
theorem steady_eq (n : Nat) :
    (steady n).smoothPinch = 0.01 + 0.99 * 0.75 ^ n ∧ (steady n).smoothKnobAngle = Real.pi * (1 - 0.7 ^ n) := by
  induction n with
  | zero =>
    have hinitial : steady 0 = HandState.initial := rfl
    rw [hinitial]
    constructor <;> norm_num [HandState.initial]
  | succ n ih =>
    obtain ⟨hknob, hpinch, -⟩ := steady_succ n
    have hsmoothing : (smoothing : ℝ) = 0.25 := rfl
    rw [hknob, hpinch, ih.1, ih.2, blend, blend, hsmoothing, knobSmoothing_eq]
    constructor <;> ring

theorem updatePinch_of_lt {was : Bool} {d : ℝ} (h : d < 0.22) : updatePinch was d := by
  have henter : less d (pinchEnter : ℝ) := less_iff.mpr h
  have hexit : less d (pinchExit : ℝ) := less_iff.mpr (h.trans (by norm_num [pinchExit]))
  rw [updatePinch]
  split
  · exact hexit
  · exact henter

theorem steady_isPinching : (steady 6).isPinching := by
  obtain ⟨-, -, hpinching⟩ := steady_succ 5
  rw [hpinching]
  refine updatePinch_of_lt ?_
  rw [(steady_eq 6).1]
  norm_num

/-- The hand turns across the seam, and is still pinching. -/
theorem update_steady : ∃ s' g, (steady 6).update (seamHand 0.006) = (s', some g) ∧ s'.isPinching := by
  obtain ⟨s', g, hupdate, -, hpinch, hpinching⟩ :=
    update_seamHand 0.006 (steady 6) 0.01 (by norm_num) (by norm_num)
  refine ⟨s', g, hupdate, ?_⟩
  rw [hpinching]
  refine updatePinch_of_lt ?_
  have hsmoothing : (smoothing : ℝ) = 0.25 := rfl
  rw [hpinch, (steady_eq 6).1, blend, hsmoothing]
  norm_num

/-- From the smoothed angle to the angle seen it is more than half a turn down. -/
theorem far_across_seam : Real.pi < |(seamHand 0.006).knobAngle - (steady 6).smoothKnobAngle| := by
  have hseen : (seamHand 0.006).knobAngle < -(Real.pi / 2) := by
    rw [seamHand_knobAngle, ← not_le, Complex.neg_pi_div_two_le_arg_iff]
    norm_num
  have hsmooth : Real.pi / 2 < (steady 6).smoothKnobAngle := by
    rw [(steady_eq 6).2]
    linarith [Real.pi_pos]
  rw [lt_abs]
  right
  linarith

/-- A hand that turns across the seam turns the knob the other way round. -/
theorem knob_turn_exact_seam :
    ∃ s' g, (steady 6).update (seamHand 0.006) = (s', some g) ∧ (steady 6).isPinching ∧ s'.isPinching ∧
      knobSmoothing * |angleDelta (seamHand 0.006).knobAngle (steady 6).smoothKnobAngle| < |g.knobDelta| ∧
        g.knobDelta * angleDelta (seamHand 0.006).knobAngle (steady 6).smoothKnobAngle < 0 := by
  obtain ⟨s', g, hupdate, hstill⟩ := update_steady
  obtain ⟨-, hbound, hsense⟩ :=
    knob_turn_exact (steadyCalls 6) [] (seamHand 0.006) rfl steady_isPinching hupdate hstill
  have hfar := not_le.mpr far_across_seam
  exact ⟨s', g, hupdate, steady_isPinching, hstill, not_le.mp (mt hbound.mp hfar), not_le.mp (mt hsense.mp hfar)⟩

/-- It is false that a knob never turns further than the smoothed part of the shorter way. -/
theorem knob_turn_not_always_bounded :
    ¬ ∀ (calls : List (Call ℝ)) (hands : List (Observation ℝ)) (o : Observation ℝ) (s s' : HandState ℝ)
        (g : HandGesture ℝ),
      (((initial : Interpreter ℝ).after calls).sight hands).hands.get o.role = s → s.isPinching →
        s.update o = (s', some g) → s'.isPinching →
          |g.knobDelta| ≤ knobSmoothing * |angleDelta o.knobAngle s.smoothKnobAngle| := by
  intro h
  obtain ⟨s', g, hupdate, hstill⟩ := update_steady
  have hheld : (steady 6).KnobHeld := knobHeld_sight (steadyCalls 6) [] .left
  have hbound := h (steadyCalls 6) [] (seamHand 0.006) (steady 6) s' g rfl steady_isPinching hupdate hstill
  exact not_le.mpr far_across_seam ((hheld.abs_knobDelta_le_iff steady_isPinching hupdate hstill).mp hbound)

end Interpreter

end RepoOrbit
