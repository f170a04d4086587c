import RepoOrbit.Proofs.Gesture.Knob
import RepoOrbit.Proofs.Gesture.Activity

/-!
# Gestures in their ranges

Where all points of the hands lie in the picture (`Observation.InPicture`), what is smoothed of a
hand stays in the range of what is seen of it (`HandState.InRange`): each sight goes part of the way
from one number of the range to another (`Scalar.blend_mem`), and a hand without a size leaves the
pinch as it is. So every gesture is in its range (`gestures_in_range`).
-/

namespace RepoOrbit

open Scalar

/-! ## What is seen -/

/-- A point lies in the picture. -/
structure Landmark.InPicture (p : Landmark ℝ) : Prop where
  x : p.x ∈ Set.Icc 0 1
  y : p.y ∈ Set.Icc 0 1

/-- All points of a hand lie in the picture. -/
def Observation.InPicture (o : Observation ℝ) : Prop := ∀ p ∈ o.landmarks, p.InPicture

/-- All hands of a picture lie in it. -/
def Interpreter.Call.InPicture : Interpreter.Call ℝ → Prop
  | .picture hands => ∀ o ∈ hands, o.InPicture
  | .reset | .clear => True

/-- Two points of a picture are no further from each other than its corners. -/
theorem Landmark.InPicture.distanceTo_mem {p q : Landmark ℝ} (hp : p.InPicture) (hq : q.InPicture) :
    p.distanceTo q ∈ Set.Icc 0 √2 := by
  have hx : |p.x - q.x| ≤ 1 := abs_sub_le_of_nonneg_of_le hp.x.1 hp.x.2 hq.x.1 hq.x.2
  have hy : |p.y - q.y| ≤ 1 := abs_sub_le_of_nonneg_of_le hp.y.1 hp.y.2 hq.y.1 hq.y.2
  have hlength : p.distanceTo q = √((p.x - q.x) ^ 2 + (p.y - q.y) ^ 2) := rfl
  rw [hlength]
  refine ⟨Real.sqrt_nonneg _, Real.sqrt_le_sqrt ?_⟩
  have hx2 := (sq_le_one_iff_abs_le_one _).mpr hx
  have hy2 := (sq_le_one_iff_abs_le_one _).mpr hy
  linarith

theorem mean5_mem {a b c d e : ℝ} (ha : a ∈ Set.Icc 0 1) (hb : b ∈ Set.Icc 0 1) (hc : c ∈ Set.Icc 0 1)
    (hd : d ∈ Set.Icc 0 1) (he : e ∈ Set.Icc 0 1) : mean5 a b c d e ∈ Set.Icc 0 1 := by
  have hmean : mean5 a b c d e = (a + b + c + d + e) / 5 := by norm_num [mean5]
  rw [Set.mem_Icc] at *
  rw [hmean]
  constructor <;> linarith

namespace Observation

variable {o : Observation ℝ}

theorem InPicture.palmCenter_mem (h : o.InPicture) : o.palmCenter.x ∈ Set.Icc 0 1 ∧ o.palmCenter.y ∈ Set.Icc 0 1 := by
  have hpoint : ∀ (i : Nat) (hi : i < 21), (o.landmarks[i]).InPicture := fun i hi => h _ (Vector.getElem_mem hi)
  exact ⟨mean5_mem (hpoint 0 _).x (hpoint 5 _).x (hpoint 9 _).x (hpoint 13 _).x (hpoint 17 _).x,
    mean5_mem (hpoint 0 _).y (hpoint 5 _).y (hpoint 9 _).y (hpoint 13 _).y (hpoint 17 _).y⟩

theorem InPicture.size_mem (h : o.InPicture) : o.size ∈ Set.Icc 0 √2 :=
  (h _ (Vector.getElem_mem _)).distanceTo_mem (h _ (Vector.getElem_mem _))

/-- A pinch has a distance that is not negative, and a hand without a size has none. -/
theorem nonneg_of_pinch? {p : ℝ} (h : o.pinch? = some p) : 0 ≤ p := by
  unfold pinch? at h
  split at h
  · rename_i hless
    have hsize : 0 < o.size := by
      rw [less_iff] at hless
      norm_num at hless
      exact hless
    obtain rfl : o.thumbTip.distanceTo o.indexTip / o.size = p := Option.some.inj h
    exact div_nonneg (Real.sqrt_nonneg _) hsize.le
  · cases h

end Observation

/-! ## What is smoothed -/

theorem smoothing_mem : (smoothing : ℝ) ∈ Set.Icc 0 1 := by norm_num [smoothing]

theorem knobSmoothing_mem : (knobSmoothing : ℝ) ∈ Set.Icc 0 1 := by norm_num [knobSmoothing]

namespace HandState

/-- What is smoothed of a hand is in its range. -/
structure InRange (s : HandState ℝ) : Prop where
  x : s.smoothX ∈ Set.Icc 0 1
  y : s.smoothY ∈ Set.Icc 0 1
  handSize : s.smoothHandSize ∈ Set.Icc 0 √2
  pinch : 0 ≤ s.smoothPinch
  knobAngle : s.smoothKnobAngle ∈ Set.Icc (-Real.pi) Real.pi

theorem inRange_initial : (initial : HandState ℝ).InRange := by
  have hroot : (1 : ℝ) ≤ √2 := Real.one_le_sqrt.mpr one_le_two
  have hpi := Real.pi_pos
  constructor <;> norm_num [initial]
  · linarith
  · exact hpi.le

variable {s : HandState ℝ} {o : Observation ℝ}

theorem InRange.deactivate (h : s.InRange) : s.deactivate.InRange := ⟨h.x, h.y, h.handSize, h.pinch, h.knobAngle⟩

theorem InRange.smoothPinch_nonneg (h : s.InRange) (o : Observation ℝ) : 0 ≤ (s.smooth o).smoothPinch := by
  cases hpinch : o.pinch? with
  | none =>
    rw [HandState.smooth, hpinch]
    exact h.pinch
  | some p =>
    have hp : 0 ≤ p := Observation.nonneg_of_pinch? hpinch
    rw [HandState.smooth, hpinch]
    exact blend_mem_of_convex (convex_Ici 0) h.pinch hp smoothing_mem

theorem InRange.smooth (h : s.InRange) (ho : o.InPicture) : (s.smooth o).InRange where
  x := blend_mem h.x ho.palmCenter_mem.1 smoothing_mem
  y := blend_mem h.y ho.palmCenter_mem.2 smoothing_mem
  handSize := blend_mem h.handSize ho.size_mem smoothing_mem
  pinch := h.smoothPinch_nonneg o
  knobAngle := blend_mem h.knobAngle (abs_le.mp o.abs_knobAngle_le) knobSmoothing_mem

theorem InRange.update (h : s.InRange) (ho : o.InPicture) : (s.update o).1.InRange := by
  have hsmooth := h.smooth ho
  unfold HandState.update
  split
  · exact ⟨hsmooth.x, hsmooth.y, hsmooth.handSize, hsmooth.pinch, hsmooth.knobAngle⟩
  · exact h

end HandState

/-! ## Gestures -/

/-- Where a gesture points, and how far it turns the knob, is in its range. -/
structure HandGesture.InRange (g : HandGesture ℝ) : Prop where
  panX : g.panX ∈ Set.Icc (-1) 1
  panY : g.panY ∈ Set.Icc (-1) 1
  knobDelta : |g.knobDelta| ≤ Real.pi

namespace HandState

variable {s s' : HandState ℝ} {o : Observation ℝ} {g : HandGesture ℝ}

theorem pan_of_update (h : s.update o = (s', some g)) :
    g.panX = (s'.smoothX - 0.5) * 2.0 ∧ g.panY = -(s'.smoothY - 0.5) * 2.0 := by
  cases follow_of_update h
  exact ⟨rfl, rfl⟩

/-- A knob never turns further than half a turn. -/
theorem KnobHeld.abs_knobDelta_le (h : s.KnobHeld) (hupdate : s.update o = (s', some g)) : |g.knobDelta| ≤ Real.pi := by
  have hpi := Real.pi_pos
  have hzero : |(0.0 : ℝ)| ≤ Real.pi := by
    norm_num
    exact hpi.le
  by_cases hstill : s'.isPinching
  · by_cases hwas : s.isPinching
    · rw [h.knobDelta_eq hwas hupdate hstill, abs_mul, abs_of_pos knobSmoothing_pos, knobSmoothing_eq]
      linarith [h.abs_sub_lt o]
    · rw [knobDelta_of_update hupdate, if_pos hstill, turned, Bool.eq_false_iff.mpr hwas]
      exact hzero
  · rw [knobDelta_of_update hupdate, if_neg hstill]
    exact hzero

theorem InRange.gesture (h : s.InRange) (hknob : s.KnobHeld) (ho : o.InPicture) (hupdate : s.update o = (s', some g)) :
    g.InRange := by
  have hafter := h.update ho
  rw [hupdate] at hafter
  obtain ⟨hpanX, hpanY⟩ := pan_of_update hupdate
  have hx := hafter.x
  have hy := hafter.y
  rw [Set.mem_Icc] at hx hy
  refine ⟨?_, ?_, hknob.abs_knobDelta_le hupdate⟩
  · rw [hpanX, Set.mem_Icc]
    norm_num
    constructor <;> linarith
  · rw [hpanY, Set.mem_Icc]
    norm_num
    constructor <;> linarith

end HandState

namespace Interpreter

theorem inRange_lived {calls : List (Call ℝ)} {hands : List (Observation ℝ)} (hcalls : ∀ call ∈ calls, call.InPicture)
    (hhands : ∀ o ∈ hands, o.InPicture) (r : Role) : (HandState.lived (history calls hands r)).InRange := by
  refine HandState.lived_keeps (Q := Observation.InPicture) HandState.inRange_initial (fun _ h => h.deactivate)
    (fun _ _ ho h => h.update ho) fun o ho => ?_
  rcases mem_history ho with ⟨seen, hseen, hmem⟩ | hmem
  · exact hcalls _ hseen o hmem
  · exact hhands o hmem

/-- In a run in which all points of the hands lie in the picture, what is smoothed of both hands
is in its range after each call, and so is every gesture that a picture tells. -/
theorem gestures_in_range {calls : List (Call ℝ)} (hcalls : ∀ call ∈ calls, call.InPicture) :
    (∀ r, (((initial : Interpreter ℝ).after calls).get r).InRange) ∧
      ∀ hands : List (Observation ℝ), (∀ o ∈ hands, o.InPicture) → ∀ g,
        .gesture g ∈ (((initial : Interpreter ℝ).after calls).process hands).2 → g.InRange := by
  refine ⟨fun r => ?_, fun hands hhands g hg => ?_⟩
  · rw [get_after]
    exact inRange_lived hcalls (by simp) r
  · obtain ⟨before, o, later, s', rfl, hupdate⟩ := exists_of_gesture_mem hg
    have hbefore := inRange_lived hcalls (fun o' ho' => hhands o' (List.mem_append_left _ ho')) o.role
    exact hbefore.gesture (HandState.knobHeld_lived _) (hhands o (by simp)) hupdate

/-- A hand that has no size: all its points lie at one place. -/
noncomputable def pointHand : Observation ℝ := ⟨Vector.replicate 21 ⟨0.5, 0.5, 0⟩, "Right"⟩

theorem pointHand_inPicture : pointHand.InPicture := by
  intro p hp
  obtain ⟨-, rfl⟩ := Vector.mem_replicate.mp hp
  constructor <;> norm_num

theorem pointHand_size : pointHand.size = 0 := by
  have hlength : pointHand.size = √((0.5 - 0.5) ^ 2 + (0.5 - 0.5) ^ 2) := rfl
  rw [hlength, sub_self, zero_pow two_ne_zero, zero_add, Real.sqrt_zero]

theorem leftHand_inPicture : (leftHand 0.5).InPicture := by
  have hmiddle : ∀ y ∈ ({0.9, 0.4, 0.3, 0.1} : Set ℝ), (⟨0.5, y, 0⟩ : Landmark ℝ).InPicture := by
    rintro y (rfl | rfl | rfl | rfl) <;> constructor <;> norm_num
  have hindex : (⟨0.5 + 0.1, 0.4, 0⟩ : Landmark ℝ).InPicture := by constructor <;> norm_num
  have hsmall : (⟨0.5 - 0.1, 0.4, 0⟩ : Landmark ℝ).InPicture := by constructor <;> norm_num
  simp only [Observation.InPicture, leftHand, uprightHand, Vector.mem_mk, List.mem_toArray, List.forall_mem_cons]
  simp [hmiddle, hindex, hsmall]

/-- The left hand shows its palm, and then has no size. -/
theorem gestures_in_range_pointHand :
    (leftHand 0.5).InPicture ∧ pointHand.InPicture ∧ pointHand.size = 0 ∧
      (((initial : Interpreter ℝ).after [.picture [leftHand 0.5]]).get .left).InRange ∧
      ∃ g, (((initial : Interpreter ℝ).after [.picture [leftHand 0.5]]).process [pointHand]).2 = [.gesture g] ∧
        g.InRange := by
  have hcalls : ∀ call ∈ [Call.picture [leftHand 0.5]], call.InPicture := by
    simp only [List.forall_mem_singleton]
    exact fun o ho => List.mem_singleton.mp ho ▸ leftHand_inPicture
  obtain ⟨hstate, hgesture⟩ := gestures_in_range hcalls
  have hactive : (((initial : Interpreter ℝ).after [.picture [leftHand 0.5]]).get .left).isActive := by
    rw [isActive_after]
    exact ⟨[], [leftHand 0.5], [], rfl, by simp, leftHand 0.5, by simp, rfl, leftHand_showsPalm 0.5⟩
  obtain ⟨s', g, hupdate, -⟩ := HandState.update_of_follows (o := pointHand) (Bool.or_eq_true _ _ |>.mpr (.inl hactive))
  have hprocess := process_alone (o := pointHand) hupdate
  refine ⟨leftHand_inPicture, pointHand_inPicture, pointHand_size, hstate .left, g, by rw [hprocess]; rfl, ?_⟩
  exact hgesture [pointHand] (by simpa using pointHand_inPicture) g (by rw [hprocess]; simp)

end Interpreter

end RepoOrbit
