import Mathlib.Algebra.BigOperators.Fin
import RepoOrbit.Proofs.Camera.Poses
import RepoOrbit.Proofs.Camera.Timeout

/-!
# How displayed numbers follow their targets

While hands have a camera, only frames change what is displayed, and only the other inputs
change where it is to go. So a number that is displayed is what its targets at the frames so
far (`CameraController.aims`) have drawn it to, one after the other
(`current_eq_drawn`).

* `drawn_eq`: each target counts less with every frame after it, and so does what was displayed
  at the beginning.
* `drawn_sub_of_constant`: a target that stays is approached by the same factor in every frame.

`eased_by_frames` says both of the five numbers of a camera.
-/

namespace RepoOrbit

open Scalar

/-! ## Numbers drawn to one target after the other -/

/-- What becomes of a number that goes the part `s` of its way to each of some targets. -/
noncomputable def drawn (s start : ℝ) (aims : List ℝ) : ℝ := aims.foldl (fun c aim => blend c aim s) start

theorem blend_eq (a b s : ℝ) : blend a b s = (1 - s) * a + s * b := by
  rw [blend]
  ring

theorem drawn_cons (s start aim : ℝ) (aims : List ℝ) :
    drawn s start (aim :: aims) = drawn s (blend start aim s) aims := rfl

theorem drawn_concat (s start aim : ℝ) (aims : List ℝ) :
    drawn s start (aims ++ [aim]) = blend (drawn s start aims) aim s := by
  simp [drawn]

theorem drawn_eq (s start : ℝ) (aims : List ℝ) :
    drawn s start aims = (1 - s) ^ aims.length * start +
      ∑ k : Fin aims.length, s * (1 - s) ^ (aims.length - (k + 1)) * aims[k] := by
  induction aims generalizing start with
  | nil => simp [drawn]
  | cons aim aims ih =>
    show _ = (1 - s) ^ (aims.length + 1) * start +
      ∑ k : Fin (aims.length + 1), s * (1 - s) ^ (aims.length + 1 - (k + 1)) * (aim :: aims)[k]
    rw [drawn_cons, ih, blend_eq, Fin.sum_univ_succ]
    simp only [Fin.val_zero, Fin.val_succ, Fin.getElem_fin, List.getElem_cons_zero, List.getElem_cons_succ, zero_add,
      Nat.add_sub_add_right, Nat.add_sub_cancel]
    ring

/-- With every step a number comes nearer to a target that stays, by the same factor. -/
theorem drawn_sub_of_constant (s start : ℝ) {aims : List ℝ} {aim : ℝ} (h : ∀ a ∈ aims, a = aim) :
    drawn s start aims - aim = (1 - s) ^ aims.length * (start - aim) := by
  induction aims generalizing start with
  | nil => simp [drawn]
  | cons a aims ih =>
    obtain ⟨rfl, h⟩ := List.forall_mem_cons.mp h
    rw [drawn_cons, ih (blend start a s) h, blend_eq, List.length_cons]
    ring

/-- A number whose way to a target has become shorter by a factor is on the way. -/
theorem approached {c c' aim q : ℝ} (hq : q ∈ Set.Icc 0 1) (h : c' - aim = q * (c - aim)) :
    |c' - aim| = q * |c - aim| ∧ c' ∈ Set.uIcc c aim := by
  refine ⟨by rw [h, abs_mul, abs_of_nonneg hq.1], ?_⟩
  have hc' : c' = aim + q * (c - aim) := by linarith
  rw [hc', Set.mem_uIcc]
  rcases le_total c aim with hle | hle
  · left
    constructor <;> nlinarith [hq.1, hq.2]
  · right
    constructor <;> nlinarith [hq.1, hq.2]

/-! ## The numbers of a camera -/

/-- Which of the five numbers of a camera. -/
inductive CameraNumber where
  | theta
  | phi
  | distance
  | lookX
  | lookY

/-- One of the numbers, as displayed and as meant. -/
def CameraTarget.number {α : Type} (t : CameraTarget α) : CameraNumber → Smoothed α
  | .theta => t.theta
  | .phi => t.phi
  | .distance => t.distance
  | .lookX => t.lookX
  | .lookY => t.lookY

theorem CameraTarget.current_of_view {α : Type} {t t' : CameraTarget α} (h : t'.view = t.view) (x : CameraNumber) :
    (t'.number x).current = (t.number x).current := by
  simp only [view, List.cons.injEq] at h
  obtain ⟨htheta, hphi, hdistance, hlookX, hlookY, -⟩ := h
  cases x <;> assumption

@[simp] theorem CameraTarget.number_step {α : Type} [Scalar α] (t : CameraTarget α) (factor : α) (x : CameraNumber) :
    (t.step factor).number x = (t.number x).step factor := by
  cases x <;> rfl

/-- Whether an input is a frame. -/
def CameraInput.isFrame {α : Type} : CameraInput α → Bool
  | .frame _ => true
  | _ => false

namespace CameraController

section

variable {α : Type} [Scalar α] {c : CameraController α} {i : CameraInput α}

/-- The targets of a number at the frames among some inputs. -/
def aims (x : CameraNumber) : CameraController α → List (CameraInput α) → List α
  | _, [] => []
  | c, i :: inputs => (if i.isFrame then [(c.target.number x).target] else []) ++ (c.step i).aims x inputs

theorem aims_concat (x : CameraNumber) (c : CameraController α) (inputs : List (CameraInput α)) (i : CameraInput α) :
    c.aims x (inputs ++ [i]) =
      c.aims x inputs ++ if i.isFrame then [((c.after inputs).target.number x).target] else [] := by
  induction inputs generalizing c with
  | nil => simp [aims]
  | cons j inputs ih => rw [List.cons_append, aims, ih, aims, List.append_assoc, after_cons]

theorem length_aims (x : CameraNumber) (c : CameraController α) (inputs : List (CameraInput α)) :
    (c.aims x inputs).length = inputs.countP CameraInput.isFrame := by
  induction inputs generalizing c with
  | nil => rfl
  | cons i inputs ih => cases hi : i.isFrame <;> simp [aims, ih, hi, Nat.add_comm]

/-! ## What an input may change -/

/-- A frame takes what is displayed a part of the way, and leaves where it is to go. -/
theorem step_of_isFrame (hcontrol : c.isControlling) (hstays : (c.step i).isControlling) (hi : i.isFrame) :
    (c.step i).target = c.target.step cameraSmoothing := by
  cases i with
  | frame now =>
    rw [step_frame hcontrol] at hstays ⊢
    split at hstays
    · exact absurd hstays not_isControlling_initial
    · rename_i hdue
      rw [if_neg hdue]
  | activate | deactivate | checkTimeout | recenter | handle => cases hi

/-- All other inputs leave what is displayed, unless they take the camera from the hands. -/
theorem view_of_not_isFrame (hstays : (c.step i).isControlling) (hi : i.isFrame = false) :
    (c.step i).target.view = c.target.view := by
  have moved := c.step_moved i
  generalize c.step i = c' at moved hstays ⊢
  cases moved with
  | ignored | activated | centred | refused | joined | cleared => rfl
  | released => exact absurd hstays not_isControlling_initial
  | displayed => cases hi
  | @gesture g now => exact c.takeGesture_view g now

end

/-! ## While hands have the camera -/

variable {inputs past rest : List (CameraInput ℝ)} {t : ℝ}

/-- What is displayed has been drawn to the targets at the frames since the camera was given to
the hands. -/
theorem current_eq_drawn (h : ControlledSince inputs past t rest) (x : CameraNumber) :
    ((run inputs).target.number x).current = drawn cameraSmoothing ((run past).target.number x).current
      ((run (past ++ [.activate t])).aims x rest) := by
  induction rest using List.reverseRecOn generalizing inputs with
  | nil =>
    rw [h.cut, run_concat, step_activate, h.idle, if_neg Bool.false_ne_true]
    rfl
  | append_singleton rest i ih =>
    obtain rfl : inputs = past ++ .activate t :: rest ++ [i] := by rw [h.cut]; simp
    have hbefore := h.of_concat
    have hdrawn := ih hbefore
    have hstays := h.isControlling
    have hlast : run (past ++ .activate t :: rest) = (run (past ++ [.activate t])).after rest := by
      rw [List.append_cons, run_append]
    rw [run_concat] at hstays ⊢
    rw [aims_concat, ← hlast]
    cases hi : i.isFrame with
    | true =>
      rw [step_of_isFrame hbefore.isControlling hstays hi, CameraTarget.number_step, if_pos rfl,
        drawn_concat, ← hdrawn]
      rfl
    | false =>
      rw [if_neg Bool.false_ne_true, List.append_nil, ← hdrawn]
      exact CameraTarget.current_of_view (view_of_not_isFrame hstays hi) x

theorem one_sub_cameraSmoothing_mem : 1 - (cameraSmoothing : ℝ) ∈ Set.Icc 0 1 :=
  ⟨sub_nonneg.mpr cameraSmoothing_mem.2, sub_le_self 1 cameraSmoothing_mem.1⟩

/-- While hands have a camera, an input that is no frame leaves each number that is displayed, and
a frame leaves the target, to which the number comes nearer by the factor `1 - cameraSmoothing`
without going past it. So after some frames the number is what it was at the beginning and the
targets at the frames, each counted with this factor once for every frame since; and a target
that has been the same at all of them has been approached by this factor each time. -/
theorem eased_by_frames (h : ControlledSince inputs past t rest) (x : CameraNumber) :
    (∀ part i, part ++ [i] <+: rest →
      let number := (run (past ++ .activate t :: part)).target.number x
      let next := (run (past ++ .activate t :: part ++ [i])).target.number x
      if i.isFrame then
        next.target = number.target ∧ next.current ∈ Set.uIcc number.current number.target ∧
          |next.current - number.target| = (1 - cameraSmoothing) * |number.current - number.target|
      else next.current = number.current) ∧
    let start := ((run past).target.number x).current
    let aims := (run (past ++ [.activate t])).aims x rest
    let current := ((run inputs).target.number x).current
    aims.length = rest.countP CameraInput.isFrame ∧
      current = (1 - cameraSmoothing) ^ aims.length * start +
        ∑ k : Fin aims.length, cameraSmoothing * (1 - cameraSmoothing) ^ (aims.length - (k + 1)) * aims[k] ∧
      ∀ aim, (∀ a ∈ aims, a = aim) →
        current ∈ Set.uIcc start aim ∧ |current - aim| = (1 - cameraSmoothing) ^ aims.length * |start - aim| := by
  refine ⟨fun part i hpart => ?_, length_aims _ _ _, ?_, fun aim haim => ?_⟩
  · have hcontrol := h.controlled part ((List.prefix_append _ _).trans hpart)
    have hstays := h.controlled (part ++ [i]) hpart
    rw [← List.cons_append, ← List.append_assoc, run_concat] at hstays
    rw [run_concat]
    generalize run (past ++ .activate t :: part) = c at hcontrol hstays
    cases hi : i.isFrame with
    | true =>
      rw [step_of_isFrame hcontrol hstays hi, CameraTarget.number_step]
      have hnearer : ((c.target.number x).step cameraSmoothing).current - (c.target.number x).target =
          (1 - cameraSmoothing) * ((c.target.number x).current - (c.target.number x).target) := by
        rw [Smoothed.step]
        ring
      obtain ⟨hshorter, hway⟩ := approached one_sub_cameraSmoothing_mem hnearer
      exact ⟨rfl, hway, hshorter⟩
    | false => exact CameraTarget.current_of_view (view_of_not_isFrame hstays hi) x
  · rw [current_eq_drawn h, drawn_eq]
  · have hnearer := drawn_sub_of_constant cameraSmoothing ((run past).target.number x).current haim
    rw [← current_eq_drawn h] at hnearer
    have hfactor : (1 - (cameraSmoothing : ℝ)) ^ ((run (past ++ [.activate t])).aims x rest).length ∈ Set.Icc 0 1 :=
      ⟨pow_nonneg one_sub_cameraSmoothing_mem.1 _,
        pow_le_one₀ one_sub_cameraSmoothing_mem.1 one_sub_cameraSmoothing_mem.2⟩
    obtain ⟨hshorter, hway⟩ := approached hfactor hnearer
    exact ⟨hway, hshorter⟩

/-- A frame that is soon enough after a hand was seen leaves the camera to the hands. -/
theorem isControlling_of_frame {c : CameraController ℝ} (last now : ℝ) (hcontrol : c.isControlling)
    (hlast : c.lastDetected = some last) (hsoon : now - last < idleTimeout) : (c.step (.frame now)).isControlling := by
  have hdue : c.isOverdue now = false := by
    rw [isOverdue, hlast]
    simp [atMost, Bool.eq_false_iff, hsoon.not_gt, hsoon.ne']
  rw [step_frame hcontrol, hdue, if_neg Bool.false_ne_true]
  exact hcontrol

/-- The left hand is near. -/
noncomputable def leftHandNear : List (CameraInput ℝ) := [.handle (.gesture ⟨0.2, 0.1, false, 0, 0.35, .left⟩) 1]

theorem eased_by_frames_leftHandNear :
    ControlledSince (.activate 0 :: leftHandNear ++ [.frame 1.5] ++ [.frame 2]) [] 0
        (leftHandNear ++ [.frame 1.5] ++ [.frame 2]) ∧
      |(run (.activate 0 :: leftHandNear ++ [.frame 1.5] ++ [.frame 2])).target.distance.current - zoomDistance 0.35| =
        (1 - cameraSmoothing) ^ 2 * |defaultDistance - zoomDistance 0.35| := by
  have hgiven : ControlledSince [CameraInput.activate (0 : ℝ)] [] 0 [] :=
    ⟨rfl, rfl, fun part hpart => by rw [List.prefix_nil.mp hpart]; rfl⟩
  have hseen : ControlledSince (.activate 0 :: leftHandNear) [] 0 leftHandNear :=
    hgiven.concat (by rw [step_gesture hgiven.isControlling, takeGesture_isControlling]; rfl)
  have hfirst := hseen.concat (isControlling_of_frame 1 1.5 hseen.isControlling
    (lastDetected_of_controlledSince hseen) (by norm_num [idleTimeout]))
  have hsecond := hfirst.concat (isControlling_of_frame 1 2 hfirst.isControlling
    (lastDetected_of_controlledSince hfirst) (by norm_num [idleTimeout]))
  have hnear : ((run (.activate 0 :: leftHandNear)).target.number .distance).target = zoomDistance 0.35 := by
    have hstep : run (.activate 0 :: leftHandNear) = (run [.activate 0]).takeGesture _ 1 :=
      step_gesture hgiven.isControlling _ 1
    rw [hstep]
    exact takeGesture_distance_target _ _ _
  have hstill : ((run (.activate 0 :: leftHandNear ++ [.frame 1.5])).target.number .distance).target =
      zoomDistance 0.35 := by
    have hstays := hfirst.isControlling
    rw [run_concat] at hstays ⊢
    rw [step_of_isFrame hseen.isControlling hstays rfl]
    exact hnear
  refine ⟨hsecond, ((eased_by_frames hsecond .distance).2.2.2 (zoomDistance 0.35) fun a ha => ?_).2⟩
  have hframes : (run [.activate 0]).aims .distance (leftHandNear ++ [.frame 1.5] ++ [.frame 2]) =
      [((run (.activate 0 :: leftHandNear)).target.number .distance).target,
        ((run (.activate 0 :: leftHandNear ++ [.frame 1.5])).target.number .distance).target] := by
    rw [aims_concat, aims_concat]
    rfl
  rw [List.nil_append, hframes, hnear, hstill] at ha
  simpa using ha

end CameraController

end RepoOrbit
