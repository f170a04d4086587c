import RepoOrbit.Proofs.Camera.Anchors
import RepoOrbit.Proofs.Camera.Custody
import RepoOrbit.Proofs.Gesture.Limited

/-!
# What a camera answers

Every input has an answer (`CameraController.answer`): what the caller gets of it, and
what the renderer is told. A run has the answers to its inputs
(`CameraController.answers`).

* `answer_yields`, `answer_activate`: what the renderer is told says who has the camera
  after an input.
* `released_camera_is_new`: a camera that has been taken from the hands answers all that
  is done to it later like one that nobody has had, and in nobody's hands it stays as it
  is through events, frames and looks at the clock.
-/

namespace RepoOrbit

variable {α : Type}

/-- What the caller gets of an input. -/
inductive CameraResult (α : Type) where
  | nothing
  | did (isDone : Bool)
  | shown (pose : Except PoseFault (Option (CameraPose α)))

/-- What comes of an input besides the camera: what the caller gets, and what the
renderer is told. -/
structure CameraAnswer (α : Type) where
  result : CameraResult α
  calls : List (CameraCall α)

/-- Whether an input only goes on with what others have begun: an event, a frame or a
look at the clock. -/
def CameraInput.followsUp : CameraInput α → Bool
  | .handle _ _ | .frame _ | .checkTimeout _ => true
  | .activate _ | .deactivate | .recenter _ => false

namespace CameraController

variable [Scalar α] (c : CameraController α)

/-- The answer of a camera to an input. -/
def answer : CameraInput α → CameraAnswer α
  | .activate now => ⟨.nothing, (c.activate now).2⟩
  | .deactivate => ⟨.did c.deactivate.2.1, c.deactivate.2.2⟩
  | .checkTimeout now => ⟨.did (c.checkTimeout now).2.1, (c.checkTimeout now).2.2⟩
  | .recenter now => ⟨.did (c.recenter now).2, []⟩
  | .handle event now => ⟨.nothing, (c.handle event now).2⟩
  | .frame now => ⟨.shown (c.frame now).pose, (c.frame now).calls⟩

/-- The answers of a camera to some inputs. -/
def answers : CameraController α → List (CameraInput α) → List (CameraAnswer α)
  | _, [] => []
  | c, i :: inputs => c.answer i :: (c.step i).answers inputs

theorem answers_append (inputs inputs' : List (CameraInput α)) :
    c.answers (inputs ++ inputs') = c.answers inputs ++ (c.after inputs).answers inputs' := by
  induction inputs generalizing c with
  | nil => rfl
  | cons i inputs ih => rw [List.cons_append, answers, ih, answers, List.cons_append, after_cons]

/-! ## What the renderer is told -/

theorem answer_activate (now : α) :
    (c.answer (.activate now)).calls = if c.isControlling then [] else [.orbitControls false false] := by
  rw [answer, activate]
  split <;> rfl

/-- Of all inputs only the one that gives the camera to the hands says so; after all
others it is with whom it was, or given back. -/
theorem answer_yields {i : CameraInput α} (hi : ∀ now, i ≠ .activate now) :
    c.Yields (c.step i) (c.answer i).calls := by
  cases i with
  | activate now => exact absurd rfl (hi now)
  | deactivate => exact c.yields_deactivate
  | checkTimeout now => exact c.yields_checkTimeout now
  | recenter now => exact .keeps (c.recenter_keeps now).1
  | handle event now => exact c.yields_handle event now
  | frame now => exact c.yields_frame now

/-! ## Cameras that are taken from the hands -/

/-- Whether an input takes the camera from the hands. -/
def Releases (i : CameraInput α) : Prop := c.isControlling ∧ (c.step i).isControlling = false

variable {c} {i : CameraInput α}

theorem releases_deactivate_iff : c.Releases .deactivate ↔ (c.answer .deactivate).result = .did true := by
  rw [Releases, step_deactivate, answer, deactivate]
  cases c.isControlling <;> simp [not_isControlling_initial]

theorem releases_checkTimeout_iff {now : α} :
    c.Releases (.checkTimeout now) ↔ (c.answer (.checkTimeout now)).result = .did true := by
  rw [Releases, step_checkTimeout, answer, checkTimeout_eq]
  cases hmode : c.isControlling with
  | false => simp
  | true =>
    cases c.isOverdue now with
    | false => simp [hmode]
    | true => simp [deactivate, hmode, not_isControlling_initial]

/-- Nothing is left of the time in which hands had the camera. -/
theorem step_of_releases (h : c.Releases i) : c.step i = initial := by
  obtain ⟨hcontrol, hidle⟩ := h
  have moved := c.step_moved i
  generalize c.step i = c' at moved hidle ⊢
  cases moved with
  | released => rfl
  | ignored | centred | refused | joined | cleared | displayed => exact absurd (hidle.symm.trans hcontrol) nofun
  | activated hmode => exact absurd (hmode.symm.trans hcontrol) nofun
  | gesture => exact absurd (hidle.symm.trans (takeGesture_isControlling _ _ _ |>.trans hcontrol)) nofun

theorem step_of_idle (hidle : c.isControlling = false) (hi : i.followsUp) :
    c.step i = c ∧ (c.answer i).calls = [] := by
  have hstep : c.step i = c := by
    cases i with
    | activate | deactivate | recenter => cases hi
    | handle event now => exact step_handle_idle hidle event now
    | frame now => exact step_frame_idle hidle now
    | checkTimeout now => rw [step_checkTimeout, hidle, Bool.false_and, if_neg Bool.false_ne_true]
  refine ⟨hstep, ?_⟩
  have hyields : c.Yields (c.step i) (c.answer i).calls := c.answer_yields (by rintro now rfl; cases hi)
  generalize (c.answer i).calls = calls at hyields ⊢
  cases hyields with
  | keeps => rfl
  | releases hcontrol => exact absurd (hidle.symm.trans hcontrol) nofun

/-- A camera that is taken from the hands, in whichever way, is like one that nobody has
had, and so are its answers to all that is done to it later. While nobody has it, events,
frames and looks at the clock leave it as it is, and the renderer is told nothing. -/
theorem released_camera_is_new (before : List (CameraInput α)) (i : CameraInput α) :
    (((run before).answer i).result = .did true → (∀ now, i ≠ .recenter now) → (run before).Releases i) ∧
      ((run before).Releases i →
        run (before ++ [i]) = initial ∧
          ∀ later, run (before ++ i :: later) = run later ∧
            initial.answers (before ++ i :: later) =
              initial.answers before ++ (run before).answer i :: initial.answers later) ∧
      ((run before).isControlling = false → i.followsUp →
        run (before ++ [i]) = run before ∧ ((run before).answer i).calls = []) := by
  refine ⟨fun hdid hi => ?_, fun h => ?_, fun hidle hi => ?_⟩
  · cases i with
    | deactivate => exact releases_deactivate_iff.mpr hdid
    | checkTimeout now => exact releases_checkTimeout_iff.mpr hdid
    | recenter now => exact absurd rfl (hi now)
    | activate | handle | frame => cases hdid
  · have hnew := step_of_releases h
    refine ⟨by rw [run_concat, hnew], fun later => ⟨?_, ?_⟩⟩
    · rw [run_append, after_cons, hnew, run]
    · rw [answers_append, answers, ← run, hnew]
  · rw [run_concat]
    exact step_of_idle hidle hi

/-- The left hand has had the camera, centred it and gone. -/
def leftAlone : List (CameraInput Limited) :=
  [.activate 0.0, .handle (.gesture ⟨0.2, 0.1, false, 0.0, 0.2, .left⟩) 1.0, .frame 1.0, .recenter 1.5]

theorem released_camera_is_new_leftAlone :
    (((run leftAlone).answer (.checkTimeout 4.0)).result = .did true ∧ (run leftAlone).Releases (.checkTimeout 4.0)) ∧
      (run leftAlone).Releases (.handle .noHands 4.0) ∧
      run (leftAlone ++ [.handle .noHands 4.0]) = initial ∧
      (∀ later, run (leftAlone ++ .handle .noHands 4.0 :: later) = run later ∧
        initial.answers (leftAlone ++ .handle .noHands 4.0 :: later) =
          initial.answers leftAlone ++ (run leftAlone).answer (.handle .noHands 4.0) :: initial.answers later) ∧
      run (leftAlone ++ [.checkTimeout 4.0] ++ [.frame 5.0]) = run (leftAlone ++ [.checkTimeout 4.0]) ∧
      ((run (leftAlone ++ [.checkTimeout 4.0])).answer (.frame 5.0)).calls = [] := by
  have hreleases : (run leftAlone).Releases (.handle .noHands 4.0) := ⟨by decide +kernel, by decide +kernel⟩
  have hdid : ((run leftAlone).answer (.checkTimeout 4.0)).result = .did true :=
    releases_checkTimeout_iff.mp ⟨by decide +kernel, by decide +kernel⟩
  have hidle : (run (leftAlone ++ [.checkTimeout 4.0])).isControlling = false := by decide +kernel
  obtain ⟨hnew, hlater⟩ := (released_camera_is_new leftAlone (.handle .noHands 4.0)).2.1 hreleases
  exact ⟨⟨hdid, (released_camera_is_new leftAlone (.checkTimeout 4.0)).1 hdid nofun⟩, hreleases, hnew, hlater,
    (released_camera_is_new (leftAlone ++ [.checkTimeout 4.0]) (.frame 5.0)).2.2 hidle rfl⟩

end CameraController

end RepoOrbit
