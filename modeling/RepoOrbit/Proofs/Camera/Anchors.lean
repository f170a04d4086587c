import RepoOrbit.Proofs.Camera.Passes

/-!
# What a camera remembers of a drag

The anchor of a drag stays as long as no input ends the drags of both hands
(`CameraController.Unbroken`), the hand opens or closes no more, and it is in all
pictures (`holds_after`). The other way round, a hand that is in a drag has been in it
since some gesture (`CameraController.Began`, `exists_began`).
-/

namespace RepoOrbit

open Scalar

namespace CameraController

variable {α : Type} [Scalar α]

/-! ## What ends a drag -/

/-- Whether an input ends the drags of both hands: the camera is given to the hands, no
hand is seen any more, or the camera is centred. -/
def Breaks (c : CameraController α) : CameraInput α → Prop
  | .activate _ => c.isControlling = false
  | .recenter now => c.isCooling now = false
  | .handle .noHands _ => True
  | .handle .handsJoined now => c.isControlling ∧ c.isCooling now = false
  | _ => False

theorem not_breaks_gesture {c : CameraController α} {g : HandGesture α} {now : α} :
    ¬ c.Breaks (.handle (.gesture g) now) := fun h => h

/-- None of some inputs ends the drags. -/
def Unbroken (c : CameraController α) : List (CameraInput α) → Prop
  | [] => True
  | i :: rest => ¬ c.Breaks i ∧ (c.step i).Unbroken rest

variable {c : CameraController α}

theorem unbroken_append {inputs rest : List (CameraInput α)} :
    c.Unbroken (inputs ++ rest) ↔ c.Unbroken inputs ∧ (c.after inputs).Unbroken rest := by
  induction inputs generalizing c with
  | nil => simp [Unbroken]
  | cons i inputs ih => rw [List.cons_append, Unbroken, ih, Unbroken, and_assoc, after_cons]

theorem unbroken_concat {inputs : List (CameraInput α)} {i : CameraInput α} :
    c.Unbroken (inputs ++ [i]) ↔ c.Unbroken inputs ∧ ¬ (c.after inputs).Breaks i := by
  rw [unbroken_append, Unbroken, Unbroken, and_true]

theorem not_isControlling_initial : ¬ (initial : CameraController α).isControlling := by
  simp [initial, isControlling]

/-- What an input that is no gesture and ends no drag leaves of a camera that is still
controlled. -/
theorem step_of_quiet {i : CameraInput α} (hquiet : ¬ c.Breaks i) (hi : i.gesture? = none)
    (hcontrol : (c.step i).isControlling) :
    c.isControlling ∧ (c.step i).drags = c.drags ∧ (c.step i).passTime = c.passTime := by
  have moved := c.step_moved i
  generalize c.step i = c' at moved hcontrol
  cases moved with
  | ignored => exact ⟨hcontrol, rfl, rfl⟩
  | activated h | centred h => exact absurd h hquiet
  | released => exact absurd hcontrol not_isControlling_initial
  | refused h | displayed h => exact ⟨h, rfl, rfl⟩
  | joined h hcooling => exact absurd ⟨h, hcooling⟩ hquiet
  | cleared => exact absurd trivial hquiet
  | gesture => cases hi

theorem isControlling_of_step {i : CameraInput α} (hquiet : ¬ c.Breaks i) (hcontrol : (c.step i).isControlling) :
    c.isControlling := by
  cases hi : i.gesture? with
  | none => exact (step_of_quiet hquiet hi hcontrol).1
  | some x =>
    obtain rfl := CameraInput.eq_handle_of_gesture? hi
    cases hmode : c.isControlling with
    | false =>
      rw [step_handle_idle hmode, hmode] at hcontrol
      cases hcontrol
    | true => rfl

/-- Nothing that ends no drags has given the camera to the hands. -/
theorem isControlling_of_unbroken {inputs : List (CameraInput α)} (hunbroken : c.Unbroken inputs)
    (hcontrol : (c.after inputs).isControlling) : c.isControlling := by
  induction inputs generalizing c with
  | nil => exact hcontrol
  | cons i inputs ih => exact isControlling_of_step hunbroken.1 (ih hunbroken.2 hcontrol)

/-! ## What is remembered of a drag -/

/-- Whether a hand is in a drag with an anchor, pinching or not, and has been seen lately
enough to go on with it. -/
structure Holds (c : CameraController α) (r : Role) (isPinching : Bool) (a : DragAnchor α) : Prop where
  seen : (c.drags.get r).wasSeen ∨ (c.drags.get r).isSeen
  pinching : (c.drags.get r).pinching = some isPinching
  anchor : (c.drags.get r).anchor? (r.pans isPinching) = some a

/-- A gesture that goes on with a drag is measured from its anchor. -/
theorem Holds.takeGesture_self {g : HandGesture α} {now : α} {a : DragAnchor α}
    (h : c.Holds g.role g.isPinching a) (hseen : (c.atTime g.role now).wasSeen ∨ (c.atTime g.role now).isSeen) :
    c.dragAnchor g now = a ∧ (c.takeGesture g now).Holds g.role g.isPinching a := by
  have hready := ready_of_kept hseen h.pinching
  have hanchor : (c.ready g now).anchor? g.pans = some a := by
    rw [hready]
    exact (atTime_anchor? g.pans).trans h.anchor
  have hdrag : c.dragAnchor g now = a := by rw [dragAnchor, hanchor, Option.getD_some]
  refine ⟨hdrag, ?_, ?_, ?_⟩ <;> rw [takeGesture_drag, hdrag]
  · rw [HandDrag.isSeen_setAnchor, hready]
    exact .inr rfl
  · rw [HandDrag.pinching_setAnchor, ready, HandDrag.pinching_pinch]
  · exact HandDrag.anchor?_setAnchor _ _ _

/-- Whether a camera knows the present picture, and whether a hand is in it. -/
structure Tracks (c : CameraController α) (r : Role) (p : Presence α) : Prop where
  passTime : c.passTime = some p.time
  isSeen : (c.drags.get r).isSeen = p.isShown

variable {r : Role} {p : Presence α} {isPinching : Bool} {a : DragAnchor α}

theorem Tracks.startsPass (h : c.Tracks r p) (now : α) : c.startsPass now = !same now p.time := by
  unfold CameraController.startsPass
  rw [h.passTime]

theorem Tracks.takeGesture (h : c.Tracks r p) (g : HandGesture α) (now : α) :
    (c.takeGesture g now).Tracks r (p.see r (g, now)) := by
  have hstarts := h.startsPass now
  unfold Presence.see
  constructor
  · rw [takeGesture_passTime, hstarts, h.passTime]
    cases same now p.time <;> rfl
  · by_cases hr : r = g.role
    · subst hr
      rw [takeGesture_drag, HandDrag.isSeen_setAnchor, ready, HandDrag.isSeen_pinch, HandDrag.isSeen_enter]
      cases same now p.time <;> simp
    · rw [takeGesture_drag_of_ne c g now hr, atTime, hstarts]
      cases same now p.time
      · simp [HandDrag.nextPass, Ne.symm hr]
      · simp [h.isSeen, Ne.symm hr]

/-- A hand that was in all pictures so far is seen lately enough when a gesture is
handled. -/
theorem Tracks.seen_atTime (h : c.Tracks r p) {now : α} {x : HandGesture α} (halways : (p.see r (x, now)).wasAlways)
    (hseen : (c.drags.get r).wasSeen ∨ (c.drags.get r).isSeen) :
    (c.atTime r now).wasSeen ∨ (c.atTime r now).isSeen := by
  unfold Presence.see at halways
  rw [atTime, h.startsPass]
  cases hsame : same now p.time with
  | true => exact hseen
  | false =>
    rw [hsame] at halways
    exact .inl (h.isSeen.trans ((Bool.and_eq_true _ _).mp halways).2)

/-- A hand that is seen lately enough, and was in all pictures if it was before, was in
all pictures. -/
theorem Tracks.wasAlways_see (h : c.Tracks r p) {now : α} {x : HandGesture α}
    (halways : (c.drags.get r).wasSeen ∨ (c.drags.get r).isSeen → p.wasAlways)
    (hseen : (c.atTime r now).wasSeen ∨ (c.atTime r now).isSeen) : (p.see r (x, now)).wasAlways := by
  rw [atTime, h.startsPass] at hseen
  unfold Presence.see
  cases hsame : same now p.time with
  | true =>
    rw [hsame] at hseen
    exact halways hseen
  | false =>
    rw [hsame] at hseen
    have hshown : (c.drags.get r).isSeen := hseen.elim id nofun
    exact (Bool.and_eq_true _ _).mpr ⟨halways (.inr hshown), h.isSeen.symm.trans hshown⟩

theorem Holds.takeGesture (h : c.Holds r isPinching a) {g : HandGesture α} {now : α}
    (hseen : (c.atTime r now).wasSeen ∨ (c.atTime r now).isSeen) (hpinch : g.role = r → g.isPinching = isPinching) :
    (c.takeGesture g now).Holds r isPinching a := by
  by_cases hr : r = g.role
  · subst hr
    obtain rfl := hpinch rfl
    exact (h.takeGesture_self hseen).2
  · refine ⟨?_, ?_, ?_⟩ <;> rw [takeGesture_drag_of_ne c g now hr]
    · exact hseen
    · exact atTime_pinching.trans h.pinching
    · exact (atTime_anchor? _).trans h.anchor

/-- What is remembered of a hand as long as nothing ends its drag. -/
theorem holds_after {t : α} {rest : List (CameraInput α)} (htracks : c.Tracks r ⟨t, true, true⟩)
    (hholds : c.Holds r isPinching a) (hunbroken : c.Unbroken rest) (hcontrol : (c.after rest).isControlling) :
    (c.after rest).Tracks r (presence r t (gestures rest)) ∧
      ((presence r t (gestures rest)).wasAlways →
        (∀ x ∈ gestures rest, x.1.role = r → x.1.isPinching = isPinching) → (c.after rest).Holds r isPinching a) := by
  induction rest using List.reverseRecOn with
  | nil => exact ⟨htracks, fun _ _ => hholds⟩
  | append_singleton rest i ih =>
    obtain ⟨hunbroken, hquiet⟩ := unbroken_concat.mp hunbroken
    rw [after_concat] at hcontrol ⊢
    have hbefore := isControlling_of_step hquiet hcontrol
    obtain ⟨htracks, hholds⟩ := ih hunbroken hbefore
    rw [gestures_concat]
    generalize c.after rest = c at hcontrol hquiet hbefore htracks hholds ⊢
    cases hi : i.gesture? with
    | none =>
      obtain ⟨-, hdrags, htime⟩ := step_of_quiet hquiet hi hcontrol
      rw [Option.toList_none, List.append_nil]
      refine ⟨⟨htime.trans htracks.passTime, hdrags ▸ htracks.isSeen⟩, fun halways hpinch => ?_⟩
      have h := hholds halways hpinch
      exact ⟨hdrags ▸ h.seen, hdrags ▸ h.pinching, hdrags ▸ h.anchor⟩
    | some x =>
      obtain rfl := CameraInput.eq_handle_of_gesture? hi
      rw [step_gesture hbefore, Option.toList_some, presence_concat]
      refine ⟨htracks.takeGesture x.1 x.2, fun halways hpinch => ?_⟩
      have h := hholds (Presence.wasAlways_of_see halways) fun y hy => hpinch y (List.mem_append_left _ hy)
      exact h.takeGesture (htracks.seen_atTime halways h.seen) (hpinch x (by simp))

/-- An input that ends the drags leaves no hand in one. -/
theorem not_isAnchored_of_breaks {i : CameraInput α} (h : c.Breaks i)
    (hidle : c.isControlling = false → c.drags = ⟨.none, .none⟩) (r : Role) :
    ¬ ((c.step i).drags.get r).IsAnchored := by
  have hnone : ∀ {d : PerRole (HandDrag α)}, d = ⟨.none, .none⟩ → ¬ (d.get r).IsAnchored := by
    rintro d rfl
    cases r <;> exact HandDrag.not_isAnchored_none
  cases i with
  | activate now =>
    have hmode : c.isControlling = false := h
    rw [step_activate, hmode, if_neg Bool.false_ne_true]
    exact hnone (hidle hmode)
  | recenter now =>
    have hwarm : c.isCooling now = false := h
    rw [step_recenter, hwarm, if_neg Bool.false_ne_true, centred, PerRole.get_map]
    exact HandDrag.not_isAnchored_dropAnchors _
  | handle event now =>
    cases event with
    | gesture => exact h.elim
    | noHands =>
      cases hmode : c.isControlling with
      | false => rw [step_handle_idle hmode]; exact hnone (hidle hmode)
      | true =>
        rw [step_noHands hmode]
        split <;> exact hnone rfl
    | handsJoined =>
      rw [step_handsJoined h.1, h.2, if_neg Bool.false_ne_true, centred, PerRole.get_map]
      exact HandDrag.not_isAnchored_dropAnchors _
  | deactivate | checkTimeout | frame => exact h.elim

/-! ## Where a drag began -/

/-- The gesture with which the drag that a hand is in has begun, and what has been done
since: the hand goes on pinching or not as it did then, and was in all pictures as far
as the camera can tell. -/
structure Began (inputs : List (CameraInput ℝ)) (r : Role) (past : List (CameraInput ℝ)) (s : HandGesture ℝ) (t : ℝ)
    (rest : List (CameraInput ℝ)) : Prop where
  cut : inputs = past ++ CameraInput.handle (.gesture s) t :: rest
  role : s.role = r
  unbroken : ((run past).step (.handle (.gesture s) t)).Unbroken rest
  pinching : ((run inputs).drags.get r).pinching = some s.isPinching
  same : ∀ x ∈ gestures rest, x.1.role = r → x.1.isPinching = s.isPinching
  always : ((run inputs).drags.get r).wasSeen ∨ ((run inputs).drags.get r).isSeen →
    (presence r t (gestures rest)).wasAlways

theorem tracks_takeGesture_self (c : CameraController ℝ) (s : HandGesture ℝ) (t : ℝ) :
    (c.takeGesture s t).Tracks s.role ⟨t, true, true⟩ := by
  constructor
  · rw [takeGesture_passTime]
    unfold startsPass
    cases htime : c.passTime with
    | none => rfl
    | some t' =>
      by_cases h : t = t'
      · simp [h]
      · simp [h]
  · rw [takeGesture_drag, HandDrag.isSeen_setAnchor, ready, HandDrag.isSeen_pinch, HandDrag.isSeen_enter]

theorem holds_takeGesture_self (c : CameraController α) (s : HandGesture α) (t : α) :
    (c.takeGesture s t).Holds s.role s.isPinching (c.dragAnchor s t) := by
  refine ⟨.inr ?_, ?_, ?_⟩ <;> rw [takeGesture_drag]
  · rw [HandDrag.isSeen_setAnchor, ready, HandDrag.isSeen_pinch, HandDrag.isSeen_enter]
  · rw [HandDrag.pinching_setAnchor, ready, HandDrag.pinching_pinch]
  · exact HandDrag.anchor?_setAnchor _ _ _

/-- From the first gesture of a drag on the camera is controlled and keeps account of
the hand. -/
theorem controls_of_unbroken {c : CameraController ℝ} {s : HandGesture ℝ} {t : ℝ} {rest : List (CameraInput ℝ)}
    (hunbroken : (c.step (.handle (.gesture s) t)).Unbroken rest)
    (hcontrol : ((c.step (.handle (.gesture s) t)).after rest).isControlling) :
    c.isControlling ∧
      ((c.step (.handle (.gesture s) t)).after rest).Tracks s.role (presence s.role t (gestures rest)) ∧
      ((presence s.role t (gestures rest)).wasAlways →
        (∀ x ∈ gestures rest, x.1.role = s.role → x.1.isPinching = s.isPinching) →
        ((c.step (.handle (.gesture s) t)).after rest).Holds s.role s.isPinching (c.dragAnchor s t)) := by
  have hmode : c.isControlling :=
    isControlling_of_step not_breaks_gesture (isControlling_of_unbroken hunbroken hcontrol)
  rw [step_gesture hmode] at hunbroken hcontrol ⊢
  exact ⟨hmode, holds_after (tracks_takeGesture_self c s t) (holds_takeGesture_self c s t) hunbroken hcontrol⟩

theorem Began.tracks {inputs past rest : List (CameraInput ℝ)} {r : Role} {s : HandGesture ℝ} {t : ℝ}
    (h : Began inputs r past s t rest) (hcontrol : (run inputs).isControlling) :
    (run inputs).Tracks r (presence r t (gestures rest)) := by
  obtain ⟨rfl, rfl, hunbroken, -, -, -⟩ := h
  rw [run_append, after_cons] at hcontrol ⊢
  exact (controls_of_unbroken hunbroken hcontrol).2.1

/-- A drag goes on with a gesture that does not end it. -/
theorem Began.gesture {inputs past rest : List (CameraInput ℝ)} {r : Role} {s g : HandGesture ℝ} {t now : ℝ}
    (h : Began inputs r past s t rest) (hcontrol : (run inputs).isControlling)
    (hready : g.role = r → ((run inputs).ready g now).IsAnchored) :
    Began (inputs ++ [CameraInput.handle (.gesture g) now]) r past s t
      (rest ++ [CameraInput.handle (.gesture g) now]) := by
  have htracks := h.tracks hcontrol
  obtain ⟨hcut, hrole, hunbroken, hpinching, hsame, halways⟩ := h
  have hafter : run (inputs ++ [CameraInput.handle (.gesture g) now]) = (run inputs).takeGesture g now := by
    rw [run_concat, step_gesture hcontrol]
  have hgestures : gestures (rest ++ [CameraInput.handle (.gesture g) now]) = gestures rest ++ [(g, now)] :=
    gestures_concat _ _
  have hunbroken' := (unbroken_concat (i := .handle (.gesture g) now)).mpr ⟨hunbroken, not_breaks_gesture⟩
  generalize run inputs = c at *
  have hkept := fun hr => kept_of_isAnchored_ready (hready hr)
  have hgoes : g.role = r → g.isPinching = s.isPinching := by
    rintro rfl
    exact Option.some.inj ((hkept rfl).2.1.symm.trans hpinching)
  refine ⟨by rw [hcut]; simp, hrole, hunbroken', ?_, ?_, fun hseen => ?_⟩
  · rw [hafter]
    by_cases hr : r = g.role
    · subst hr
      rw [takeGesture_drag, HandDrag.pinching_setAnchor, ready, HandDrag.pinching_pinch, hgoes rfl]
    · rw [takeGesture_drag_of_ne c g now hr, atTime_pinching, hpinching]
  · rw [hgestures]
    intro x hx hxr
    rcases List.mem_append.mp hx with hx | hx
    · exact hsame x hx hxr
    · obtain rfl := List.mem_singleton.mp hx
      exact hgoes hxr
  · rw [hgestures, presence_concat]
    refine htracks.wasAlways_see halways ?_
    rw [hafter] at hseen
    by_cases hr : r = g.role
    · subst hr
      exact (hkept rfl).1
    · rwa [takeGesture_drag_of_ne c g now hr] at hseen

theorem began_self {inputs : List (CameraInput ℝ)} {g : HandGesture ℝ} {now : ℝ}
    (hcontrol : (run inputs).isControlling) :
    Began (inputs ++ [CameraInput.handle (.gesture g) now]) g.role inputs g now [] := by
  refine ⟨rfl, rfl, trivial, ?_, nofun, fun _ => rfl⟩
  rw [run_concat, step_gesture hcontrol]
  exact (holds_takeGesture_self _ g now).pinching

/-- A hand that is in a drag has been in it since one of its gestures. -/
theorem exists_began {inputs : List (CameraInput ℝ)} {r : Role} (h : ((run inputs).drags.get r).IsAnchored) :
    ∃ past s t rest, Began inputs r past s t rest := by
  induction inputs using List.reverseRecOn with
  | nil => cases r <;> exact absurd h HandDrag.not_isAnchored_none
  | append_singleton inputs i ih =>
    have hidle : (run inputs).isControlling = false → (run inputs).drags = ⟨.none, .none⟩ := fun h =>
      (forgets_of_idle h).1
    have hcontrol : (run (inputs ++ [i])).isControlling := by
      by_contra hmode
      rw [(forgets_of_idle (Bool.eq_false_iff.mpr hmode)).1] at h
      cases r <;> exact HandDrag.not_isAnchored_none h
    have hafter : run (inputs ++ [i]) = (run inputs).step i := run_concat _ _
    rw [hafter] at h hcontrol
    have hquiet : ¬ (run inputs).Breaks i := fun hbreaks => not_isAnchored_of_breaks hbreaks hidle r h
    have hmode := isControlling_of_step hquiet hcontrol
    cases hi : i.gesture? with
    | none =>
      obtain ⟨-, hdrags, -⟩ := step_of_quiet hquiet hi hcontrol
      obtain ⟨past, s, t, rest, hcut, hrole, hunbroken, hpinching, hsame, halways⟩ := ih (hdrags ▸ h)
      have hgestures : gestures (rest ++ [i]) = gestures rest := by rw [gestures_concat, hi]; simp
      have hlast : run inputs = ((run past).step (.handle (.gesture s) t)).after rest := by
        rw [hcut, run_append, after_cons]
      refine ⟨past, s, t, rest ++ [i], by rw [hcut]; simp, hrole, unbroken_concat.mpr ⟨hunbroken, ?_⟩, ?_, ?_, ?_⟩
      · rwa [← hlast]
      · rw [hafter, hdrags]; exact hpinching
      · rw [hgestures]; exact hsame
      · rw [hafter, hdrags, hgestures]; exact halways
    | some x =>
      obtain rfl := CameraInput.eq_handle_of_gesture? hi
      by_cases hready : x.1.role = r → ((run inputs).ready x.1 x.2).IsAnchored
      · have hbefore : ((run inputs).drags.get r).IsAnchored := by
          by_cases hr : r = x.1.role
          · subst hr
            exact (kept_of_isAnchored_ready (hready rfl)).2.2
          · rw [step_gesture hmode, takeGesture_drag_of_ne _ _ _ hr] at h
            exact atTime_isAnchored.mp h
        obtain ⟨past, s, t, rest, hbegan⟩ := ih hbefore
        exact ⟨past, s, t, _, hbegan.gesture hmode hready⟩
      · obtain ⟨rfl, -⟩ := Classical.not_imp.mp hready
        exact ⟨inputs, x.1, x.2, [], began_self hmode⟩

end CameraController

end RepoOrbit
