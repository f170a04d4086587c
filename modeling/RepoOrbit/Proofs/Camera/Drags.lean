import RepoOrbit.Proofs.Camera.Anchors
import RepoOrbit.Proofs.Camera.Bounds

/-!
# Drags as a function of what has happened

Which drag a gesture belongs to can be told from the inputs of a run alone: it began
with the earliest gesture of the hand from which on nothing has ended it
(`CameraController.IsDrag`, `StartsDrag`). `gesture_follows_drag` says what the gesture
does: it takes the targets of its kind from where they were before that first gesture
as far as the hand has come since. So the first gesture of a drag moves nothing.
-/

namespace RepoOrbit

open Scalar

namespace CameraController

section

variable {α : Type} [Scalar α]

/-- A gesture handled by a camera, and the inputs from it on, are within one drag of its
hand: the drags are not ended, the hand opens or closes no more, and it is in all
pictures that are over. -/
structure IsDrag (c : CameraController α) (s : HandGesture α) (t : α) (rest : List (CameraInput α)) : Prop where
  unbroken : (c.step (.handle (.gesture s) t)).Unbroken rest
  pinching : ∀ x ∈ gestures rest, x.1.role = s.role → x.1.isPinching = s.isPinching
  shown : ∀ pass ∈ (passes ((s, t) :: gestures rest)).dropLast, ∃ x ∈ pass, x.1.role = s.role

/-- Whether a run, at the end of which a gesture is handled, is within one drag of its
hand from the input of some number on. -/
def StartsDrag (inputs : List (CameraInput α)) (g : HandGesture α) (n : Nat) : Prop :=
  ∃ s t rest, inputs.drop n = .handle (.gesture s) t :: rest ∧ s.role = g.role ∧ s.isPinching = g.isPinching ∧
    (run (inputs.take n)).IsDrag s t rest

end

/-- A drag that goes on with a gesture takes in all that is within one drag from that
gesture on. -/
theorem Began.isDrag {past past₀ rest rest₀ : List (CameraInput ℝ)} {s s₀ : HandGesture ℝ} {t t₀ : ℝ}
    (h : Began (past ++ [CameraInput.handle (.gesture s) t]) s.role past₀ s₀ t₀
      (rest₀ ++ [CameraInput.handle (.gesture s) t]))
    (hcontrol : (run past).isControlling) (hdrag : (run past).IsDrag s t rest) :
    s₀.isPinching = s.isPinching ∧ (run past₀).IsDrag s₀ t₀ (rest₀ ++ CameraInput.handle (.gesture s) t :: rest) := by
  obtain ⟨hcut, hrole, hunbroken, hpinching, hsame, halways⟩ := h
  have hafter : run (past ++ [CameraInput.handle (.gesture s) t]) = (run past).takeGesture s t := by
    rw [run_concat, step_gesture hcontrol]
  have hholds := holds_takeGesture_self (run past) s t
  rw [hafter] at hpinching halways
  have hgestures : gestures (rest₀ ++ [CameraInput.handle (.gesture s) t]) = gestures rest₀ ++ [(s, t)] :=
    gestures_concat _ _
  rw [hgestures] at hsame
  have hwas := halways hholds.seen
  rw [hgestures, presence_concat] at hwas
  have hpinch : s₀.isPinching = s.isPinching := Option.some.inj (hpinching.symm.trans hholds.pinching)
  have hall : gestures (rest₀ ++ CameraInput.handle (.gesture s) t :: rest) =
      (gestures rest₀ ++ [(s, t)]) ++ gestures rest := by
    simp [gestures, CameraInput.gesture?]
  refine ⟨hpinch, ?_, ?_, ?_⟩
  · rw [← List.singleton_append, ← List.append_assoc, unbroken_append]
    refine ⟨hunbroken, ?_⟩
    rw [← after_cons, ← run_append, ← hcut, hafter, ← step_gesture hcontrol]
    exact hdrag.unbroken
  · rw [hall]
    intro x hx hxr
    rw [hrole] at hxr
    rcases List.mem_append.mp hx with hx | hx
    · exact hsame x hx hxr
    · rw [hpinch]
      exact hdrag.pinching x hx hxr
  · rw [hrole, ← wasAlways_iff hrole, hall, presence, List.foldl_append]
    have hseen : (gestures rest₀ ++ [(s, t)]).foldl (Presence.see s.role) ⟨t₀, true, true⟩ = ⟨t, true, true⟩ := by
      rw [List.foldl_append]
      exact Presence.see_self rfl hwas
    rw [hseen]
    exact (wasAlways_iff rfl t _).mpr hdrag.shown

/-- The first gesture of a drag is measured from its own place. -/
theorem dragAnchor_of_isLeast {past rest : List (CameraInput ℝ)} {s g : HandGesture ℝ} {t : ℝ}
    (hcontrol : (run past).isControlling)
    (hleast : past.length ∈ lowerBounds {m | StartsDrag (past ++ CameraInput.handle (.gesture s) t :: rest) g m})
    (hrole : s.role = g.role) (hpinch : s.isPinching = g.isPinching)
    (hdrag : (run past).IsDrag s t rest) :
    (run past).dragAnchor s t =
      ⟨s.panX, s.panY, ((run past).target.bases s.pans).1, ((run past).target.bases s.pans).2⟩ := by
  unfold dragAnchor
  cases hanchor : ((run past).ready s t).anchor? s.pans with
  | none => rfl
  | some a =>
    have hready := HandDrag.isAnchored_of_anchor? (Option.isSome_of_eq_some hanchor)
    obtain ⟨past₀, s₀, t₀, rest₀, hbegan⟩ := exists_began (kept_of_isAnchored_ready hready).2.2
    obtain ⟨hpinch₀, hdrag₀⟩ := (hbegan.gesture hcontrol fun _ => hready).isDrag hcontrol hdrag
    have hcut := hbegan.cut
    have hstarts : StartsDrag (past ++ CameraInput.handle (.gesture s) t :: rest) g past₀.length := by
      refine ⟨s₀, t₀, rest₀ ++ CameraInput.handle (.gesture s) t :: rest, ?_, hbegan.role.trans hrole,
        hpinch₀.trans hpinch, ?_⟩
      · rw [hcut]; simp
      · rw [hcut, List.append_assoc, List.take_left]
        exact hdrag₀
    have hlater := hleast hstarts
    rw [hcut] at hlater
    simp at hlater

/-! ## What a gesture does -/

/-- The anchor that a gesture is measured from: the place of the first gesture of its
drag, and the targets before that. -/
theorem dragAnchor_of_isDrag {inputs past rest : List (CameraInput ℝ)} {s g : HandGesture ℝ} {t now : ℝ}
    (hcontrol : (run inputs).isControlling)
    (hcut : inputs ++ [CameraInput.handle (.gesture g) now] = past ++ CameraInput.handle (.gesture s) t :: rest)
    (hleast : past.length ∈ lowerBounds {m | StartsDrag (inputs ++ [CameraInput.handle (.gesture g) now]) g m})
    (hrole : s.role = g.role) (hpinch : s.isPinching = g.isPinching)
    (hdrag : (run past).IsDrag s t rest) :
    (run inputs).dragAnchor g now =
      ⟨s.panX, s.panY, ((run past).target.bases g.pans).1, ((run past).target.bases g.pans).2⟩ := by
  have hpans : s.pans = g.pans := by rw [HandGesture.pans, hrole, hpinch, HandGesture.pans]
  rw [hcut] at hleast
  rcases List.eq_nil_or_concat' rest with rfl | ⟨rest, i, rfl⟩
  · obtain ⟨rfl, hlast⟩ := List.append_singleton_inj.mp hcut
    obtain ⟨rfl, rfl⟩ : g = s ∧ now = t := by simpa using hlast
    exact dragAnchor_of_isLeast hcontrol hleast rfl rfl hdrag
  · rw [← List.cons_append, ← List.append_assoc] at hcut
    obtain ⟨rfl, rfl⟩ := List.append_singleton_inj.mp hcut
    rw [run_append, after_cons] at hcontrol ⊢
    obtain ⟨hmode, htracks, hholds⟩ := controls_of_unbroken (unbroken_concat.mp hdrag.unbroken).1 hcontrol
    rw [← hpans, ← dragAnchor_of_isLeast hmode hleast hrole hpinch hdrag]
    have hgestures : gestures (rest ++ [CameraInput.handle (.gesture g) now]) = gestures rest ++ [(g, now)] :=
      gestures_concat _ _
    have halways := (wasAlways_iff rfl t _).mpr hdrag.shown
    have hsame := hdrag.pinching
    rw [hgestures] at halways hsame
    rw [presence_concat] at halways
    have h := hholds (Presence.wasAlways_of_see halways) fun x hx => hsame x (List.mem_append_left _ hx)
    have hseen := htracks.seen_atTime halways h.seen
    rw [hrole] at h hseen
    rw [hpinch] at h
    exact (h.takeGesture_self hseen).1

/-- Targets with the same angles that look at the same point. -/
structure SameAim (t t' : CameraTarget ℝ) : Prop where
  theta : t'.theta.target = t.theta.target
  phi : t'.phi.target = t.phi.target
  lookX : t'.lookX.target = t.lookX.target
  lookY : t'.lookY.target = t.lookY.target

/-- The targets `next` after a gesture `g`, from those just before it (`last`), and from
the first gesture `s` of its drag and the targets before that (`base`): the left hand
and an open right hand turn the camera, a pinching right hand moves the point that is
looked at. -/
structure FollowsDrag (s g : HandGesture ℝ) (base last next : CameraTarget ℝ) : Prop where
  turned : g.role = .left ∨ g.isPinching = false →
    next.theta.target = base.theta.target + (g.panX - s.panX) * rotateScaleX ∧
    next.phi.target = max (-maxPhi) (min maxPhi (base.phi.target + (g.panY - s.panY) * rotateScaleY)) ∧
    next.lookX.target = last.lookX.target ∧ next.lookY.target = last.lookY.target
  panned : g.role = .right ∧ g.isPinching →
    next.lookX.target = base.lookX.target + (g.panX - s.panX) * panScale ∧
    next.lookY.target = base.lookY.target + (g.panY - s.panY) * panScale ∧
    next.theta.target = last.theta.target ∧ next.phi.target = last.phi.target

theorem pans_iff {g : HandGesture ℝ} : g.pans = true ↔ g.role = .right ∧ g.isPinching := by
  simp [HandGesture.pans, Role.pans]

theorem pans_eq_false_iff {g : HandGesture ℝ} : g.pans = false ↔ g.role = .left ∨ g.isPinching = false := by
  cases h : g.role <;> simp [HandGesture.pans, Role.pans, h]

theorem followsDrag_takeGesture {c : CameraController ℝ} {s g : HandGesture ℝ} {now : ℝ} {base : CameraTarget ℝ}
    (hanchor : c.dragAnchor g now = ⟨s.panX, s.panY, (base.bases g.pans).1, (base.bases g.pans).2⟩) :
    FollowsDrag s g base c.target (c.takeGesture g now).target := by
  have htarget := c.takeGesture_target g now
  have hother := c.takeGesture_target_other g now
  rw [hanchor] at htarget
  constructor
  · intro hturns
    rw [pans_eq_false_iff.mpr hturns] at htarget hother
    obtain ⟨htheta, hphi⟩ := Prod.mk.inj htarget
    obtain ⟨hlookX, hlookY⟩ := Prod.mk.inj hother
    exact ⟨htheta, hphi.trans (clamp_eq _ _ _), hlookX, hlookY⟩
  · intro hpans
    rw [pans_iff.mpr hpans] at htarget hother
    obtain ⟨hlookX, hlookY⟩ := Prod.mk.inj htarget
    obtain ⟨htheta, hphi⟩ := Prod.mk.inj hother
    exact ⟨hlookX, hlookY, htheta, hphi⟩

/-- The first gesture of a drag moves nothing that is looked at. -/
theorem FollowsDrag.sameAim {g : HandGesture ℝ} {last next : CameraTarget ℝ} (h : FollowsDrag g g last last next)
    (hphi : last.phi.target ∈ Set.Icc (-maxPhi) maxPhi) : SameAim last next := by
  cases hpans : g.pans with
  | false =>
    obtain ⟨htheta, hraised, hlookX, hlookY⟩ := h.turned (pans_eq_false_iff.mp hpans)
    rw [sub_self, zero_mul, add_zero] at htheta hraised
    rw [min_eq_right hphi.2, max_eq_right hphi.1] at hraised
    exact ⟨htheta, hraised, hlookX, hlookY⟩
  | true =>
    obtain ⟨hlookX, hlookY, htheta, hraised⟩ := h.panned (pans_iff.mp hpans)
    rw [sub_self, zero_mul, add_zero] at hlookX hlookY
    exact ⟨htheta, hraised, hlookX, hlookY⟩

/-- A gesture of a hand that has not been seen lately begins a drag. -/
theorem anchor?_ready_of_unseen {c : CameraController ℝ} {g : HandGesture ℝ} {now : ℝ}
    (hunseen : ¬ ((c.atTime g.role now).wasSeen ∨ (c.atTime g.role now).isSeen)) :
    (c.ready g now).anchor? g.pans = none := by
  by_contra hsome
  have hanchored := HandDrag.isAnchored_of_anchor? (Option.isSome_iff_ne_none.mpr hsome)
  exact hunseen (kept_of_isAnchored_ready hanchored).1

theorem sameAim_of_unseen {inputs : List (CameraInput ℝ)} {g : HandGesture ℝ} {now : ℝ}
    (hunseen : ¬ (((run inputs).atTime g.role now).wasSeen ∨ ((run inputs).atTime g.role now).isSeen)) :
    SameAim (run inputs).target ((run inputs).takeGesture g now).target := by
  have hnone := anchor?_ready_of_unseen hunseen
  have hfollows : FollowsDrag g g (run inputs).target (run inputs).target ((run inputs).takeGesture g now).target :=
    followsDrag_takeGesture (by rw [dragAnchor, hnone, Option.getD_none])
  exact hfollows.sameAim (phi_target_mem inputs)

/-- A gesture of a hand right after another one goes on with its drag. -/
theorem followsDrag_next {c : CameraController ℝ} {s g : HandGesture ℝ} {t : ℝ}
    (hbegins : (c.ready s t).anchor? s.pans = none) (hrole : s.role = g.role) (hpinch : s.isPinching = g.isPinching)
    (now : ℝ) :
    FollowsDrag s g c.target (c.takeGesture s t).target ((c.takeGesture s t).takeGesture g now).target := by
  have hpans : s.pans = g.pans := by rw [HandGesture.pans, hrole, hpinch, HandGesture.pans]
  have hholds := holds_takeGesture_self c s t
  have hpresent : (Presence.see s.role (⟨t, true, true⟩ : Presence ℝ) (g, now)).wasAlways := by
    unfold Presence.see
    split <;> rfl
  have hseen := (tracks_takeGesture_self c s t).seen_atTime hpresent hholds.seen
  rw [hrole] at hseen
  rw [hrole, hpinch, dragAnchor, hbegins, Option.getD_none, hpans] at hholds
  exact followsDrag_takeGesture (hholds.takeGesture_self hseen).1

/-- A gesture belongs to a drag that began with some gesture of its hand, and takes the
targets of its kind from where they were then as far as the hand has come since. The
first gesture of a drag takes them nowhere. -/
theorem gesture_follows_drag {inputs : List (CameraInput ℝ)} {g : HandGesture ℝ} {now : ℝ}
    (hcontrol : (run inputs).isControlling) :
    ∃ n s t, IsLeast {m | StartsDrag (inputs ++ [CameraInput.handle (.gesture g) now]) g m} n ∧
      (inputs ++ [CameraInput.handle (.gesture g) now])[n]? = some (.handle (.gesture s) t) ∧
      FollowsDrag s g (run (inputs.take n)).target (run inputs).target
        (run (inputs ++ [CameraInput.handle (.gesture g) now])).target ∧
      (n = inputs.length →
        SameAim (run inputs).target (run (inputs ++ [CameraInput.handle (.gesture g) now])).target) := by
  classical
  have halone : passes [(g, now)] = [[(g, now)]] := passes_of_same (t := now) (by simp) (by simp)
  have hself : StartsDrag (inputs ++ [CameraInput.handle (.gesture g) now]) g inputs.length :=
    ⟨g, now, [], by simp, rfl, rfl, trivial, nofun, by simp [gestures, halone]⟩
  have hexists : ∃ n, StartsDrag (inputs ++ [CameraInput.handle (.gesture g) now]) g n := ⟨_, hself⟩
  have hleast : IsLeast {m | StartsDrag (inputs ++ [CameraInput.handle (.gesture g) now]) g m} (Nat.find hexists) :=
    ⟨Nat.find_spec hexists, fun m hm => Nat.find_min' hexists hm⟩
  generalize Nat.find hexists = n at hleast
  obtain ⟨s, t, rest, hdrop, hrole, hpinch, hdrag⟩ := hleast.1
  have hn : n ≤ inputs.length := hleast.2 hself
  have htake : (inputs ++ [CameraInput.handle (.gesture g) now]).take n = inputs.take n :=
    List.take_append_of_le_length hn
  have hlength : (inputs.take n).length = n := List.length_take_of_le hn
  have hcut : inputs ++ [CameraInput.handle (.gesture g) now] =
      inputs.take n ++ CameraInput.handle (.gesture s) t :: rest := by
    rw [← hdrop, ← htake, List.take_append_drop]
  rw [htake] at hdrag
  have hanchor := dragAnchor_of_isDrag hcontrol hcut (hlength.symm ▸ hleast.2) hrole hpinch hdrag
  have hfollows := followsDrag_takeGesture hanchor
  rw [← step_gesture hcontrol] at hfollows
  rw [← run_concat] at hfollows
  refine ⟨n, s, t, hleast, ?_, hfollows, ?_⟩
  · rw [← List.head?_drop, hdrop]
    rfl
  · rintro rfl
    rw [List.drop_left] at hdrop
    obtain ⟨rfl, -⟩ : g = s ∧ now = t := by simpa using (List.cons.inj hdrop).1
    rw [List.take_length] at hfollows
    exact hfollows.sameAim (phi_target_mem inputs)

/-- The left hand is seen at 0.2. -/
noncomputable def leftHandSeen : List (CameraInput ℝ) :=
  [.activate 0, .handle (.gesture ⟨0.2, 0, false, 0, 0.2, .left⟩) 1]

/-- It has gone to 0.3. -/
noncomputable def leftHandMoved : HandGesture ℝ := ⟨0.3, 0, false, 0, 0.2, .left⟩

theorem gesture_follows_drag_leftHand :
    (run leftHandSeen).isControlling ∧
      ∃ n s t, IsLeast {m | StartsDrag (leftHandSeen ++ [CameraInput.handle (.gesture leftHandMoved) 2]) leftHandMoved m} n ∧
        (leftHandSeen ++ [CameraInput.handle (.gesture leftHandMoved) 2])[n]? = some (.handle (.gesture s) t) ∧
        FollowsDrag s leftHandMoved (run (leftHandSeen.take n)).target (run leftHandSeen).target
          (run (leftHandSeen ++ [CameraInput.handle (.gesture leftHandMoved) 2])).target ∧
        (n = leftHandSeen.length → SameAim (run leftHandSeen).target
          (run (leftHandSeen ++ [CameraInput.handle (.gesture leftHandMoved) 2])).target) := by
  have hcontrol : (run leftHandSeen).isControlling := rfl
  exact ⟨hcontrol, gesture_follows_drag hcontrol⟩

end CameraController

end RepoOrbit
