import RepoOrbit.Proofs.Camera.Bounds

/-!
# What a camera remembers of its hands

The drags of a hand and whether it pinches are remembered side by side, and change side by side: a
hand is only in a drag of the kind that goes with its pinching (`HandDrag.Matches`). So whatever is
done to a camera, the left hand never moves the point that is looked at, the right hand is in one
drag at most, and a drag that turns the camera began at a height that the camera can have
(`CameraController.anchors_match`).
-/

namespace RepoOrbit

open Scalar

variable {α : Type} [Scalar α]

namespace HandDrag

/-- The drags of a hand are of the kind that goes with whether it pinches, as is remembered, and
those that turn the camera began at a height that it can have. -/
structure Matches (d : HandDrag α) (r : Role) : Prop where
  kind (pans : Bool) : (d.anchor? pans).isSome → ∃ isPinching, d.pinching = some isPinching ∧ r.pans isPinching = pans
  base {a : DragAnchor α} : d.rotate = some a → IsHeight a.baseB

variable {d : HandDrag α} {r : Role}

theorem Matches.of_not_isAnchored (h : ¬ d.IsAnchored) : d.Matches r where
  kind _ hsome := absurd (isAnchored_of_anchor? hsome) h
  base hsome := absurd (.inl (hsome ▸ rfl)) h

/-- Only its drags and its pinching matter. -/
theorem Matches.congr {d' : HandDrag α} (h : d.Matches r) (hrotate : d'.rotate = d.rotate) (hpan : d'.pan = d.pan)
    (hpinching : d'.pinching = d.pinching) : d'.Matches r where
  kind pans hsome := by
    rw [hpinching]
    refine h.kind pans ?_
    rwa [anchor?, ← hrotate, ← hpan]
  base hsome := h.base (hrotate ▸ hsome)

theorem Matches.nextPass (h : d.Matches r) : d.nextPass.Matches r := h.congr rfl rfl rfl

theorem Matches.enter (h : d.Matches r) : d.enter.Matches r := by
  unfold HandDrag.enter
  dsimp only
  split
  · exact h.congr rfl rfl rfl
  · exact .of_not_isAnchored (not_isAnchored_dropAnchors d)

theorem Matches.pinch (h : d.Matches r) (isPinching : Bool) : (d.pinch isPinching).Matches r := by
  unfold HandDrag.pinch
  split
  · exact h
  · exact .of_not_isAnchored (not_isAnchored_dropAnchors d)

omit [Scalar α] in
theorem anchor?_setAnchor_of_ne {pans pans' : Bool} (h : pans' ≠ pans) (d : HandDrag α) (a : DragAnchor α) :
    (d.setAnchor pans a).anchor? pans' = d.anchor? pans' := by
  cases pans <;> cases pans' <;> first | rfl | exact absurd rfl h

/-- A hand in a drag of the kind that goes with its pinching is in no other. -/
theorem Matches.setAnchor (h : d.Matches r) {isPinching : Bool} (hpinching : d.pinching = some isPinching)
    {a : DragAnchor α} (hbase : r.pans isPinching = false → IsHeight a.baseB) :
    (d.setAnchor (r.pans isPinching) a).Matches r where
  kind pans hsome := by
    refine ⟨isPinching, by rw [pinching_setAnchor, hpinching], ?_⟩
    by_contra hother
    rw [anchor?_setAnchor_of_ne (Ne.symm hother)] at hsome
    obtain ⟨isPinching', hpinching', hkind⟩ := h.kind _ hsome
    obtain rfl := Option.some.inj (hpinching'.symm.trans hpinching)
    exact hother hkind
  base {b} hsome := by
    cases hpans : r.pans isPinching with
    | false =>
      rw [hpans] at hsome
      obtain rfl : a = b := Option.some.inj hsome
      exact hbase hpans
    | true =>
      rw [hpans] at hsome
      exact h.base hsome

end HandDrag

namespace CameraController

variable {c : CameraController α} {g : HandGesture α} {now : α} {r : Role}

theorem matches_atTime (h : (c.drags.get r).Matches r) (now : α) : (c.atTime r now).Matches r := by
  unfold atTime
  split
  · exact h.nextPass
  · exact h

theorem matches_ready (h : (c.drags.get g.role).Matches g.role) (now : α) : (c.ready g now).Matches g.role :=
  (matches_atTime h now).enter.pinch _

/-- A drag that turns the camera begins at the height that it is meant to have. -/
theorem isHeight_dragAnchor (h : (c.drags.get g.role).Matches g.role) (hphi : IsHeight c.target.phi.target)
    (hturns : g.pans = false) : IsHeight (c.dragAnchor g now).baseB := by
  have hready := matches_ready h now
  unfold dragAnchor
  rw [hturns]
  cases hanchor : (c.ready g now).anchor? false with
  | none => exact hphi
  | some a => exact hready.base hanchor

theorem matches_takeGesture (h : ∀ r, (c.drags.get r).Matches r) (hphi : IsHeight c.target.phi.target) (r : Role) :
    ((c.takeGesture g now).drags.get r).Matches r := by
  by_cases hr : r = g.role
  · subst hr
    have hpinching : (c.ready g now).pinching = some g.isPinching := HandDrag.pinching_pinch _ _
    rw [takeGesture_drag]
    exact (matches_ready (h g.role) now).setAnchor hpinching (isHeight_dragAnchor (h g.role) hphi)
  · rw [takeGesture_drag_of_ne c g now hr]
    exact matches_atTime (h r) now

theorem matches_run (inputs : List (CameraInput α)) (r : Role) : ((run inputs).drags.get r).Matches r := by
  induction inputs using List.reverseRecOn generalizing r with
  | nil => cases r <;> exact .of_not_isAnchored HandDrag.not_isAnchored_none
  | append_singleton inputs i ih =>
    have hphi := isHeight_phi_target inputs
    rw [run_concat]
    generalize run inputs = c at ih hphi
    have moved := c.step_moved i
    generalize c.step i = c' at moved
    cases moved with
    | ignored | activated | refused | displayed => exact ih r
    | released | cleared => cases r <;> exact .of_not_isAnchored HandDrag.not_isAnchored_none
    | centred | joined =>
      rw [centred, PerRole.get_map]
      exact .of_not_isAnchored (HandDrag.not_isAnchored_dropAnchors _)
    | gesture => exact matches_takeGesture ih hphi r

/-- What is remembered of both hands goes together. -/
structure AnchorsMatch (c : CameraController α) : Prop where
  left_pan : (c.drags.get .left).pan = none
  right_alone : (c.drags.get .right).rotate = none ∨ (c.drags.get .right).pan = none
  right_pan : (c.drags.get .right).pan.isSome → (c.drags.get .right).pinching = some true
  right_rotate : (c.drags.get .right).rotate.isSome → (c.drags.get .right).pinching = some false
  pinching (r : Role) : (c.drags.get r).IsAnchored → (c.drags.get r).pinching.isSome
  base {r : Role} {a : DragAnchor α} : (c.drags.get r).rotate = some a → IsHeight a.baseB
  idle : c.isControlling = false → c.drags = ⟨.none, .none⟩ ∧ c.passTime = none

theorem anchorsMatch_run (inputs : List (CameraInput α)) : (run inputs).AnchorsMatch := by
  have hleft := matches_run inputs .left
  have hright := matches_run inputs .right
  have hpan : ((run inputs).drags.get .right).pan.isSome → ((run inputs).drags.get .right).pinching = some true := by
    intro hsome
    obtain ⟨isPinching, hpinching, hkind⟩ := hright.kind true hsome
    obtain rfl : isPinching = true := by simpa [Role.pans] using hkind
    exact hpinching
  have hrotate : ((run inputs).drags.get .right).rotate.isSome →
      ((run inputs).drags.get .right).pinching = some false := by
    intro hsome
    obtain ⟨isPinching, hpinching, hkind⟩ := hright.kind false hsome
    obtain rfl : isPinching = false := by simpa [Role.pans] using hkind
    exact hpinching
  refine ⟨?_, ?_, hpan, hrotate, fun r hanchored => ?_, fun hsome => (matches_run inputs _).base hsome, forgets_of_idle⟩
  · by_contra hsome
    obtain ⟨isPinching, -, hkind⟩ := hleft.kind true (Option.isSome_iff_ne_none.mpr hsome)
    simp [Role.pans] at hkind
  · by_contra hboth
    obtain ⟨hturns, hmoves⟩ := not_or.mp hboth
    have hclosed := hpan (Option.isSome_iff_ne_none.mpr hmoves)
    have hopen := hrotate (Option.isSome_iff_ne_none.mpr hturns)
    exact Bool.false_ne_true (Option.some.inj (hopen.symm.trans hclosed))
  · have hkind : ∃ pans, (((run inputs).drags.get r).anchor? pans).isSome := hanchored.elim (⟨false, ·⟩) (⟨true, ·⟩)
    obtain ⟨pans, hsome⟩ := hkind
    obtain ⟨isPinching, hpinching, -⟩ := (matches_run inputs r).kind _ hsome
    exact hpinching ▸ rfl

/-- Whatever is done to a camera, over any numbers: the left hand is in no drag that moves the
point that is looked at; the right hand is in one drag at most, of the kind that goes with its
pinching; whether a hand pinches is remembered as long as it is in a drag; and a camera that hands
do not control remembers nothing of them. Over exact numbers, a drag that turns the camera began
at a height in the range in which it can be raised. -/
theorem anchors_match :
    (∀ (β : Type) [Scalar β] (inputs : List (CameraInput β)), (run inputs).AnchorsMatch) ∧
      ∀ (inputs : List (CameraInput ℝ)) (r : Role) (a : DragAnchor ℝ),
        ((run inputs).drags.get r).rotate = some a → a.baseB ∈ Set.Icc (-maxPhi) maxPhi :=
  ⟨fun _ _ inputs => anchorsMatch_run inputs,
    fun inputs _ _ hsome => mem_of_isHeight ((anchorsMatch_run inputs).base hsome)⟩

end CameraController

end RepoOrbit
