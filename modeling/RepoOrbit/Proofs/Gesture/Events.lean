import RepoOrbit.Proofs.Gesture.Runs

/-!
# The events of a picture

A picture without hands has one event, which says so. Otherwise the events are gestures,
in the order of the hands that make them, and if two make one, joined hands may follow
(`Interpreter.process_cases`).
-/

namespace RepoOrbit

variable {α : Type} [Scalar α]

namespace Interpreter

/-- What has come of some hands is gestures, and there are some if there are palms. -/
structure Sight.Gives (s : Sight α) (gs : List (HandGesture α)) : Prop where
  events : s.events = gs.map .gesture
  palms : ∀ r, (s.palms.get r).isSome → gs ≠ []

theorem Sight.Gives.see {s : Sight α} {gs : List (HandGesture α)} (h : s.Gives gs) (o : Observation α) :
    ∃ gs', (Interpreter.see s o).Gives gs' := by
  obtain ⟨⟨hand, gesture⟩, hseen⟩ : ∃ seen, (s.hands.get o.role).update o = seen := ⟨_, rfl⟩
  cases gesture with
  | none =>
    rw [see_of_none hseen]
    exact ⟨gs, h.events, h.palms⟩
  | some g =>
    rw [see_of_some hseen]
    exact ⟨gs ++ [g], by simp [h.events], fun _ _ => by simp⟩

theorem exists_gives_sight (i : Interpreter α) (hands : List (Observation α)) : ∃ gs, (i.sight hands).Gives gs := by
  induction hands using List.reverseRecOn with
  | nil => exact ⟨[], rfl, fun r hr => by cases r <;> cases hr⟩
  | append_singleton hands o ih =>
    obtain ⟨gs, h⟩ := ih
    rw [sight_concat]
    exact h.see o

/-- The events of a picture. -/
theorem process_cases (i : Interpreter α) (hands : List (Observation α)) :
    (i.process hands).2 = [.noHands] ∨
      ∃ gs tail, (i.process hands).2 = gs.map .gesture ++ tail ∧
        (tail = [] ∨ tail = [.handsJoined] ∧ gs ≠ []) := by
  by_cases hnil : hands = []
  · rw [hnil]
    exact .inl rfl
  · obtain ⟨gs, h⟩ := i.exists_gives_sight hands
    refine .inr ⟨gs, joined (i.sight hands).palms, by rw [process_of_ne_nil i hnil, h.events], ?_⟩
    unfold joined
    split
    · rename_i a b hleft hright
      split
      · exact .inr ⟨rfl, h.palms .left (by rw [PerRole.get, hleft]; rfl)⟩
      · exact .inl rfl
    · exact .inl rfl

/-- Nothing but gestures comes before a gesture. -/
theorem gestures_before {i : Interpreter α} {hands : List (Observation α)} {before after : List (GestureEvent α)}
    {g : HandGesture α} (h : (i.process hands).2 = before ++ GestureEvent.gesture g :: after) :
    ∃ gs : List (HandGesture α), before = gs.map .gesture := by
  rcases process_cases i hands with hnone | ⟨gs, tail, hevents, htail⟩
  · rw [hnone] at h
    have hg : GestureEvent.gesture g ∈ [GestureEvent.noHands] := by rw [h]; simp
    simp at hg
  · rw [hevents] at h
    rcases List.append_eq_append_iff.mp h with ⟨rest, -, hrest⟩ | ⟨rest, hgs, -⟩
    · have hg : .gesture g ∈ tail := by rw [hrest]; simp
      rcases htail with rfl | ⟨rfl, -⟩ <;> simp at hg
    · obtain ⟨gs', -, -, hbefore, -⟩ := List.map_eq_append_iff.mp hgs
      exact ⟨gs', hbefore.symm⟩

/-- The events of a picture with one hand. -/
theorem process_alone {i : Interpreter α} {o : Observation α} {hand : HandState α} {gesture : Option (HandGesture α)}
    (h : (i.get o.role).update o = (hand, gesture)) :
    i.process [o] = (i.set o.role hand, gesture.toList.map .gesture) := by
  rw [process_of_ne_nil i (List.cons_ne_nil o []), ← List.nil_append [o], sight_concat, sight_nil]
  cases gesture with
  | none =>
    rw [see_of_none h]
    rfl
  | some g =>
    rw [see_of_some h]
    cases o.role <;> rfl

end Interpreter

end RepoOrbit
