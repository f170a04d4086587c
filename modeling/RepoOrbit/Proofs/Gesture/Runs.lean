import Mathlib.Data.List.Induction
import RepoOrbit.Gesture.Interpreter

/-!
# Runs of an interpreter

An interpreter is given pictures, is reset and is cleared (`Interpreter.Call`). A run is a
list of such calls, from an interpreter that has seen nothing (`Interpreter.initial`):

* `Interpreter.after`: what is known of the hands after a run;
* `Interpreter.course`: what is known after each of its calls, and the events of the call.

What the hands of one picture do is told hand by hand (`Interpreter.sight`, `see_of_some`,
`see_of_none`).
-/

namespace RepoOrbit

variable {α : Type} [Scalar α]

namespace HandState

variable {s s' : HandState α} {o : Observation α} {g : HandGesture α}

/-- A sight that is a gesture has followed the hand. -/
theorem follow_of_update (h : s.update o = (s', some g)) : { s with isActive := true }.follow o = (s', g) := by
  unfold update at h
  split at h
  · cases h; rfl
  · cases h

/-- The gesture of a hand is its own. -/
theorem role_of_update (h : s.update o = (s', some g)) : g.role = o.role := by
  cases follow_of_update h
  rfl

end HandState

namespace Interpreter

/-- What is asked of an interpreter. -/
inductive Call (α : Type) where
  | picture (hands : List (Observation α))
  /-- Stop following both hands. -/
  | reset
  /-- Forget all that has been seen. -/
  | clear

/-- Do what is asked. -/
def take (i : Interpreter α) : Call α → Interpreter α × List (GestureEvent α)
  | .picture hands => i.process hands
  | .reset => (i.reset, [])
  | .clear => (initial, [])

/-- What is known of the hands after some calls. -/
def after (i : Interpreter α) (calls : List (Call α)) : Interpreter α :=
  calls.foldl (fun i call => (i.take call).1) i

@[simp] theorem after_nil (i : Interpreter α) : i.after [] = i := rfl

@[simp] theorem after_concat (i : Interpreter α) (calls : List (Call α)) (call : Call α) :
    i.after (calls ++ [call]) = ((i.after calls).take call).1 := by
  simp [after]

/-- What is known after each call, and the events of it. -/
def course (i : Interpreter α) : List (Call α) → List (Interpreter α × List (GestureEvent α))
  | [] => []
  | call :: calls => i.take call :: (i.take call).1.course calls

/-! ## The hands of one picture -/

/-- What has come of the hands of a picture. -/
def sight (i : Interpreter α) (hands : List (Observation α)) : Sight α :=
  hands.foldl see ⟨i, [], ⟨none, none⟩⟩

@[simp] theorem sight_nil (i : Interpreter α) : i.sight [] = ⟨i, [], ⟨none, none⟩⟩ := rfl

@[simp] theorem sight_concat (i : Interpreter α) (hands : List (Observation α)) (o : Observation α) :
    i.sight (hands ++ [o]) = see (i.sight hands) o := by
  simp [sight]

theorem process_nil (i : Interpreter α) : i.process [] = (i.reset, [.noHands]) := rfl

theorem process_of_ne_nil (i : Interpreter α) {hands : List (Observation α)} (h : hands ≠ []) :
    i.process hands = ((i.sight hands).hands, (i.sight hands).events ++ joined (i.sight hands).palms) := by
  obtain ⟨o, hands, rfl⟩ := List.exists_cons_of_ne_nil h
  rfl

theorem see_of_some {s : Sight α} {o : Observation α} {hand : HandState α} {g : HandGesture α}
    (h : (s.hands.get o.role).update o = (hand, some g)) :
    see s o = ⟨s.hands.set o.role hand, s.events ++ [.gesture g], s.palms.set o.role (some o.palmCenter)⟩ := by
  simp only [see, h]

theorem see_of_none {s : Sight α} {o : Observation α} {hand : HandState α}
    (h : (s.hands.get o.role).update o = (hand, none)) :
    see s o = { s with hands := s.hands.set o.role hand } := by
  simp only [see, h]

theorem see_hands (s : Sight α) (o : Observation α) :
    (see s o).hands = s.hands.set o.role ((s.hands.get o.role).update o).1 := by
  obtain ⟨⟨hand, gesture⟩, h⟩ : ∃ seen, (s.hands.get o.role).update o = seen := ⟨_, rfl⟩
  cases gesture with
  | none => rw [see_of_none h, h]
  | some g => rw [see_of_some h, h]

end Interpreter

end RepoOrbit
