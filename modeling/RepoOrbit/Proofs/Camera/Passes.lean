import Mathlib.Data.List.SplitBy
import RepoOrbit.Proofs.Gesture.Exact
import RepoOrbit.Proofs.Camera.Steps

/-!
# Gestures picture by picture

Gestures that follow each other at one time belong to one picture (`passes`). A camera
does not keep the pictures: it knows the time of the present one and, of each hand,
whether it is in it (`Presence`). `wasAlways_iff` says what that tells of the pictures
that are over.
-/

namespace RepoOrbit

open Scalar

section

variable {α : Type} [Scalar α]

/-- The gestures of each picture: those that follow each other at one time. -/
def passes (gs : List (HandGesture α × α)) : List (List (HandGesture α × α)) :=
  gs.splitBy fun x y => same x.2 y.2

/-- What is known of a hand while gestures are handled: the time of the present
picture, whether the hand is in it, and whether it was in all that came before. -/
structure Presence (α : Type) where
  time : α
  isShown : Bool
  wasAlways : Bool

/-- Another gesture, of any hand. -/
def Presence.see (r : Role) (p : Presence α) (x : HandGesture α × α) : Presence α :=
  if same x.2 p.time then { p with isShown := p.isShown || x.1.role = r }
  else ⟨x.2, x.1.role = r, p.wasAlways && p.isShown⟩

/-- What is known of a hand some gestures after one of its own. -/
def presence (r : Role) (t : α) (gs : List (HandGesture α × α)) : Presence α :=
  gs.foldl (Presence.see r) ⟨t, true, true⟩

theorem presence_concat (r : Role) (t : α) (gs : List (HandGesture α × α)) (x : HandGesture α × α) :
    presence r t (gs ++ [x]) = (presence r t gs).see r x := by
  simp [presence]

theorem Presence.wasAlways_of_see {r : Role} {p : Presence α} {x : HandGesture α × α}
    (h : (p.see r x).wasAlways) : p.wasAlways := by
  unfold Presence.see at h
  split at h
  · exact h
  · exact ((Bool.and_eq_true _ _).mp h).1

end

theorem passes_of_same {t : ℝ} {p : List (HandGesture ℝ × ℝ)} (hp : p ≠ []) (htime : ∀ x ∈ p, x.2 = t) :
    passes p = [p] := by
  refine List.splitBy_of_isChain hp (List.Pairwise.isChain ?_)
  refine List.pairwise_of_forall_mem_list fun x hx y hy => ?_
  rw [same_iff, htime x hx, htime y hy]

theorem wasAlways_foldl_see {r : Role} {gs : List (HandGesture ℝ × ℝ)} {p : List (HandGesture ℝ × ℝ)} {t : ℝ}
    {b : Bool} (hp : p ≠ []) (htime : ∀ x ∈ p, x.2 = t) :
    (gs.foldl (Presence.see r) ⟨t, p.any (·.1.role = r), b⟩).wasAlways ↔
      b ∧ ∀ pass ∈ (passes (p ++ gs)).dropLast, ∃ x ∈ pass, x.1.role = r := by
  induction gs generalizing p t b with
  | nil => simp [passes_of_same hp htime]
  | cons x gs ih =>
    rw [List.foldl_cons, Presence.see]
    by_cases hx : x.2 = t
    · rw [if_pos (same_iff.mpr hx)]
      have hnext := ih (p := p ++ [x]) (t := t) (b := b) (by simp) fun y hy =>
        (List.mem_append.mp hy).elim (htime y) fun hy => List.mem_singleton.mp hy ▸ hx
      rw [List.append_assoc, List.singleton_append] at hnext
      rw [← hnext]
      simp
    · rw [if_neg (mt same_iff.mp hx)]
      have hnext := ih (p := [x]) (t := x.2) (b := b && p.any (·.1.role = r)) (by simp) (by simp)
      have hcut : passes (p ++ x :: gs) = p :: passes (x :: gs) := by
        rw [passes, List.splitBy_append_cons, ← passes, passes_of_same hp htime, List.singleton_append, passes]
        intro y hy
        rw [Bool.eq_false_iff, ne_eq, same_iff, htime y (List.mem_of_mem_getLast? hy)]
        exact Ne.symm hx
      have hmore : passes (x :: gs) ≠ [] := List.splitBy_ne_nil.mpr (by simp)
      rw [hcut, List.dropLast_cons_of_ne_nil hmore]
      simp only [List.any_cons, List.any_nil, Bool.or_false, List.singleton_append] at hnext
      rw [hnext]
      simp [and_assoc]

/-- Whether a hand was in all pictures that are over. -/
theorem wasAlways_iff {r : Role} {s : HandGesture ℝ} (hs : s.role = r) (t : ℝ) (gs : List (HandGesture ℝ × ℝ)) :
    (presence r t gs).wasAlways ↔ ∀ pass ∈ (passes ((s, t) :: gs)).dropLast, ∃ x ∈ pass, x.1.role = r := by
  have h := @wasAlways_foldl_see r gs [(s, t)] t true (by simp) (by simp)
  simpa [presence, hs] using h

theorem Presence.see_self {p : Presence ℝ} {r : Role} {x : HandGesture ℝ × ℝ} (hx : x.1.role = r)
    (h : (p.see r x).wasAlways) : p.see r x = ⟨x.2, true, true⟩ := by
  unfold Presence.see at h ⊢
  by_cases htime : x.2 = p.time
  · rw [if_pos (same_iff.mpr htime)] at h ⊢
    have halways : p.wasAlways = true := h
    simp [hx, htime, halways]
  · rw [if_neg (mt same_iff.mp htime)] at h ⊢
    have halways : (p.wasAlways && p.isShown) = true := h
    simp [hx, halways]

end RepoOrbit
