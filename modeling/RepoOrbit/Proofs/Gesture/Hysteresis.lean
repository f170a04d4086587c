import RepoOrbit.Proofs.Gesture.Activity
import RepoOrbit.Proofs.Gesture.Limited

/-!
# When a hand pinches

From the sight in which a hand is activated on (`Activation`), each sight tells anew whether it
pinches, from whether it did and from the smoothed distance (`Activation.pinches_eq`). So it pinches
just if since then it has come closer than `pinchEnter` and has not been let as far as `pinchExit`
from there on (`Activation.HeldSince`, `Activation.pinches_iff`). `pinch_hysteresis` is this of all
hands that are followed in any run.
-/

namespace RepoOrbit

open Scalar

variable {α : Type} [Scalar α]

/-- How a hand came to be followed: what had happened to it before, the sight in which it has
shown its palm, and the sights of it since. -/
structure Activation (α : Type) [Scalar α] where
  past : List (HandEvent α)
  opening : Observation α
  later : List (Observation α)
  waits : (HandState.lived past).isActive = false
  shows : opening.showsPalm

namespace Activation

variable (a : Activation α)

/-- The sights of the hand since it has been activated, the first of which was the one that did. -/
def sights : List (Observation α) := a.opening :: a.later

/-- All that has happened to the hand. -/
def events : List (HandEvent α) := a.past ++ a.sights.map .seen

/-- What is known of the hand after some of these sights. -/
def hand (n : Nat) : HandState α := .lived (a.past ++ (a.sights.take n).map .seen)

/-- Whether the hand pinches after one of these sights. -/
def pinches (n : Nat) : Bool := (a.hand (n + 1)).isPinching

/-- The smoothed distance between thumb and forefinger after one of these sights. -/
def distance (n : Nat) : α := (a.hand (n + 1)).smoothPinch

/-- The hand begins to pinch in one of these sights. -/
def StartsPinch (n : Nat) : Prop := a.pinches n ∧ ¬ (a.hand n).isPinching

theorem hand_zero : a.hand 0 = .lived a.past := by
  rw [hand, List.take_zero, List.map_nil, List.append_nil]

theorem hand_length : a.hand a.sights.length = .lived a.events := by
  rw [hand, List.take_length, events]

theorem hand_succ {n : Nat} (h : n < a.sights.length) : a.hand (n + 1) = ((a.hand n).update a.sights[n]).1 := by
  rw [hand, List.take_add_one, List.getElem?_eq_getElem h, Option.toList_some, List.map_append, ← List.append_assoc,
    List.map_singleton, HandState.lived_concat]
  rfl

/-- The hand is followed in each of these sights. -/
theorem follows {n : Nat} (h : n < a.sights.length) : (a.hand n).isActive || a.sights[n].showsPalm := by
  induction n with
  | zero => exact Bool.or_eq_true _ _ |>.mpr (.inr a.shows)
  | succ n ih =>
    obtain ⟨s', g, hupdate, hactive, -⟩ := HandState.update_of_follows (ih (Nat.lt_of_succ_lt h))
    rw [a.hand_succ (Nat.lt_of_succ_lt h), hupdate, hactive, Bool.true_or]

theorem exists_gesture {n : Nat} (h : n < a.sights.length) :
    ∃ g, (a.hand n).update a.sights[n] = (a.hand (n + 1), some g) ∧ g.isPinching = a.pinches n ∧
      (a.hand (n + 1)).isActive ∧ a.pinches n = updatePinch (a.hand n).isPinching (a.distance n) := by
  rw [pinches, distance, a.hand_succ h, HandState.update, if_pos (a.follows h)]
  exact ⟨_, rfl, rfl, rfl, rfl⟩

theorem pinches_eq {n : Nat} (h : n < a.sights.length) :
    a.pinches n = updatePinch (a.hand n).isPinching (a.distance n) := by
  obtain ⟨-, -, -, -, hpinches⟩ := a.exists_gesture h
  exact hpinches

/-- A hand does not pinch before it is activated. -/
theorem not_isPinching_zero : ¬ (a.hand 0).isPinching := by
  rw [hand_zero]
  exact fun hpinching => Bool.false_ne_true (a.waits.symm.trans ((HandState.settled_lived a.past).active hpinching))

/-- Between the two limits a hand goes on as it was. -/
theorem pinches_of_between {n m : Nat} (hnm : n ≤ m) (h : m < a.sights.length)
    (hbetween : ∀ j, n ≤ j → j ≤ m → ¬ less (a.distance j) pinchEnter ∧ less (a.distance j) pinchExit) :
    a.pinches m = (a.hand n).isPinching := by
  have hstep : ∀ j, n ≤ j → j ≤ m → a.pinches j = (a.hand j).isPinching := by
    intro j hnj hjm
    obtain ⟨henter, hexit⟩ := hbetween j hnj hjm
    rw [a.pinches_eq (Nat.lt_of_le_of_lt hjm h), updatePinch]
    cases (a.hand j).isPinching with
    | false => exact Bool.eq_false_iff.mpr henter
    | true => exact hexit
  induction hnm with
  | refl => exact hstep n (Nat.le_refl n) (Nat.le_refl n)
  | @step m hnm ih =>
    have hbefore := ih (Nat.lt_of_succ_lt h) (fun j hnj hjm => hbetween j hnj (Nat.le_succ_of_le hjm))
      fun j hnj hjm => hstep j hnj (Nat.le_succ_of_le hjm)
    exact (hstep (m + 1) (Nat.le_succ_of_le hnm) (Nat.le_refl _)).trans hbefore

/-- In one of these sights up to one of them the hand has come closer than the first limit, and from
then on it has been closer than the second. -/
def HeldSince (n : Nat) : Prop :=
  ∃ i ≤ n, less (a.distance i) pinchEnter ∧ ∀ j, i ≤ j → j ≤ n → less (a.distance j) pinchExit

variable {a}

theorem HeldSince.succ {n : Nat} (h : a.HeldSince n) (hexit : less (a.distance (n + 1)) pinchExit) :
    a.HeldSince (n + 1) := by
  obtain ⟨i, hi, henter, hheld⟩ := h
  refine ⟨i, Nat.le_succ_of_le hi, henter, fun j hij hj => ?_⟩
  rcases Nat.le_succ_iff.mp hj with hj | rfl
  · exact hheld j hij hj
  · exact hexit

theorem HeldSince.extend {i n : Nat} (h : a.HeldSince i) (hin : i ≤ n)
    (hexit : ∀ j, i < j → j ≤ n → less (a.distance j) pinchExit) : a.HeldSince n := by
  induction hin with
  | refl => exact h
  | @step n hin ih =>
    have hbefore := ih fun j hij hj => hexit j hij (Nat.le_succ_of_le hj)
    exact hbefore.succ (hexit _ (Nat.lt_succ_of_le hin) (Nat.le_refl _))

section

variable (hbelow : ∀ d : α, less d pinchEnter → less d pinchExit)
include hbelow

theorem heldSince_of_enter {n : Nat} (henter : less (a.distance n) pinchEnter) : a.HeldSince n := by
  refine ⟨n, Nat.le_refl n, henter, fun j hnj hjn => ?_⟩
  rw [Nat.le_antisymm hjn hnj]
  exact hbelow _ henter

theorem heldSince_zero_iff : a.HeldSince 0 ↔ less (a.distance 0) pinchEnter := by
  refine ⟨fun ⟨i, hi, henter, _⟩ => ?_, heldSince_of_enter hbelow⟩
  rwa [Nat.le_zero.mp hi] at henter

theorem heldSince_succ_iff {n : Nat} :
    a.HeldSince (n + 1) ↔
      less (a.distance (n + 1)) pinchEnter ∨ a.HeldSince n ∧ less (a.distance (n + 1)) pinchExit := by
  constructor
  · rintro ⟨i, hi, henter, hheld⟩
    rcases Nat.le_succ_iff.mp hi with hi | rfl
    · have hbefore : a.HeldSince n := ⟨i, hi, henter, fun j hij hj => hheld j hij (Nat.le_succ_of_le hj)⟩
      exact .inr ⟨hbefore, hheld _ (Nat.le_succ_of_le hi) (Nat.le_refl _)⟩
    · exact .inl henter
  · rintro (henter | ⟨h, hexit⟩)
    · exact heldSince_of_enter hbelow henter
    · exact h.succ hexit

theorem pinches_iff {n : Nat} (h : n < a.sights.length) : a.pinches n ↔ a.HeldSince n := by
  induction n with
  | zero =>
    rw [heldSince_zero_iff hbelow, a.pinches_eq h, Bool.eq_false_iff.mpr a.not_isPinching_zero, updatePinch,
      if_neg Bool.false_ne_true]
  | succ n ih =>
    have hbefore : (a.hand (n + 1)).isPinching ↔ a.HeldSince n := ih (Nat.lt_of_succ_lt h)
    rw [heldSince_succ_iff hbelow, ← hbefore, a.pinches_eq h, updatePinch]
    cases (a.hand (n + 1)).isPinching with
    | false => simp
    | true => simpa using hbelow (a.distance (n + 1))

/-- A pinch that begins anew has been opened since. -/
theorem exists_opened {i k : Nat} (hik : i < k) (hk : k < a.sights.length) (hi : a.StartsPinch i)
    (hstart : a.StartsPinch k) : ∃ j, i < j ∧ j < k ∧ ¬ less (a.distance j) pinchExit := by
  by_contra hnone
  have hexit : ∀ j, i < j → j < k → less (a.distance j) pinchExit :=
    fun j hij hjk => not_not.mp fun hopen => hnone ⟨j, hij, hjk, hopen⟩
  cases k with
  | zero => exact Nat.not_lt_zero i hik
  | succ m =>
    have hheld : a.HeldSince i := (pinches_iff hbelow (Nat.lt_trans hik hk)).mp hi.1
    have hlast := hheld.extend (Nat.le_of_lt_succ hik) fun j hij hj => hexit j hij (Nat.lt_succ_of_le hj)
    exact hstart.2 ((pinches_iff hbelow (Nat.lt_of_succ_lt hk)).mpr hlast)

end

end Activation

/-- A hand is followed just if it has been activated and only been seen since. -/
theorem HandState.isActive_lived_iff {events : List (HandEvent α)} :
    (lived events).isActive ↔ ∃ a : Activation α, a.events = events := by
  constructor
  · intro h
    induction events using List.reverseRecOn with
    | nil => exact absurd h Bool.false_ne_true
    | append_singleton events e ih =>
      rw [lived_concat] at h
      cases e with
      | seen o =>
        by_cases hactive : (lived events).isActive
        · obtain ⟨a, rfl⟩ := ih hactive
          refine ⟨{ a with later := a.later ++ [o] }, ?_⟩
          simp [Activation.events, Activation.sights]
        · by_cases hshows : o.showsPalm
          · exact ⟨⟨events, o, [], Bool.eq_false_iff.mpr hactive, hshows⟩, rfl⟩
          · rw [meet, update_of_not_follows (by simp [hactive, hshows])] at h
            exact absurd h hactive
      | letGo | forgotten => exact absurd h Bool.false_ne_true
  · rintro ⟨a, rfl⟩
    obtain ⟨-, -, -, hactive, -⟩ := a.exists_gesture (Nat.lt_succ_self a.later.length)
    rw [← a.hand_length]
    exact hactive

namespace Interpreter

/-- How a hand pinches from the sight on that has activated it. -/
structure Hysteresis (a : Activation α) : Prop where
  /-- Each sight is a gesture, which says whether the hand pinches. -/
  told : ∀ n (h : n < a.sights.length), ∃ g,
    (a.hand n).update a.sights[n] = (a.hand (n + 1), some g) ∧ g.isPinching = a.pinches n
  held : ∀ n < a.sights.length, a.pinches n ↔ a.HeldSince n
  opened : ∀ i k, i < k → k < a.sights.length → a.StartsPinch i → a.StartsPinch k →
    ∃ j, i < j ∧ j < k ∧ ¬ less (a.distance j) pinchExit
  kept : ∀ n m, n ≤ m → m < a.sights.length →
    (∀ j, n ≤ j → j ≤ m → ¬ less (a.distance j) pinchEnter ∧ less (a.distance j) pinchExit) →
    a.pinches m = (a.hand n).isPinching

/-- A gesture of a picture is of a hand that is followed, and says whether it pinches after its
sight. -/
theorem exists_activation_of_gesture_mem {calls : List (Call α)} {hands : List (Observation α)} {g : HandGesture α}
    (h : .gesture g ∈ (((initial : Interpreter α).after calls).process hands).2) :
    ∃ before o later, hands = before ++ o :: later ∧ ∃ a : Activation α,
      a.events = history calls (before ++ [o]) o.role ∧ g.isPinching = a.pinches a.later.length := by
  obtain ⟨before, o, later, s', hhands, hupdate⟩ := exists_of_gesture_mem h
  have hafter : HandState.lived (history calls (before ++ [o]) o.role) = s' := by
    rw [history_concat, HandState.lived_concat, HandState.meet, hupdate]
  have hfollow := HandState.follow_of_update hupdate
  have hactive : s'.isActive := by
    cases hfollow
    rfl
  rw [← hafter, HandState.isActive_lived_iff] at hactive
  obtain ⟨a, ha⟩ := hactive
  refine ⟨before, o, later, hhands, a, ha, ?_⟩
  have hhand : a.hand (a.later.length + 1) = s' := by rw [← hafter, ← ha, ← a.hand_length]; rfl
  rw [Activation.pinches, hhand]
  cases hfollow
  rfl

/-- A hand that is followed after any calls and some hands of the next picture is one that has been
activated by one of its sights, and only been seen since; and so is the hand of every gesture. In
each sight from that one on it pinches just if since then it has come closer than `pinchEnter` and
has not been let as far as `pinchExit` from there on. That the first limit lies below the second is
all that this needs of the numbers. -/
theorem pinch_hysteresis (hbelow : ∀ d : α, less d pinchEnter → less d pinchExit) :
    (∀ calls hands r, ((((initial : Interpreter α).after calls).sight hands).hands.get r).isActive ↔
      ∃ a : Activation α, a.events = history calls hands r ∧
        (((initial : Interpreter α).after calls).sight hands).hands.get r = a.hand a.sights.length) ∧
    (∀ calls hands g, .gesture g ∈ (((initial : Interpreter α).after calls).process hands).2 →
      ∃ before o later, hands = before ++ o :: later ∧ ∃ a : Activation α,
        a.events = history calls (before ++ [o]) o.role ∧ g.isPinching = a.pinches a.later.length) ∧
    ∀ a : Activation α, Hysteresis a := by
  refine ⟨fun calls hands r => ?_, fun calls hands g => exists_activation_of_gesture_mem, fun a => ?_⟩
  · rw [get_sight, HandState.isActive_lived_iff]
    exact exists_congr fun a => (and_iff_left_of_imp fun h => by rw [a.hand_length, h]).symm
  · refine ⟨fun n h => ?_, fun n h => a.pinches_iff hbelow h, fun i k => a.exists_opened hbelow,
      fun n m => a.pinches_of_between⟩
    obtain ⟨g, hupdate, hpinches, -⟩ := a.exists_gesture h
    exact ⟨g, hupdate, hpinches⟩

/-- A hand whose thumb and forefinger are a little apart. -/
def loosened : Observation Limited :=
  { Limited.openHand 0.3 with landmarks := (Limited.openHand 0.3).landmarks.setIfInBounds 4 ⟨0.6, 0.1, 0.0⟩ }

/-- A hand that has been followed before, is activated anew, closes thumb and forefinger and opens
them a little. -/
def closing : Activation Limited where
  past := [.seen (Limited.openHand 0.3), .letGo]
  opening := Limited.openHand 0.3
  later := List.replicate 4 (Limited.openHand 0.3) ++ [loosened]
  waits := by decide +kernel
  shows := by decide +kernel

theorem less_pinchExit_of_less {d : Limited} (h : less d pinchEnter) : less d pinchExit := by
  have henter : (pinchEnter : Limited) = .exact (11 / 50) := by decide +kernel
  have hexit : (pinchExit : Limited) = .exact (8 / 25) := by decide +kernel
  rw [henter] at h
  rw [hexit]
  cases d with
  | exact q =>
    have hq : q < 11 / 50 := of_decide_eq_true h
    exact decide_eq_true (by grind)
  | infinite => exact absurd h Bool.false_ne_true

/-- The pinch begins below the first limit, and lasts between the two. -/
theorem pinch_hysteresis_loosened :
    (∀ d : Limited, less d pinchEnter → less d pinchExit) ∧
      closing.pinches 3 = false ∧ less (closing.distance 3) pinchExit ∧ less (closing.distance 4) pinchEnter ∧
      ¬ less (closing.distance 5) pinchEnter ∧ closing.pinches 5 ∧ closing.HeldSince 5 := by
  have hpinches : closing.pinches 5 := by decide +kernel
  refine ⟨fun _ => less_pinchExit_of_less, by decide +kernel, by decide +kernel, by decide +kernel, by decide +kernel,
    hpinches, ?_⟩
  obtain ⟨-, -, hysteresis⟩ := @pinch_hysteresis Limited _ fun _ => less_pinchExit_of_less
  exact ((hysteresis closing).held 5 (by decide)).mp hpinches

end Interpreter

end RepoOrbit
