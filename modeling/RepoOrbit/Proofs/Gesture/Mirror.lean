import RepoOrbit.Proofs.Gesture.Upright
import RepoOrbit.Proofs.Gesture.Runs

/-!
# Hands in a mirror

In a mirror what is on the left is on the right, and a left hand is a right one
(`Observation.mirrored`). Each thing read off a hand is the same there or is mirrored
itself (`showsPalm_mirrored`, `palmCenter_mirrored`), and so is what is known of a hand
(`HandState.Mirrors`). One sight of a hand keeps this (`Sight.Mirrors.see`), and so do
whole runs (`mirrored_run`). Knob angles are left out: smoothed, they begin at zero on both
sides of the mirror.
-/

namespace RepoOrbit

open Scalar

/-- The other hand. -/
def Role.other : Role → Role
  | .left => .right
  | .right => .left

noncomputable def Landmark.mirrored (p : Landmark ℝ) : Landmark ℝ := { p with x := 1 - p.x }

noncomputable def Point.mirrored (p : Point ℝ) : Point ℝ := { p with x := 1 - p.x }

/-- The label of a hand in a mirror. -/
def mirroredLabel (label : String) : String :=
  if label = "Left" then "Right" else if label = "Right" then "Left" else label

namespace Observation

/-- A hand in a mirror. -/
noncomputable def mirrored (o : Observation ℝ) : Observation ℝ :=
  ⟨o.landmarks.map Landmark.mirrored, mirroredLabel o.handedness⟩

/-- The hand has one of the two labels. -/
def Labelled {α : Type} (o : Observation α) : Prop := o.handedness = "Left" ∨ o.handedness = "Right"

theorem isLeft_mirrored {o : Observation ℝ} (h : o.Labelled) : o.mirrored.isLeft = !o.isLeft := by
  rcases h with h | h <;> simp [isLeft, mirrored, mirroredLabel, h]

theorem role_mirrored {o : Observation ℝ} (h : o.Labelled) : o.mirrored.role = o.role.other := by
  rw [role, role, isLeft_mirrored h]
  cases o.isLeft <;> rfl

theorem landmark_mirrored (o : Observation ℝ) (n : Nat) (h : n < 21) :
    o.mirrored.landmarks[n] = o.landmarks[n].mirrored := by
  simp [mirrored]

theorem distanceTo_mirrored (a b : Landmark ℝ) : a.mirrored.distanceTo b.mirrored = a.distanceTo b := by
  have hsquare : Real.sqrt ((1 - a.x - (1 - b.x)) ^ 2 + (a.y - b.y) ^ 2) =
      Real.sqrt ((a.x - b.x) ^ 2 + (a.y - b.y) ^ 2) := by
    congr 1
    ring
  exact hsquare

theorem size_mirrored (o : Observation ℝ) : o.mirrored.size = o.size := by
  simp only [size, wrist, middleTip, landmark_mirrored, distanceTo_mirrored]

theorem pinch?_mirrored (o : Observation ℝ) : o.mirrored.pinch? = o.pinch? := by
  simp only [pinch?, size_mirrored, thumbTip, indexTip, landmark_mirrored, distanceTo_mirrored]

theorem palmCenter_mirrored (o : Observation ℝ) : o.mirrored.palmCenter = o.palmCenter.mirrored := by
  have hmean : ∀ a b c d e : ℝ, mean5 (1 - a) (1 - b) (1 - c) (1 - d) (1 - e) = 1 - mean5 a b c d e := by
    intro a b c d e
    have hfive : (1 - a + (1 - b) + (1 - c) + (1 - d) + (1 - e)) / 5.0 = 1 - (a + b + c + d + e) / 5.0 := by
      norm_num
      ring
    exact hfive
  simp only [palmCenter, Point.mirrored, wrist, indexBase, middleBase, ringBase, smallBase, landmark_mirrored,
    Landmark.mirrored, hmean]

theorem stretchedFingers_mirrored (o : Observation ℝ) : o.mirrored.stretchedFingers = o.stretchedFingers := by
  simp only [stretchedFingers, fingers, landmark_mirrored, Landmark.mirrored, List.countP_cons, List.countP_nil]

theorem palmTurn_mirrored (o : Observation ℝ) : o.mirrored.palmTurn = -o.palmTurn := by
  have hturn : ∀ w i s u v : ℝ, (1 - i - (1 - w)) * u - v * (1 - s - (1 - w)) = -((i - w) * u - v * (s - w)) := by
    intros
    ring
  simp only [palmTurn, wrist, indexBase, smallBase, landmark_mirrored]
  exact hturn _ _ _ _ _

theorem showsPalm_mirrored {o : Observation ℝ} (h : o.Labelled) : o.mirrored.showsPalm = o.showsPalm := by
  have hside : ∀ isLeft : Bool, (if !isLeft then less (-o.palmTurn) 0.0 else less 0.0 (-o.palmTurn)) =
      if isLeft then less o.palmTurn 0.0 else less 0.0 o.palmTurn := by
    intro isLeft
    rw [Bool.eq_iff_iff]
    cases isLeft <;> simp only [Bool.not_true, Bool.not_false, if_true, if_false, Bool.false_eq_true, less_iff] <;>
      norm_num
  simp only [showsPalm, stretchedFingers_mirrored, palmTurn_mirrored, isLeft_mirrored h, hside]
  simp only [wrist, middleBase, landmark_mirrored, Landmark.mirrored]

end Observation

/-- What is known of a hand is mirrored, but for its angles. -/
structure HandState.Mirrors (s s' : HandState ℝ) : Prop where
  smoothX : s'.smoothX = 1 - s.smoothX
  smoothY : s'.smoothY = s.smoothY
  smoothPinch : s'.smoothPinch = s.smoothPinch
  smoothHandSize : s'.smoothHandSize = s.smoothHandSize
  isPinching : s'.isPinching = s.isPinching
  isActive : s'.isActive = s.isActive

/-- A gesture is that of the other hand in a mirror, but for the knob. -/
structure HandGesture.Mirrors (g g' : HandGesture ℝ) : Prop where
  panX : g'.panX = -g.panX
  panY : g'.panY = g.panY
  isPinching : g'.isPinching = g.isPinching
  handSize : g'.handSize = g.handSize
  role : g'.role = g.role.other

/-- What happens in a picture and in its mirror. -/
inductive GestureEvent.Mirrors : GestureEvent ℝ → GestureEvent ℝ → Prop
  | gesture {g g' : HandGesture ℝ} : g.Mirrors g' → Mirrors (.gesture g) (.gesture g')
  | noHands : Mirrors .noHands .noHands
  | handsJoined : Mirrors .handsJoined .handsJoined

namespace HandState

theorem mirrors_initial : (initial : HandState ℝ).Mirrors initial :=
  ⟨by norm_num [initial], rfl, rfl, rfl, rfl, rfl⟩

theorem Mirrors.deactivate {s s' : HandState ℝ} (h : s.Mirrors s') : s.deactivate.Mirrors s'.deactivate :=
  ⟨h.smoothX, h.smoothY, h.smoothPinch, h.smoothHandSize, rfl, rfl⟩

theorem Mirrors.smooth {s s' : HandState ℝ} (h : s.Mirrors s') (o : Observation ℝ) :
    (s.smooth o).Mirrors (s'.smooth o.mirrored) := by
  have hblend : blend (1 - s.smoothX) (1 - o.palmCenter.x) smoothing =
      1 - blend s.smoothX o.palmCenter.x smoothing := by
    have hway : ∀ x p t : ℝ, 1 - x + (1 - p - (1 - x)) * t = 1 - (x + (p - x) * t) := by
      intros
      ring
    exact hway _ _ _
  constructor <;> simp only [HandState.smooth, Observation.palmCenter_mirrored, Observation.size_mirrored,
    Observation.pinch?_mirrored, Point.mirrored, h.smoothX, h.smoothY, h.smoothPinch, h.smoothHandSize, h.isPinching,
    h.isActive, hblend]

theorem Mirrors.follow {s s' : HandState ℝ} (h : s.Mirrors s') {o : Observation ℝ} (ho : o.Labelled) :
    (s.follow o).1.Mirrors (s'.follow o.mirrored).1 ∧ (s.follow o).2.Mirrors (s'.follow o.mirrored).2 := by
  have hseen := h.smooth o
  have hpinching : updatePinch s'.isPinching (s'.smooth o.mirrored).smoothPinch =
      updatePinch s.isPinching (s.smooth o).smoothPinch := by rw [h.isPinching, hseen.smoothPinch]
  have hpan : ((s'.smooth o.mirrored).smoothX - 0.5) * 2.0 = -(((s.smooth o).smoothX - 0.5) * 2.0) := by
    have hflip : ∀ x : ℝ, (1 - x - 0.5) * 2.0 = -((x - 0.5) * 2.0) := by
      intro x
      norm_num
      ring
    rw [hseen.smoothX]
    exact hflip _
  refine ⟨⟨hseen.smoothX, hseen.smoothY, hseen.smoothPinch, hseen.smoothHandSize, hpinching, hseen.isActive⟩,
    ⟨hpan, ?_, hpinching, hseen.smoothHandSize, Observation.role_mirrored ho⟩⟩
  simp only [HandState.follow, hseen.smoothY]

/-- One sight of a hand, and of the other one in the mirror. -/
theorem Mirrors.update {s s' : HandState ℝ} (h : s.Mirrors s') {o : Observation ℝ} (ho : o.Labelled) :
    (s.update o).1.Mirrors (s'.update o.mirrored).1 ∧
      Option.Rel HandGesture.Mirrors (s.update o).2 (s'.update o.mirrored).2 := by
  rw [HandState.update, HandState.update, h.isActive, Observation.showsPalm_mirrored ho]
  by_cases hfollows : s.isActive || o.showsPalm
  · have hactive : ({ s with isActive := true } : HandState ℝ).Mirrors { s' with isActive := true } :=
      ⟨h.smoothX, h.smoothY, h.smoothPinch, h.smoothHandSize, h.isPinching, rfl⟩
    obtain ⟨hstate, hgesture⟩ := hactive.follow ho
    rw [if_pos hfollows, if_pos hfollows]
    exact ⟨hstate, .some hgesture⟩
  · rw [if_neg hfollows, if_neg hfollows]
    exact ⟨h, .none⟩

end HandState

theorem palmsTogether_mirrored (a b : Point ℝ) : palmsTogether b.mirrored a.mirrored = palmsTogether a b := by
  have hsquare : Real.sqrt ((1 - b.x - (1 - a.x)) ^ 2 + (b.y - a.y) ^ 2) =
      Real.sqrt ((a.x - b.x) ^ 2 + (a.y - b.y) ^ 2) := by
    congr 1
    ring
  exact congrArg (less · joinDistance) hsquare

namespace Interpreter

/-- What is known of each hand is that of the other one in the mirror. -/
def Mirrors (i i' : Interpreter ℝ) : Prop := ∀ r : Role, (i.get r).Mirrors (i'.get r.other)

theorem mirrors_initial : Mirrors initial initial := fun r => by
  cases r <;> exact HandState.mirrors_initial

theorem Mirrors.reset {i i' : Interpreter ℝ} (h : i.Mirrors i') : i.reset.Mirrors i'.reset := fun r => by
  rw [Interpreter.reset, Interpreter.reset, PerRole.get_map, PerRole.get_map]
  exact (h r).deactivate

theorem Mirrors.set {i i' : Interpreter ℝ} (h : i.Mirrors i') {r : Role} {s s' : HandState ℝ} (hs : s.Mirrors s') :
    Mirrors (i.set r s) (i'.set r.other s') := fun q => by
  have hq := h q
  cases r <;> cases q <;> assumption

/-- What has come of the hands of a picture and of its mirror. -/
structure Sight.Mirrors (s s' : Sight ℝ) : Prop where
  hands : s.hands.Mirrors s'.hands
  events : List.Forall₂ GestureEvent.Mirrors s.events s'.events
  palms : ∀ r : Role, s'.palms.get r.other = (s.palms.get r).map Point.mirrored

theorem Sight.Mirrors.see {s s' : Sight ℝ} (h : s.Mirrors s') {o : Observation ℝ} (ho : o.Labelled) :
    (Interpreter.see s o).Mirrors (Interpreter.see s' o.mirrored) := by
  obtain ⟨hstate, hgesture⟩ := (h.hands o.role).update ho
  rw [← Observation.role_mirrored ho] at hstate hgesture
  obtain ⟨⟨hand, gesture⟩, hseen⟩ : ∃ seen, (s.hands.get o.role).update o = seen := ⟨_, rfl⟩
  obtain ⟨⟨hand', gesture'⟩, hseen'⟩ : ∃ seen, (s'.hands.get o.mirrored.role).update o.mirrored = seen := ⟨_, rfl⟩
  rw [hseen, hseen'] at hstate hgesture
  cases hgesture with
  | none =>
    rw [see_of_none hseen, see_of_none hseen', Observation.role_mirrored ho]
    exact ⟨h.hands.set hstate, h.events, h.palms⟩
  | some hmirrors =>
    rw [see_of_some hseen, see_of_some hseen', Observation.role_mirrored ho]
    refine ⟨h.hands.set hstate, List.rel_append h.events (.cons (.gesture hmirrors) .nil), fun r => ?_⟩
    have hr := h.palms r
    rw [Observation.palmCenter_mirrored]
    generalize o.role = q
    cases q <;> cases r <;> first | rfl | exact hr

theorem Sight.Mirrors.foldl_see {hands : List (Observation ℝ)} (hlabels : ∀ o ∈ hands, o.Labelled) {s s' : Sight ℝ}
    (h : s.Mirrors s') :
    (hands.foldl Interpreter.see s).Mirrors ((hands.map Observation.mirrored).foldl Interpreter.see s') := by
  induction hands generalizing s s' with
  | nil => exact h
  | cons o hands ih =>
    exact ih (fun o' ho' => hlabels o' (List.mem_cons_of_mem _ ho')) (h.see (hlabels o List.mem_cons_self))

theorem joined_mirrored {palms palms' : PerRole (Option (Point ℝ))}
    (h : ∀ r : Role, palms'.get r.other = (palms.get r).map Point.mirrored) : joined palms' = joined palms := by
  obtain ⟨left, right⟩ := palms
  obtain ⟨left', right'⟩ := palms'
  obtain rfl : right' = left.map Point.mirrored := h .left
  obtain rfl : left' = right.map Point.mirrored := h .right
  cases left with
  | none => cases right <;> rfl
  | some a =>
    cases right with
    | none => rfl
    | some b => simp only [joined, Option.map_some, palmsTogether_mirrored]

theorem joined_mirrors_self (palms : PerRole (Option (Point ℝ))) :
    List.Forall₂ GestureEvent.Mirrors (joined palms) (joined palms) := by
  unfold joined
  split
  · split
    · exact .cons .handsJoined .nil
    · exact .nil
  · exact .nil

theorem Mirrors.process {i i' : Interpreter ℝ} (h : i.Mirrors i') {hands : List (Observation ℝ)}
    (hlabels : ∀ o ∈ hands, o.Labelled) :
    (i.process hands).1.Mirrors (i'.process (hands.map Observation.mirrored)).1 ∧
      List.Forall₂ GestureEvent.Mirrors (i.process hands).2 (i'.process (hands.map Observation.mirrored)).2 := by
  by_cases hnil : hands = []
  · rw [hnil]
    exact ⟨h.reset, .cons .noHands .nil⟩
  · have hstart : Sight.Mirrors ⟨i, [], ⟨none, none⟩⟩ ⟨i', [], ⟨none, none⟩⟩ :=
      ⟨h, .nil, fun r => by cases r <;> rfl⟩
    have hsight : (i.sight hands).Mirrors (i'.sight (hands.map Observation.mirrored)) := hstart.foldl_see hlabels
    rw [process_of_ne_nil i hnil, process_of_ne_nil i' (mt List.map_eq_nil_iff.mp hnil)]
    refine ⟨hsight.hands, List.rel_append hsight.events ?_⟩
    rw [joined_mirrored hsight.palms]
    exact joined_mirrors_self _

/-! ## Whole runs -/

/-- What is asked in the mirror. -/
noncomputable def Call.mirrored : Call ℝ → Call ℝ
  | .picture hands => .picture (hands.map Observation.mirrored)
  | .reset => .reset
  | .clear => .clear

/-- All hands in a picture have one of the two labels. -/
def Call.Labelled {α : Type} : Call α → Prop
  | .picture hands => ∀ o ∈ hands, o.Labelled
  | .reset | .clear => True

theorem Mirrors.take {i i' : Interpreter ℝ} (h : i.Mirrors i') {call : Call ℝ} (hlabels : call.Labelled) :
    (i.take call).1.Mirrors (i'.take call.mirrored).1 ∧
      List.Forall₂ GestureEvent.Mirrors (i.take call).2 (i'.take call.mirrored).2 := by
  cases call with
  | picture hands => exact h.process hlabels
  | reset => exact ⟨h.reset, .nil⟩
  | clear => exact ⟨mirrors_initial, .nil⟩

theorem Mirrors.course {i i' : Interpreter ℝ} (h : i.Mirrors i') {calls : List (Call ℝ)}
    (hlabels : ∀ call ∈ calls, call.Labelled) :
    List.Forall₂ (List.Forall₂ GestureEvent.Mirrors) ((i.course calls).map Prod.snd)
      ((i'.course (calls.map Call.mirrored)).map Prod.snd) := by
  induction calls generalizing i i' with
  | nil => exact .nil
  | cons call calls ih =>
    obtain ⟨hstate, hevents⟩ := h.take (hlabels call List.mem_cons_self)
    exact .cons hevents (ih hstate fun call' hcall' => hlabels call' (List.mem_cons_of_mem _ hcall'))

/-- The events of the pictures in a mirror are those of the pictures themselves, in their
order, with left and right swapped. -/
theorem mirrored_run (calls : List (Call ℝ)) (hlabels : ∀ call ∈ calls, call.Labelled) :
    List.Forall₂ (List.Forall₂ GestureEvent.Mirrors) (((initial : Interpreter ℝ).course calls).map Prod.snd)
      (((initial : Interpreter ℝ).course (calls.map Call.mirrored)).map Prod.snd) :=
  mirrors_initial.course hlabels

/-- A picture of both hands, and one of the left hand alone. -/
theorem mirrored_run_upright :
    ((leftHand 0.3).showsPalm ∧ (rightHand 0.4).showsPalm ∧ (leftHand 0.3).mirrored.role = .right) ∧
    List.Forall₂ (List.Forall₂ GestureEvent.Mirrors)
      (((initial : Interpreter ℝ).course
        [.picture [leftHand 0.3, rightHand 0.4], .picture [leftHand 0.6]]).map Prod.snd)
      (((initial : Interpreter ℝ).course
        [.picture [(leftHand 0.3).mirrored, (rightHand 0.4).mirrored], .picture [(leftHand 0.6).mirrored]]).map
          Prod.snd) := by
  have hleft : ∀ x, (leftHand x).Labelled := fun _ => .inr rfl
  have hright : ∀ x, (rightHand x).Labelled := fun _ => .inl rfl
  have hlabels : ∀ call ∈ ([.picture [leftHand 0.3, rightHand 0.4], .picture [leftHand 0.6]] : List (Call ℝ)),
      call.Labelled := by
    simp only [List.forall_mem_cons, List.not_mem_nil, Call.Labelled, hleft, hright]
    simp
  refine ⟨⟨leftHand_showsPalm _, rightHand_showsPalm _, ?_⟩, mirrored_run _ hlabels⟩
  rw [Observation.role_mirrored (hleft _)]
  rfl

end Interpreter

end RepoOrbit
