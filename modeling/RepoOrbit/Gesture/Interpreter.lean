import RepoOrbit.Gesture.Hand

/-!
# From hands to gestures

Each hand waits until it shows an open palm and is followed from then on until a
picture without hands (`HandState`). Of a hand that is followed, place, size,
pinch and knob angle are smoothed from picture to picture, and every sight of it
is a gesture (`HandGesture`). `Interpreter.process` takes the hands of one
picture and gives the events.
-/

namespace RepoOrbit

open Scalar

/-- What one hand does: where it points, from -1 to 1, right and up; whether
thumb and forefinger pinch; how far they have turned; how large it is. -/
structure HandGesture (α : Type) where
  panX : α
  panY : α
  isPinching : Bool
  knobDelta : α
  handSize : α
  role : Role
  deriving Repr

/-- What happens in a picture. -/
inductive GestureEvent (α : Type) where
  | gesture (g : HandGesture α)
  | noHands
  | handsJoined
  deriving Repr

/-- What is known of one hand. -/
structure HandState (α : Type) where
  smoothX : α
  smoothY : α
  smoothPinch : α
  smoothKnobAngle : α
  smoothHandSize : α
  /-- The knob angle of the last picture, while the hand pinches. -/
  lastKnobAngle : Option α
  isPinching : Bool
  isActive : Bool
  deriving Repr

/-- Something for each hand. -/
structure PerRole (β : Type) where
  left : β
  right : β
  deriving Repr, DecidableEq, Inhabited

namespace PerRole

variable {β : Type}

/-- What belongs to a hand. -/
def get (p : PerRole β) : Role → β
  | .left => p.left
  | .right => p.right

/-- Change what belongs to a hand. -/
def set (p : PerRole β) (r : Role) (b : β) : PerRole β :=
  match r with
  | .left => { p with left := b }
  | .right => { p with right := b }

/-- Change both. -/
def map {γ : Type} (f : β → γ) (p : PerRole β) : PerRole γ := ⟨f p.left, f p.right⟩

@[simp] theorem get_map {γ : Type} (f : β → γ) (p : PerRole β) (r : Role) : (p.map f).get r = f (p.get r) := by
  cases r <;> rfl

@[simp] theorem get_set_self (p : PerRole β) (r : Role) (b : β) : (p.set r b).get r = b := by
  cases r <;> rfl

theorem get_set_of_ne (p : PerRole β) {r r' : Role} (h : r' ≠ r) (b : β) : (p.set r b).get r' = p.get r' := by
  cases r <;> cases r' <;> first | rfl | exact absurd rfl h

theorem ext_get {p q : PerRole β} (h : ∀ r, p.get r = q.get r) : p = q := by
  obtain ⟨left, right⟩ := p
  obtain rfl : left = q.left := h .left
  obtain rfl : right = q.right := h .right
  rfl

end PerRole

variable {α : Type} [Scalar α]

/-- How much of the way to what is seen a smoothed number goes. -/
def smoothing : α := 0.25

/-- How much of it a knob angle goes. -/
def knobSmoothing : α := 0.3

/-- A pinch begins below this distance. -/
def pinchEnter : α := 0.22

/-- A pinch lasts below this distance. -/
def pinchExit : α := 0.32

/-- Whether a hand pinches, from whether it did and the distance. -/
def updatePinch (wasPinching : Bool) (distance : α) : Bool :=
  if wasPinching then less distance pinchExit else less distance pinchEnter

namespace HandState

/-- A hand of which nothing has been seen. -/
def initial : HandState α := ⟨0.5, 0.5, 1.0, 0.0, 0.25, none, false, false⟩

/-- Stop following a hand; what was smoothed is kept. -/
def deactivate (s : HandState α) : HandState α :=
  { s with isActive := false, lastKnobAngle := none, isPinching := false }

/-- How far the knob has turned to the angle `now`, if it was held before. -/
def turned (s : HandState α) (now : α) : α :=
  match s.isPinching, s.lastKnobAngle with
  | true, some before => angleDelta now before
  | _, _ => 0.0

/-- The numbers of a hand once it has been seen again. -/
def smooth (s : HandState α) (o : Observation α) : HandState α :=
  { s with
    smoothX := blend s.smoothX o.palmCenter.x smoothing
    smoothY := blend s.smoothY o.palmCenter.y smoothing
    smoothPinch := match o.pinch? with
      | some p => blend s.smoothPinch p smoothing
      | none => s.smoothPinch
    smoothHandSize := blend s.smoothHandSize o.size smoothing
    smoothKnobAngle := blend s.smoothKnobAngle o.knobAngle knobSmoothing }

/-- Follow a hand through one picture. -/
def follow (s : HandState α) (o : Observation α) : HandState α × HandGesture α :=
  let seen := s.smooth o
  let isPinching := updatePinch s.isPinching seen.smoothPinch
  let knobDelta := if isPinching then s.turned seen.smoothKnobAngle else 0.0
  let lastKnobAngle := if isPinching then some seen.smoothKnobAngle else none
  ({ seen with isPinching, lastKnobAngle },
    { panX := (seen.smoothX - 0.5) * 2.0
      panY := -(seen.smoothY - 0.5) * 2.0
      isPinching, knobDelta
      handSize := seen.smoothHandSize
      role := o.role })

/-- See a hand: one that is not followed has to show its palm first. -/
def update (s : HandState α) (o : Observation α) : HandState α × Option (HandGesture α) :=
  if s.isActive || o.showsPalm then
    let (s, g) := { s with isActive := true }.follow o
    (s, some g)
  else (s, none)

end HandState

/-- What is known of both hands. -/
abbrev Interpreter (α : Type) := PerRole (HandState α)

namespace Interpreter

/-- Before anything has been seen. -/
def initial : Interpreter α := ⟨.initial, .initial⟩

/-- Stop following both hands. -/
def reset (i : Interpreter α) : Interpreter α := i.map HandState.deactivate

/-- What has come of the hands of a picture so far: the hands, the events, and the
palm of each hand that made a gesture. -/
structure Sight (α : Type) where
  hands : Interpreter α
  events : List (GestureEvent α)
  palms : PerRole (Option (Point α))

/-- See one of the hands of a picture. -/
def see (s : Sight α) (o : Observation α) : Sight α :=
  let (hand, gesture) := (s.hands.get o.role).update o
  let hands := s.hands.set o.role hand
  match gesture with
  | some g => ⟨hands, s.events ++ [.gesture g], s.palms.set o.role (some o.palmCenter)⟩
  | none => { s with hands }

/-- The event that follows when both hands made gestures with their palms
joined. -/
def joined (palms : PerRole (Option (Point α))) : List (GestureEvent α) :=
  match palms.left, palms.right with
  | some a, some b => if palmsTogether a b then [.handsJoined] else []
  | _, _ => []

/-- Take the hands of one picture; one without hands ends everything. -/
def process (i : Interpreter α) (hands : List (Observation α)) : Interpreter α × List (GestureEvent α) :=
  match hands with
  | [] => (i.reset, [.noHands])
  | _ =>
    let sight := hands.foldl see ⟨i, [], ⟨none, none⟩⟩
    (sight.hands, sight.events ++ joined sight.palms)

end Interpreter

end RepoOrbit
