import RepoOrbit.Proofs.Gesture.Events
import RepoOrbit.Proofs.Gesture.Limited

/-!
# Each hand by itself

What comes of one hand in a picture (`HandSight`) is told by how often and how that hand
is seen, whatever the other one does (`Sight.of_foldl_see`). So two runs in which a hand
is seen alike have the same gestures of it and know the same of it
(`course_of_sameFor`); and if the sights of a picture come in another order, but those of
each hand in the same one, only the order of the gestures is another one
(`process_of_sameHands`). `hands_do_not_interfere` puts both together.
-/

namespace RepoOrbit

variable {α : Type}

/-- The gestures of a hand among some events. -/
def gesturesOf (r : Role) (events : List (GestureEvent α)) : List (HandGesture α) :=
  events.filterMap fun
    | .gesture g => if g.role = r then some g else none
    | _ => none

theorem gesturesOf_append (r : Role) (events events' : List (GestureEvent α)) :
    gesturesOf r (events ++ events') = gesturesOf r events ++ gesturesOf r events' :=
  List.filterMap_append

theorem gesturesOf_gesture (g : HandGesture α) : gesturesOf g.role [.gesture g] = [g] := by
  simp [gesturesOf]

theorem gesturesOf_gesture_of_ne {r : Role} {g : HandGesture α} (h : g.role ≠ r) : gesturesOf r [.gesture g] = [] := by
  simp [gesturesOf, h]

theorem gesturesOf_map (r : Role) (gs : List (HandGesture α)) :
    gesturesOf r (gs.map .gesture) = gs.filter (·.role = r) := by
  induction gs with
  | nil => rfl
  | cons g gs ih =>
    rw [List.map_cons, ← List.singleton_append, gesturesOf_append, ih]
    by_cases h : g.role = r
    · simp [gesturesOf, h]
    · simp [gesturesOf, h]

/-- Gestures are the same up to their order if those of each hand are the same. -/
theorem perm_of_filter_role {gs gs' : List (HandGesture α)} (h : ∀ r, gs.filter (·.role = r) = gs'.filter (·.role = r)) :
    gs.Perm gs' := by
  have hsplit : ∀ gs : List (HandGesture α),
      (gs.filter (·.role = Role.left) ++ gs.filter (·.role = Role.right)).Perm gs := by
    intro gs
    have hright : (fun g : HandGesture α => decide (g.role = .right)) = fun g => !decide (g.role = .left) := by
      funext g
      cases g.role <;> rfl
    rw [hright]
    exact List.filter_append_perm _ gs
  have hgs := hsplit gs
  rw [h .left, h .right] at hgs
  exact hgs.symm.trans (hsplit gs')

theorem eq_nil_of_filter_role {hands hands' : List (Observation α)}
    (h : ∀ r, hands.filter (·.role = r) = hands'.filter (·.role = r)) (hnil : hands = []) : hands' = [] := by
  refine List.eq_nil_iff_forall_not_mem.mpr fun o ho => ?_
  have hmem : o ∈ hands'.filter (·.role = o.role) := List.mem_filter.mpr ⟨ho, by simp⟩
  rw [← h, hnil] at hmem
  cases hmem

variable [Scalar α]

/-- What has come of one hand in a picture so far: what is known of it, its gestures, and
the palm that made the last one. -/
structure HandSight (α : Type) where
  hand : HandState α
  gestures : List (HandGesture α)
  palm : Option (Point α)

/-- A hand before any sight of it. -/
def HandSight.start (hand : HandState α) : HandSight α := ⟨hand, [], none⟩

/-- See the hand once more. -/
def HandSight.see (s : HandSight α) (o : Observation α) : HandSight α :=
  match s.hand.update o with
  | (hand, some g) => ⟨hand, s.gestures ++ [g], some o.palmCenter⟩
  | (hand, none) => { s with hand }

namespace Interpreter

/-- What has come of one hand. -/
def Sight.of (s : Sight α) (r : Role) : HandSight α := ⟨s.hands.get r, gesturesOf r s.events, s.palms.get r⟩

theorem Sight.of_see_self (s : Sight α) (o : Observation α) : (Interpreter.see s o).of o.role = (s.of o.role).see o := by
  obtain ⟨⟨hand, gesture⟩, h⟩ : ∃ seen, (s.hands.get o.role).update o = seen := ⟨_, rfl⟩
  cases gesture with
  | none =>
    rw [see_of_none h]
    simp only [Sight.of, HandSight.see, h, PerRole.get_set_self]
  | some g =>
    rw [see_of_some h]
    simp only [Sight.of, HandSight.see, h, PerRole.get_set_self, gesturesOf_append]
    rw [← HandState.role_of_update h, gesturesOf_gesture]

theorem Sight.of_see_of_ne (s : Sight α) {o : Observation α} {r : Role} (hr : o.role ≠ r) :
    (Interpreter.see s o).of r = s.of r := by
  obtain ⟨⟨hand, gesture⟩, h⟩ : ∃ seen, (s.hands.get o.role).update o = seen := ⟨_, rfl⟩
  cases gesture with
  | none =>
    rw [see_of_none h]
    simp only [Sight.of, PerRole.get_set_of_ne _ hr.symm]
  | some g =>
    rw [see_of_some h]
    simp only [Sight.of, PerRole.get_set_of_ne _ hr.symm, gesturesOf_append,
      gesturesOf_gesture_of_ne (HandState.role_of_update h ▸ hr), List.append_nil]

/-- What comes of a hand is told by the sights of that hand. -/
theorem Sight.of_foldl_see (r : Role) (hands : List (Observation α)) (s : Sight α) :
    (hands.foldl Interpreter.see s).of r = (hands.filter (·.role = r)).foldl HandSight.see (s.of r) := by
  induction hands generalizing s with
  | nil => rfl
  | cons o hands ih =>
    rw [List.foldl_cons, ih]
    by_cases hr : o.role = r
    · subst hr
      rw [List.filter_cons_of_pos (by simp), List.foldl_cons, Sight.of_see_self]
    · rw [List.filter_cons_of_neg (by simpa using hr), Sight.of_see_of_ne s hr]

theorem sight_of (i : Interpreter α) (hands : List (Observation α)) (r : Role) :
    (i.sight hands).of r = (hands.filter (·.role = r)).foldl HandSight.see (.start (i.get r)) := by
  have hnone : (⟨i, [], ⟨none, none⟩⟩ : Sight α).of r = .start (i.get r) := by cases r <;> rfl
  rw [sight, Sight.of_foldl_see, hnone]

/-! ## Two runs -/

/-- Pictures in which a hand is seen alike; either both or none of them show hands. -/
def SameHand (r : Role) (hands hands' : List (Observation α)) : Prop :=
  (hands = [] ↔ hands' = []) ∧ hands.filter (·.role = r) = hands'.filter (·.role = r)

/-- Calls that are alike for a hand. -/
inductive Call.SameFor (r : Role) : Call α → Call α → Prop
  | picture {hands hands' : List (Observation α)} : SameHand r hands hands' →
      SameFor r (.picture hands) (.picture hands')
  | reset : SameFor r .reset .reset
  | clear : SameFor r .clear .clear

/-- What a hand has to do with a call: what is known of it then, and its gestures. -/
def ofHand (r : Role) (x : Interpreter α × List (GestureEvent α)) : HandState α × List (HandGesture α) :=
  (x.1.get r, gesturesOf r x.2)

theorem gesturesOf_joined (r : Role) (palms : PerRole (Option (Point α))) : gesturesOf r (joined palms) = [] := by
  unfold joined
  split
  · split <;> rfl
  · rfl

theorem ofHand_process (i : Interpreter α) {hands : List (Observation α)} (h : hands ≠ []) (r : Role) :
    ofHand r (i.process hands) = (((i.sight hands).of r).hand, ((i.sight hands).of r).gestures) := by
  rw [i.process_of_ne_nil h, ofHand]
  simp only [gesturesOf_append, gesturesOf_joined, List.append_nil]
  rfl

theorem ofHand_take {r : Role} {i j : Interpreter α} {call call' : Call α} (hsame : call.SameFor r call')
    (h : i.get r = j.get r) : ofHand r (i.take call) = ofHand r (j.take call') := by
  cases hsame with
  | @picture hands hands' hhands =>
    obtain ⟨hempty, hfilter⟩ := hhands
    rw [take, take]
    by_cases hnil : hands = []
    · rw [hnil, hempty.mp hnil, process_nil, process_nil, ofHand, ofHand, reset, reset, PerRole.get_map,
        PerRole.get_map, h]
    · rw [i.ofHand_process hnil, j.ofHand_process (mt hempty.mpr hnil), i.sight_of, j.sight_of, hfilter, h]
  | reset => rw [take, take, ofHand, ofHand, reset, reset, PerRole.get_map, PerRole.get_map, h]
  | clear => rfl

/-- Runs in which a hand is seen alike are alike in what comes of it. -/
theorem course_of_sameFor {r : Role} {i j : Interpreter α} {calls calls' : List (Call α)}
    (hsame : List.Forall₂ (Call.SameFor r) calls calls') (h : i.get r = j.get r) :
    (i.course calls).map (ofHand r) = (j.course calls').map (ofHand r) := by
  induction hsame generalizing i j with
  | nil => rfl
  | @cons call call' calls calls' hcall _ ih =>
    have hnow := ofHand_take hcall h
    rw [course, course, List.map_cons, List.map_cons, hnow, ih (Prod.mk.inj hnow).1]

/-! ## Sights in another order -/

theorem sight_congr (i : Interpreter α) {hands hands' : List (Observation α)}
    (h : ∀ r, hands.filter (·.role = r) = hands'.filter (·.role = r)) (r : Role) :
    (i.sight hands).of r = (i.sight hands').of r := by
  rw [sight_of, sight_of, h]

/-- Sights in another order, in which each hand is seen alike: the same is known of the
hands, the gestures come in another order, and what follows them is the same. -/
theorem process_of_sameHands (i : Interpreter α) {hands hands' : List (Observation α)}
    (h : ∀ r, hands.filter (·.role = r) = hands'.filter (·.role = r)) :
    (i.process hands).1 = (i.process hands').1 ∧
      ∃ (gs gs' : List (HandGesture α)) (rest : List (GestureEvent α)), (i.process hands).2 = gs.map .gesture ++ rest ∧ (i.process hands').2 = gs'.map .gesture ++ rest ∧
        gs.Perm gs' ∧ (∀ r, gs.filter (·.role = r) = gs'.filter (·.role = r)) := by
  by_cases hnil : hands = []
  · rw [hnil, eq_nil_of_filter_role h hnil]
    exact ⟨rfl, [], [], _, rfl, rfl, List.Perm.refl _, fun _ => rfl⟩
  · have hnil' : hands' ≠ [] := mt (eq_nil_of_filter_role fun r => (h r).symm) hnil
    have hsight := i.sight_congr h
    obtain ⟨gs, hgs, -⟩ := i.exists_gives_sight hands
    obtain ⟨gs', hgs', -⟩ := i.exists_gives_sight hands'
    have hhands : (i.sight hands).hands = (i.sight hands').hands :=
      PerRole.ext_get fun r => congrArg HandSight.hand (hsight r)
    have hpalms : (i.sight hands).palms = (i.sight hands').palms :=
      PerRole.ext_get fun r => congrArg HandSight.palm (hsight r)
    have hgestures : ∀ r, gs.filter (·.role = r) = gs'.filter (·.role = r) := by
      intro r
      rw [← gesturesOf_map, ← gesturesOf_map, ← hgs, ← hgs']
      exact congrArg HandSight.gestures (hsight r)
    rw [i.process_of_ne_nil hnil, i.process_of_ne_nil hnil', hhands, hpalms, hgs, hgs']
    exact ⟨rfl, gs, gs', _, rfl, rfl, perm_of_filter_role hgestures, hgestures⟩

/-- The hands do not interfere. In two runs in which a hand is seen alike, its gestures
and what is known of it are the same after each call. And if, after any past, the hands
of a picture are seen in another order, each by itself in the same one, then only the
order of the gestures is another one: whether joined hands follow them and all that comes
later is the same. -/
theorem hands_do_not_interfere :
    (∀ (r : Role) (calls calls' : List (Call α)), List.Forall₂ (Call.SameFor r) calls calls' →
      (initial.course calls).map (ofHand r) = (initial.course calls').map (ofHand r)) ∧
    ∀ (past later : List (Call α)) (hands hands' : List (Observation α)),
      (∀ r, hands.filter (·.role = r) = hands'.filter (·.role = r)) →
      (∃ (gs gs' : List (HandGesture α)) (rest : List (GestureEvent α)),
        ((initial.after past).process hands).2 = gs.map .gesture ++ rest ∧
        ((initial.after past).process hands').2 = gs'.map .gesture ++ rest ∧
        gs.Perm gs' ∧ (∀ r, gs.filter (·.role = r) = gs'.filter (·.role = r))) ∧
      ((initial.after past).process hands).1.course later = ((initial.after past).process hands').1.course later := by
  refine ⟨fun r calls calls' hsame => course_of_sameFor hsame rfl, fun past later hands hands' h => ?_⟩
  obtain ⟨hstate, hevents⟩ := (initial.after past).process_of_sameHands h
  exact ⟨hevents, by rw [hstate]⟩

open Limited in
/-- The left hand with and without the right one, and both in the other order. -/
theorem hands_do_not_interfere_open :
    (∀ o ∈ [openHand 0.3, openRightHand 0.4], o.showsPalm = true) ∧
    ((initial : Interpreter Limited).course [.picture [openHand 0.3]]).map (ofHand .left) =
      ((initial : Interpreter Limited).course [.picture [openRightHand 0.4, openHand 0.3]]).map (ofHand .left) ∧
    ((initial : Interpreter Limited).process [openHand 0.3, openRightHand 0.4]).2.length = 3 ∧
    ((initial : Interpreter Limited).process [openHand 0.3, openRightHand 0.4]).1.course [.picture [openHand 0.5]] =
      ((initial : Interpreter Limited).process [openRightHand 0.4, openHand 0.3]).1.course
        [.picture [openHand 0.5]] := by
  have hsame : SameHand .left [openHand 0.3] [openRightHand 0.4, openHand 0.3] := ⟨by simp, rfl⟩
  have horder : ∀ r, [openHand 0.3, openRightHand 0.4].filter (·.role = r) =
      [openRightHand 0.4, openHand 0.3].filter (·.role = r) := by
    intro r
    cases r <;> rfl
  obtain ⟨hone, hother⟩ := @hands_do_not_interfere Limited _
  exact ⟨by decide +kernel, hone .left _ _ (.cons (.picture hsame) .nil), by decide +kernel,
    (hother [] [.picture [openHand 0.5]] _ _ horder).2⟩

end Interpreter

end RepoOrbit
