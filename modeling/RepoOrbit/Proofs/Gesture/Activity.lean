import RepoOrbit.Proofs.Gesture.Histories
import RepoOrbit.Proofs.Gesture.OneHand

/-!
# Which hands are followed

A hand is followed once it has shown its palm, until a picture without hands, a reset or
a clearing (`ShownSince`, `isActive_after`). While it is, each sight of it is a gesture
(`Tells`), and joined hands follow if both made one and their last palms are close
(`joined_cases`). The knob angle is kept just while the hand pinches, and only a hand
that is followed does (`HandState.Settled`). `activity_of_run` is all of this of whole
runs.
-/

namespace RepoOrbit

variable {α : Type} [Scalar α]

namespace HandState

/-- The knob angle is kept while the hand pinches, and only then; only a hand that is
followed pinches. -/
structure Settled (s : HandState α) : Prop where
  angle : s.lastKnobAngle.isSome = s.isPinching
  active : s.isPinching → s.isActive

theorem settled_initial : (initial : HandState α).Settled := ⟨rfl, fun h => h⟩

omit [Scalar α] in
theorem settled_deactivate (s : HandState α) : s.deactivate.Settled := ⟨rfl, fun h => h⟩

/-- A hand is followed once it has shown its palm, and then makes a gesture. -/
theorem update_of_follows {s : HandState α} {o : Observation α} (h : s.isActive || o.showsPalm) :
    ∃ s' g, s.update o = (s', some g) ∧ s'.isActive ∧ s'.Settled := by
  refine ⟨({ s with isActive := true }.follow o).1, ({ s with isActive := true }.follow o).2, ?_, rfl, ?_, fun _ => rfl⟩
  · rw [update, if_pos h]
  · simp only [follow]
    split <;> simp_all

/-- Until then nothing changes. -/
theorem update_of_not_follows {s : HandState α} {o : Observation α} (h : ¬(s.isActive || o.showsPalm)) :
    s.update o = (s, none) := by
  rw [update, if_neg h]

theorem Settled.update {s : HandState α} (hs : s.Settled) (o : Observation α) : (s.update o).1.Settled := by
  by_cases h : s.isActive || o.showsPalm
  · obtain ⟨s', g, heq, -, hsettled⟩ := update_of_follows h
    rwa [heq]
  · rwa [update_of_not_follows h]

theorem settled_lived (events : List (HandEvent α)) : (lived events).Settled :=
  lived_always settled_initial (fun s _ => s.settled_deactivate) (fun _ o hs => hs.update o) events

end HandState

namespace HandSight

theorem see_of_follows {s : HandSight α} {o : Observation α} (h : s.hand.isActive || o.showsPalm) :
    ∃ hand g, s.see o = ⟨hand, s.gestures ++ [g], some o.palmCenter⟩ ∧ hand.isActive ∧ hand.Settled := by
  obtain ⟨hand, g, hupdate, hactive, hsettled⟩ := HandState.update_of_follows h
  exact ⟨hand, g, by rw [see, hupdate], hactive, hsettled⟩

theorem see_of_not_follows {s : HandSight α} {o : Observation α} (h : ¬(s.hand.isActive || o.showsPalm)) :
    s.see o = s := by
  rw [see, HandState.update_of_not_follows h]

theorem isActive_foldl_see (hands : List (Observation α)) (s : HandSight α) :
    (hands.foldl see s).hand.isActive ↔ s.hand.isActive ∨ ∃ o ∈ hands, o.showsPalm := by
  induction hands generalizing s with
  | nil => simp
  | cons o hands ih =>
    have hsee : (s.see o).hand.isActive ↔ s.hand.isActive ∨ o.showsPalm := by
      by_cases h : s.hand.isActive || o.showsPalm
      · obtain ⟨hand, g, heq, hactive, -⟩ := see_of_follows h
        rw [heq]
        exact iff_of_true hactive (by simpa using h)
      · rw [see_of_not_follows h]
        have hnone : ¬s.hand.isActive ∧ ¬o.showsPalm := by simpa using h
        simp [hnone]
    rw [List.foldl_cons, ih, hsee, or_assoc]
    simp

/-- A hand that is not followed has made no gesture in the picture. -/
theorem gestures_of_not_isActive {hand : HandState α} {hands : List (Observation α)}
    (h : ¬(hands.foldl see (start hand)).hand.isActive) : (hands.foldl see (start hand)).gestures = [] := by
  induction hands using List.reverseRecOn with
  | nil => rfl
  | append_singleton hands o ih =>
    rw [List.foldl_append, List.foldl_cons, List.foldl_nil] at h ⊢
    by_cases hfollows : (hands.foldl see (start hand)).hand.isActive || o.showsPalm
    · obtain ⟨hand', g, heq, hactive, -⟩ := see_of_follows hfollows
      rw [heq] at h
      exact absurd hactive h
    · rw [see_of_not_follows hfollows] at h ⊢
      exact ih h

/-- The last palm is that of the last sight of the hand, if it made a gesture. -/
theorem palm_foldl_see (hand : HandState α) (hands : List (Observation α)) :
    (hands.foldl see (start hand)).palm =
      if (hands.foldl see (start hand)).gestures = [] then none else hands.getLast?.map (·.palmCenter) := by
  induction hands using List.reverseRecOn with
  | nil => rfl
  | append_singleton hands o ih =>
    rw [List.foldl_append, List.foldl_cons, List.foldl_nil]
    by_cases hfollows : (hands.foldl see (start hand)).hand.isActive || o.showsPalm
    · obtain ⟨hand', g, heq, -, -⟩ := see_of_follows hfollows
      simp [heq]
    · have hinactive : ¬(hands.foldl see (start hand)).hand.isActive := fun hactive => hfollows (by simp [hactive])
      rw [see_of_not_follows hfollows, ih, gestures_of_not_isActive hinactive, if_pos rfl, if_pos rfl]

end HandSight

namespace Interpreter

/-! ## One picture -/

theorem isActive_sight (i : Interpreter α) (hands : List (Observation α)) (r : Role) :
    ((i.sight hands).hands.get r).isActive ↔ (i.get r).isActive ∨ ∃ o ∈ hands, o.role = r ∧ o.showsPalm := by
  have hhand : (i.sight hands).hands.get r = ((i.sight hands).of r).hand := rfl
  rw [hhand, sight_of, HandSight.isActive_foldl_see]
  simp [HandSight.start, and_assoc]

theorem palms_sight (i : Interpreter α) {hands : List (Observation α)} {gs : List (HandGesture α)}
    (hgs : (i.sight hands).events = gs.map .gesture) (r : Role) :
    (i.sight hands).palms.get r =
      if gs.filter (·.role = r) = [] then none else (hands.filter (·.role = r)).getLast?.map (·.palmCenter) := by
  have hgestures : ((i.sight hands).of r).gestures = gs.filter (·.role = r) := by rw [← gesturesOf_map, ← hgs]; rfl
  have hpalm : (i.sight hands).palms.get r = ((i.sight hands).of r).palm := rfl
  rw [hpalm, ← hgestures, sight_of]
  exact HandSight.palm_foldl_see _ _

/-! ## Whole runs -/

/-- A call after which no hand is followed. -/
inductive Call.Pauses : Call α → Prop
  | empty : Pauses (.picture [])
  | reset : Pauses .reset
  | clear : Pauses .clear

/-- The hand has shown its palm since the hands were last let go. -/
def ShownSince (calls : List (Call α)) (r : Role) : Prop :=
  ∃ before hands rest, calls = before ++ .picture hands :: rest ∧ (∀ call ∈ rest, ¬call.Pauses) ∧
    ∃ o ∈ hands, o.role = r ∧ o.showsPalm

theorem not_shownSince_nil (r : Role) : ¬ShownSince ([] : List (Call α)) r := by
  rintro ⟨before, hands, rest, hnil, -⟩
  simp at hnil

theorem not_shownSince_of_pauses {call : Call α} (h : call.Pauses) (calls : List (Call α)) (r : Role) :
    ¬ShownSince (calls ++ [call]) r := by
  rintro ⟨before, hands, rest, hcalls, hrest, o, ho, -⟩
  rcases List.eq_nil_or_concat rest with rfl | ⟨rest, last, rfl⟩
  · obtain ⟨-, rfl⟩ := List.append_inj' hcalls rfl |>.imp_right List.singleton_inj.mp
    cases h
    cases ho
  · rw [List.concat_eq_append, ← List.cons_append, ← List.append_assoc] at hcalls
    obtain ⟨-, rfl⟩ := List.append_inj' hcalls rfl |>.imp_right List.singleton_inj.mp
    exact hrest call (by simp) h

theorem shownSince_picture {hands : List (Observation α)} (h : hands ≠ []) (calls : List (Call α)) (r : Role) :
    ShownSince (calls ++ [.picture hands]) r ↔ ShownSince calls r ∨ ∃ o ∈ hands, o.role = r ∧ o.showsPalm := by
  constructor
  · rintro ⟨before, shown, rest, hcalls, hrest, ho⟩
    rcases List.eq_nil_or_concat rest with rfl | ⟨rest, last, rfl⟩
    · obtain ⟨-, hshown⟩ := List.append_inj' hcalls rfl
      cases hshown
      exact .inr ho
    · rw [List.concat_eq_append, ← List.cons_append, ← List.append_assoc] at hcalls
      obtain ⟨rfl, -⟩ := List.append_inj' hcalls rfl
      exact .inl ⟨before, shown, rest, rfl, fun call hcall => hrest call (by simp [hcall]), ho⟩
  · rintro (⟨before, shown, rest, rfl, hrest, ho⟩ | ho)
    · refine ⟨before, shown, rest ++ [.picture hands], by simp, fun call hcall => ?_, ho⟩
      rcases List.mem_append.mp hcall with hcall | hcall
      · exact hrest call hcall
      · rw [List.mem_singleton.mp hcall]
        rintro ⟨⟩
        exact h rfl
    · exact ⟨calls, hands, [], rfl, by simp, ho⟩

/-- After any calls, a hand is followed if it has shown its palm since the hands were last
let go. -/
theorem isActive_after (calls : List (Call α)) (r : Role) :
    (((initial : Interpreter α).after calls).get r).isActive ↔ ShownSince calls r := by
  induction calls using List.reverseRecOn with
  | nil =>
    refine iff_of_false ?_ (not_shownSince_nil r)
    cases r <;> exact Bool.false_ne_true
  | append_singleton calls call ih =>
    rw [after_concat]
    cases call with
    | picture hands =>
      by_cases hnil : hands = []
      · rw [hnil]
        refine iff_of_false ?_ (not_shownSince_of_pauses .empty calls r)
        simp [take, process_nil, reset, HandState.deactivate]
      · rw [take, process_of_ne_nil _ hnil, isActive_sight, ih, shownSince_picture hnil]
    | reset =>
      refine iff_of_false ?_ (not_shownSince_of_pauses .reset calls r)
      simp [take, reset, HandState.deactivate]
    | clear =>
      refine iff_of_false ?_ (not_shownSince_of_pauses .clear calls r)
      cases r <;> exact Bool.false_ne_true

theorem settled_after (calls : List (Call α)) (r : Role) : (((initial : Interpreter α).after calls).get r).Settled := by
  rw [get_after]
  exact HandState.settled_lived _

/-- What a picture tells after some calls: one gesture for each sight of a hand that is
followed by then, in the order of the sights. -/
inductive Tells (calls : List (Call α)) : List (Observation α) → List (HandGesture α) → Prop
  | nil : Tells calls [] []
  | gesture {hands : List (Observation α)} {gs : List (HandGesture α)} {o : Observation α} {g : HandGesture α} :
      Tells calls hands gs → ShownSince (calls ++ [.picture (hands ++ [o])]) o.role → g.role = o.role →
      Tells calls (hands ++ [o]) (gs ++ [g])
  | silent {hands : List (Observation α)} {gs : List (HandGesture α)} {o : Observation α} :
      Tells calls hands gs → ¬ShownSince (calls ++ [.picture (hands ++ [o])]) o.role →
      Tells calls (hands ++ [o]) gs

theorem exists_tells (calls : List (Call α)) (hands : List (Observation α)) :
    ∃ gs : List (HandGesture α), (((initial : Interpreter α).after calls).sight hands).events = gs.map .gesture ∧
      Tells calls hands gs := by
  induction hands using List.reverseRecOn with
  | nil => exact ⟨[], rfl, .nil⟩
  | append_singleton hands o ih =>
    obtain ⟨gs, hgs, htells⟩ := ih
    generalize hi : (initial : Interpreter α).after calls = i at hgs ⊢
    have hfollows : ShownSince (calls ++ [.picture (hands ++ [o])]) o.role ↔
        (((i.sight hands).hands.get o.role).isActive || o.showsPalm) := by
      rw [shownSince_picture (by simp), ← isActive_after, hi, Bool.or_eq_true, isActive_sight]
      simp only [List.mem_append, List.mem_singleton, or_and_right, exists_or, exists_eq_left, true_and, or_assoc]
    rw [sight_concat]
    by_cases h : ((i.sight hands).hands.get o.role).isActive || o.showsPalm
    · obtain ⟨hand, g, hupdate, -, -⟩ := HandState.update_of_follows h
      refine ⟨gs ++ [g], ?_, .gesture htells (hfollows.mpr h) (HandState.role_of_update hupdate)⟩
      rw [see_of_some hupdate, hgs, List.map_append]
      rfl
    · refine ⟨gs, ?_, .silent htells (mt hfollows.mp h)⟩
      rw [see_of_none (HandState.update_of_not_follows h), hgs]

/-- Both hands made a gesture in a picture, and the palms of the last sights of them are
joined. -/
def Joins (hands : List (Observation α)) (gs : List (HandGesture α)) : Prop :=
  (∀ r, ∃ g ∈ gs, g.role = r) ∧
    ∃ a b, (hands.filter (·.role = Role.left)).getLast? = some a ∧
      (hands.filter (·.role = Role.right)).getLast? = some b ∧ palmsTogether a.palmCenter b.palmCenter

theorem joined_eq (palms : PerRole (Option (Point α))) :
    joined palms = [] ∧ (¬∃ a b, palms.get .left = some a ∧ palms.get .right = some b ∧ palmsTogether a b) ∨
      joined palms = [.handsJoined] ∧ ∃ a b, palms.get .left = some a ∧ palms.get .right = some b ∧ palmsTogether a b := by
  obtain ⟨left, right⟩ := palms
  cases left with
  | none => exact .inl ⟨rfl, by rintro ⟨a, b, ha, -⟩; cases ha⟩
  | some a =>
    cases right with
    | none => exact .inl ⟨rfl, by rintro ⟨a, b, -, hb, -⟩; cases hb⟩
    | some b =>
      by_cases h : palmsTogether a b
      · exact .inr ⟨if_pos h, a, b, rfl, rfl, h⟩
      · refine .inl ⟨if_neg h, ?_⟩
        rintro ⟨a', b', ha, hb, h'⟩
        cases ha
        cases hb
        exact h h'

theorem palms_sight_iff (i : Interpreter α) {hands : List (Observation α)} {gs : List (HandGesture α)}
    (hgs : (i.sight hands).events = gs.map .gesture) (r : Role) (p : Point α) :
    (i.sight hands).palms.get r = some p ↔
      (∃ g ∈ gs, g.role = r) ∧ ∃ o, (hands.filter (·.role = r)).getLast? = some o ∧ o.palmCenter = p := by
  have hnil : gs.filter (·.role = r) = [] ↔ ¬∃ g ∈ gs, g.role = r := by simp
  rw [palms_sight i hgs]
  by_cases h : gs.filter (·.role = r) = []
  · rw [if_pos h]
    exact iff_of_false (fun hnone => nomatch hnone) fun hp => hnil.mp h hp.1
  · rw [if_neg h, Option.map_eq_some_iff]
    exact (and_iff_right (not_not.mp (mt hnil.mpr h))).symm

theorem joined_cases (i : Interpreter α) {hands : List (Observation α)} {gs : List (HandGesture α)}
    (hgs : (i.sight hands).events = gs.map .gesture) :
    joined (i.sight hands).palms = [] ∧ ¬Joins hands gs ∨
      joined (i.sight hands).palms = [.handsJoined] ∧ Joins hands gs := by
  have hjoins : (∃ a b, (i.sight hands).palms.get .left = some a ∧ (i.sight hands).palms.get .right = some b ∧
      palmsTogether a b) ↔ Joins hands gs := by
    simp only [palms_sight_iff i hgs]
    constructor
    · rintro ⟨-, -, ⟨hleft, a, ha, rfl⟩, ⟨hright, b, hb, rfl⟩, h⟩
      exact ⟨fun r => by cases r <;> assumption, a, b, ha, hb, h⟩
    · rintro ⟨hall, a, b, ha, hb, h⟩
      exact ⟨_, _, ⟨hall .left, a, ha, rfl⟩, ⟨hall .right, b, hb, rfl⟩, h⟩
  rw [← hjoins]
  exact joined_eq _

/-- After any calls, a hand is followed just if it has shown its palm since the last
picture without hands, the last reset and the last clearing; it keeps the knob angle just
while it pinches, and pinches only if it is followed. A picture without hands then has
one event, which says so; one with hands has the gestures of the hands that are followed,
and then that the hands are joined, just if they are. -/
theorem activity_of_run (calls : List (Call α)) :
    (∀ r, ((((initial : Interpreter α).after calls).get r).isActive ↔ ShownSince calls r) ∧
      (((initial : Interpreter α).after calls).get r).Settled) ∧
    (((initial : Interpreter α).after calls).process []).2 = [.noHands] ∧
    ∀ o hands, ∃ gs, Tells calls (o :: hands) gs ∧
      ((((initial : Interpreter α).after calls).process (o :: hands)).2 = gs.map .gesture ∧ ¬Joins (o :: hands) gs ∨
        (((initial : Interpreter α).after calls).process (o :: hands)).2 = gs.map .gesture ++ [.handsJoined] ∧
          Joins (o :: hands) gs) := by
  refine ⟨fun r => ⟨isActive_after calls r, settled_after calls r⟩, rfl, fun o hands => ?_⟩
  obtain ⟨gs, hgs, htells⟩ := exists_tells calls (o :: hands)
  refine ⟨gs, htells, ?_⟩
  rw [process_of_ne_nil _ (List.cons_ne_nil o hands), hgs]
  rcases joined_cases _ hgs with ⟨hjoined, hnot⟩ | ⟨hjoined, hjoins⟩
  · exact .inl ⟨by rw [hjoined, List.append_nil], hnot⟩
  · exact .inr ⟨by rw [hjoined], hjoins⟩

end Interpreter

end RepoOrbit
