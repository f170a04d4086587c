import RepoOrbit.Proofs.Gesture.Runs

/-!
# What has happened to a hand

A hand is seen, is let go, and is forgotten (`HandEvent`). What is known of it after any calls is
told by what has happened to it since the beginning (`HandState.lived`,
`Interpreter.get_sight`), and each gesture of a picture comes of one more sight of a hand with such
a past (`Interpreter.exists_of_gesture_mem`). So what every event leaves true of a hand is true of
it in every run (`HandState.lived_always`); what every event does in a run of certain sights is true
in such a run (`HandState.lived_keeps`).
-/

namespace RepoOrbit

variable {α : Type} [Scalar α]

/-- What happens to a hand. -/
inductive HandEvent (α : Type) where
  | seen (o : Observation α)
  /-- No hand is followed any more. -/
  | letGo
  | forgotten

namespace HandState

/-- What is known of a hand after an event. -/
def meet (s : HandState α) : HandEvent α → HandState α
  | .seen o => (s.update o).1
  | .letGo => s.deactivate
  | .forgotten => .initial

/-- What is known of a hand after all that has happened to it. -/
def lived (events : List (HandEvent α)) : HandState α := events.foldl meet .initial

@[simp] theorem lived_nil : lived ([] : List (HandEvent α)) = .initial := rfl

@[simp] theorem lived_concat (events : List (HandEvent α)) (e : HandEvent α) :
    lived (events ++ [e]) = (lived events).meet e := by
  simp [lived]

/-- What is true of a hand of which nothing has been seen, and stays true of one that is let go or
seen as it is in these events, is true after them. -/
theorem lived_keeps {P : HandState α → Prop} {Q : Observation α → Prop} (hinitial : P .initial)
    (hdeactivate : ∀ s, P s → P s.deactivate) (hupdate : ∀ s o, Q o → P s → P (s.update o).1)
    {events : List (HandEvent α)} (hseen : ∀ o, .seen o ∈ events → Q o) : P (lived events) := by
  induction events using List.reverseRecOn with
  | nil => exact hinitial
  | append_singleton events e ih =>
    have hbefore := ih fun o ho => hseen o (List.mem_append_left _ ho)
    rw [lived_concat]
    cases e with
    | seen o => exact hupdate _ o (hseen o (by simp)) hbefore
    | letGo => exact hdeactivate _ hbefore
    | forgotten => exact hinitial

/-- What is true of a hand of which nothing has been seen, and stays true of one that is let go or
seen, is always true. -/
theorem lived_always {P : HandState α → Prop} (hinitial : P .initial) (hdeactivate : ∀ s, P s → P s.deactivate)
    (hupdate : ∀ s o, P s → P (s.update o).1) (events : List (HandEvent α)) : P (lived events) :=
  lived_keeps (Q := fun _ => True) hinitial hdeactivate (fun s o _ => hupdate s o) fun _ _ => trivial

end HandState

namespace Interpreter

/-- What happens to a hand by a call. -/
def Call.eventsOf (r : Role) : Call α → List (HandEvent α)
  | .picture [] => [.letGo]
  | .picture hands => (hands.filter (·.role = r)).map .seen
  | .reset => [.letGo]
  | .clear => [.forgotten]

/-- What has happened to a hand by some calls and some hands of the next picture. -/
def history (calls : List (Call α)) (hands : List (Observation α)) (r : Role) : List (HandEvent α) :=
  calls.flatMap (Call.eventsOf r) ++ (hands.filter (·.role = r)).map .seen

omit [Scalar α] in
theorem history_concat (calls : List (Call α)) (hands : List (Observation α)) (o : Observation α) :
    history calls (hands ++ [o]) o.role = history calls hands o.role ++ [.seen o] := by
  simp [history]

theorem get_sight_eq (i : Interpreter α) (hands : List (Observation α)) (r : Role) :
    (i.sight hands).hands.get r = ((hands.filter (·.role = r)).map HandEvent.seen).foldl HandState.meet (i.get r) := by
  induction hands using List.reverseRecOn with
  | nil => rfl
  | append_singleton hands o ih =>
    rw [sight_concat, see_hands, List.filter_append, List.map_append, List.foldl_append, ← ih]
    by_cases hr : o.role = r
    · subst hr
      rw [PerRole.get_set_self, List.filter_cons_of_pos (by simp)]
      rfl
    · rw [PerRole.get_set_of_ne _ (Ne.symm hr), List.filter_cons_of_neg (by simpa using hr)]
      rfl

theorem get_take (i : Interpreter α) (call : Call α) (r : Role) :
    (i.take call).1.get r = (call.eventsOf r).foldl HandState.meet (i.get r) := by
  cases call with
  | picture hands =>
    cases hands with
    | nil => exact PerRole.get_map _ _ _
    | cons o hands =>
      rw [take, process_of_ne_nil _ (List.cons_ne_nil o hands)]
      exact get_sight_eq i (o :: hands) r
  | reset => exact PerRole.get_map _ _ _
  | clear => cases r <;> rfl

/-- What is known of a hand in the middle of a picture is told by what has happened to it. -/
theorem get_sight (calls : List (Call α)) (hands : List (Observation α)) (r : Role) :
    (((initial : Interpreter α).after calls).sight hands).hands.get r = .lived (history calls hands r) := by
  have hafter : ((initial : Interpreter α).after calls).get r = .lived (calls.flatMap (Call.eventsOf r)) := by
    induction calls using List.reverseRecOn with
    | nil => cases r <;> rfl
    | append_singleton calls call ih =>
      rw [after_concat, get_take, ih, List.flatMap_append, List.flatMap_singleton, HandState.lived, HandState.lived,
        List.foldl_append]
  rw [get_sight_eq, hafter, history, HandState.lived, HandState.lived, List.foldl_append]

theorem get_after (calls : List (Call α)) (r : Role) :
    ((initial : Interpreter α).after calls).get r = .lived (history calls [] r) := get_sight calls [] r

omit [Scalar α] in
/-- The sights in the history of a hand are those of the pictures. -/
theorem mem_history {calls : List (Call α)} {hands : List (Observation α)} {r : Role} {o : Observation α}
    (h : .seen o ∈ history calls hands r) : (∃ seen, .picture seen ∈ calls ∧ o ∈ seen) ∨ o ∈ hands := by
  have hfilter : ∀ {seen : List (Observation α)},
      .seen o ∈ (seen.filter (·.role = r)).map HandEvent.seen → o ∈ seen := by
    intro seen hmem
    obtain ⟨o', ho', heq⟩ := List.mem_map.mp hmem
    cases heq
    exact (List.mem_filter.mp ho').1
  rcases List.mem_append.mp h with hcalls | hhands
  · obtain ⟨call, hcall, hmem⟩ := List.mem_flatMap.mp hcalls
    match call with
    | .picture (o' :: seen) => exact .inl ⟨_, hcall, hfilter hmem⟩
    | .picture [] | .reset | .clear => simp [Call.eventsOf] at hmem
  · exact .inr (hfilter hhands)

/-! ## Gestures -/

theorem not_gesture_mem_joined (palms : PerRole (Option (Point α))) (g : HandGesture α) :
    .gesture g ∉ joined palms := by
  unfold joined
  split
  · split <;> simp
  · simp

theorem exists_of_gesture_mem_sight {i : Interpreter α} {hands : List (Observation α)} {g : HandGesture α}
    (h : .gesture g ∈ (i.sight hands).events) :
    ∃ before o later s', hands = before ++ o :: later ∧
      ((i.sight before).hands.get o.role).update o = (s', some g) := by
  induction hands using List.reverseRecOn with
  | nil => cases h
  | append_singleton hands o ih =>
    have hbefore : .gesture g ∈ (i.sight hands).events → ∃ before o' later s', hands ++ [o] = before ++ o' :: later ∧
        ((i.sight before).hands.get o'.role).update o' = (s', some g) := by
      intro hmem
      obtain ⟨before, o', later, s', rfl, hupdate⟩ := ih hmem
      exact ⟨before, o', later ++ [o], s', by simp, hupdate⟩
    rw [sight_concat] at h
    obtain ⟨⟨hand, gesture⟩, hseen⟩ : ∃ seen, ((i.sight hands).hands.get o.role).update o = seen := ⟨_, rfl⟩
    cases gesture with
    | none =>
      rw [see_of_none hseen] at h
      exact hbefore h
    | some g' =>
      rw [see_of_some hseen] at h
      rcases List.mem_append.mp h with hmem | hmem
      · exact hbefore hmem
      · obtain ⟨⟩ := List.mem_singleton.mp hmem
        exact ⟨hands, o, [], hand, rfl, hseen⟩

/-- A gesture of a picture comes of a sight of one of its hands. -/
theorem exists_of_gesture_mem {calls : List (Call α)} {hands : List (Observation α)} {g : HandGesture α}
    (h : .gesture g ∈ (((initial : Interpreter α).after calls).process hands).2) :
    ∃ before o later s', hands = before ++ o :: later ∧
      (HandState.lived (history calls before o.role)).update o = (s', some g) := by
  by_cases hnil : hands = []
  · rw [hnil, process_nil] at h
    simp at h
  · rw [process_of_ne_nil _ hnil] at h
    rcases List.mem_append.mp h with hmem | hmem
    · obtain ⟨before, o, later, s', hhands, hupdate⟩ := exists_of_gesture_mem_sight hmem
      rw [get_sight] at hupdate
      exact ⟨before, o, later, s', hhands, hupdate⟩
    · exact absurd hmem (not_gesture_mem_joined _ g)

end Interpreter

end RepoOrbit
