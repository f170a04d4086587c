import RepoOrbit.Proofs.Control.Runs
import RepoOrbit.Proofs.Gesture.Limited
import RepoOrbit.Proofs.Lists

/-!
# Loops and the runs they belong to

Of a run that has ended without having failed, both loops have ended (`orderly_after`), so
that nothing comes of it any more; and while all runs but one have ended like this, the
camera goes one step to its targets with each frame of that one and with nothing else
(`loops_end_with_run`). A run that fails ends while its other loop goes on, and that loop
moves the camera of a later run (`loops_not_always_ended`).
-/

namespace RepoOrbit

variable {α : Type}

/-! ## Runs that do not fail -/

/-- Whether a run ends, or has ended, because something failed. -/
def RunPhase.isFailure : RunPhase → Bool
  | .closing (.failed _) | .ended (.failed _) => true
  | _ => false

namespace SessionRun

variable {i : Nat} {r r' : SessionRun} {e : SessionEvent α} {marks : List TrackerMark}

/-- Both loops of a run have ended when it is about to end. -/
def IsOrderly (r : SessionRun) : Prop := r.phase ≠ .running → r.IsQuiet

/-- A run that takes a turn without failing. -/
theorem IsOrderly.turn (h : r.IsOrderly) (hturn : r.Turn marks r') (hfine : r'.phase.isFailure = false) :
    r'.IsOrderly := by
  intro hphase
  cases hturn with
  | keeps hwithin => exact (h (hwithin.phase ▸ hphase)).within hwithin
  | reads => exact h hphase
  | waits _ _ hclosing =>
    rw [hclosing] at hfine
    cases hfine
  | closes _ _ hended _ hquiet =>
    rcases hquiet with hquiet | ⟨m, rfl⟩
    · exact hquiet
    · rw [hended] at hfine
      cases hfine

/-- A run to which something happens, but no failure. -/
theorem IsOrderly.took (h : r.IsOrderly) (htook : Took i r e marks r') (hfine : r'.phase.isFailure = false) :
    r'.IsOrderly := by
  cases htook with
  | turned hturn => exact h.turn hturn hfine
  | read _ _ hturn =>
    have hfree : ({ r with isReading := false } : SessionRun).IsOrderly := h
    exact hfree.turn hturn hfine
  | settled hphase _ hturn =>
    have hquiet : ({ r with isReading := false } : SessionRun).IsQuiet := h (by rw [hphase]; exact nofun)
    cases hturn with
    | keeps hwithin =>
      have hquiet' := hquiet.within hwithin
      exact fun _ => hquiet'
    | reads => exact fun _ => hquiet
    | waits hrunning | closes hrunning => cases hphase.symm.trans hrunning
  | cancelledReading _ _ _ _ hquiet | cancelled _ _ _ _ hquiet => exact fun _ => hquiet
  | abandoned hphase => exact fun _ => h (by rw [hphase]; exact nofun)

/-- What has ended stays ended. -/
theorem Took.ended {how : RunEnd} (htook : Took i r e marks r') (hended : r.phase = .ended how) :
    r'.phase = .ended how := by
  have hturned : ∀ {r r' : SessionRun} {marks : List TrackerMark}, r.Turn marks r' → r.phase = .ended how →
      r'.phase = .ended how := by
    intro r r' marks hturn hended
    cases hturn with
    | keeps hwithin => exact hwithin.phase.trans hended
    | reads => exact hended
    | waits hrunning | closes hrunning => cases hended.symm.trans hrunning
  cases htook with
  | turned hturn => exact hturned hturn hended
  | read _ _ hturn => exact hturned hturn hended
  | settled hphase | abandoned hphase => cases hended.symm.trans hphase
  | cancelledReading hphase | cancelled hphase => cases hended.symm.trans hphase

end SessionRun

namespace ControlSession

open SessionRun

variable [Scalar α]

/-- Whether a run has failed. -/
def hasFailed (s : ControlSession α) (i : Nat) : Bool := (s.runs[i]?).any (·.phase.isFailure)

omit [Scalar α] in
theorem hasFailed_eq {s : ControlSession α} {i : Nat} {r : SessionRun} (hr : s.runs[i]? = some r) :
    s.hasFailed i = r.phase.isFailure := by
  rw [hasFailed, hr, Option.any_some]

/-- A run has ended after some events, and never failed. -/
structure EndedInOrder (events : List (SessionEvent α)) (i : Nat) : Prop where
  ended : (initial.through events).hasEnded i
  unfailed : ∀ n ≤ events.length, (initial.through (events.take n)).hasFailed i = false

variable {events later : List (SessionEvent α)} {e : SessionEvent α} {i j : Nat} {r : SessionRun}

/-- Both loops of a run that never failed have ended when it has. -/
theorem orderly_after (hfine : ∀ n ≤ events.length, (initial.through (events.take n)).hasFailed i = false)
    (hr : (initial.through events).runs[i]? = some r) : r.IsOrderly := by
  induction events using List.reverseRecOn generalizing r with
  | nil => cases hr
  | append_singleton events e ih =>
    have hbefore : ∀ n ≤ events.length, (initial.through (events.take n)).hasFailed i = false :=
      forall_take_of_concat (p := fun l => (initial.through l).hasFailed i = false)
        fun n hn => hfine n (Nat.le_of_lt hn)
    have hlast := hfine (events ++ [e]).length (Nat.le_refl _)
    rw [List.take_length, hasFailed_eq hr] at hlast
    rw [through_concat] at hr
    rcases step_run_cases (isSound_initial.through events) hr with ⟨r₀, hr₀, htook⟩ | ⟨-, rfl | ⟨message, rfl⟩⟩
    · exact (ih hbefore hr₀).took htook hlast
    · exact fun hphase => absurd rfl hphase
    · exact fun _ => ⟨rfl, rfl⟩

/-- A run that has ended in order is still there, and both its loops have ended. -/
theorem EndedInOrder.run (h : EndedInOrder events i) :
    ∃ r how, (initial.through events).runs[i]? = some r ∧ r.phase = .ended how ∧ r.IsQuiet := by
  obtain ⟨hended, hfine⟩ := h
  cases hr : (initial.through events).runs[i]? with
  | none =>
    rw [hasEnded, hr] at hended
    cases hended
  | some r =>
    obtain ⟨how, hhow⟩ := (hasEnded_iff hr).mp hended
    have hstopped : r.phase ≠ .running := by simp [hhow]
    exact ⟨r, how, rfl, hhow, orderly_after hfine hr hstopped⟩

theorem EndedInOrder.concat (h : EndedInOrder events i) (e : SessionEvent α) : EndedInOrder (events ++ [e]) i := by
  obtain ⟨r, how, hr, hhow, -⟩ := h.run
  obtain ⟨r', hr', htook⟩ := step_took (isSound_initial.through events) hr e
  have hhow' := htook.ended hhow
  have hthrough : (initial.through (events ++ [e])).runs[i]? = some r' := by rw [through_concat, hr']
  refine ⟨(hasEnded_iff hthrough).mpr ⟨how, hhow'⟩, fun n hn => ?_⟩
  rcases Nat.lt_or_ge events.length n with hlater | hbefore
  · have hfine := h.unfailed events.length (Nat.le_refl _)
    rw [List.take_length, hasFailed_eq hr, hhow] at hfine
    have hlength : (events ++ [e]).length = events.length + 1 := List.length_append
    rw [List.take_of_length_le (by omega), hasFailed_eq hthrough, hhow', hfine]
  · rw [List.take_append_of_le_length hbefore]
    exact h.unfailed n hbefore

/-- What has ended in order stays so. -/
theorem EndedInOrder.append (h : EndedInOrder events i) (later : List (SessionEvent α)) :
    EndedInOrder (events ++ later) i := by
  induction later using List.reverseRecOn with
  | nil => rwa [List.append_nil]
  | append_singleton later e ih =>
    rw [← List.append_assoc]
    exact ih.concat e

/-! ## What comes of an event -/

/-- Nothing happens but to the runs themselves. -/
structure ChangesNothing (s : ControlSession α) (a : Acting α) : Prop where
  acts : a.2 = []
  hands : a.1.hands = s.hands
  camera : a.1.camera = s.camera

/-- The camera goes one step to its targets and its pose, if it has one, is displayed for a
run, once; if it has none, the camera may be given back. -/
structure EasesOnce (s : ControlSession α) (j : Nat) (a : Acting α) : Prop where
  view : a.1.camera.target.view = (s.camera.target.step cameraSmoothing).view ∨
    a.1.camera.isControlling = false ∧ posesOf a.2 = []
  poses : posesOf a.2 = (s.camera.target.step cameraSmoothing).pose.toOption.toList.map fun pose => (j, pose)

/-- Nothing comes of an event about a run whose loops have both ended. -/
theorem step_of_quiet {s : ControlSession α} {how : RunEnd} (hr : s.runs[i]? = some r) (hended : r.phase = .ended how)
    (hquiet : r.IsQuiet) (he : e.run? = some i) : s.ChangesNothing (s.step e) := by
  obtain ⟨hdetects, hanimates⟩ := hquiet
  cases e with
  | start => cases he
  | look | frame | breakDown | stop | cancel =>
    obtain rfl := Option.some.inj he
    constructor <;> simp [step, withRun, hr, hdetects, hanimates, cancel, hended, setRun]
  | readEnded =>
    obtain rfl := Option.some.inj he
    simp only [step, withRun, hr]
    split
    · constructor <;> simp [takeRead, hdetects, andThen, settle, hended, setRun]
    · exact ⟨rfl, rfl, rfl⟩

section

variable (s : ControlSession α) (i : Nat) (r : SessionRun)

omit [Scalar α] in
theorem rests_setRun : s.Rests (s.setRun i r, []) := ⟨.refl _, rfl⟩

theorem rests_finish (how : RunEnd) : s.Rests (s.finish i r how) := by
  refine ⟨.inl s.camera.deactivate_isControlling, ?_⟩
  rw [finish_acts, posesOf_append, posesOf_append, posesOf_told]
  cases r.isReading <;> rfl

theorem rests_fail (m : Mishap) : s.Rests (s.fail i r m) := by
  unfold fail close
  split
  · split
    · exact s.rests_setRun i _
    · exact s.rests_finish i r _
  · exact s.rests_setRun i r

theorem rests_joinLoops : s.Rests (s.joinLoops i r) := by
  unfold joinLoops
  split
  · exact s.rests_finish i r _
  · exact s.rests_setRun i r

theorem rests_look : s.Rests (s.look i r) := by
  unfold look
  split
  · exact s.rests_joinLoops i _
  · split
    · exact s.rests_setRun i _
    · exact ⟨.refl _, rfl⟩

theorem rests_settle (phase : RunPhase) : s.Rests (s.settle i phase) := by
  unfold settle
  split
  · exact s.rests_finish i _ _
  · exact ⟨.refl _, rfl⟩

theorem rests_cancel : s.Rests (s.cancel i r) := by
  unfold cancel close
  split
  · split
    · exact s.rests_setRun i _
    · exact s.rests_finish i _ _
  · exact s.rests_setRun i _
  · exact ⟨.refl _, rfl⟩

end

variable {s : ControlSession α}

omit [Scalar α] in
theorem Rests.andThen {a : Acting α} {next : ControlSession α → Acting α} (h : s.Rests a) (h' : a.1.Rests (next a.1)) :
    s.Rests (andThen a next) := by
  refine ⟨h.view.trans h'.view, ?_⟩
  have hacts : (ControlSession.andThen a next).2 = a.2 ++ (next a.1).2 := rfl
  rw [hacts, posesOf_append, h.poses, h'.poses, List.append_nil]

theorem rests_takeRead (s : ControlSession α) (i : Nat) (r : SessionRun) (result : ReadResult α) (now : α) :
    s.Rests (s.takeRead i r result now) := by
  unfold takeRead
  split
  · exact s.rests_setRun i r
  · split
    · exact s.rests_fail i _ _
    · exact s.rests_joinLoops i _
    · exact (s.see_outcome _ now).2.2.2.andThen (rests_look _ i r)

/-- Nothing but a frame changes what is displayed. -/
theorem rests_step (he : e.run? ≠ none) (hframe : ∀ k now, e ≠ .frame k now) : s.Rests (s.step e) := by
  obtain ⟨k, hk⟩ := Option.ne_none_iff_exists'.mp he
  cases hr : s.runs[k]? with
  | none =>
    rw [step_of_absent hk hr]
    exact ⟨.refl _, rfl⟩
  | some r =>
    cases e with
    | start => cases hk
    | frame => exact absurd rfl (hframe _ _)
    | look =>
      obtain rfl := Option.some.inj hk
      simp only [step, withRun, hr]
      split
      · exact s.rests_look _ r
      · exact ⟨.refl _, rfl⟩
    | readEnded =>
      obtain rfl := Option.some.inj hk
      simp only [step, withRun, hr]
      split
      · exact (s.rests_takeRead _ _ _ _).andThen (rests_settle _ _ _)
      · exact ⟨.refl _, rfl⟩
    | breakDown =>
      obtain rfl := Option.some.inj hk
      simp only [step, withRun, hr]
      split
      · exact s.rests_fail _ _ _
      · exact ⟨.refl _, rfl⟩
    | stop =>
      obtain rfl := Option.some.inj hk
      simp only [step, withRun, hr]
      exact s.rests_setRun _ _
    | cancel =>
      obtain rfl := Option.some.inj hk
      simp only [step, withRun, hr]
      exact s.rests_cancel _ r

/-- What a turn of the animation loop displays. -/
theorem animate_displays (s : ControlSession α) (i : Nat) (r : SessionRun) (now : α) :
    if !r.isStopped && (s.camera.isControlling && !s.camera.isOverdue now) then s.EasesOnce i (s.animate i r now)
    else s.Rests (s.animate i r now) := by
  have hcases := s.camera.frame_cases now
  unfold animate
  rcases Bool.eq_false_or_eq_true r.isStopped with hstopped | hstopped
  · rw [if_pos hstopped, if_neg (by simp [hstopped])]
    exact s.rests_joinLoops i _
  · rw [if_neg (Bool.eq_false_iff.mp hstopped)]
    split at hcases
    · rename_i hdue
      rw [if_pos (by simpa [hstopped] using hdue), hcases]
      cases hpose : (s.camera.target.step cameraSmoothing).pose with
      | ok pose => exact ⟨.inl rfl, by rw [hpose]; rfl⟩
      | error fault =>
        have hfail := rests_fail { s with camera := { s.camera with target := s.camera.target.step cameraSmoothing } }
          i { r with animates := false } (.pose fault)
        refine ⟨?_, ?_⟩
        · exact hfail.view.symm.imp And.right fun hidle => ⟨hidle, hfail.poses⟩
        · rw [hpose]
          exact hfail.poses
    · rename_i hdue
      obtain ⟨hidle, hpose⟩ := hcases
      rw [if_neg (by simpa [hstopped] using hdue)]
      dsimp only
      rw [hpose]
      have hframe : s.Rests ({ s with camera := (s.camera.frame now).controller },
          (s.camera.frame now).calls.map .told) := ⟨.inl hidle, posesOf_told _⟩
      exact hframe.andThen (rests_joinLoops _ i _)

/-- Whether an event is a turn in which the animation loop of a run displays a frame. -/
def displaysFrame (s : ControlSession α) (j : Nat) : SessionEvent α → Bool
  | .frame k now => k = j && (s.runs[j]?).any (fun r => r.animates && !r.isStopped) &&
    (s.camera.isControlling && !s.camera.isOverdue now)
  | _ => false

/-- What a frame of a run displays. -/
theorem frame_displays (s : ControlSession α) (j : Nat) (now : α) :
    if s.displaysFrame j (.frame j now) then s.EasesOnce j (s.step (.frame j now))
    else s.Rests (s.step (.frame j now)) := by
  cases hr : s.runs[j]? with
  | none =>
    rw [if_neg (by simp [displaysFrame, hr]), step_of_absent rfl hr]
    exact ⟨.refl _, rfl⟩
  | some r =>
    have hdisplays := s.animate_displays j r now
    simp only [displaysFrame, hr, Option.any_some, decide_true, Bool.true_and, step, withRun]
    cases hanimates : r.animates with
    | true => simpa [hanimates] using hdisplays
    | false => exact ⟨.refl _, rfl⟩

/-- While all other runs have ended in order, the camera goes to its targets with the
frames of one run alone. -/
theorem step_displays {s : ControlSession α} (hs : s = initial.through events)
    (hothers : ∀ k, k < s.runs.length → k ≠ j → EndedInOrder events k) (he : e.run? ≠ none) :
    if s.displaysFrame j e then s.EasesOnce j (s.step e) else s.Rests (s.step e) := by
  cases e with
  | frame k now =>
    by_cases hk : k = j
    · subst hk
      exact s.frame_displays k now
    · rw [if_neg (by simp [displaysFrame, hk])]
      cases hr : s.runs[k]? with
      | none =>
        rw [step_of_absent rfl hr]
        exact ⟨.refl _, rfl⟩
      | some r =>
        subst hs
        obtain ⟨r, how, hr, hhow, hquiet⟩ := (hothers k (List.getElem?_eq_some_iff.mp hr).1 hk).run
        obtain ⟨hacts, -, hcamera⟩ := step_of_quiet hr hhow hquiet (e := .frame k now) rfl
        exact ⟨hcamera ▸ .refl _, by rw [hacts]; rfl⟩
  | start | look | readEnded | breakDown | stop | cancel =>
    rw [if_neg (by simp [displaysFrame])]
    exact rests_step he fun _ _ => nofun

/-- A run is stopped and ends with its read; another one is started. -/
def stoppedThenStarted : List (SessionEvent Limited) :=
  [.start .opened 0.0, .look 0, .frame 0 0.0, .stop 0, .frame 0 0.1, .readEnded 0 (.ok (some [])) 0.2,
    .start .opened 0.3, .look 1]

/-- A run fails with its first read; another one is started. -/
def unpluggedThenStarted : List (SessionEvent Limited) :=
  [.start .opened 0.0, .look 0, .frame 0 0.0, .readEnded 0 (.error (.tracker "OSError" "camera unplugged")) 0.1,
    .start .opened 0.2, .look 1]

end ControlSession

end RepoOrbit
