import RepoOrbit.Control.Session
import RepoOrbit.Proofs.Camera.Custody

/-!
# What an event does to a run

What a session does for a run is told by `Outcome`: that run has taken a turn, nothing
is seen of the trackers of the others, and the camera yields at most. `SessionRun.Turn`
lists the turns of a run, `SessionRun.Took` what an event does to it, with what is seen
of its tracker (`step_took`).
-/

namespace RepoOrbit

variable {α : Type} [Scalar α]

/-! ## What is seen of a session -/

/-- What is seen of a tracker. -/
inductive TrackerMark where
  | opened
  | readBegun
  | readEnded
  | closed
  deriving DecidableEq, Repr

/-- What the renderer is told. -/
def SessionAct.call? {α : Type} : SessionAct α → Option (CameraCall α)
  | .told call => some call
  | _ => none

/-- What is seen of the tracker of a run. -/
def SessionAct.mark? {α : Type} (i : Nat) : SessionAct α → Option TrackerMark
  | .trackerOpened k => if k = i then some .opened else none
  | .readBegun k => if k = i then some .readBegun else none
  | .readAwaited k => if k = i then some .readEnded else none
  | .trackerClosed k => if k = i then some .closed else none
  | .handled _ _ _ | .displayed _ _ | .told _ => none

/-- A pose that is displayed, and for which run. -/
def SessionAct.pose? {α : Type} : SessionAct α → Option (Nat × CameraPose α)
  | .displayed i pose => some (i, pose)
  | _ => none

/-- All that the renderer is told. -/
def callsOf {α : Type} (acts : List (SessionAct α)) : List (CameraCall α) := acts.filterMap SessionAct.call?

/-- All that is seen of the tracker of a run, but the ends of the reads that its loops take. -/
def marksOf {α : Type} (i : Nat) (acts : List (SessionAct α)) : List TrackerMark := acts.filterMap (SessionAct.mark? i)

/-- All poses that are displayed. -/
def posesOf {α : Type} (acts : List (SessionAct α)) : List (Nat × CameraPose α) := acts.filterMap SessionAct.pose?

section

variable {α : Type} (acts acts' : List (SessionAct α)) (calls : List (CameraCall α)) (i : Nat)

@[simp] theorem callsOf_append : callsOf (acts ++ acts') = callsOf acts ++ callsOf acts' := List.filterMap_append

@[simp] theorem marksOf_append : marksOf i (acts ++ acts') = marksOf i acts ++ marksOf i acts' := List.filterMap_append

@[simp] theorem posesOf_append : posesOf (acts ++ acts') = posesOf acts ++ posesOf acts' := List.filterMap_append

@[simp] theorem callsOf_told : callsOf (calls.map .told) = calls := by
  induction calls with
  | nil => rfl
  | cons call calls ih => exact congrArg (call :: ·) ih

@[simp] theorem marksOf_told : marksOf i (calls.map .told) = [] := by
  induction calls with
  | nil => rfl
  | cons call calls ih => exact ih

@[simp] theorem posesOf_told : posesOf (calls.map .told) = [] := by
  induction calls with
  | nil => rfl
  | cons call calls ih => exact ih

end

/-- The run that an event is about. -/
def SessionEvent.run? {α : Type} : SessionEvent α → Option Nat
  | .start _ _ => none
  | .look i | .readEnded i _ _ | .frame i _ | .breakDown i _ | .stop i | .cancel i => some i

/-! ## Turns -/

namespace SessionRun

/-- Whether both loops of a run have ended. -/
def IsQuiet (r : SessionRun) : Prop := r.detects = false ∧ r.animates = false

/-- What is still to be seen of a read. -/
def pending (r : SessionRun) : List TrackerMark := if r.isReading then [.readEnded] else []

theorem pending_of_reading {r : SessionRun} (h : r.isReading) : r.pending = [.readEnded] := if_pos h

theorem pending_of_free {r : SessionRun} (h : r.isReading = false) : r.pending = [] := by
  rw [pending, h, if_neg Bool.false_ne_true]

/-- Loops of a run may have ended, but not the one that waits for a read. -/
structure Within (r' r : SessionRun) : Prop where
  phase : r'.phase = r.phase
  isReading : r'.isReading = r.isReading
  detects : r'.detects → r.detects
  animates : r'.animates → r.animates
  awaits : r.isReading → r'.detects = r.detects

theorem Within.refl (r : SessionRun) : r.Within r := ⟨rfl, rfl, id, id, fun _ => rfl⟩

theorem IsQuiet.within {r r' : SessionRun} (h : r.IsQuiet) (hwithin : r'.Within r) : r'.IsQuiet := by
  refine ⟨Bool.eq_false_iff.mpr fun hdetects => ?_, Bool.eq_false_iff.mpr fun hanimates => ?_⟩
  · exact Bool.false_ne_true (h.1.symm.trans (hwithin.detects hdetects))
  · exact Bool.false_ne_true (h.2.symm.trans (hwithin.animates hanimates))

theorem within_leaveDetecting {r : SessionRun} (h : r.isReading = false) : r.leaveDetecting.Within r :=
  ⟨rfl, rfl, nofun, id, fun hreading => absurd (h.symm.trans hreading) Bool.false_ne_true⟩

theorem within_notDetecting {r : SessionRun} (h : r.isReading = false) : { r with detects := false }.Within r :=
  ⟨rfl, rfl, nofun, id, fun hreading => absurd (h.symm.trans hreading) Bool.false_ne_true⟩

theorem within_leaveAnimating (r : SessionRun) : r.leaveAnimating.Within r := ⟨rfl, rfl, id, nofun, fun _ => rfl⟩

theorem within_notAnimating (r : SessionRun) : { r with animates := false }.Within r :=
  ⟨rfl, rfl, id, nofun, fun _ => rfl⟩

/-- The turns of a run, with what is seen of its tracker. -/
inductive Turn (r : SessionRun) : List TrackerMark → SessionRun → Prop
  | keeps {r' : SessionRun} : r'.Within r → Turn r [] r'
  | reads : r.detects → r.isReading = false → Turn r [.readBegun] { r with isReading := true }
  /-- Something has failed during a read. -/
  | waits {r' : SessionRun} {m : Mishap} : r.phase = .running → r.isReading → r'.phase = .closing (.failed m) →
      r'.isReading → Turn r [] r'
  | closes {r' : SessionRun} {how : RunEnd} : r.phase = .running → r.isReading = false → r'.phase = .ended how →
      r'.isReading = false → r'.IsQuiet ∨ (∃ m, how = .failed m) → Turn r [.closed] r'

/-- A run that reads is looked after. -/
structure IsSound (r : SessionRun) : Prop where
  detects : r.phase = .running → r.isReading → r.detects
  isReading : ∀ how, r.phase = .closing how → r.isReading

/-- What an event does to the run that it is about, with what is seen of its tracker. -/
inductive Took {α : Type} (i : Nat) (r : SessionRun) : SessionEvent α → List TrackerMark → SessionRun → Prop
  | turned {e : SessionEvent α} {marks : List TrackerMark} {r' : SessionRun} : r.Turn marks r' → Took i r e marks r'
  | read {result : ReadResult α} {now : α} {marks : List TrackerMark} {r' : SessionRun} : r.isReading →
      (∀ how, r.phase ≠ .closing how) → { r with isReading := false }.Turn marks r' →
      Took i r (.readEnded i result now) (.readEnded :: marks) r'
  | settled {result : ReadResult α} {now : α} {marks : List TrackerMark} {r' : SessionRun} {how : RunEnd} :
      r.phase = .closing how → r.isReading → { r with isReading := false }.Turn marks r' →
      Took i r (.readEnded i result now) (.readEnded :: (marks ++ (r'.pending ++ [.closed])))
        { r' with phase := .ended how }
  | cancelledReading {r' : SessionRun} : r.phase = .running → r.isReading → r'.phase = .closing .cancelled →
      r'.isReading → r'.IsQuiet → Took i r (.cancel i) [] r'
  | cancelled {r' : SessionRun} : r.phase = .running → r.isReading = false → r'.phase = .ended .cancelled →
      r'.isReading = false → r'.IsQuiet → Took i r (.cancel i) [.closed] r'
  /-- It is given up while it waits for its read to end. -/
  | abandoned {how : RunEnd} : r.phase = .closing how → Took i r (.cancel i) [] { r with phase := .ended .cancelled }

theorem IsSound.of_ended {r : SessionRun} {how : RunEnd} (h : r.phase = .ended how) : r.IsSound := by
  refine ⟨fun hphase => ?_, fun _ hphase => ?_⟩ <;>
  · rw [h] at hphase
    cases hphase

theorem IsSound.of_closing {r : SessionRun} {how : RunEnd} (h : r.phase = .closing how) (hreading : r.isReading) :
    r.IsSound := by
  refine ⟨fun hphase => ?_, fun _ _ => hreading⟩
  rw [h] at hphase
  cases hphase

theorem Turn.isSound {r r' : SessionRun} {marks : List TrackerMark} (h : r.Turn marks r') (hsound : r.IsSound) :
    r'.IsSound := by
  cases h with
  | keeps hwithin =>
    refine ⟨fun hphase hreading => ?_, fun how hphase => ?_⟩
    · rw [hwithin.phase] at hphase
      rw [hwithin.isReading] at hreading
      rw [hwithin.awaits hreading]
      exact hsound.detects hphase hreading
    · rw [hwithin.phase] at hphase
      rw [hwithin.isReading]
      exact hsound.isReading how hphase
  | reads hdetects => exact ⟨fun _ _ => hdetects, fun _ _ => rfl⟩
  | waits _ _ hphase hreading => exact .of_closing hphase hreading
  | closes _ _ hphase => exact .of_ended hphase

theorem Took.isSound {α : Type} {i : Nat} {r r' : SessionRun} {e : SessionEvent α} {marks : List TrackerMark}
    (h : Took i r e marks r') (hsound : r.IsSound) : r'.IsSound := by
  cases h with
  | turned hturn => exact hturn.isSound hsound
  | read _ hphase hturn => exact hturn.isSound ⟨nofun, fun how heq => absurd heq (hphase how)⟩
  | settled | abandoned => exact .of_ended rfl
  | cancelledReading _ _ hphase hreading => exact .of_closing hphase hreading
  | cancelled _ _ hphase => exact .of_ended hphase

end SessionRun

namespace ControlSession

open SessionRun

/-! ## Outcomes -/

/-- What has come of something that a session does for a run. -/
structure Outcome (s : ControlSession α) (i : Nat) (P : List TrackerMark → SessionRun → Prop) (a : Acting α) :
    Prop where
  run : ∃ r', a.1.runs = s.runs.set i r' ∧ P (marksOf i a.2) r'
  others : ∀ k, k ≠ i → marksOf k a.2 = []
  camera : s.camera.Yields a.1.camera (callsOf a.2)
  closed : .closed ∈ marksOf i a.2 → a.1.hands = .initial ∧ a.1.camera.isControlling = false

variable {s : ControlSession α} {i : Nat} {r r' : SessionRun} {P Q : List TrackerMark → SessionRun → Prop}

theorem Outcome.mono {a : Acting α} (h : s.Outcome i P a) (hPQ : ∀ marks r', P marks r' → Q marks r') :
    s.Outcome i Q a := by
  obtain ⟨r', hruns, hP⟩ := h.run
  exact ⟨⟨r', hruns, hPQ _ _ hP⟩, h.others, h.camera, h.closed⟩

/-- What is done for no run comes before what is done for one. -/
theorem Outcome.andThen {a : Acting α} {next : ControlSession α → Acting α} (hruns : a.1.runs = s.runs)
    (hmarks : ∀ k, marksOf k a.2 = []) (hcamera : s.camera.Yields a.1.camera (callsOf a.2))
    (h : a.1.Outcome i P (next a.1)) : s.Outcome i P (andThen a next) := by
  have hacts : (ControlSession.andThen a next).2 = a.2 ++ (next a.1).2 := rfl
  have hnext : ∀ k, marksOf k (ControlSession.andThen a next).2 = marksOf k (next a.1).2 := fun k => by
    rw [hacts, marksOf_append, hmarks, List.nil_append]
  obtain ⟨r', hset, hP⟩ := h.run
  refine ⟨⟨r', hruns ▸ hset, (hnext i).symm ▸ hP⟩, fun k hk => (hnext k).trans (h.others k hk), ?_, ?_⟩
  · rw [hacts, callsOf_append]
    exact hcamera.trans h.camera
  · rw [hnext]
    exact h.closed

theorem outcome_setRun {acts : List (SessionAct α)} (hP : P [] r') (hmarks : ∀ k, marksOf k acts = [])
    (hcalls : callsOf acts = []) : s.Outcome i P (s.setRun i r', acts) := by
  refine ⟨⟨r', rfl, (hmarks i).symm ▸ hP⟩, fun k _ => hmarks k, hcalls.symm ▸ .refl, fun h => ?_⟩
  rw [hmarks] at h
  cases h

theorem finish_acts {how : RunEnd} : (s.finish i r how).2 = (if r.isReading then [.readAwaited i] else []) ++
    ([.trackerClosed i] ++ s.camera.deactivate.2.2.map .told) := rfl

theorem outcome_finish {how : RunEnd} (hP : P (r'.pending ++ [.closed]) { r' with phase := .ended how }) :
    s.Outcome i P (s.finish i r' how) := by
  have hmarks : ∀ k, marksOf k (s.finish i r' how).2 = if i = k then r'.pending ++ [.closed] else [] := fun k => by
    rw [finish_acts, marksOf_append, marksOf_append, marksOf_told, List.append_nil]
    by_cases hk : i = k
    · cases hreading : r'.isReading <;> simp [pending, hreading, marksOf, SessionAct.mark?, hk]
    · cases r'.isReading <;> simp [marksOf, SessionAct.mark?, hk]
  have hcalls : callsOf (s.finish i r' how).2 = s.camera.deactivate.2.2 := by
    rw [finish_acts, callsOf_append, callsOf_append, callsOf_told]
    cases r'.isReading <;> rfl
  refine ⟨⟨_, rfl, ?_⟩, fun k hk => ?_, ?_, fun _ => ⟨rfl, s.camera.deactivate_isControlling⟩⟩
  · rw [hmarks, if_pos rfl]
    exact hP
  · rw [hmarks, if_neg hk.symm]
  · rw [hcalls]
    exact s.camera.yields_deactivate

/-- A run that does not read is ended. -/
theorem outcome_finish_free {how : RunEnd} (hreading : r'.isReading = false)
    (hP : P [.closed] { r' with phase := .ended how }) : s.Outcome i P (s.finish i r' how) :=
  outcome_finish (by rwa [pending_of_free hreading])

/-- Nothing comes of an event that a run has no use for. -/
theorem outcome_ignored (hr : s.runs[i]? = some r) (hP : P [] r) : s.Outcome i P (s, []) := by
  have hsame : s.runs.set i r = s.runs := by
    obtain ⟨hlt, rfl⟩ := List.getElem?_eq_some_iff.mp hr
    exact List.set_getElem_self hlt
  exact ⟨⟨r, hsame.symm, hP⟩, fun _ _ => rfl, .refl, nofun⟩

theorem outcome_fail {m : Mishap} (h : r'.Within r) : s.Outcome i r.Turn (s.fail i r' m) := by
  unfold fail
  split
  · rename_i hrunning
    have hphase : r.phase = .running := h.phase.symm.trans hrunning
    unfold close
    split
    · rename_i hreading
      exact outcome_setRun (.waits hphase (h.isReading ▸ hreading) rfl hreading) (fun _ => rfl) rfl
    · rename_i hreading
      have hnot : r'.isReading = false := Bool.eq_false_iff.mpr hreading
      exact outcome_finish_free hnot (.closes hphase (h.isReading.symm.trans hnot) rfl hnot (.inr ⟨m, rfl⟩))
  · exact outcome_setRun (.keeps h) (fun _ => rfl) rfl

theorem outcome_joinLoops (h : r'.Within r)
    (hreading : r.phase = .running → r'.detects = false → r.isReading = false) :
    s.Outcome i r.Turn (s.joinLoops i r') := by
  unfold joinLoops
  split
  · rename_i hended
    obtain ⟨⟨hrunning, hdetects⟩, hanimates⟩ :
        (r'.phase = .running ∧ r'.detects = false) ∧ r'.animates = false := by simpa using hended
    have hphase : r.phase = .running := h.phase.symm.trans hrunning
    have hnot := hreading hphase hdetects
    have hfree := h.isReading.trans hnot
    exact outcome_finish_free hfree (.closes hphase hnot rfl hfree (.inl ⟨hdetects, hanimates⟩))
  · exact outcome_setRun (.keeps h) (fun _ => rfl) rfl

theorem outcome_look (hdetects : r.detects) (hreading : r.isReading = false) :
    s.Outcome i r.Turn (s.look i r) := by
  unfold look
  split
  · exact outcome_joinLoops (within_leaveDetecting hreading) fun _ _ => hreading
  split
  · exact outcome_setRun (.keeps (within_notDetecting hreading)) (fun _ => rfl) rfl
  · have hmark : ∀ k, marksOf k [(.readBegun i : SessionAct α)] = if i = k then [.readBegun] else [] := fun k => by
      by_cases hk : i = k <;> simp [marksOf, SessionAct.mark?, hk]
    refine ⟨⟨_, rfl, ?_⟩, fun k hk => ?_, .refl, fun hclosed => ?_⟩
    · rw [hmark, if_pos rfl]
      exact .reads hdetects hreading
    · rw [hmark, if_neg hk.symm]
    · rw [hmark, if_pos rfl] at hclosed
      simp at hclosed

theorem see_eq_foldl (s : ControlSession α) (hands : List (Observation α)) (now : α) :
    s.see hands now = (s.hands.process hands).2.foldl (fun a e => handle a e now)
      ({ s with hands := (s.hands.process hands).1 }, []) := rfl

/-- Nothing is displayed, and what has been displayed stays or the camera is given back. -/
structure Rests {α : Type} (s : ControlSession α) (a : Acting α) : Prop where
  view : s.camera.Leaves a.1.camera
  poses : posesOf a.2 = []

/-- Seeing hands is nothing that is done for a run, and nothing that is displayed. -/
theorem see_outcome (s : ControlSession α) (hands : List (Observation α)) (now : α) :
    (s.see hands now).1.runs = s.runs ∧ (∀ k, marksOf k (s.see hands now).2 = []) ∧
      s.camera.Yields (s.see hands now).1.camera (callsOf (s.see hands now).2) ∧ s.Rests (s.see hands now) := by
  rw [see_eq_foldl]
  generalize (s.hands.process hands).2 = events
  induction events using List.reverseRecOn with
  | nil => exact ⟨rfl, fun _ => rfl, .refl, .refl _, rfl⟩
  | append_singleton events e ih =>
    rw [List.foldl_append, List.foldl_cons, List.foldl_nil]
    generalize events.foldl (fun a e => handle a e now) _ = a at ih
    obtain ⟨hruns, hmarks, hcamera, hview, hposes⟩ := ih
    obtain ⟨t, acts⟩ := a
    have hacts : (handle (t, acts) e now).2 =
        acts ++ (t.camera.handle e now).2.map .told ++ [.handled now e (t.camera.handle e now).1] := rfl
    refine ⟨hruns, fun k => ?_, ?_, hview.trans (t.camera.leaves_handle e now), ?_⟩
    · rw [hacts, marksOf_append, marksOf_append, marksOf_told, hmarks]
      rfl
    · rw [hacts, callsOf_append, callsOf_append, callsOf_told]
      have hboth := hcamera.trans (t.camera.yields_handle e now)
      exact hboth.trans .refl
    · rw [hacts, posesOf_append, posesOf_append, posesOf_told, hposes]
      rfl

theorem outcome_takeRead (hreading : r.isReading = false) (result : ReadResult α) (now : α) :
    s.Outcome i r.Turn (s.takeRead i r result now) := by
  unfold takeRead
  split
  · exact outcome_setRun (.keeps (.refl r)) (fun _ => rfl) rfl
  · rename_i hdetects
    split
    · exact outcome_fail (within_notDetecting hreading)
    · exact outcome_joinLoops (within_leaveDetecting hreading) fun _ _ => hreading
    · rename_i hands
      obtain ⟨hruns, hmarks, hcamera, -⟩ := s.see_outcome hands now
      exact .andThen hruns hmarks hcamera (outcome_look (by simpa using hdetects) hreading)

theorem outcome_animate (hsound : r.IsSound) (now : α) : s.Outcome i r.Turn (s.animate i r now) := by
  have hreading : r.phase = .running → r.detects = false → r.isReading = false := fun hphase hdetects => by
    by_contra hreads
    rw [hsound.detects hphase (eq_true_of_ne_false hreads)] at hdetects
    cases hdetects
  unfold animate
  split
  · exact outcome_joinLoops r.within_notAnimating hreading
  · have htold : ∀ k, marksOf k ((s.camera.frame now).calls.map SessionAct.told) = [] := fun k => marksOf_told _ k
    have hcamera : s.camera.Yields (s.camera.frame now).controller
        (callsOf ((s.camera.frame now).calls.map SessionAct.told)) := by
      rw [callsOf_told]
      exact s.camera.yields_frame now
    have hafter : ∀ next : ControlSession α → Acting α,
        ({ s with camera := (s.camera.frame now).controller } : ControlSession α).Outcome i r.Turn
          (next { s with camera := (s.camera.frame now).controller }) →
        s.Outcome i r.Turn (ControlSession.andThen ({ s with camera := (s.camera.frame now).controller },
          (s.camera.frame now).calls.map SessionAct.told) next) := fun next h => Outcome.andThen rfl htold hcamera h
    dsimp only
    split
    · rename_i pose hpose
      exact hafter (fun s => (s.setRun i r, [.displayed i pose]))
        (outcome_setRun (.keeps (.refl r)) (fun _ => rfl) rfl)
    · exact hafter _ (outcome_joinLoops r.within_leaveAnimating hreading)
    · exact hafter _ (outcome_fail r.within_notAnimating)

theorem outcome_cancel (hr : s.runs[i]? = some r) :
    s.Outcome i (Took i r (.cancel i : SessionEvent α)) (s.cancel i r) := by
  unfold cancel
  split
  · rename_i hphase
    unfold close
    split
    · rename_i hreading
      exact outcome_setRun (.cancelledReading hphase hreading rfl hreading ⟨rfl, rfl⟩) (fun _ => rfl) rfl
    · rename_i hreading
      have hnot : r.isReading = false := Bool.eq_false_iff.mpr hreading
      exact outcome_finish_free hnot (.cancelled hphase hnot rfl hnot ⟨rfl, rfl⟩)
  · rename_i how hphase
    exact outcome_setRun (.abandoned hphase) (fun _ => rfl) rfl
  · exact outcome_ignored hr (.turned (.keeps (.refl r)))

/-- A run that waits for its read to end takes what has been read, and ends. -/
theorem outcome_settle {a : Acting α} {how : RunEnd} (hlt : i < s.runs.length) (h : s.Outcome i P a)
    (hP : ∀ marks r', P marks r' → Q (marks ++ (r'.pending ++ [.closed])) { r' with phase := .ended how }) :
    s.Outcome i Q (ControlSession.andThen a fun t => t.settle i (.closing how)) := by
  obtain ⟨r', hset, hPr⟩ := h.run
  have hr' : a.1.runs[i]? = some r' := by rw [hset, List.getElem?_set_self hlt]
  have hsettle : a.1.settle i (.closing how) = a.1.finish i r' how := by
    simp only [settle, hr']
  have hacts : (ControlSession.andThen a fun t => t.settle i (.closing how)).2 = a.2 ++ (a.1.finish i r' how).2 := by
    rw [ControlSession.andThen, hsettle]
  have hstate : (ControlSession.andThen a fun t => t.settle i (.closing how)).1 = (a.1.finish i r' how).1 := by
    rw [ControlSession.andThen, hsettle]
  have hfinish : a.1.Outcome i
      (fun marks r'' => marks = r'.pending ++ [.closed] ∧ r'' = { r' with phase := .ended how })
      (a.1.finish i r' how) := outcome_finish ⟨rfl, rfl⟩
  obtain ⟨r'', hset', hmarks, rfl⟩ := hfinish.run
  refine ⟨⟨{ r' with phase := .ended how }, ?_, ?_⟩, fun k hk => ?_, ?_, fun _ => ?_⟩
  · rw [hstate, hset', hset, List.set_set]
  · rw [hacts, marksOf_append, hmarks]
    exact hP _ _ hPr
  · rw [hacts, marksOf_append, h.others k hk, hfinish.others k hk]
    rfl
  · rw [hstate, hacts, callsOf_append]
    exact h.camera.trans hfinish.camera
  · rw [hstate]
    exact hfinish.closed (by rw [hmarks]; exact List.mem_append_right _ List.mem_cons_self)

/-- Whether an event is the end of a read of a run. -/
def endsRead (s : ControlSession α) (i : Nat) : SessionEvent α → Bool
  | .readEnded k _ _ => k = i && (s.runs[i]?).any (·.isReading)
  | _ => false

/-- What is seen of the tracker of a run when an event comes. -/
def seen (s : ControlSession α) (i : Nat) (e : SessionEvent α) : List TrackerMark :=
  (if s.endsRead i e then [.readEnded] else []) ++ marksOf i (s.step e).2

omit [Scalar α] in
theorem endsRead_of_ne {e : SessionEvent α} {k : Nat} (he : e.run? = some k) (hne : k ≠ i) :
    s.endsRead i e = false := by
  cases e with
  | readEnded k' =>
    obtain rfl : k' = k := Option.some.inj he
    simp [endsRead, hne]
  | start | look | frame | breakDown | stop | cancel => rfl

/-- What an event does to the run that it is about. -/
theorem step_outcome (hr : s.runs[i]? = some r) (hsound : r.IsSound) {e : SessionEvent α} (he : e.run? = some i) :
    s.Outcome i (fun marks r' => Took i r e ((if s.endsRead i e then [.readEnded] else []) ++ marks) r')
      (s.step e) := by
  have hlt : i < s.runs.length := (List.getElem?_eq_some_iff.mp hr).1
  have hturned : ∀ {a : Acting α}, s.endsRead i e = false → s.Outcome i r.Turn a →
      s.Outcome i (fun marks r' => Took i r e ((if s.endsRead i e then [.readEnded] else []) ++ marks) r') a := by
    intro a hnot h
    refine h.mono fun marks r' hturn => ?_
    rw [hnot]
    exact .turned hturn
  have hignored : s.Outcome i r.Turn (s, []) := outcome_ignored hr (.keeps (.refl r))
  cases e with
  | start => cases he
  | look k =>
    obtain rfl : k = i := Option.some.inj he
    refine hturned rfl ?_
    simp only [step, withRun, hr]
    split
    · rename_i hfree
      obtain ⟨hdetects, hreading⟩ : r.detects ∧ r.isReading = false := by simpa using hfree
      exact outcome_look hdetects hreading
    · exact hignored
  | frame k now =>
    obtain rfl : k = i := Option.some.inj he
    refine hturned rfl ?_
    simp only [step, withRun, hr]
    split
    · exact outcome_animate hsound now
    · exact hignored
  | breakDown k m =>
    obtain rfl : k = i := Option.some.inj he
    refine hturned rfl ?_
    simp only [step, withRun, hr]
    split
    · exact outcome_fail r.within_notAnimating
    · exact hignored
  | stop k =>
    obtain rfl : k = i := Option.some.inj he
    refine hturned rfl ?_
    simp only [step, withRun, hr]
    exact outcome_setRun (.keeps ⟨rfl, rfl, id, id, fun _ => rfl⟩) (fun _ => rfl) rfl
  | cancel k =>
    obtain rfl : k = i := Option.some.inj he
    simp only [step, withRun, hr]
    exact outcome_cancel hr
  | readEnded k result now =>
    obtain rfl : k = i := Option.some.inj he
    simp only [step, withRun, hr]
    cases hreading : r.isReading with
    | false =>
      have hnot : s.endsRead k (.readEnded k result now) = false := by simp [endsRead, hr, hreading]
      exact hturned hnot hignored
    | true =>
      have hends : s.endsRead k (.readEnded k result now) = true := by simp [endsRead, hr, hreading]
      rw [if_pos rfl]
      have htaken : s.Outcome k ({ r with isReading := false } : SessionRun).Turn
          (s.takeRead k { r with isReading := false } result now) := outcome_takeRead rfl result now
      generalize s.takeRead k { r with isReading := false } result now = a at htaken ⊢
      cases hphase : r.phase with
      | closing how =>
        refine outcome_settle hlt htaken fun marks r' hturn => ?_
        rw [if_pos hends]
        exact .settled hphase hreading hturn
      | running | ended =>
        have hnothing : ∀ phase, (∀ how, phase ≠ .closing how) →
            (ControlSession.andThen a fun t => t.settle k phase) = a := by
          intro phase hphase
          cases phase with
          | closing how => exact absurd rfl (hphase how)
          | running | ended => simp [ControlSession.andThen, settle]
        rw [hnothing _ fun how heq => by cases heq]
        refine htaken.mono fun marks r' hturn => ?_
        rw [if_pos hends]
        exact .read hreading (fun how => by rw [hphase]; exact nofun) hturn

/-! ## Histories -/

/-- A session that has gone through some events. -/
def through (s : ControlSession α) (events : List (SessionEvent α)) : ControlSession α :=
  events.foldl (fun s e => (s.step e).1) s

/-- All that a session does in some events. -/
def actsIn (s : ControlSession α) : List (SessionEvent α) → List (SessionAct α)
  | [] => []
  | e :: events => (s.step e).2 ++ actsIn (s.step e).1 events

/-- All that is seen of the tracker of a run in some events. -/
def trackerLog (s : ControlSession α) (i : Nat) : List (SessionEvent α) → List TrackerMark
  | [] => []
  | e :: events => s.seen i e ++ trackerLog (s.step e).1 i events

section

variable (s : ControlSession α) (events events' : List (SessionEvent α)) (e : SessionEvent α) (i : Nat)

@[simp] theorem through_nil : s.through [] = s := rfl

@[simp] theorem through_cons : s.through (e :: events) = (s.step e).1.through events := rfl

@[simp] theorem through_append : s.through (events ++ events') = (s.through events).through events' := by
  simp [through]

@[simp] theorem through_concat : s.through (events ++ [e]) = ((s.through events).step e).1 := by
  simp [through]

theorem actsIn_concat : s.actsIn (events ++ [e]) = s.actsIn events ++ ((s.through events).step e).2 := by
  induction events generalizing s with
  | nil => simp [actsIn]
  | cons e' events ih => rw [List.cons_append, actsIn, ih, actsIn, through_cons, List.append_assoc]

theorem trackerLog_concat : s.trackerLog i (events ++ [e]) = s.trackerLog i events ++ (s.through events).seen i e := by
  induction events generalizing s with
  | nil => simp [trackerLog]
  | cons e' events ih => rw [List.cons_append, trackerLog, ih, trackerLog, through_cons, List.append_assoc]

end

/-- Where a run stands. -/
def phase? (s : ControlSession α) (i : Nat) : Option RunPhase := (s.runs[i]?).map (·.phase)

/-- Whether a run has ended. -/
def hasEnded (s : ControlSession α) (i : Nat) : Bool := (s.runs[i]?).any fun r => r.end?.isSome

omit [Scalar α] in
theorem phase?_eq_some_iff {phase : RunPhase} : s.phase? i = some phase ↔ ∃ r, s.runs[i]? = some r ∧ r.phase = phase :=
  Option.map_eq_some_iff

omit [Scalar α] in
theorem hasEnded_eq (hr : s.runs[i]? = some r) : s.hasEnded i = r.end?.isSome := by
  rw [hasEnded, hr, Option.any_some]

omit [Scalar α] in
theorem hasEnded_eq_false_iff (hr : s.runs[i]? = some r) :
    s.hasEnded i = false ↔ ∀ how, r.phase ≠ .ended how := by
  rw [hasEnded_eq hr, end?]
  cases r.phase with
  | running | closing => exact ⟨fun _ => nofun, fun _ => rfl⟩
  | ended how => exact ⟨nofun, fun h => absurd rfl (h how)⟩

omit [Scalar α] in
theorem hasEnded_iff (hr : s.runs[i]? = some r) :
    s.hasEnded i ↔ ∃ how, r.phase = .ended how := by
  rw [← Bool.not_eq_false, hasEnded_eq_false_iff hr]
  push Not
  rfl

/-- All runs that read are looked after. -/
def IsSound (s : ControlSession α) : Prop := ∀ (i : Nat) (r : SessionRun), s.runs[i]? = some r → r.IsSound

theorem step_of_absent {e : SessionEvent α} (he : e.run? = some i) (hr : s.runs[i]? = none) : s.step e = (s, []) := by
  cases e with
  | start => cases he
  | look | readEnded | frame | breakDown | stop | cancel =>
    cases he
    simp only [step, withRun, hr]

theorem step_yields {e : SessionEvent α} (hsound : s.IsSound) (he : e.run? ≠ none) :
    s.camera.Yields (s.step e).1.camera (callsOf (s.step e).2) := by
  obtain ⟨k, hk⟩ := Option.ne_none_iff_exists'.mp he
  cases hr : s.runs[k]? with
  | none =>
    rw [step_of_absent hk hr]
    exact .refl
  | some r => exact (step_outcome hr (hsound k r hr) hk).camera

/-- A tracker is closed when the hands are forgotten and the camera is given back. -/
theorem step_closed {e : SessionEvent α} (hsound : s.IsSound) (he : e.run? ≠ none) (hclosed : .closed ∈ s.seen i e) :
    (s.step e).1.hands = .initial ∧ (s.step e).1.camera.isControlling = false := by
  have hmarks : .closed ∈ marksOf i (s.step e).2 := by
    rw [seen] at hclosed
    split at hclosed <;> simpa using hclosed
  obtain ⟨k, hk⟩ := Option.ne_none_iff_exists'.mp he
  cases hr : s.runs[k]? with
  | none =>
    rw [step_of_absent hk hr] at hmarks
    cases hmarks
  | some r =>
    have houtcome := step_outcome hr (hsound k r hr) hk
    by_cases hki : k = i
    · exact houtcome.closed (hki ▸ hmarks)
    · rw [houtcome.others i (Ne.symm hki)] at hmarks
      cases hmarks

/-- A run that waits for a read to end is given up when it is cancelled. -/
theorem step_cancel_closing {how : RunEnd} (hr : s.runs[i]? = some r) (hphase : r.phase = .closing how) :
    s.step (.cancel i) = (s.setRun i { r with phase := .ended .cancelled }, []) := by
  simp only [step, withRun, hr, cancel, hphase]

/-- A run that is started stands behind all others. -/
theorem step_start (s : ControlSession α) (opening : TrackerOpening) (now : α) :
    ∃ r, (s.step (.start opening now)).1.runs = s.runs ++ [r] ∧ (r = .opened ∨ ∃ message, r = .unopened message) ∧
      ∀ i, i ≠ s.runs.length → s.seen i (.start opening now) = [] := by
  cases opening with
  | opened =>
    refine ⟨.opened, rfl, .inl rfl, fun i hi => ?_⟩
    have hacts : s.seen i (.start .opened now) =
        marksOf i ([.trackerOpened s.runs.length] ++ (s.camera.activate now).2.map .told) := rfl
    rw [hacts, marksOf_append, marksOf_told, List.append_nil]
    exact List.filterMap_cons_none (if_neg hi.symm)
  | refused message =>
    refine ⟨.unopened message, rfl, .inr ⟨message, rfl⟩, fun i hi => ?_⟩
    have hacts : s.seen i (.start (.refused message) now) =
        marksOf i [.trackerOpened s.runs.length, .trackerClosed s.runs.length] := rfl
    simp [hacts, marksOf, SessionAct.mark?, hi.symm]
  | unbuilt message => exact ⟨.unopened message, rfl, .inr ⟨message, rfl⟩, fun _ _ => rfl⟩

/-- What an event does to a run, whether it is about that run or not. -/
theorem step_took (hsound : s.IsSound) (hr : s.runs[i]? = some r) (e : SessionEvent α) :
    ∃ r', (s.step e).1.runs[i]? = some r' ∧ Took i r e (s.seen i e) r' := by
  have hlt : i < s.runs.length := (List.getElem?_eq_some_iff.mp hr).1
  have hkept : (s.step e).1.runs[i]? = s.runs[i]? → s.seen i e = [] →
      ∃ r', (s.step e).1.runs[i]? = some r' ∧ Took i r e (s.seen i e) r' := fun hsame hseen =>
    ⟨r, hsame.trans hr, hseen ▸ .turned (.keeps (.refl r))⟩
  cases he : e.run? with
  | none =>
    cases e with
    | start opening now =>
      obtain ⟨r₀, hruns, -, hseen⟩ := s.step_start opening now
      refine hkept ?_ (hseen i (Nat.ne_of_lt hlt))
      rw [hruns, List.getElem?_append_left hlt]
    | look | readEnded | frame | breakDown | stop | cancel => cases he
  | some k =>
    by_cases hk : k = i
    · subst hk
      obtain ⟨r', hruns, htook⟩ := (step_outcome hr (hsound k r hr) he).run
      refine ⟨r', ?_, htook⟩
      rw [hruns, List.getElem?_set_self hlt]
    · have hends : s.endsRead i e = false := endsRead_of_ne he hk
      cases hk' : s.runs[k]? with
      | none =>
        refine hkept ?_ ?_
        · rw [step_of_absent he hk']
        · rw [seen, hends, step_of_absent he hk']
          rfl
      | some r₀ =>
        have houtcome := step_outcome hk' (hsound k r₀ hk') he
        obtain ⟨r', hruns, -⟩ := houtcome.run
        refine hkept ?_ ?_
        · rw [hruns, List.getElem?_set_ne hk]
        · rw [seen, hends]
          exact houtcome.others i (Ne.symm hk)

/-- Where a run comes from that is there after an event. -/
theorem step_run_cases {e : SessionEvent α} (hsound : s.IsSound) (hr' : (s.step e).1.runs[i]? = some r') :
    (∃ r, s.runs[i]? = some r ∧ Took i r e (s.seen i e) r') ∨
      s.runs[i]? = none ∧ (r' = .opened ∨ ∃ message, r' = .unopened message) := by
  cases hr : s.runs[i]? with
  | some r =>
    obtain ⟨r₁, hr₁, htook⟩ := step_took hsound hr e
    obtain rfl := Option.some.inj (hr₁.symm.trans hr')
    exact .inl ⟨r, rfl, htook⟩
  | none =>
    have hlength := List.getElem?_eq_none_iff.mp hr
    refine .inr ⟨rfl, ?_⟩
    cases he : e.run? with
    | none =>
      cases e with
      | start opening now =>
        obtain ⟨r, hruns, hnew, -⟩ := s.step_start opening now
        rw [hruns, List.getElem?_append_right hlength] at hr'
        obtain rfl := List.mem_singleton.mp (List.mem_of_getElem? hr')
        exact hnew
      | look | readEnded | frame | breakDown | stop | cancel => cases he
    | some k =>
      have hlt := (List.getElem?_eq_some_iff.mp hr').1
      have hruns : (s.step e).1.runs.length = s.runs.length := by
        cases hk : s.runs[k]? with
        | none => rw [step_of_absent he hk]
        | some r =>
          obtain ⟨r₁, hruns, -⟩ := (step_outcome hk (hsound k r hk) he).run
          rw [hruns, List.length_set]
      omega

theorem IsSound.step (hsound : s.IsSound) (e : SessionEvent α) : (s.step e).1.IsSound := by
  intro i r' hr'
  rcases step_run_cases hsound hr' with ⟨r, hr, htook⟩ | ⟨-, rfl | ⟨message, rfl⟩⟩
  · exact htook.isSound (hsound i r hr)
  · exact ⟨fun _ _ => rfl, nofun⟩
  · exact .of_ended rfl

theorem IsSound.through (hsound : s.IsSound) (events : List (SessionEvent α)) : (s.through events).IsSound := by
  induction events generalizing s with
  | nil => exact hsound
  | cons e events ih => exact ih (hsound.step e)

theorem isSound_initial : (initial : ControlSession α).IsSound := fun i r hr => by cases hr

end ControlSession

end RepoOrbit
