import RepoOrbit.Fetch.Call

/-!
# The stages of a call

What a call does next, told from what it has seen:

* `FetchCall.Runs`: the command that goes with each stage of a call;
* `FetchCall.settle_of_held`, `settle_of_free`: what becomes of a complete clone;
* `FetchCall.afterClone_finish`, `settle_finish`: what a call is answered then;
* `FetchCall.Advanced`: what can follow the end of a run, one constructor each
  (`advance_advanced`);
* `FetchCall.begin_fits`, `advance_fits`: a call goes on with a run of its own, if it
  goes on.
-/

namespace RepoOrbit

/-- Whether a run has succeeded. -/
def GitEnd.isSuccess : GitEnd → Bool
  | .exited code _ _ => code == 0
  | _ => false

theorem GitEnd.failure?_eq_none_iff {ending : GitEnd} {command : GitCommand} {timeout : Float}
    {token : Option String} : ending.failure? command timeout token = none ↔ ending.isSuccess := by
  cases ending with
  | exited code out err =>
    simp only [failure?, isSuccess]
    split
    · rename_i hcode; simp [hcode]
    · rename_i hcode; simp [hcode]
  | notStarted | timedOut | cancelled => simp [failure?, isSuccess]

namespace FetchCall

variable (c : FetchConfig) (call : FetchCall)

/-- The command that a call waits for at a stage. -/
def Runs (command : GitCommand) : FetchStage → Prop
  | .cloning => ∃ address, command = .clone address (call.unfinished c)
  | .checkingOut => ∃ dir, call.task = .source dir ∧ command = .checkOut .set dir (call.unfinished c)
  | .wideningOther | .widening =>
    ∃ dir, call.task = .source dir ∧ command = .checkOut .add dir (call.target c)
  | .listing => call.task = .topDirectories ∧ command = .listDirectories (call.target c)

/-- What comes next for a call is a run of its own, if it is a run. -/
def Fits : FetchNext → Prop
  | .run stage command => call.Runs c command stage
  | .finish _ => True

theorem conclude_eq (t : FileTree) (dir : String) : ∃ answer, call.conclude c t dir = .finish answer := by
  unfold conclude
  dsimp only
  split <;> exact ⟨_, rfl⟩

theorem conclude_fits (t : FileTree) (dir : String) : call.Fits c (call.conclude c t dir) := by
  obtain ⟨answer, h⟩ := conclude_eq c call t dir
  rw [h]
  trivial

theorem afterClone_fits (t : FileTree) : call.Fits c (call.afterClone c t) := by
  unfold afterClone
  split
  · exact conclude_fits c call t _
  · rename_i h; exact ⟨h, rfl⟩

theorem beginClone_fits (t : FileTree) : call.Fits c (call.beginClone c t).2 := by
  unfold beginClone
  split
  · trivial
  · dsimp only
    split
    · trivial
    · exact ⟨_, rfl⟩

theorem begin_fits (t : FileTree) : call.Fits c (call.begin c t).2 := by
  unfold begin
  split
  · split
    · rename_i dir h
      split
      · exact conclude_fits c call t dir
      · exact ⟨dir, h, rfl⟩
    · rename_i h; exact ⟨h, rfl⟩
  · exact beginClone_fits c call t

/-- What is left to do with a clone that stands where the complete one should go. -/
theorem settle_of_held {t : FileTree} (h : t.holds (c.locate (call.target c))) :
    (call.settle c t).1 = t.remove (c.locate (call.unfinished c)) ∧
      ((call.settle c t).2 = call.afterClone c (t.remove (c.locate (call.unfinished c))) ∨
        ∃ dir, call.task = .source dir ∧
          (call.settle c t).2 = .run .wideningOther (.checkOut .add dir (call.target c))) := by
  unfold settle
  dsimp only
  rw [if_pos h]
  generalize t.remove (c.locate (call.unfinished c)) = t'
  unfold afterClone
  cases htask : call.task with
  | topDirectories => exact ⟨rfl, .inl rfl⟩
  | source dir =>
    dsimp only
    by_cases hs : call.hasSource c t' dir
    · rw [if_pos hs]; exact ⟨rfl, .inl rfl⟩
    · rw [if_neg hs]; exact ⟨rfl, .inr ⟨dir, rfl, rfl⟩⟩

theorem settle_of_free {t : FileTree} (h : t.holds (c.locate (call.target c)) = false) :
    call.settle c t = (t.move (c.locate (call.unfinished c)) (c.locate (call.target c)),
      call.afterClone c (t.move (c.locate (call.unfinished c)) (c.locate (call.target c)))) := by
  have hfree : ¬ t.holds (c.locate (call.target c)) = true := by rw [h]; exact Bool.false_ne_true
  unfold settle
  dsimp only
  rw [if_neg hfree]

theorem settle_next (t : FileTree) :
    (call.settle c t).2 = call.afterClone c (call.settle c t).1 ∨
      ∃ dir, call.task = .source dir ∧
        (call.settle c t).2 = .run .wideningOther (.checkOut .add dir (call.target c)) := by
  cases h : t.holds (c.locate (call.target c)) with
  | true =>
    obtain ⟨hfiles, hnext⟩ := settle_of_held c call h
    rw [hfiles]
    exact hnext
  | false =>
    rw [settle_of_free c call h]
    dsimp only
    exact .inl rfl

/-- A call is answered after its clone has been made with what becomes of its directory. -/
theorem afterClone_finish {t : FileTree} {answer : Except CallFailure FetchAnswer}
    (h : call.afterClone c t = .finish answer) :
    ∃ dir, call.task = .source dir ∧ call.conclude c t dir = .finish answer := by
  unfold afterClone at h
  split at h
  · rename_i dir htask; exact ⟨dir, htask, h⟩
  · cases h

theorem settle_finish {t : FileTree} {answer : Except CallFailure FetchAnswer}
    (h : (call.settle c t).2 = .finish answer) :
    ∃ dir, call.task = .source dir ∧ call.conclude c (call.settle c t).1 dir = .finish answer := by
  rcases settle_next c call t with hs | ⟨dir, -, hs⟩ <;> rw [hs] at h
  · exact afterClone_finish c call h
  · cases h

theorem settle_fits (t : FileTree) : call.Fits c (call.settle c t).2 := by
  rcases settle_next c call t with h | ⟨dir, htask, h⟩ <;> rw [h]
  · exact afterClone_fits c call _
  · exact ⟨dir, htask, rfl⟩

/-- Whether the clone is complete once the run of a stage has succeeded. -/
def completes : FetchStage → Bool
  | .cloning => call.task == .topDirectories
  | .checkingOut => true
  | _ => false

/-- What a call does when the run of a stage has ended. -/
inductive Advanced (t : FileTree) (stage : FetchStage) (ending : GitEnd) : FileTree × FetchNext → Prop
  | failed {failure : CallFailure} : ending.isSuccess = false →
      Advanced t stage ending (call.cleanUp c t stage, .finish (.error failure))
  | cloned {dir : String} : ending.isSuccess → stage = .cloning → call.task = .source dir →
      Advanced t stage ending (t, .run .checkingOut (.checkOut .set dir (call.unfinished c)))
  | settled : ending.isSuccess → call.completes stage → Advanced t stage ending (call.settle c t)
  | widened : ending.isSuccess → stage = .wideningOther ∨ stage = .widening →
      Advanced t stage ending (t, call.afterClone c t)
  | listed {names : List String} : ending.isSuccess → stage = .listing →
      Advanced t stage ending (t, .finish (.ok (.directories names)))

theorem advance_advanced (t : FileTree) (stage : FetchStage) (command : GitCommand) (ending : GitEnd) :
    call.Advanced c t stage ending (call.advance c t stage command ending) := by
  unfold advance
  split
  · rename_i failure hf
    refine .failed (Bool.eq_false_iff.mpr fun hs => ?_)
    rw [GitEnd.failure?_eq_none_iff.mpr hs] at hf
    cases hf
  · rename_i hf
    have hs := GitEnd.failure?_eq_none_iff.mp hf
    dsimp only
    unfold succeed
    split
    · rename_i htask; exact .cloned hs rfl htask
    · rename_i htask; exact .settled hs (by simp [completes, htask])
    · exact .settled hs rfl
    · exact .widened hs (.inl rfl)
    · exact .widened hs (.inr rfl)
    · exact .listed hs rfl

theorem advance_fits (t : FileTree) (stage : FetchStage) (command : GitCommand) (ending : GitEnd) :
    call.Fits c (call.advance c t stage command ending).2 := by
  have h := call.advance_advanced c t stage command ending
  generalize call.advance c t stage command ending = r at h
  cases h with
  | failed | listed => trivial
  | cloned _ _ htask => exact ⟨_, htask, rfl⟩
  | settled => exact settle_fits c call t
  | widened => exact afterClone_fits c call t

end FetchCall

end RepoOrbit
