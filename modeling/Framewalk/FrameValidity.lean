import Framewalk.ExecutionReports

/-!
# Valid frames

A recorded frame should belong to a known thread that is stopped, and a target
that runs as a whole, has exited or is unknown should have no frames.  Three
kinds of record break this, and nothing else does.
-/

namespace Framewalk

open TransitionSystem

def ThreadRegistry.IsStopped (threads : ThreadRegistry) (id : ThreadId) : Prop :=
  ∃ info, threads.byId[id]? = some info ∧ info.state = some .stopped

/-- The target states in which no thread has a valid frame. -/
def TargetState.HasNoFrames : TargetState → Prop
  | .unknown | .exited _ => True
  | .running thread => NamesAll thread
  | .stopped _ _ => False

structure Execution.HasValidFrames (execution : Execution) : Prop where
  ofStopped : ∀ id frame, execution.frames.byThread[id]? = some frame →
    id ≠ "all" ∧ execution.threads.IsStopped id
  cleared : execution.target.HasNoFrames → execution.frames = .empty

def Session.HasValidFrames (session : Session) : Prop :=
  session.execution.HasValidFrames

/-- A thread does not exit while it has a frame, and a stop that carries a frame
for a thread names an individual one and does not end the inferior. -/
def ExecutionReport.KeepsFramesValid (frames : FrameRegistry) : ExecutionReport → Prop
  | .exited id => frames.byThread[id]? = none
  | .stopped (some thread) reason (some _) =>
      thread ≠ "all" ∧ reason.any StoppedReason.isExit = false
  | _ => True

def Session.KeepsFramesValid (session : Session) (label : SessionLabel) : Prop :=
  ∀ report, session.reportOf label = some report → report.KeepsFramesValid session.frames

namespace FrameRegistry

theorem getElem?_empty (id : ThreadId) : empty.byThread[id]? = none :=
  Std.ExtTreeMap.getElem?_empty

theorem ne_of_invalidate {frames : FrameRegistry} {thread id : ThreadId} {frame : StackFrame}
    (found : (frames.invalidate thread).byThread[id]? = some frame) :
    thread ≠ id ∧ frames.byThread[id]? = some frame := by
  rw [invalidate, Std.ExtTreeMap.getElem?_erase] at found
  split_ifs at found with same
  rw [Std.LawfulEqCmp.compare_eq_iff_eq] at same
  exact ⟨same, found⟩

theorem of_insert {frames : FrameRegistry} {thread id : ThreadId} {new frame : StackFrame}
    (found : (frames.byThread.insert thread new)[id]? = some frame) :
    thread = id ∨ frames.byThread[id]? = some frame := by
  rw [Std.ExtTreeMap.getElem?_insert] at found
  split_ifs at found with same
  · exact Or.inl (Std.LawfulEqCmp.compare_eq_iff_eq.mp same)
  · exact Or.inr found

end FrameRegistry

namespace ThreadRegistry

variable {threads : ThreadRegistry} {id : ThreadId}

theorem IsStopped.onStopped (isStopped : threads.IsStopped id) (thread : Option ThreadId) :
    (threads.onStopped thread).IsStopped id := by
  rcases isStopped with ⟨info, found, state⟩
  by_cases namesAll : NamesAll thread
  · refine ⟨{ info with state := some .stopped }, ?_, rfl⟩
    rw [ThreadRegistry.onStopped, setState_all namesAll, found]
    rfl
  · by_cases named : thread = some id
    · subst named
      have notAll : id ≠ "all" := by
        rintro rfl
        exact namesAll (Or.inr rfl)
      exact ⟨_, setState_named notAll .stopped, rfl⟩
    · refine ⟨info, ?_, state⟩
      rw [ThreadRegistry.onStopped, setState_other namesAll named, found]

theorem IsStopped.create (isStopped : threads.IsStopped id) (other : ThreadId)
    (groupId : Option String) : (threads.create other groupId).IsStopped id := by
  rcases isStopped with ⟨info, found, state⟩
  by_cases same : other = id
  · subst same
    rw [IsStopped, create_self, found]
    exact ⟨_, rfl, state⟩
  · exact ⟨info, (create_other same groupId).trans found, state⟩

theorem IsStopped.remove (isStopped : threads.IsStopped id) {other : ThreadId}
    (differs : other ≠ id) : (threads.remove other).IsStopped id := by
  rcases isStopped with ⟨info, found, state⟩
  exact ⟨info, (remove_other differs).trans found, state⟩

end ThreadRegistry

namespace Execution

theorem HasValidFrames.of_empty {execution : Execution} (noFrames : execution.frames = .empty) :
    execution.HasValidFrames where
  ofStopped id frame found := by
    rw [noFrames, FrameRegistry.getElem?_empty] at found
    cases found
  cleared _ := noFrames

theorem HasValidFrames.running {execution : Execution} (valid : execution.HasValidFrames)
    (thread : Option ThreadId) : (execution.after (.running thread)).HasValidFrames := by
  by_cases namesAll : NamesAll thread
  · apply HasValidFrames.of_empty
    rcases namesAll with rfl | rfl <;> rfl
  · cases thread with
    | none => exact absurd (Or.inl rfl) namesAll
    | some thread =>
        have notAll : ThreadId.isAll thread = false := by
          rw [ThreadId.isAll, beq_eq_false_iff_ne]
          rintro rfl
          exact namesAll (Or.inr rfl)
        refine ⟨?_, fun noFrames => absurd noFrames namesAll⟩
        intro id frame found
        simp only [after, framesAfterRunning, notAll, Bool.false_eq_true, if_false] at found
        rcases FrameRegistry.ne_of_invalidate found with ⟨differs, before⟩
        rcases valid.ofStopped id frame before with ⟨idNotAll, info, known, state⟩
        refine ⟨idNotAll, info, ?_, state⟩
        rw [← known]
        exact ThreadRegistry.setState_other namesAll (by simpa using differs) .running

theorem HasValidFrames.stopped {execution : Execution} (valid : execution.HasValidFrames)
    {thread : Option ThreadId} {reason : Option StoppedReason} {frame : Option StackFrame}
    (keeps : ExecutionReport.KeepsFramesValid execution.frames (.stopped thread reason frame)) :
    (execution.after (.stopped thread reason frame)).HasValidFrames := by
  by_cases isExit : reason.any StoppedReason.isExit = true
  · apply HasValidFrames.of_empty
    simp only [after, framesAfterStop, isExit, if_true]
    split
    · rw [keeps.2] at isExit
      cases isExit
    · rfl
  · have isHalt : reason.any StoppedReason.isExit = false := by simpa using isExit
    refine ⟨?_, ?_⟩
    · intro id found frameFound
      simp only [after, framesAfterStop, isHalt, Bool.false_eq_true, if_false] at frameFound
      have fromBefore : execution.frames.byThread[id]? = some found →
          id ≠ "all" ∧ (execution.threads.onStopped thread).IsStopped id := by
        intro before
        rcases valid.ofStopped id found before with ⟨notAll, isStopped⟩
        exact ⟨notAll, isStopped.onStopped thread⟩
      split at frameFound
      · next thread frame =>
          rcases FrameRegistry.of_insert frameFound with rfl | before
          · exact ⟨keeps.1, _, ThreadRegistry.setState_named keeps.1 .stopped, rfl⟩
          · exact fromBefore before
      · exact fromBefore frameFound
    · intro noFrames
      rw [after, TargetState.afterStop_of_halt isHalt] at noFrames
      exact noFrames.elim

theorem HasValidFrames.after {execution : Execution} (valid : execution.HasValidFrames)
    {report : ExecutionReport} (keeps : report.KeepsFramesValid execution.frames) :
    (execution.after report).HasValidFrames := by
  cases report with
  | running thread => exact valid.running thread
  | stopped thread reason frame => exact valid.stopped keeps
  | created id groupId =>
      refine ⟨?_, valid.cleared⟩
      intro other frame found
      rcases valid.ofStopped other frame found with ⟨notAll, isStopped⟩
      exact ⟨notAll, isStopped.create id groupId⟩
  | exited id =>
      refine ⟨?_, valid.cleared⟩
      intro other frame found
      have differs : id ≠ other := by
        rintro rfl
        have noFrame : execution.frames.byThread[id]? = none := keeps
        have found : execution.frames.byThread[id]? = some frame := found
        rw [noFrame] at found
        cases found
      rcases valid.ofStopped other frame found with ⟨notAll, isStopped⟩
      exact ⟨notAll, isStopped.remove differs⟩
  | failed => exact .of_empty rfl

/-- Each of the three kinds of report that do not keep the property leaves a
frame where none may be. -/
theorem not_hasValidFrames_after {execution : Execution} {report : ExecutionReport}
    (breaks : ¬ report.KeepsFramesValid execution.frames) :
    ¬ (execution.after report).HasValidFrames := by
  intro valid
  unfold ExecutionReport.KeepsFramesValid at breaks
  split at breaks
  · next id =>
      rcases Option.ne_none_iff_exists'.mp breaks with ⟨frame, found⟩
      rcases valid.ofStopped id frame found with ⟨_, info, known, _⟩
      rw [Execution.after, ThreadRegistry.remove_self] at known
      cases known
  · next thread reason frame =>
      have inserted : (framesAfterStop execution.frames (some thread) reason
          (some frame)).byThread[thread]? = some frame := Std.ExtTreeMap.getElem?_insert_self
      have notAll := (valid.ofStopped thread frame inserted).1
      cases isExit : reason.any StoppedReason.isExit with
      | false => exact breaks ⟨notAll, isExit⟩
      | true =>
          rcases TargetState.afterStop_of_exit isExit (some thread) with ⟨exitCode, target⟩
          have noFrames : framesAfterStop execution.frames (some thread) reason (some frame) =
              .empty := by
            apply valid.cleared
            rw [Execution.after, target]
            trivial
          rw [noFrames, FrameRegistry.getElem?_empty] at inserted
          cases inserted
  · exact breaks trivial

end Execution

theorem Session.hasValidFrames_step {session next : Session} {label : SessionLabel}
    (valid : session.HasValidFrames) (keeps : session.KeepsFramesValid label)
    (stepped : session.step label = some next) : next.HasValidFrames := by
  rw [HasValidFrames, Session.step_execution stepped]
  cases isReport : session.reportOf label with
  | none => exact valid
  | some report => exact Execution.HasValidFrames.after valid (keeps report isReport)

/-- Every frame is valid throughout a run exactly when no thread exits with a
frame, and no stop brings a frame for the pseudo-thread or with the end of the
inferior. -/
theorem Session.hasValidFrames_iff (miVersion : MiVersion) (labels : List SessionLabel) :
    Always Session.step (.withVersionHint miVersion) HasValidFrames labels ↔
      EachStep Session.step (.withVersionHint miVersion) KeepsFramesValid labels := by
  apply always_iff_eachStep
  · intro session reaches
    apply reaches.invariant
    · exact Execution.HasValidFrames.of_empty rfl
    · intro session next label valid keeps stepped
      exact hasValidFrames_step valid keeps stepped
  · intro session next label _ stepped breaks valid
    unfold KeepsFramesValid at breaks
    push Not at breaks
    rcases breaks with ⟨report, isReport, breaks⟩
    rw [HasValidFrames, Session.step_execution stepped, isReport] at valid
    exact Execution.not_hasValidFrames_after breaks valid

/-- A thread stops in a frame and exits. -/
def exitWithFrame : List SessionLabel :=
  [.line (Utf8Text.asBytes "*stopped,thread-id=\"1\",frame=\x7bfunc=\"main\"\x7d"),
    .line (Utf8Text.asBytes "=thread-exited,id=\"1\"")]

theorem exitWithFrame_leaves_frame :
    ∃ final, run Session.step (.withVersionHint .unknown) exitWithFrame = some final ∧
      ¬ final.HasValidFrames := by
  have ran : ∃ final, run Session.step (.withVersionHint .unknown) exitWithFrame = some final ∧
      final.frames.byThread["1"]? = some ⟨none, some "main", none, none, none, none⟩ ∧
      final.threads.byId["1"]? = none :=
    ⟨_, rfl, rfl, rfl⟩
  rcases ran with ⟨final, ran, hasFrame, unknown⟩
  refine ⟨final, ran, ?_⟩
  intro valid
  rcases (valid.ofStopped "1" _ hasFrame).2 with ⟨info, known, _⟩
  have unknown : final.execution.threads.byId["1"]? = none := unknown
  rw [unknown] at known
  cases known

end Framewalk
