import Framewalk.SessionRuns

/-!
# Execution reports

Five kinds of record say what the target, its threads and its frames do.  The
execution state of a session is what these reports, one after another, make of
a fresh one.
-/

namespace Framewalk

open ResultsView TransitionSystem

/-- What a record says about the execution; `failed` is the error of an
execution command. -/
inductive ExecutionReport where
  | running (thread : Option ThreadId)
  | stopped (thread : Option ThreadId) (reason : Option StoppedReason) (frame : Option StackFrame)
  | created (id : ThreadId) (groupId : Option String)
  | exited (id : ThreadId)
  | failed

/-- The reports about every thread name none, or the pseudo-id. -/
def NamesAll (thread : Option ThreadId) : Prop :=
  thread = none ∨ thread = some "all"

instance (thread : Option ThreadId) : Decidable (NamesAll thread) :=
  inferInstanceAs (Decidable (_ ∨ _))

/-- The report of a record, if it is one of the four that need no pending
command. -/
def Record.report? : Record → Option ExecutionReport
  | .exec record =>
      if record.asyncClass = "running" then
        some (.running (getStr record.results "thread-id"))
      else if record.asyncClass = "stopped" then
        some (.stopped (getStr record.results "thread-id")
          (StoppedReason.fromResults record.results) (extractFrame record.results))
      else none
  | .notify record =>
      if record.asyncClass = "thread-created" then
        (getStr record.results "id").map fun id => .created id (getStr record.results "group-id")
      else if record.asyncClass = "thread-exited" then
        (getStr record.results "id").map .exited
      else none
  | _ => none

/-- The report of a record among the commands outstanding in a session. -/
def Session.report? (session : Session) : Record → Option ExecutionReport
  | .result record =>
      match record.token.bind fun token => session.pending.byToken[token]? with
      | some info =>
          if record.resultClass = .error ∧ info.isExecCommand then some .failed else none
      | none => none
  | record => record.report?

structure Execution where
  target : TargetState
  threads : ThreadRegistry
  frames : FrameRegistry

/-- What the target is after a stop for this reason. -/
def TargetState.afterStop (thread : Option ThreadId) : Option StoppedReason → TargetState
  | some .exitedNormally => .exited (some 0)
  | some (.exited exitCode) => .exited exitCode
  | some (.exitedSignalled _) => .exited none
  | reason => .stopped thread reason

/-- The reasons that end the inferior. -/
def StoppedReason.isExit : StoppedReason → Bool
  | .exitedNormally | .exited _ | .exitedSignalled _ => true
  | _ => false

theorem TargetState.afterStop_of_exit {reason : Option StoppedReason}
    (isExit : reason.any StoppedReason.isExit = true) (thread : Option ThreadId) :
    ∃ exitCode, afterStop thread reason = .exited exitCode := by
  cases reason with
  | none => cases isExit
  | some reason =>
      cases reason with
      | exitedNormally | exited | exitedSignalled => exact ⟨_, rfl⟩
      | _ => cases isExit

theorem TargetState.afterStop_of_halt {reason : Option StoppedReason}
    (isHalt : reason.any StoppedReason.isExit = false) (thread : Option ThreadId) :
    afterStop thread reason = .stopped thread reason := by
  cases reason with
  | none => rfl
  | some reason =>
      cases reason with
      | exitedNormally | exited | exitedSignalled => cases isHalt
      | _ => rfl

namespace ThreadRegistry

def create (registry : ThreadRegistry) (id : ThreadId) (groupId : Option String) :
    ThreadRegistry :=
  ⟨registry.byId.alter id fun
    | some info => some { info with groupId := info.groupId.or groupId }
    | none => some ⟨id, groupId, none, none⟩⟩

def remove (registry : ThreadRegistry) (id : ThreadId) : ThreadRegistry :=
  ⟨registry.byId.erase id⟩

end ThreadRegistry

namespace Execution

def fresh : Execution :=
  ⟨.unknown, .empty, .empty⟩

def framesAfterRunning (frames : FrameRegistry) (thread : Option ThreadId) : FrameRegistry :=
  match thread with
  | some thread => if ThreadId.isAll thread then frames.clear else frames.invalidate thread
  | none => frames.clear

/-- An exit clears the frames first, and the frame of the record comes last. -/
def framesAfterStop (frames : FrameRegistry) (thread : Option ThreadId)
    (reason : Option StoppedReason) (frame : Option StackFrame) : FrameRegistry :=
  let kept := if reason.any StoppedReason.isExit then frames.clear else frames
  match thread, frame with
  | some thread, some frame => ⟨kept.byThread.insert thread frame⟩
  | _, _ => kept

def after (execution : Execution) : ExecutionReport → Execution
  | .running thread =>
      ⟨.running thread, execution.threads.onRunning thread,
        framesAfterRunning execution.frames thread⟩
  | .stopped thread reason frame =>
      ⟨.afterStop thread reason, execution.threads.onStopped thread,
        framesAfterStop execution.frames thread reason frame⟩
  | .created id groupId => { execution with threads := execution.threads.create id groupId }
  | .exited id => { execution with threads := execution.threads.remove id }
  | .failed => { execution with target := .unknown, frames := execution.frames.clear }

end Execution

def Session.execution (session : Session) : Execution :=
  ⟨session.target, session.threads, session.frames⟩

theorem Session.routeDone_execution (session : Session) (info : PendingInfo)
    (results : Results) : (session.routeDone info results).execution = session.execution := by
  rcases session.exists_of_routeDone info results with ⟨_, _, _, routed⟩
  rw [routed]
  rfl

theorem Session.enterStopped_eq (session : Session) (thread : Option ThreadId)
    (reason : Option StoppedReason) :
    session.enterStopped thread reason = { session with
      target := .afterStop thread reason
      frames :=
        if reason.any StoppedReason.isExit then session.frames.clear else session.frames } := by
  cases reason with
  | none => rfl
  | some reason => cases reason <;> rfl

theorem Session.classifyResult_execution (session : Session) (record : ResultRecord) :
    (session.classifyResult record).execution =
      ((session.report? (.result record)).elim session.execution session.execution.after) := by
  simp only [Session.classifyResult, Session.report?]
  cases token : record.token with
  | none => rfl
  | some value =>
      change (Session.routeResult { session with pending := _ }
        session.pending.byToken[value]? record).execution = _
      rw [Option.bind_some]
      unfold Session.routeResult
      split
      · next isDone found =>
          rw [found]
          simp only [isDone, reduceCtorEq, false_and, if_false]
          exact Session.routeDone_execution _ _ _
      · next isConnected found =>
          rw [found]
          simp only [isConnected, reduceCtorEq, false_and, if_false]
          exact Session.routeDone_execution _ _ _
      · next isError found =>
          rw [found]
          simp only [isError, true_and]
          split_ifs <;> rfl
      · next notDone notConnected notError =>
          split
          · next info found =>
              split_ifs with isFailure
              · exact absurd found (notError info isFailure.1)
              · rfl
          · rfl

theorem Session.classifyExec_execution (session : Session) (record : AsyncRecord) :
    (session.classifyExec record).execution =
      ((session.report? (.exec record)).elim session.execution session.execution.after) := by
  simp only [Session.classifyExec, Session.report?, Record.report?]
  split
  · next running =>
      rw [if_pos running]
      rfl
  · next stopped =>
      have notRunning : ¬ record.asyncClass = "running" := by simp [stopped]
      rw [if_neg notRunning, if_pos stopped]
      simp only [Session.classifyStopped, Session.enterStopped_eq]
      simp only [Option.elim_some, Execution.after, Execution.framesAfterStop, extractFrame]
      cases getStr record.results "thread-id" with
      | none => rfl
      | some thread =>
          simp only [Session.execution, Session.pushEvent, FrameRegistry.onStoppedFrame]
          cases getTuple record.results "frame" <;> rfl
  · next notRunning notStopped =>
      rw [if_neg notRunning, if_neg notStopped]
      rfl

theorem Session.classifyNotify_execution (session : Session) (record : AsyncRecord) :
    (session.classifyNotify record).execution =
      ((session.report? (.notify record)).elim session.execution session.execution.after) := by
  simp only [Session.classifyNotify, Session.report?, Record.report?]
  split
  · next created =>
      rw [if_pos created]
      simp only [Session.execution, Session.pushEvent, ThreadRegistry.onThreadCreated]
      cases getStr record.results "id" <;> rfl
  · next exited =>
      have notCreated : ¬ record.asyncClass = "thread-created" := by simp [exited]
      rw [if_neg notCreated, if_pos exited]
      simp only [Session.execution, Session.pushEvent, ThreadRegistry.onThreadExited]
      cases getStr record.results "id" <;> rfl
  iterate 3
    · next isBreakpoint =>
        rw [if_neg (by simp [isBreakpoint]), if_neg (by simp [isBreakpoint])]
        rfl
  · next notCreated notExited _ _ _ =>
      rw [if_neg notCreated, if_neg notExited]
      rfl

/-- Classifying a record applies its report and touches the execution state in
no other way. -/
theorem Session.classifyRecord_execution (session : Session) (record : Record) :
    (session.classifyRecord record).execution =
      ((session.report? record).elim session.execution session.execution.after) := by
  cases record with
  | result record => exact session.classifyResult_execution record
  | exec record => exact session.classifyExec_execution record
  | notify record => exact session.classifyNotify_execution record
  | status record | console record | target record | log record => rfl

/-- The report that a step of a session makes. -/
def Session.reportOf (session : Session) : SessionLabel → Option ExecutionReport
  | .line streamLine => (lineRecord streamLine).bind session.report?
  | _ => none

theorem Session.step_execution {session next : Session} {label : SessionLabel}
    (stepped : session.step label = some next) :
    next.execution = (session.reportOf label).elim session.execution session.execution.after := by
  rcases Session.step_cases stepped with
    ⟨streamLine, record, rfl, isRecord, rfl⟩ | ⟨request, rfl, rfl⟩ |
    ⟨isSilent, events, outbound, rfl⟩
  · rw [Session.reportOf, isRecord, Option.bind_some]
    exact session.classifyRecord_execution record
  · rfl
  · have noReport : session.reportOf label = none := by
      cases label with
      | line streamLine =>
          have noRecord : lineRecord streamLine = none := isSilent
          rw [Session.reportOf, noRecord, Option.bind_none]
      | _ => rfl
    rw [noReport]
    rfl

namespace ThreadRegistry

variable {registry : ThreadRegistry} {thread : Option ThreadId}

theorem setState_all (namesAll : NamesAll thread) (state : ThreadState) (id : ThreadId) :
    (registry.setState state thread).byId[id]? =
      registry.byId[id]?.map fun info => { info with state := some state } := by
  rcases namesAll with rfl | rfl
  · exact Std.ExtTreeMap.getElem?_map
  · simp only [setState, if_pos]
    exact Std.ExtTreeMap.getElem?_map

theorem setState_named {id : ThreadId} (notAll : id ≠ "all") (state : ThreadState) :
    (registry.setState state (some id)).byId[id]? =
      some { (registry.byId[id]?).getD (.new id) with state := some state } := by
  simp only [setState, if_neg notAll]
  exact Std.ExtTreeMap.getElem?_alter_self

theorem setState_other (notAll : ¬ NamesAll thread) {id : ThreadId} (other : thread ≠ some id)
    (state : ThreadState) :
    (registry.setState state thread).byId[id]? = registry.byId[id]? := by
  cases thread with
  | none => exact absurd (Or.inl rfl) notAll
  | some named =>
      have namedNotAll : named ≠ "all" := by
        rintro rfl
        exact notAll (Or.inr rfl)
      have differs : named ≠ id := by
        rintro rfl
        exact other rfl
      simp only [setState, if_neg namedNotAll]
      rw [Std.ExtTreeMap.getElem?_alter, if_neg]
      rwa [Std.LawfulEqCmp.compare_eq_iff_eq]

theorem create_self (id : ThreadId) (groupId : Option String) :
    (registry.create id groupId).byId[id]? =
      some (match registry.byId[id]? with
        | some info => { info with groupId := info.groupId.or groupId }
        | none => ⟨id, groupId, none, none⟩) := by
  rw [create, Std.ExtTreeMap.getElem?_alter_self]
  cases registry.byId[id]? <;> rfl

theorem create_other {id other : ThreadId} (differs : id ≠ other) (groupId : Option String) :
    (registry.create id groupId).byId[other]? = registry.byId[other]? := by
  rw [create, Std.ExtTreeMap.getElem?_alter, if_neg]
  rwa [Std.LawfulEqCmp.compare_eq_iff_eq]

theorem remove_self (id : ThreadId) : (registry.remove id).byId[id]? = none :=
  Std.ExtTreeMap.getElem?_erase_self

theorem remove_other {id other : ThreadId} (differs : id ≠ other) :
    (registry.remove id).byId[other]? = registry.byId[other]? := by
  rw [remove, Std.ExtTreeMap.getElem?_erase, if_neg]
  rwa [Std.LawfulEqCmp.compare_eq_iff_eq]

end ThreadRegistry

end Framewalk
