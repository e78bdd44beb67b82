import Framewalk.ResultRouting
import Framewalk.ThreadHistory

/-!
# The target and the threads agree

Target and threads are updated by separate code from the same reports.  Between
the report that last moved the target and now, threads may only come and go, so
the two views agree on every thread that has lived since that report.
-/

namespace Framewalk

open TransitionSystem LineSplitting ThreadReference

section Since

variable {earlier : List ExecutionReport} {report : ExecutionReport} {id : ThreadId}
  {state : ThreadState}

theorem stateOf_of_still {next : ExecutionReport} (still : next.movesTarget = false)
    (id : ThreadId) : next.stateOf id = none := by
  cases next with
  | created | exited => rfl
  | _ => cases still

theorem exits_of_stateOf (stateOf : report.stateOf id = some state) :
    report.exits id = false := by
  cases report with
  | exited other => cases stateOf
  | _ => rfl

/-- A report about no state keeps the state of every thread it does not
introduce. -/
theorem state_of_append_still {reports : List ExecutionReport} {next : ExecutionReport}
    (still : next.movesTarget = false) {info : ThreadInfo}
    (known : lookup (reports ++ [next]) id = some info) :
    (∃ before, lookup reports id = some before ∧ info.state = before.state) ∨
      lookup reports id = none ∧ info.state = none := by
  have noState := stateOf_of_still still id
  by_cases exits : next.exits id = true
  · rw [lookup_append_exit exits] at known
    cases known
  · have survives : next.exits id = false := by simpa using exits
    cases before : lookup reports id with
    | some old =>
        rw [lookup_append_known before survives, noState] at known
        obtain rfl := Option.some.inj known
        exact Or.inl ⟨old, rfl, rfl⟩
    | none =>
        by_cases mentioned : next.mentions id = true
        · rw [lookup_append_introduced before survives mentioned] at known
          obtain rfl := Option.some.inj known
          exact Or.inr ⟨rfl, noState⟩
        · have unmentioned : next.mentions id = false := by simpa using mentioned
          rw [lookup_append_unmentioned before unmentioned] at known
          cases known

theorem state_since (stateOf : report.stateOf id = some state) (later : List ExecutionReport)
    (still : ∀ next ∈ later, next.movesTarget = false) {info : ThreadInfo}
    (known : lookup (earlier ++ report :: later) id = some info) :
    info.state = some state ∨ info.state = none := by
  induction later using List.reverseRecOn generalizing info with
  | nil =>
      left
      have survives := exits_of_stateOf stateOf
      cases before : lookup earlier id with
      | some old =>
          rw [lookup_append_known before survives, stateOf] at known
          obtain rfl := Option.some.inj known
          rfl
      | none =>
          by_cases mentioned : report.mentions id = true
          · rw [lookup_append_introduced before survives mentioned] at known
            obtain rfl := Option.some.inj known
            exact stateOf
          · have unmentioned : report.mentions id = false := by simpa using mentioned
            rw [lookup_append_unmentioned before unmentioned] at known
            cases known
  | append_singleton later next ih =>
      rw [← List.cons_append, ← List.append_assoc] at known
      rcases state_of_append_still (still next (by simp)) known with ⟨old, before, same⟩ | ⟨_, none⟩
      · rw [same]
        apply ih _ before
        intro other member
        exact still other (List.mem_append_left _ member)
      · exact Or.inr none

/-- A thread that the report names has its state exactly as long as it does not
exit; afterwards it may come back, without a state. -/
theorem state_since_mentioned (earlier : List ExecutionReport)
    (mentioned : report.mentions id = true) (stateOf : report.stateOf id = some state)
    (later : List ExecutionReport) (still : ∀ next ∈ later, next.movesTarget = false) :
    (later.any (ExecutionReport.exits id) = false → ∃ info,
        lookup (earlier ++ report :: later) id = some info ∧ info.state = some state) ∧
      (later.any (ExecutionReport.exits id) = true → ∀ info,
        lookup (earlier ++ report :: later) id = some info → info.state = none) := by
  induction later using List.reverseRecOn with
  | nil =>
      refine ⟨?_, by simp⟩
      intro _
      have survives := exits_of_stateOf stateOf
      cases before : lookup earlier id with
      | some old =>
          refine ⟨_, lookup_append_known before survives, ?_⟩
          rw [stateOf, Option.some_or]
      | none => exact ⟨_, lookup_append_introduced before survives mentioned, stateOf⟩
  | append_singleton later next ih =>
      have stillNext := still next (by simp)
      have stillLater : ∀ other ∈ later, other.movesTarget = false :=
        fun other member => still other (List.mem_append_left _ member)
      rw [← List.cons_append, ← List.append_assoc, List.any_append, List.any_cons, List.any_nil,
        Bool.or_false]
      by_cases exits : next.exits id = true
      · refine ⟨by simp [exits], ?_⟩
        intro _ info known
        rw [lookup_append_exit exits] at known
        cases known
      · have survives : next.exits id = false := by simpa using exits
        rw [survives, Bool.or_false]
        refine ⟨?_, ?_⟩
        · intro noExit
          rcases (ih stillLater).1 noExit with ⟨info, known, infoState⟩
          refine ⟨_, lookup_append_known known survives, ?_⟩
          rw [stateOf_of_still stillNext, Option.none_or, infoState]
        · intro exited info known
          rcases state_of_append_still stillNext known with ⟨old, before, same⟩ | ⟨_, noState⟩
          · rw [same]
            exact (ih stillLater).2 exited old before
          · exact noState

end Since

/-- What the target is after a report that moves it. -/
def ExecutionReport.targetAfter : ExecutionReport → TargetState
  | .running thread => .running thread
  | .stopped thread reason _ => .afterStop thread reason
  | _ => .unknown

theorem Execution.after_target (execution : Execution) (report : ExecutionReport) :
    (execution.after report).target =
      if report.movesTarget then report.targetAfter else execution.target := by
  cases report <;> rfl

theorem target_of_reports (reports : List ExecutionReport) :
    (reports.foldl Execution.after .fresh).target = .unknown ∨
      ∃ earlier report later, reports = earlier ++ report :: later ∧
        report.movesTarget = true ∧ (∀ next ∈ later, next.movesTarget = false) ∧
        (reports.foldl Execution.after .fresh).target = report.targetAfter := by
  induction reports using List.reverseRecOn with
  | nil => exact Or.inl rfl
  | append_singleton reports report ih =>
      rw [List.foldl_append, List.foldl_cons, List.foldl_nil, Execution.after_target]
      by_cases moves : report.movesTarget = true
      · rw [if_pos moves]
        exact Or.inr ⟨reports, report, [], rfl, moves, by simp, rfl⟩
      · rw [if_neg moves]
        rcases ih with unknown | ⟨earlier, last, later, reportsEq, lastMoves, still, target⟩
        · exact Or.inl unknown
        · refine Or.inr ⟨earlier, last, later ++ [report], ?_, lastMoves, ?_, target⟩
          · rw [reportsEq, List.append_assoc, List.cons_append]
          · intro next member
            rcases List.mem_append.mp member with before | isReport
            · exact still next before
            · rw [List.mem_singleton.mp isReport]
              simpa using moves

theorem eq_running_of_targetAfter {report : ExecutionReport} {thread : Option ThreadId}
    (target : report.targetAfter = .running thread) : report = .running thread := by
  cases report with
  | running other =>
      cases target
      rfl
  | stopped other reason frame =>
      cases isExit : reason.any StoppedReason.isExit with
      | true =>
          rcases TargetState.afterStop_of_exit isExit other with ⟨exitCode, afterStop⟩
          rw [ExecutionReport.targetAfter, afterStop] at target
          cases target
      | false =>
          rw [ExecutionReport.targetAfter, TargetState.afterStop_of_halt isExit] at target
          cases target
  | _ => cases target

theorem eq_stopped_of_targetAfter {report : ExecutionReport} {thread : Option ThreadId}
    {reason : Option StoppedReason} (target : report.targetAfter = .stopped thread reason) :
    ∃ frame, report = .stopped thread reason frame := by
  cases report with
  | stopped other otherReason frame =>
      cases isExit : otherReason.any StoppedReason.isExit with
      | true =>
          rcases TargetState.afterStop_of_exit isExit other with ⟨exitCode, afterStop⟩
          rw [ExecutionReport.targetAfter, afterStop] at target
          cases target
      | false =>
          rw [ExecutionReport.targetAfter, TargetState.afterStop_of_halt isExit] at target
          cases target
          exact ⟨frame, rfl⟩
  | _ => cases target

theorem exists_running_of_target {reports : List ExecutionReport} {thread : Option ThreadId}
    (target : (reports.foldl Execution.after .fresh).target = .running thread) :
    ∃ earlier later, reports = earlier ++ .running thread :: later ∧
      ∀ next ∈ later, next.movesTarget = false := by
  rcases target_of_reports reports with
    unknown | ⟨earlier, report, later, reportsEq, _, still, after⟩
  · rw [target] at unknown
    cases unknown
  · obtain rfl := eq_running_of_targetAfter (after.symm.trans target)
    exact ⟨earlier, later, reportsEq, still⟩

theorem exists_stopped_of_target {reports : List ExecutionReport} {thread : Option ThreadId}
    {reason : Option StoppedReason}
    (target : (reports.foldl Execution.after .fresh).target = .stopped thread reason) :
    ∃ earlier frame later, reports = earlier ++ .stopped thread reason frame :: later ∧
      ∀ next ∈ later, next.movesTarget = false := by
  rcases target_of_reports reports with
    unknown | ⟨earlier, report, later, reportsEq, _, still, after⟩
  · rw [target] at unknown
    cases unknown
  · obtain ⟨frame, rfl⟩ := eq_stopped_of_targetAfter (after.symm.trans target)
    exact ⟨earlier, frame, later, reportsEq, still⟩

/-- Remember the reports of a run in order. -/
def noteReport (reports : List ExecutionReport) (session : Session) (label : SessionLabel)
    (_ : Session) : List ExecutionReport :=
  reports ++ (session.reportOf label).toList

theorem execution_of_reachable {miVersion : MiVersion}
    {current : Remembering Session (List ExecutionReport)}
    (reachable : Reachable (remember Session.step noteReport)
      ⟨.withVersionHint miVersion, []⟩ current) :
    current.state.execution = current.memory.foldl Execution.after .fresh := by
  apply reachable.invariant
  · rfl
  · intro current next label same _ stepped
    rcases remember_eq_some stepped with ⟨stepped, noted⟩
    rw [noted, noteReport, List.foldl_append, ← same, Session.step_execution stepped]
    cases current.state.reportOf label <;> rfl

/-- The registry is the reference; a target that moved as a whole leaves no
thread in the opposite state; and a known thread that the target names has the
target's state, unless it has exited since and come back without one. -/
structure ThreadsFollowReports (current : Remembering Session (List ExecutionReport)) :
    Prop where
  threads : ∀ id, current.state.threads.byId[id]? = lookup current.memory id
  allRunning : ∀ thread, current.state.target = .running thread → NamesAll thread →
    ∀ (id : ThreadId) (info : ThreadInfo), current.state.threads.byId[id]? = some info →
      info.state ≠ some .stopped
  allStopped : ∀ thread reason, current.state.target = .stopped thread reason →
    NamesAll thread → ∀ (id : ThreadId) (info : ThreadInfo),
      current.state.threads.byId[id]? = some info → info.state ≠ some .running
  oneRunning : ∀ id info, current.state.target = .running (some id) → id ≠ "all" →
    current.state.threads.byId[id]? = some info → ∃ earlier later,
      current.memory = earlier ++ .running (some id) :: later ∧
        (∀ next ∈ later, next.movesTarget = false) ∧
        info.state = if later.any (ExecutionReport.exits id) then none else some .running
  oneStopped : ∀ id info reason, current.state.target = .stopped (some id) reason →
    id ≠ "all" → current.state.threads.byId[id]? = some info → ∃ earlier frame later,
      current.memory = earlier ++ .stopped (some id) reason frame :: later ∧
        (∀ next ∈ later, next.movesTarget = false) ∧
        info.state = if later.any (ExecutionReport.exits id) then none else some .stopped

theorem state_eq_of_mentioned {earlier later : List ExecutionReport} {report : ExecutionReport}
    {id : ThreadId} {state : ThreadState} (mentioned : report.mentions id = true)
    (stateOf : report.stateOf id = some state)
    (still : ∀ next ∈ later, next.movesTarget = false) {info : ThreadInfo}
    (known : lookup (earlier ++ report :: later) id = some info) :
    info.state = if later.any (ExecutionReport.exits id) then none else some state := by
  have since := state_since_mentioned earlier mentioned stateOf later still
  by_cases exited : later.any (ExecutionReport.exits id) = true
  · rw [if_pos exited]
    exact since.2 exited info known
  · rw [if_neg exited]
    rcases since.1 (by simpa using exited) with ⟨found, isFound, foundState⟩
    rw [known] at isFound
    exact (Option.some.inj isFound) ▸ foundState

theorem threadsFollowReports_of_reachable {miVersion : MiVersion}
    {current : Remembering Session (List ExecutionReport)}
    (reachable : Reachable (remember Session.step noteReport)
      ⟨.withVersionHint miVersion, []⟩ current) : ThreadsFollowReports current := by
  have execution := execution_of_reachable reachable
  have threads : ∀ id, current.state.threads.byId[id]? = lookup current.memory id := by
    intro id
    rw [← threads_eq_lookup, ← execution]
    rfl
  have target : current.state.target = (current.memory.foldl Execution.after .fresh).target :=
    congrArg Execution.target execution
  refine ⟨threads, ?_, ?_, ?_, ?_⟩
  · intro thread isRunning namesAll id info known
    rcases exists_running_of_target (target ▸ isRunning) with ⟨earlier, later, reportsEq, still⟩
    rw [threads, reportsEq] at known
    have stateOf : (ExecutionReport.running thread).stateOf id = some .running :=
      if_pos (Or.inl namesAll)
    rcases state_since stateOf later still known with isState | noState <;> simp [*]
  · intro thread reason isStopped namesAll id info known
    rcases exists_stopped_of_target (target ▸ isStopped) with
      ⟨earlier, frame, later, reportsEq, still⟩
    rw [threads, reportsEq] at known
    have stateOf : (ExecutionReport.stopped thread reason frame).stateOf id = some .stopped :=
      if_pos (Or.inl namesAll)
    rcases state_since stateOf later still known with isState | noState <;> simp [*]
  · intro id info isRunning notAll known
    rcases exists_running_of_target (target ▸ isRunning) with ⟨earlier, later, reportsEq, still⟩
    rw [threads, reportsEq] at known
    refine ⟨earlier, later, reportsEq, still, ?_⟩
    apply state_eq_of_mentioned _ _ still known
    · simp [ExecutionReport.mentions, notAll]
    · exact if_pos (Or.inr rfl)
  · intro id info reason isStopped notAll known
    rcases exists_stopped_of_target (target ▸ isStopped) with
      ⟨earlier, frame, later, reportsEq, still⟩
    rw [threads, reportsEq] at known
    refine ⟨earlier, frame, later, reportsEq, still, ?_⟩
    apply state_eq_of_mentioned _ _ still known
    · simp [ExecutionReport.mentions, notAll]
    · exact if_pos (Or.inr rfl)

/-- The report of a line when no command is outstanding. -/
def lineReport (streamLine : List UInt8) : Option ExecutionReport :=
  (lineRecord streamLine).bind Record.report?

theorem Session.receiveLine_noPending {session : Session}
    (noPending : ∀ token : Token, session.pending.byToken[token]? = none)
    (streamLine : List UInt8) (token : Token) :
    (session.receiveLine streamLine).pending.byToken[token]? = none := by
  cases isRecord : lineRecord streamLine with
  | none =>
      rcases session.receiveLine_of_none isRecord with ⟨event, received⟩
      rw [received]
      exact noPending token
  | some record =>
      rw [session.receiveLine_of_some isRecord]
      cases record with
      | result record =>
          have noEntry : session.answered? record = none := by
            rw [Session.answered?]
            cases record.token with
            | none => rfl
            | some other => exact noPending other
          exact ((Session.classifyResult_of_none noEntry).2.2 token).trans (noPending token)
      | _ =>
          rw [(session.classifyRecord_pending (by simp)).1]
          exact noPending token

theorem Session.foldl_receiveLine_execution (lines : List (List UInt8)) {session : Session}
    (noPending : ∀ token : Token, session.pending.byToken[token]? = none) :
    (lines.foldl receiveLine session).execution =
      (lines.filterMap lineReport).foldl Execution.after session.execution := by
  induction lines generalizing session with
  | nil => rfl
  | cons line lines ih =>
      have stepped : session.step (.line line) = some (session.receiveLine line) := rfl
      have reportEq : session.reportOf (.line line) = lineReport line := by
        simp only [reportOf, lineReport]
        cases lineRecord line with
        | none => rfl
        | some record =>
            cases record with
            | result record =>
                simp only [Option.bind_some, report?, Record.report?]
                cases record.token with
                | none => rfl
                | some token => simp only [Option.bind_some, noPending token]
            | _ => rfl
      rw [List.foldl_cons, ih (session.receiveLine_noPending noPending line),
        Session.step_execution stepped, reportEq, List.filterMap_cons]
      cases lineReport line <;> rfl

/-- The registry of a fresh connection after any chunks is the reference over
their complete lines, and in every state of every run the threads follow the
reports. -/
theorem threads_follow_reports :
    (∀ (miVersion : MiVersion) (chunks : List (List UInt8)) (id : ThreadId),
      (chunks.foldl Connection.receiveBytes (.withVersionHint miVersion)).threads.byId[id]? =
        lookup ((completeLines Ascii.newline chunks.flatten).filterMap lineReport) id) ∧
    ∀ (miVersion : MiVersion) (labels : List SessionLabel),
      Always (remember Session.step noteReport) ⟨.withVersionHint miVersion, []⟩
        ThreadsFollowReports labels := by
  refine ⟨?_, ?_⟩
  · intro miVersion chunks id
    have folded := ((Connection.receiveBytes_line_fold).2.1 (.withVersionHint miVersion) chunks).1
    have fresh : (Connection.withVersionHint miVersion).framer.unread = [] := rfl
    rw [fresh, List.nil_append] at folded
    have noPending : ∀ token : Token,
        (Session.withVersionHint miVersion).pending.byToken[token]? = none :=
      fun _ => Std.ExtTreeMap.getElem?_empty
    have execution := Session.foldl_receiveLine_execution
      (completeLines Ascii.newline chunks.flatten) noPending
    have threads := congrArg Execution.threads
      ((congrArg Session.execution folded).trans execution)
    rw [← threads_eq_lookup]
    exact congrArg (fun threads : ThreadRegistry => threads.byId[id]?) threads
  · intro miVersion labels before isPrefix current ran
    exact threadsFollowReports_of_reachable (reachable_of_run ran)

/-- A thread is reported running, exits, and comes back under the same id. -/
def exitAndReturn : List SessionLabel :=
  [.line (Utf8Text.asBytes "*running,thread-id=\"1\""),
    .line (Utf8Text.asBytes "=thread-exited,id=\"1\""),
    .line (Utf8Text.asBytes "=thread-created,id=\"1\",group-id=\"i1\"")]

/-- The target still names it, but it has no state. -/
theorem exitAndReturn_has_no_state :
    ∃ final, run Session.step (.withVersionHint .unknown) exitAndReturn = some final ∧
      final.target = .running (some "1") ∧
      final.threads.byId["1"]? = some ⟨"1", some "i1", none, none⟩ :=
  ⟨_, rfl, rfl, rfl⟩

/-- What a stop does to the threads depends on its `thread-id` alone: it stops
the threads that the field covers and leaves every other one as it was, so no
thread is left running exactly when no thread beyond its reach was. -/
theorem stopped_reaches_covered_threads (session : Session) (token : Option Token)
    (results : Results) :
    let thread := ResultsView.getStr results "thread-id"
    let after := session.classifyRecord (.exec ⟨token, "stopped", results⟩)
    (∀ (id : ThreadId) (info : ThreadInfo), NamesAll thread ∨ thread = some id →
        after.threads.byId[id]? = some info → info.state = some .stopped) ∧
      (∀ id : ThreadId, ¬ (NamesAll thread ∨ thread = some id) →
        after.threads.byId[id]? = session.threads.byId[id]?) ∧
      ((∀ (id : ThreadId) (info : ThreadInfo), after.threads.byId[id]? = some info →
          info.state ≠ some .running) ↔
        ∀ (id : ThreadId) (info : ThreadInfo), ¬ (NamesAll thread ∨ thread = some id) →
          session.threads.byId[id]? = some info → info.state ≠ some .running) := by
  intro thread after
  have threads : after.threads = session.threads.onStopped thread :=
    congrArg Execution.threads
      (session.classifyRecord_execution (.exec ⟨token, "stopped", results⟩))
  have covered : ∀ (id : ThreadId) (info : ThreadInfo), NamesAll thread ∨ thread = some id →
      after.threads.byId[id]? = some info → info.state = some .stopped := by
    intro id info covers known
    rw [threads, ThreadRegistry.onStopped] at known
    by_cases namesAll : NamesAll thread
    · rw [ThreadRegistry.setState_all namesAll, Option.map_eq_some_iff] at known
      rcases known with ⟨old, _, rfl⟩
      rfl
    · have named := covers.resolve_left namesAll
      have notAll : id ≠ "all" := by
        rintro rfl
        exact namesAll (Or.inr named)
      rw [named, ThreadRegistry.setState_named notAll] at known
      obtain rfl := Option.some.inj known
      rfl
  have beyond : ∀ id : ThreadId, ¬ (NamesAll thread ∨ thread = some id) →
      after.threads.byId[id]? = session.threads.byId[id]? := by
    intro id notCovered
    rw [threads]
    exact ThreadRegistry.setState_other (not_or.mp notCovered).1 (not_or.mp notCovered).2 .stopped
  refine ⟨covered, beyond, ?_⟩
  constructor
  · intro noneRunning id info notCovered known
    apply noneRunning id info
    rw [beyond id notCovered, known]
  · intro noneBeyond id info known
    by_cases covers : NamesAll thread ∨ thread = some id
    · rw [covered id info covers known]
      simp
    · exact noneBeyond id info covers (beyond id covers ▸ known)

/-- Two threads run, and one of them reports that all threads have stopped. -/
def allStopReport : List SessionLabel :=
  [.line (Utf8Text.asBytes "=thread-created,id=\"1\""),
    .line (Utf8Text.asBytes "=thread-created,id=\"2\""),
    .line (Utf8Text.asBytes "*running,thread-id=\"all\""),
    .line (Utf8Text.asBytes "*stopped,thread-id=\"1\",stopped-threads=\"all\"")]

theorem allStopReport_leaves_running :
    ∃ final, run Session.step (.withVersionHint .unknown) allStopReport = some final ∧
      final.threads.byId["1"]? = some ⟨"1", none, some .stopped, none⟩ ∧
      final.threads.byId["2"]? = some ⟨"2", none, some .running, none⟩ :=
  ⟨_, rfl, rfl, rfl⟩

end Framewalk
