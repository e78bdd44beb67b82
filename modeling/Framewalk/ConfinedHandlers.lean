import Framewalk.PermittedCommands

/-!
# The handlers are confined

Clients begin tool calls and evaluations whenever they like, each handler takes
its next step or is abandoned at any time, and the transport goes on in between.
Every handler by itself submits only permitted commands, and stores only the
lines of selections that have succeeded.
-/

namespace Framewalk

open SharedPrograms
open RawGuard (validateRawMiCommand rawMiOperation trim)

def CallResult.answer? : CallResult → Option CallResult
  | .cancelled => none
  | result => some result

/-- What the transport has returned to a call whose task was not dropped. -/
def Transport.answer (transport : Transport) (i : CallId) : Option CallResult :=
  match transport.calls i with
  | .done result => result.answer?
  | _ => none

/-- Bootstrap, startup connect and shutdown may come at any time, and again. -/
def Config.offers (config : Config) : Job → Bool
  | .connectStartupTarget spec => config.connect == some spec
  | .tool call => config.mode.routes call
  | .vmlinuxProbe => false
  | .bootstrap | .scheme _ _ | .shutdown => true

def server (config : Config) (formatters : Formatters) :
    Host Transport Transport.Label Call CallResult (Option String) Job Response where
  serve := Transport.step
  call := .start
  isCall label :=
    match label with
    | .start _ _ => true
    | _ => false
  answer := Transport.answer
  offers := config.offers
  code := Handlers.code config formatters

/-- The request selected a target, and this line selects it again. -/
inductive Reselects : SubmitRequest → String → Prop
  | structured (transportName parameters : String) :
      Reselects (.structured (targetSelect transportName parameters))
        (encodeMiCommand (targetSelect transportName parameters))
  | raw {line operation : String} : rawMiOperation line = .ok operation →
      toAsciiLowercaseText operation = toAsciiLowercaseText "target-select" →
      Reselects (.raw line) (String.ofList (trim line.toList))

/-- The memo holds the line of a selection that has succeeded, and the line passes
the guard. -/
def Justifies (config : Config) (known : Knowledge Call CallResult) (memo : Option String) :
    Prop :=
  ∀ line, memo = some line → validateRawMiCommand line config.allowShell = .ok () ∧
    ∃ request outcome, known (.submit request) (.outcome outcome) ∧
      outcome.isSuccess = true ∧ Reselects request line

/-- A call asks for nothing, or submits a permitted request. -/
def Config.Grants (config : Config) : Call → Prop
  | .submit request => config.Permits request
  | .submitAndAwaitStop line => config.Permits (.raw line)
  | .nextStopAfter _ | .currentOrNextStop | .recordSyntheticLog _ => True

def Config.discipline (config : Config) : Discipline Call CallResult (Option String) Job where
  grants := config.Grants
  admits job := job = .vmlinuxProbe ∨ config.offers job = true
  justifies := Justifies config
  mono := by
    intro known more memo le justified line isMemo
    obtain ⟨passes, request, outcome, isKnown, succeeds, reselects⟩ := justified line isMemo
    exact ⟨passes, request, outcome, le _ _ isKnown, succeeds, reselects⟩

namespace Handlers

open RawGuard (validateRawMiCommand_trim validateRawMiCommand_targetSelect
  validateRawMiCommand_execUntil)

variable {config : Config} {formatters : Formatters} {known : Knowledge Call CallResult}

/-- The handler keeps the discipline, whatever it returns. -/
abbrev Confined (config : Config) {α : Type} (handler : Handler α) : Prop :=
  ∀ known, handler.Confined config.discipline (fun _ _ => True) known

/-- A submit must be permitted; afterwards it is known what was answered. -/
theorem submitRequest_confined {request : SubmitRequest}
    {post : Knowledge Call CallResult → Except TransportError CommandOutcome → Prop}
    (permitted : config.Permits request)
    (answered : ∀ outcome,
      post (known.learn (.submit request) (.outcome outcome)) (.ok outcome))
    (failed : ∀ reply err, post (known.learn (.submit request) reply) (.error err)) :
    (submitRequest request).Confined config.discipline post known := by
  simp only [submitRequest, Program.confined_do_iff, Program.confined_asking_iff]
  refine ⟨permitted, fun reply => ?_⟩
  cases reply with
  | outcome outcome => exact answered outcome
  | failed error => exact failed _ error
  | stop | timedOut | logged | cancelled => exact failed _ .exited

/-- A submit with a time limit may also end without an answer. -/
theorem submitWithin_confined {limit : Duration} {request : SubmitRequest}
    {post : Knowledge Call CallResult →
      Option (Except TransportError CommandOutcome) → Prop}
    (permitted : config.Permits request) (late : post known none)
    (answered : ∀ reply, post (known.learn (.submit request) reply) (some (submitResult reply))) :
    (submitWithin limit request).Confined config.discipline post known := by
  simp only [submitWithin, Program.confined_do_iff, Program.confined_askingWithin_iff]
  exact ⟨permitted, fun _ => late, answered⟩

theorem recordSyntheticLog_confined {post : Knowledge Call CallResult → Unit → Prop}
    {text : String} (logged : ∀ reply, post (known.learn (.recordSyntheticLog text) reply) ()) :
    (recordSyntheticLog text).Confined config.discipline post known := by
  simp only [recordSyntheticLog, Program.confined_do_iff, Program.confined_asking_iff,
    Program.confined_pure_iff]
  exact ⟨trivial, logged⟩

theorem submitAsToolResult_confined {command : MiCommand}
    (permitted : config.Permits (.structured command)) :
    Confined config (submitAsToolResult command) := by
  intro known
  simp only [submitAsToolResult, submit, Program.confined_do_iff]
  apply submitRequest_confined permitted
  · exact fun _ => trivial
  · exact fun _ _ => trivial

/-- What is remembered after a raw command is justified by its outcome. -/
theorem rememberSuccessfulRawTargetSelect_confined {line : String} {outcome : CommandOutcome}
    {post : Knowledge Call CallResult → Unit → Prop}
    (passes : validateRawMiCommand line config.allowShell = .ok ())
    (isKnown : known (.submit (.raw line)) (.outcome outcome)) (holds : post known ()) :
    (rememberSuccessfulRawTargetSelect line outcome).Confined config.discipline post known := by
  unfold rememberSuccessfulRawTargetSelect
  split_ifs with fails
  · exact holds
  · split
    · next operation extracted =>
        split_ifs with selects
        · refine ⟨?_, holds⟩
          rintro _ ⟨⟩
          rw [validateRawMiCommand_trim]
          exact ⟨passes, _, outcome, isKnown, by simpa using fails, .raw extracted selects⟩
        · exact holds
    · exact holds

theorem submitValidatedRawCommandAsToolResult_confined (command : String) :
    Confined config (submitValidatedRawCommandAsToolResult config.allowShell command) := by
  intro known
  unfold submitValidatedRawCommandAsToolResult
  split
  · trivial
  · next passes =>
      simp only [submitRaw, Program.confined_do_iff]
      apply submitRequest_confined (.raw passes)
      · intro outcome
        simp only [Program.confined_do_iff]
        exact rememberSuccessfulRawTargetSelect_confined passes (Or.inr ⟨rfl, rfl⟩) trivial
      · exact fun _ _ => trivial

theorem gdbVersion_confined : Confined config gdbVersion := by
  intro known
  simp only [gdbVersion, eventCursor, journal, submit, Program.confined_do_iff,
    Program.confined_looking_iff]
  intro atStart
  apply submitRequest_confined permits_gdbVersion
  · intro outcome atReturn
    trivial
  · exact fun _ _ => trivial

/-- A selection that succeeds has been answered so. -/
def Selected (rebuild : MiCommand) (known : Knowledge Call CallResult)
    (result : Except McpError CommandOutcome) : Prop :=
  ∀ outcome, result = .ok outcome → outcome.isSuccess = true →
    known (.submit (.structured rebuild)) (.outcome outcome)

theorem selected_error (rebuild : MiCommand) (known : Knowledge Call CallResult)
    (error : McpError) : Selected rebuild known (.error error) :=
  nofun

/-- The original error is not a success. -/
theorem selected_originalError (rebuild : MiCommand) (known : Knowledge Call CallResult)
    (msg : String) (code : Option String) : Selected rebuild known (.ok (.error msg code)) := by
  rintro _ ⟨⟩ succeeds
  cases succeeds

theorem downgradeNonStopAndRetry_confined {rebuild : MiCommand} {msg : String}
    (permitted : config.Permits (.structured rebuild)) :
    (downgradeNonStopAndRetry formatters msg rebuild).Confined config.discipline
      (Selected rebuild) known := by
  simp only [downgradeNonStopAndRetry, submit, Program.confined_do_iff]
  apply recordSyntheticLog_confined
  intro _
  apply submitRequest_confined permits_gdbSetNonStopOff
  · intro other
    simp only
    split_ifs with succeeds
    · rw [Program.confined_do_iff]
      apply submitRequest_confined permitted
      · rintro outcome _ ⟨⟩ _
        exact Or.inr ⟨rfl, rfl⟩
      · exact fun _ err => selected_error rebuild _ (transportErrorToMcp err)
    · rw [Program.confined_do_iff]
      apply recordSyntheticLog_confined
      exact fun _ => selected_originalError rebuild _ msg none
  · intro _ err
    simp only [Program.confined_do_iff]
    apply recordSyntheticLog_confined
    exact fun _ => selected_originalError rebuild _ msg none

theorem settleTargetSelect_confined {rebuild : MiCommand} {initial : CommandOutcome}
    (permitted : config.Permits (.structured rebuild))
    (isKnown : known (.submit (.structured rebuild)) (.outcome initial)) :
    (settleTargetSelect formatters rebuild initial).Confined config.discipline
      (Selected rebuild) known := by
  cases initial with
  | error msg code =>
      simp only [settleTargetSelect]
      split_ifs with mismatch
      · exact downgradeNonStopAndRetry_confined permitted
      · exact selected_originalError rebuild known msg code
  | done | connected | running | exit =>
      rintro _ ⟨⟩ _
      exact isKnown

theorem rememberSuccessfulTargetSelectCommand_confined {transportName parameters : String}
    {outcome : CommandOutcome} {post : Knowledge Call CallResult → Unit → Prop}
    (isKnown : outcome.isSuccess = true →
      known (.submit (.structured (targetSelect transportName parameters))) (.outcome outcome))
    (holds : post known ()) :
    (rememberSuccessfulTargetSelectCommand (targetSelect transportName parameters)
      outcome).Confined config.discipline post known := by
  unfold rememberSuccessfulTargetSelectCommand
  split_ifs with fails other
  · exact holds
  · exact holds
  · refine ⟨?_, holds⟩
    rintro _ ⟨⟩
    have succeeds : outcome.isSuccess = true := by simpa using fails
    exact ⟨validateRawMiCommand_targetSelect transportName parameters config.allowShell, _, outcome,
      isKnown succeeds, succeeds, .structured transportName parameters⟩

theorem performTargetSelect_confined (transportName parameters : String) :
    Confined config (performTargetSelect formatters transportName parameters) := by
  intro known
  have permitted : config.Permits (.structured (targetSelect transportName parameters)) :=
    permits_targetSelect transportName parameters
  simp only [performTargetSelect, submit, Program.confined_do_iff]
  apply submitRequest_confined permitted
  · intro initial
    simp only [Program.confined_do_iff]
    refine (settleTargetSelect_confined permitted (Or.inr ⟨rfl, rfl⟩)).weaken le_rfl ?_
    intro before known result le selected
    cases result with
    | error err => trivial
    | ok outcome =>
        simp only [Program.confined_do_iff]
        apply rememberSuccessfulTargetSelectCommand_confined
        · exact fun succeeds => le _ _ (selected outcome rfl succeeds)
        · split_ifs
          · exact ⟨Or.inl rfl, trivial⟩
          · trivial
  · exact fun _ _ => trivial

/-- The memo that is loaded has passed the guard, whoever stored it. -/
theorem reconnectTarget_confined : Confined config reconnectTarget := by
  intro known
  simp only [reconnectTarget, submit, submitRaw, Program.confined_do_iff,
    Program.confined_loading_iff]
  intro known memo _ justified
  cases memo with
  | none => trivial
  | some selection =>
      have passes := (justified selection rfl).1
      simp only [Program.confined_do_iff]
      apply submitRequest_confined (permits_new (by decide +kernel) (by decide +kernel))
      · intro disconnect
        simp only [Program.confined_do_iff]
        apply submitRequest_confined (.raw passes)
        · intro reconnect
          simp only [Program.confined_do_iff]
          exact rememberSuccessfulRawTargetSelect_confined passes (Or.inr ⟨rfl, rfl⟩) trivial
        · exact fun _ _ => trivial
      · exact fun _ _ => trivial

theorem connectStartupTarget_confined (spec : String) :
    Confined config (connectStartupTarget formatters spec) := by
  intro known
  unfold connectStartupTarget
  split
  · trivial
  · next transportName parameters _ =>
      simp only [Program.confined_do_iff]
      refine (performTargetSelect_confined transportName parameters known).weaken le_rfl ?_
      intro _ known result _ _
      split <;> trivial

theorem vmlinuxProbe_confined : Confined config vmlinuxProbe := by
  intro known
  have permitted : config.Permits (.structured probeCommand) := by
    apply Config.Permits.structured
    · simp +decide [probeCommand]
    · exact Or.inl (show listed "symbol-info-variables" = true by decide +kernel)
  simp only [vmlinuxProbe, Program.confined_do_iff]
  apply submitWithin_confined permitted
  · trivial
  · intro reply
    split
    · split_ifs
      · exact recordSyntheticLog_confined fun _ => trivial
      · trivial
    · split_ifs
      · exact recordSyntheticLog_confined fun _ => trivial
      · trivial
    · trivial

@[simp]
theorem confined_orRaise_iff {α : Type} {first : Handler (Except String α)}
    {next : α → Handler Response} {post : Knowledge Call CallResult → Response → Prop} :
    (orRaise first next).Confined config.discipline post known ↔
      first.Confined config.discipline (fun known result =>
        match result with
        | .ok value => (next value).Confined config.discipline post known
        | .error message => post known (.raised message)) known := by
  rw [orRaise, Program.confined_do_iff]
  apply iff_of_eq
  congr
  funext known result
  cases result <;> rfl

/-- A submit of a primitive must be permitted; it may end without an answer, too. -/
theorem submitRequestWithTimeout_confined {request : SubmitRequest} {timeout : Duration}
    {label : String} {post : Knowledge Call CallResult → Except String CommandOutcome → Prop}
    (permitted : config.Permits request)
    (answered : ∀ outcome, post (known.learn (.submit request) (.outcome outcome)) (.ok outcome))
    (failed : ∀ known message, post known (.error message)) :
    (submitRequestWithTimeout request timeout label).Confined config.discipline post known := by
  simp only [submitRequestWithTimeout, Program.confined_do_iff, Program.confined_askingWithin_iff]
  refine ⟨permitted, fun _ => failed _ _, fun reply => ?_⟩
  cases reply with
  | outcome outcome => exact answered outcome
  | failed | stop | timedOut | logged | cancelled => exact failed _ _

theorem mi_confined (deadline : EvalDeadline) (command : String) :
    Confined config (mi config.allowShell deadline command) := by
  intro known
  unfold mi
  split
  · trivial
  · next passes =>
      rw [confined_orRaise_iff]
      refine (remainingEvalBudget_quiet deadline).confined fun result _ => ?_
      cases result with
      | error message => trivial
      | ok timeout =>
          simp only [submitRawWithTimeout, confined_orRaise_iff]
          apply submitRequestWithTimeout_confined (.raw passes)
          · intro outcome
            simp only [Program.confined_do_iff]
            exact rememberSuccessfulRawTargetSelect_confined passes (Or.inr ⟨rfl, rfl⟩) trivial
          · exact fun _ _ => trivial

theorem schemeGdbVersion_confined (deadline : EvalDeadline) :
    Confined config (schemeGdbVersion deadline) := by
  intro known
  simp only [schemeGdbVersion, eventCursor, journal, submitWithTimeout, Program.confined_do_iff,
    Program.confined_looking_iff, confined_orRaise_iff]
  intro atStart
  refine (remainingEvalBudget_quiet deadline).confined fun result _ => ?_
  cases result with
  | error message => trivial
  | ok timeout =>
      apply submitRequestWithTimeout_confined permits_gdbVersion
      · intro outcome
        cases outcome with
        | done | connected => exact fun _ => trivial
        | running | error | exit => trivial
      · exact fun _ _ => trivial

theorem awaitStop_confined {wait : Call} (granted : config.Grants wait) (label : String)
    (afterSeq : Nat) (timeout : Duration) :
    Confined config (awaitStop wait label afterSeq timeout) := by
  intro known
  simp only [awaitStop, Program.confined_do_iff, Program.confined_asking_iff]
  refine ⟨granted, fun reply => ?_⟩
  cases reply with
  | stop | failed => trivial
  | outcome | timedOut | logged | cancelled =>
      exact (timeoutErrorWithWarnings_quiet label afterSeq timeout).confined fun _ _ => trivial

theorem waitForStop_confined (timeout : Duration) :
    Confined config (waitForStopWithTimeout timeout) := by
  intro known
  simp only [waitForStopWithTimeout, eventCursor, Program.confined_do_iff,
    Program.confined_looking_iff]
  intro atStart
  exact awaitStop_confined (show config.Grants .currentOrNextStop from trivial) _ _ _ _

theorem submitAndAwaitStop_confined {line : String}
    (passes : validateRawMiCommand line config.allowShell = .ok ()) (timeout : Duration)
    (deadline : EvalDeadline) : Confined config (submitAndAwaitStop line timeout deadline) := by
  intro known
  simp only [submitAndAwaitStop, eventCursor, submitRawWithTimeout, Program.confined_do_iff,
    Program.confined_looking_iff, confined_orRaise_iff]
  intro atStart
  refine (clampToEvalBudget_quiet timeout deadline).confined fun result _ => ?_
  cases result with
  | error message => trivial
  | ok submitTimeout =>
      apply submitRequestWithTimeout_confined (.raw passes)
      · intro outcome
        cases outcome with
        | running =>
            simp only [confined_orRaise_iff]
            refine (clampToEvalBudget_quiet timeout deadline).confined fun result _ => ?_
            cases result with
            | error message => trivial
            | ok waitTimeout =>
                exact awaitStop_confined (show config.Grants (.nextStopAfter _) from trivial)
                  _ _ _ _
        | done | connected | error | exit => trivial
      · exact fun _ _ => trivial

/-- A primitive that takes a time-out is confined if it is so for every one. -/
theorem orRaise_waitTimeout_confined {next : Duration → Handler Response}
    (confined : ∀ timeout, Confined config (next timeout)) (defaultTimeout : Duration)
    (deadline : EvalDeadline) (timeout : WaitTimeout) :
    Confined config (orRaise (waitTimeout defaultTimeout deadline timeout) next) := by
  intro known
  rw [confined_orRaise_iff]
  refine (waitTimeout_quiet defaultTimeout deadline timeout).confined fun result _ => ?_
  cases result with
  | error message => trivial
  | ok timeout => exact confined timeout known

theorem scheme_confined (deadline : EvalDeadline) (primitive : SchemePrimitive) :
    Confined config (scheme config deadline primitive) := by
  cases primitive with
  | mi command => exact mi_confined deadline command
  | gdbVersion => exact schemeGdbVersion_confined deadline
  | waitForStop timeout =>
      exact orRaise_waitTimeout_confined waitForStop_confined _ deadline timeout
  | triggerAndWait trigger timeout =>
      apply orRaise_waitTimeout_confined
      intro timeout
      apply submitAndAwaitStop_confined
      cases config.allowShell <;> cases trigger <;> decide
  | untilAndWait location timeout =>
      apply orRaise_waitTimeout_confined
      intro timeout
      exact submitAndAwaitStop_confined (validateRawMiCommand_execUntil location _) timeout deadline
  | drainEvents afterSeq =>
      intro known
      cases afterSeq with
      | none =>
          simp only [scheme, schemeDrainEvents, Program.confined_do_iff]
          exact (drain_quiet _).confined fun _ _ => trivial
      | some afterSeq =>
          simp only [scheme, schemeDrainEvents]
          split_ifs
          · trivial
          · rw [Program.confined_do_iff]
            exact (drain_quiet _).confined fun _ _ => trivial

theorem bootstrapSession_confined {commands : List String}
    (pass : ∀ command ∈ commands,
      validateRawMiCommand command config.allowShell = .ok ()) :
    Confined config (bootstrapSession formatters commands) := by
  induction commands with
  | nil => exact fun _ => trivial
  | cons command commands ih =>
      intro known
      have rest := ih fun other member => pass other (List.mem_cons_of_mem command member)
      simp only [bootstrapSession, Program.confined_do_iff]
      apply submitWithin_confined (.raw (pass command List.mem_cons_self))
      · trivial
      · intro reply
        split
        · trivial
        · exact rest _
        · exact rest _
        · trivial
        · trivial
        · trivial

theorem bootstrapCommands_pass (nonStop allowShell : Bool) :
    ∀ command ∈ bootstrapCommands nonStop, validateRawMiCommand command allowShell = .ok () := by
  cases nonStop <;> cases allowShell <;> decide +kernel

theorem tool_confined {call : ToolCall} (routes : config.mode.routes call = true) :
    Confined config (tool config formatters call) := by
  cases call with
  | structured tool => exact submitAsToolResult_confined (tool.permitted routes)
  | gdbVersion => exact gdbVersion_confined
  | interrupt | interruptTarget => exact submitValidatedRawCommandAsToolResult_confined _
  | targetState =>
      intro known
      simp only [tool, Program.confined_do_iff]
      exact observedState_quiet.confined fun _ _ => trivial
  | drainEvents cursor =>
      intro known
      simp only [tool, Program.confined_do_iff]
      exact (drain_quiet _).confined fun _ _ => trivial
  | targetSelect transportName parameters =>
      intro known
      simp only [tool, Program.confined_do_iff]
      refine (performTargetSelect_confined transportName parameters known).weaken le_rfl ?_
      intro _ known result _ _
      cases result <;> trivial
  | reconnectTarget => exact reconnectTarget_confined
  | miRawCommand command => exact submitValidatedRawCommandAsToolResult_confined command

theorem bootstrap_confined : Confined config (code config formatters .bootstrap) := by
  intro known
  simp only [code, Program.confined_do_iff]
  refine (bootstrapSession_confined (bootstrapCommands_pass config.nonStop _) known).weaken
    le_rfl ?_
  intro _ known result _ _
  cases result <;> trivial

theorem connectStartup_confined (spec : String) :
    Confined config (code config formatters (.connectStartupTarget spec)) := by
  intro known
  simp only [code, Program.confined_do_iff]
  refine (connectStartupTarget_confined spec known).weaken le_rfl ?_
  intro _ known result _ _
  cases result <;> trivial

theorem probe_confined : Confined config (code config formatters .vmlinuxProbe) := by
  intro known
  simp only [code, Program.confined_do_iff]
  exact (vmlinuxProbe_confined known).weaken le_rfl fun _ _ => trivial

theorem shutdown_confined : Confined config (code config formatters .shutdown) := by
  intro known
  simp only [code, shutdown, Program.confined_do_iff]
  apply submitWithin_confined (permits_new (by decide +kernel) (by decide +kernel))
  · trivial
  · exact fun _ => trivial

theorem code_confined {job : Job} (admitted : config.discipline.admits job) :
    Confined config (code config formatters job) := by
  cases job with
  | bootstrap => exact bootstrap_confined
  | connectStartupTarget spec => exact connectStartup_confined spec
  | tool call => exact tool_confined (admitted.resolve_left nofun)
  | scheme deadline primitive => exact scheme_confined deadline primitive
  | vmlinuxProbe => exact probe_confined
  | shutdown => exact shutdown_confined

end Handlers

theorem server_obeys (config : Config) (formatters : Formatters) :
    (server config formatters).Obeys config.discipline where
  offered _ offers := Or.inr offers
  jobs _ admitted := Handlers.code_confined admitted _

end Framewalk
