import Framewalk.InlinedStreams
import Framewalk.SchemeQuoting
import Framewalk.SharedPrograms
import Framewalk.TargetReports
import Framewalk.ToolCommands

/-!
# The handlers of the server

Every tool call, every Scheme primitive and every task that the server starts
itself is a program that talks to GDB through the transport: it submits commands
and waits for their results, reads the journal and the observed state, and keeps
the last target selection in a memo that all of them share.
-/

namespace Framewalk

open SharedPrograms
open RawGuard (RawMiRejection validateRawMiCommand trim)
open SubmitRequest (structured raw)

/-- In nanoseconds. -/
abbrev Duration := Nat

/-- What the clock shows. -/
abbrev Instant := Nat

/-- When the budget of an evaluation is used up, if it has one. -/
abbrev EvalDeadline := Option Instant

namespace Duration

def fromSecs (seconds : Nat) : Duration :=
  10 ^ 9 * seconds

def asSecs (duration : Duration) : Nat :=
  duration / 10 ^ 9

def asMillis (duration : Duration) : Nat :=
  duration / 10 ^ 6

end Duration

inductive Mode where
  | full
  | core
  | scheme
  deriving DecidableEq

structure Config where
  mode : Mode
  connect : Option String
  nonStop : Bool
  allowShell : Bool
  waitTimeout : Duration

/-- How values are written out by their formatters, in errors and logs. -/
structure Formatters where
  debugOutcome : CommandOutcome → String
  debugText : String → String
  displayMcpError : McpError → String

/-- A tool that submits one structured command, with its arguments. -/
structure StructuredTool where
  block : ToolBlock
  name : String
  command : MiCommand
  submits : Submits block name command

/-- A call of a tool with its arguments. -/
inductive ToolCall where
  | structured (tool : StructuredTool)
  | gdbVersion
  | interrupt
  | interruptTarget
  | targetState
  | drainEvents (cursor : Option Nat)
  | targetSelect (transportName parameters : String)
  | reconnectTarget
  | miRawCommand (command : String)

namespace ToolCall

def block : ToolCall → ToolBlock
  | .structured tool => tool.block
  | .gdbVersion => .session
  | .interrupt => .executionCore
  | .interruptTarget | .targetState | .drainEvents _ | .targetSelect _ _ | .reconnectTarget =>
      .operator
  | .miRawCommand _ => .raw

def name : ToolCall → String
  | .structured tool => tool.name
  | .gdbVersion => "gdb_version"
  | .interrupt => "interrupt"
  | .interruptTarget => "interrupt_target"
  | .targetState => "target_state"
  | .drainEvents _ => "drain_events"
  | .targetSelect _ _ => "target_select"
  | .reconnectTarget => "reconnect_target"
  | .miRawCommand _ => "mi_raw_command"

end ToolCall

def coreToolNames : List String :=
  (ToolBlock.all.filter ToolBlock.inCore).flatMap ToolBlock.names ++ ["scheme_eval"]

/-- Whether the router of a mode has a route for the call; `scheme_eval` is on
every router. -/
def Mode.routes (mode : Mode) (call : ToolCall) : Bool :=
  match mode with
  | .full => true
  | .core => coreToolNames.contains call.name
  | .scheme => ToolBlock.operator.names.contains call.name

/-- The triggers whose command is fixed. -/
inductive FixedTrigger where
  | run
  | cont
  | step
  | next
  | finish

def FixedTrigger.command : FixedTrigger → String
  | .run => "-exec-run"
  | .cont => "-exec-continue"
  | .step => "-exec-step"
  | .next => "-exec-next"
  | .finish => "-exec-finish"

/-- The time-out of a wait: the configured one, or so many seconds. -/
inductive WaitTimeout where
  | default
  | seconds (seconds : Int)

/-- What an evaluation calls outside of the engine. -/
inductive SchemePrimitive where
  | mi (command : String)
  | gdbVersion
  | waitForStop (timeout : WaitTimeout)
  | triggerAndWait (trigger : FixedTrigger) (timeout : WaitTimeout)
  | untilAndWait (location : String) (timeout : WaitTimeout)
  | drainEvents (afterSeq : Option Int)

/-- What the server runs; an evaluation is its primitives one after the other, all
under one deadline. -/
inductive Job where
  | bootstrap
  | connectStartupTarget (spec : String)
  | tool (call : ToolCall)
  | scheme (deadline : EvalDeadline) (primitive : SchemePrimitive)
  | vmlinuxProbe
  | shutdown

/-- What the handlers make their replies of. -/
inductive Response where
  | outcome (outcome : CommandOutcome)
  | payload (json : Json) (isError : Bool)
  | targetState (observed : ObservedTargetState)
  | drained (payload : DrainEventsPayload)
  | reconnected (disconnect reconnect : CommandOutcome)
  | stopped (entry : StopEntry)
  | failed (error : McpError)
  | raised (message : String)
  | finished

def RawGuard.RawMiRejection.reason : RawMiRejection → String
  | .empty => "empty MI command"
  | .notAnMiCommand => "raw input does not look like an MI command (must start with '-')"
  | .unknownCommandFamily =>
      "MI command is not in the raw-MI allowlist; see " ++
        "framewalk://reference/allowed-mi or start framewalk-mcp with --allow-shell"

abbrev Handler := Program Transport Call CallResult (Option String) Job

namespace Handlers

open Program

/-- What the result of its call is to a submit. -/
def submitResult : CallResult → Except TransportError CommandOutcome
  | .outcome outcome => .ok outcome
  | .failed error => .error error
  -- A submit has no other results.
  | _ => .error .exited

def submitRequest (request : SubmitRequest) :
    Handler (Except TransportError CommandOutcome) := do
  return submitResult (← asking (.submit request))

/-- A submit whose future is dropped when the time has run out.  It is awaited in
place, so nothing else drops it before its handler is abandoned. -/
def submitWithin (limit : Duration) (request : SubmitRequest) :
    Handler (Option (Except TransportError CommandOutcome)) := do
  match ← askingWithin ⟨limit, false⟩ (.submit request) with
  | .ok result => return some (submitResult result)
  | .error _ => return none

def submit (command : MiCommand) : Handler (Except TransportError CommandOutcome) :=
  submitRequest (structured command)

def submitRaw (rawLine : String) : Handler (Except TransportError CommandOutcome) :=
  submitRequest (raw rawLine)

def recordSyntheticLog (text : String) : Handler Unit := do
  let _ ← asking (.recordSyntheticLog text)
  return ()

def eventCursor : Handler Nat :=
  looking fun transport => transport.journal.cursor

def journal : Handler EventJournal :=
  looking Transport.journal

def observedState : Handler ObservedTargetState := do
  let snapshot ← looking Transport.snapshot
  let cursor ← eventCursor
  let readerAlive ← looking Transport.readerAlive
  let events ← journal
  return observeTargetState snapshot cursor readerAlive events

def drain (fromCursor : Nat) : Handler DrainEventsPayload := do
  let atEarliest ← journal
  let atEvents ← journal
  let atCursor ← journal
  return drainReads fromCursor atEarliest atEvents atCursor

theorem observedState_quiet : observedState.Quiet fun _ => True :=
  fun _ _ _ _ => trivial

theorem drain_quiet (fromCursor : Nat) : (drain fromCursor).Quiet fun _ => True :=
  fun _ _ _ => trivial

def isError : CommandOutcome → Bool
  | .error _ _ => true
  | _ => false

def submitAsToolResult (command : MiCommand) : Handler Response := do
  match ← submit command with
  | .ok outcome => return .outcome outcome
  | .error err => return .failed (transportErrorToMcp err)

def rememberSuccessfulRawTargetSelect (rawCommand : String) (outcome : CommandOutcome) :
    Handler Unit :=
  if !outcome.isSuccess then return ()
  else
    match RawGuard.rawMiOperation rawCommand with
    | .ok operation =>
        if toAsciiLowercaseText operation = toAsciiLowercaseText "target-select" then
          storing (some (String.ofList (trim rawCommand.toList)))
        else return ()
    | .error _ => return ()

def submitValidatedRawCommandAsToolResult (allowShell : Bool) (command : String) :
    Handler Response :=
  match validateRawMiCommand command allowShell with
  | .error rejection => return .failed (.invalidParams rejection.reason)
  | .ok () => do
      match ← submitRaw command with
      | .ok outcome =>
          rememberSuccessfulRawTargetSelect command outcome
          return .outcome outcome
      | .error err => return .failed (transportErrorToMcp err)

def gdbVersion : Handler Response := do
  let cursor ← eventCursor
  match ← submit (.new "gdb-version") with
  | .error err => return .failed (transportErrorToMcp err)
  | .ok outcome =>
      let atReturn ← journal
      return .payload (Framewalk.gdbVersion cursor outcome atReturn) (isError outcome)

section Selecting

variable (formatters : Formatters)

def downgradeNonStopAndRetry (originalMsg : String) (rebuild : MiCommand) :
    Handler (Except McpError CommandOutcome) := do
  recordSyntheticLog ("warning: remote rejected non-stop (" ++ originalMsg ++
    "); downgrading to all-stop and retrying -target-select")
  match ← submit gdbSetNonStopOff with
  | .ok other =>
      if other.isSuccess then
        match ← submit rebuild with
        | .ok outcome => return .ok outcome
        | .error err => return .error (transportErrorToMcp err)
      else
        recordSyntheticLog ("warning: `-gdb-set non-stop off` returned " ++
          formatters.debugOutcome other ++ "; surfacing original target-select error")
        return .ok (.error originalMsg none)
  | .error err =>
      recordSyntheticLog ("warning: `-gdb-set non-stop off` failed (" ++ err.toString ++
        "); surfacing original target-select error")
      return .ok (.error originalMsg none)

def settleTargetSelect (rebuild : MiCommand) :
    CommandOutcome → Handler (Except McpError CommandOutcome)
  | .error msg code =>
      if isNonStopMismatch msg then downgradeNonStopAndRetry formatters msg rebuild
      else return .ok (.error msg code)
  | outcome => return .ok outcome

def rememberSuccessfulTargetSelectCommand (command : MiCommand) (outcome : CommandOutcome) :
    Handler Unit :=
  if !outcome.isSuccess then return ()
  else if toAsciiLowercaseText command.operation != toAsciiLowercaseText "target-select" then
    return ()
  else storing (some (encodeMiCommand command))

def performTargetSelect (transportName parameters : String) :
    Handler (Except McpError CommandOutcome) := do
  let rebuild := targetSelect transportName parameters
  match ← submit rebuild with
  | .error err => return .error (transportErrorToMcp err)
  | .ok initial =>
      match ← settleTargetSelect formatters rebuild initial with
      | .error err => return .error err
      | .ok outcome =>
          rememberSuccessfulTargetSelectCommand rebuild outcome
          if outcome.isSuccess && isRemoteTargetTransport transportName then
            forking .vmlinuxProbe
            return .ok outcome
          else return .ok outcome

def reconnectTarget : Handler Response := do
  match ← loading with
  | none =>
      return .failed (.invalidParams
        "no previous successful -target-select command is available to reconnect")
  | some selection =>
      match ← submit (.new "target-disconnect") with
      | .error err => return .failed (transportErrorToMcp err)
      | .ok disconnect =>
          match ← submitRaw selection with
          | .error err => return .failed (transportErrorToMcp err)
          | .ok reconnect =>
              rememberSuccessfulRawTargetSelect selection reconnect
              return .reconnected disconnect reconnect

/-- The transport and its parameters, split at the first colon. -/
def parseConnectSpec (spec : String) : Except String (String × String) :=
  let debug := formatters.debugText spec
  match spec.toList.span (· != ':') with
  | (_, []) =>
      .error ("expected `<transport>:<parameters>` (e.g. `remote:localhost:1234`), got " ++ debug)
  | (transportName, _ :: parameters) =>
      let transportName := trim transportName
      let parameters := trim parameters
      if transportName.isEmpty then .error ("transport name is empty in " ++ debug)
      else if parameters.isEmpty then .error ("transport parameters are empty in " ++ debug)
      else .ok (String.ofList transportName, String.ofList parameters)

def connectStartupTarget (spec : String) : Handler (Except String Unit) := do
  match parseConnectSpec formatters spec with
  | .error message => return .error message
  | .ok (transportName, parameters) =>
      let line := "`-target-select " ++ transportName ++ " " ++ parameters ++ "`"
      match ← performTargetSelect formatters transportName parameters with
      | .error err => return .error (line ++ " failed: " ++ formatters.displayMcpError err)
      | .ok (.done _) | .ok (.connected _) => return .ok ()
      | .ok (.error msg _) => return .error ("gdb rejected " ++ line ++ ": " ++ msg)
      | .ok other =>
          return .error ("unexpected outcome from " ++ line ++ ": " ++
            formatters.debugOutcome other)

end Selecting

mutual

def valueHasNonEmptyList : Value → Bool
  | .const _ | .list .empty => false
  | .tuple pairs => resultsHaveNonEmptyList pairs
  | .list (.values items) => !items.isEmpty || valuesHaveNonEmptyList items
  | .list (.results pairs) => !pairs.isEmpty || resultsHaveNonEmptyList pairs

def valuesHaveNonEmptyList : List Value → Bool
  | [] => false
  | value :: rest => valueHasNonEmptyList value || valuesHaveNonEmptyList rest

def resultsHaveNonEmptyList : List (String × Value) → Bool
  | [] => false
  | (_, value) :: rest => valueHasNonEmptyList value || resultsHaveNonEmptyList rest

end

def vmlinuxProbeDetected (results : Results) : Bool :=
  results.any fun (name, value) => name == "symbols" && valueHasNonEmptyList value

def probeCommand : MiCommand :=
  (MiCommand.new "symbol-info-variables").optionWith "name" "linux_banner"

def vmlinuxProbe : Handler Unit := do
  match ← submitWithin (.fromSecs 2) (structured probeCommand) with
  | some (.ok (.done results)) | some (.ok (.connected results)) =>
      if vmlinuxProbeDetected results then
        recordSyntheticLog ("info: vmlinux-shaped target detected — consider " ++
          "`source scripts/gdb/vmlinux-gdb.py`")
      else return ()
  | _ => return ()

/-- Go on with a value, or raise the error. -/
def orRaise {α : Type} (first : Handler (Except String α)) (next : α → Handler Response) :
    Handler Response := do
  match ← first with
  | .ok value => next value
  | .error message => return .raised message

def budgetExhausted : String :=
  "scheme_eval budget exhausted; increase --scheme-eval-timeout-secs"

/-- What is left of the budget, and an hour where there is none. -/
def remainingEvalBudget : EvalDeadline → Handler (Except String Duration)
  | none => return .ok (.fromSecs 3600)
  | some deadline => do
      let now ← timing
      if deadline - now = 0 then return .error budgetExhausted
      else return .ok (deadline - now)

/-- A time-out that nobody asked for is cut to what is left. -/
def clampToEvalBudget (defaultTimeout : Duration) :
    EvalDeadline → Handler (Except String Duration)
  | none => return .ok defaultTimeout
  | some deadline => do
      let now ← timing
      if deadline - now = 0 then return .error budgetExhausted
      else return .ok (min defaultTimeout (deadline - now))

/-- Only a deadline that has passed is a reason to refuse. -/
def Exhausted (deadline : EvalDeadline) (result : Except String Duration) : Prop :=
  ∀ message, result = .error message → deadline.isSome = true ∧ message = budgetExhausted

theorem remainingEvalBudget_quiet (deadline : EvalDeadline) :
    (remainingEvalBudget deadline).Quiet (Exhausted deadline) := by
  cases deadline with
  | none => rintro _ ⟨⟩
  | some deadline =>
      simp only [remainingEvalBudget, quiet_do_iff, quiet_timing_iff]
      intro now
      split_ifs
      · rintro _ ⟨⟩
        exact ⟨rfl, rfl⟩
      · rintro _ ⟨⟩

theorem clampToEvalBudget_quiet (timeout : Duration) (deadline : EvalDeadline) :
    (clampToEvalBudget timeout deadline).Quiet (Exhausted deadline) := by
  cases deadline with
  | none => rintro _ ⟨⟩
  | some deadline =>
      simp only [clampToEvalBudget, quiet_do_iff, quiet_timing_iff]
      intro now
      split_ifs
      · rintro _ ⟨⟩
        exact ⟨rfl, rfl⟩
      · rintro _ ⟨⟩

def budgetExceeded (requested remaining : Duration) : String :=
  "wait timeout of " ++ toString requested.asSecs ++
    "s exceeds remaining scheme_eval budget of " ++ toString remaining.asSecs ++
    "s; increase --scheme-eval-timeout-secs or reduce the wait"

/-- A time-out that was asked for must fit into what is left. -/
def checkEvalBudget (requested : Duration) : EvalDeadline → Handler (Except String Duration)
  | none => return .ok requested
  | some deadline => do
      let now ← timing
      if deadline - now < requested then return .error (budgetExceeded requested (deadline - now))
      else return .ok requested

def notPositive (seconds : Int) : String :=
  "timeout must be a positive integer, got " ++ toString seconds

def timeoutFromSeconds (seconds : Int) : Except String Duration :=
  if 0 < seconds then .ok (.fromSecs seconds.toNat) else .error (notPositive seconds)

def waitTimeout (defaultTimeout : Duration) (deadline : EvalDeadline) :
    WaitTimeout → Handler (Except String Duration)
  | .default => clampToEvalBudget defaultTimeout deadline
  | .seconds seconds =>
      match timeoutFromSeconds seconds with
      | .ok timeout => checkEvalBudget timeout deadline
      | .error message => return .error message

/-- Why a time-out is refused, and the text that says so. -/
inductive RefusesWait : EvalDeadline → WaitTimeout → String → Prop
  | exhausted {deadline : Instant} : RefusesWait (some deadline) .default budgetExhausted
  | exceeded {deadline : Instant} {seconds : Int} {remaining : Duration} :
      remaining < .fromSecs seconds.toNat →
      RefusesWait (some deadline) (.seconds seconds)
        (budgetExceeded (.fromSecs seconds.toNat) remaining)
  | notPositive {deadline : EvalDeadline} {seconds : Int} : seconds ≤ 0 →
      RefusesWait deadline (.seconds seconds) (notPositive seconds)

theorem waitTimeout_quiet (defaultTimeout : Duration) (deadline : EvalDeadline)
    (timeout : WaitTimeout) :
    (waitTimeout defaultTimeout deadline timeout).Quiet fun result =>
      ∀ message, result = .error message → RefusesWait deadline timeout message := by
  cases timeout with
  | default =>
      refine (clampToEvalBudget_quiet defaultTimeout deadline).weaken ?_
      intro result exhausted message isError
      obtain ⟨isSome, rfl⟩ := exhausted message isError
      cases deadline with
      | none => cases isSome
      | some deadline => exact .exhausted
  | seconds seconds =>
      simp only [waitTimeout, timeoutFromSeconds]
      by_cases positive : 0 < seconds
      · rw [if_pos positive]
        cases deadline with
        | none => rintro _ ⟨⟩
        | some deadline =>
            simp only [checkEvalBudget, quiet_do_iff, quiet_timing_iff]
            intro now
            split_ifs with exceeds
            · rintro _ ⟨⟩
              exact .exceeded exceeds
            · rintro _ ⟨⟩
      · rw [if_neg positive]
        rintro _ ⟨⟩
        exact .notPositive (Int.not_lt.mp positive)

def transportErrorMessage (err : TransportError) : String :=
  "transport error: " ++ err.toString

def formatDuration (duration : Duration) : String :=
  if 0 < duration.asSecs then toString duration.asSecs ++ "s"
  else toString duration.asMillis ++ "ms"

def timeoutError (label : String) (timeout : Duration) (suffix : String) : String :=
  label ++ " timed out after " ++ formatDuration timeout ++ " (" ++ suffix ++ ")"

def lapseMessage (label : String) (timeout : Duration) : Lapse → String
  | .timedOut => timeoutError label timeout "GDB may still complete the command later"
  | .dropped => "transport task dropped reply channel"

/-- A task of its own submits the request and is aborted when the time has run out. -/
def submitRequestWithTimeout (request : SubmitRequest) (timeout : Duration) (label : String) :
    Handler (Except String CommandOutcome) := do
  match ← askingWithin ⟨timeout, true⟩ (.submit request) with
  | .ok result => return (submitResult result).mapError transportErrorMessage
  | .error lapse => return .error (lapseMessage label timeout lapse)

def submitRawWithTimeout (rawLine : String) (timeout : Duration) (label : String) :
    Handler (Except String CommandOutcome) :=
  submitRequestWithTimeout (raw rawLine) timeout label

def submitWithTimeout (command : MiCommand) (timeout : Duration) (label : String) :
    Handler (Except String CommandOutcome) :=
  submitRequestWithTimeout (structured command) timeout label

def outcomeResponse : CommandOutcome → Response
  | .error msg _ => .raised ("GDB error: " ++ msg)
  | .exit => .raised "GDB session exited"
  | outcome => .outcome outcome

def mi (allowShell : Bool) (deadline : EvalDeadline) (command : String) : Handler Response :=
  match validateRawMiCommand command allowShell with
  | .error rejection => return .raised ("mi command rejected: " ++ rejection.reason)
  | .ok () =>
      orRaise (remainingEvalBudget deadline) fun timeout =>
        orRaise (submitRawWithTimeout command timeout "mi command") fun outcome => do
          rememberSuccessfulRawTargetSelect command outcome
          return outcomeResponse outcome

def schemeGdbVersion (deadline : EvalDeadline) : Handler Response := do
  let beforeSeq ← eventCursor
  orRaise (remainingEvalBudget deadline) fun timeout =>
    orRaise (submitWithTimeout (.new "gdb-version") timeout "gdb-version") fun outcome =>
      match outcome with
      | .done _ | .connected _ => do
          let atReturn ← journal
          let version := (collectConsoleTextSince atReturn beforeSeq).getD ""
          return .outcome (.done [("version", .const version)])
      | outcome => return outcomeResponse outcome

/-- The error of a wait that ran out of its time. -/
def timeoutErrorWithWarnings (label : String) (afterSeq : Nat) (timeout : Duration) :
    Handler Response := do
  let observed ← observedState
  let atWarnings ← journal
  let warnings := collectRecentWarnings atWarnings afterSeq
  let message := label ++ " timed out after " ++ toString timeout.asSecs ++ "s (" ++
    timeoutContextMessage observed ++ ")"
  if warnings.isEmpty then return .raised message
  else
    return .raised (message ++ "\nRecent GDB warnings:" ++
      String.join (warnings.map ("\n  " ++ ·)))

theorem timeoutErrorWithWarnings_quiet (label : String) (afterSeq : Nat) (timeout : Duration) :
    (timeoutErrorWithWarnings label afterSeq timeout).Quiet fun response =>
      ∃ message, response = .raised message := by
  simp only [timeoutErrorWithWarnings, journal, quiet_do_iff, quiet_looking_iff]
  refine observedState_quiet.weaken ?_
  intro observed _ atWarnings
  split_ifs
  · exact ⟨_, rfl⟩
  · exact ⟨_, rfl⟩

/-- Wait for a stop, and report a wait that times out. -/
def awaitStop (wait : Call) (label : String) (afterSeq : Nat) (timeout : Duration) :
    Handler Response := do
  match ← asking wait with
  | .stop entry _ => return .stopped entry
  | .failed err => return .raised (transportErrorMessage err)
  | _ => timeoutErrorWithWarnings label afterSeq timeout

def waitForStopWithTimeout (timeout : Duration) : Handler Response := do
  let beforeSeq ← eventCursor
  awaitStop .currentOrNextStop "wait-for-stop" beforeSeq timeout

/-- The trigger may take as long as the wait; what is left of the budget is read
again before each of them. -/
def submitAndAwaitStop (rawLine : String) (timeout : Duration) (deadline : EvalDeadline) :
    Handler Response := do
  let afterSeq ← eventCursor
  orRaise (clampToEvalBudget timeout deadline) fun submitTimeout =>
    orRaise (submitRawWithTimeout rawLine submitTimeout "trigger command") fun outcome =>
      match outcome with
      | .running =>
          orRaise (clampToEvalBudget timeout deadline) fun waitTimeout =>
            awaitStop (.nextStopAfter afterSeq) "trigger-and-wait" afterSeq waitTimeout
      | outcome => return outcomeResponse outcome

def untilCommand (location : String) : String :=
  "-exec-until " ++ miQuoteParam location

def schemeDrainEvents : Option Int → Handler Response
  | none => do return .drained (← drain 0)
  | some afterSeq =>
      if afterSeq < 0 then
        return .raised ("drain-events: after-seq must be non-negative, got " ++ toString afterSeq)
      else do return .drained (← drain afterSeq.toNat)

def bootstrapCommands (nonStop : Bool) : List String :=
  if nonStop then
    ["-gdb-set mi-async on", "-gdb-set non-stop on", "-gdb-set pagination off",
      "-gdb-set confirm off"]
  else ["-gdb-set mi-async on", "-gdb-set pagination off", "-gdb-set confirm off"]

def bootstrapTimedOut (command : String) : TransportError :=
  .bootstrap command "timed out waiting for bootstrap reply"

/-- Every command must succeed within two seconds. -/
def bootstrapSession (formatters : Formatters) : List String →
    Handler (Except TransportError Unit)
  | [] => return .ok ()
  | command :: commands => do
      match ← submitWithin (.fromSecs 2) (raw command) with
      | none => return .error (bootstrapTimedOut command)
      | some (.ok (.done _)) | some (.ok (.connected _)) => bootstrapSession formatters commands
      | some (.ok (.error msg _)) => return .error (.bootstrap command msg)
      | some (.ok other) =>
          return .error (.bootstrap command ("unexpected outcome: " ++
            formatters.debugOutcome other))
      | some (.error err) => return .error err

def shutdown : Handler Unit := do
  let _ ← submitWithin (.fromSecs 2) (structured (.new "gdb-exit"))
  return ()

section Jobs

variable (config : Config) (formatters : Formatters)

def tool : ToolCall → Handler Response
  | .structured tool => submitAsToolResult tool.command
  | .gdbVersion => gdbVersion
  | .interrupt | .interruptTarget =>
      submitValidatedRawCommandAsToolResult config.allowShell "-exec-interrupt --all"
  | .targetState => do return .targetState (← observedState)
  | .drainEvents cursor => do return .drained (← drain (cursor.getD 0))
  | .targetSelect transportName parameters => do
      match ← performTargetSelect formatters transportName parameters with
      | .ok outcome => return .outcome outcome
      | .error err => return .failed err
  | .reconnectTarget => reconnectTarget
  | .miRawCommand command => submitValidatedRawCommandAsToolResult config.allowShell command

def scheme (deadline : EvalDeadline) : SchemePrimitive → Handler Response
  | .mi command => mi config.allowShell deadline command
  | .gdbVersion => schemeGdbVersion deadline
  | .waitForStop timeout =>
      orRaise (waitTimeout config.waitTimeout deadline timeout) waitForStopWithTimeout
  | .triggerAndWait trigger timeout =>
      orRaise (waitTimeout config.waitTimeout deadline timeout) fun timeout =>
        submitAndAwaitStop trigger.command timeout deadline
  | .untilAndWait location timeout =>
      orRaise (waitTimeout config.waitTimeout deadline timeout) fun timeout =>
        submitAndAwaitStop (untilCommand location) timeout deadline
  | .drainEvents afterSeq => schemeDrainEvents afterSeq

def code : Job → Handler Response
  | .bootstrap => do
      match ← bootstrapSession formatters (bootstrapCommands config.nonStop) with
      | .ok () => return .finished
      | .error err => return .raised err.toString
  | .connectStartupTarget spec => do
      match ← connectStartupTarget formatters spec with
      | .ok () => return .finished
      | .error message => return .raised message
  | .tool call => tool config formatters call
  | .scheme deadline primitive => scheme config deadline primitive
  | .vmlinuxProbe => do
      vmlinuxProbe
      return .finished
  | .shutdown => do
      shutdown
      return .finished

end Jobs

end Handlers

end Framewalk
