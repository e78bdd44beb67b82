import Framewalk.CommandTexts
import Framewalk.RawGuard
import Framewalk.Transport

/-!
# Selecting a target

A target is selected by one command.  If the remote rejects non-stop mode, the
mode is switched off and the command is sent once more.  The selection that
succeeded is remembered as a line, and reconnecting sends that line again.
-/

namespace Framewalk

open RawGuard (toAsciiLowercase trim rawMiOperation)
open SubmitRequest (structured raw)

def ProtocolError.toString : ProtocolError → String
  | .invalidCommand reason => "invalid command submission: " ++ reason
  | .bufferOverflow => "framer buffer exceeded the configured limit"
  | .invariantViolation reason => "protocol invariant violated: " ++ reason

def TransportError.toString : TransportError → String
  | .spawn error => "failed to spawn gdb: " ++ error
  | .pipeMissing pipe =>
      "expected stdio pipe '" ++ pipe ++ "' was not available on the spawned gdb child"
  | .io error => "transport I/O error: " ++ error
  | .protocol error => "protocol error: " ++ error.toString
  | .exited => "gdb exited before the operation completed"
  | .bootstrap command message =>
      "gdb bootstrap command `" ++ command ++ "` failed: " ++ message
  | .bufferOverflow pendingBytes limit =>
      "framer buffer overflow: " ++ pendingBytes.repr ++ " bytes pending (limit: " ++
        limit.repr ++ ")"

inductive McpError where
  | internalError (message : String)
  | invalidParams (message : String)

def transportErrorToMcp : TransportError → McpError
  | .exited =>
      .internalError "gdb exited before the operation completed — restart the session"
  | .bootstrap command message =>
      .internalError ("gdb bootstrap failed for `" ++ command ++ "`: " ++ message)
  | .bufferOverflow pendingBytes limit =>
      .internalError ("framer buffer overflow (" ++ pendingBytes.repr ++ " bytes, limit " ++
        limit.repr ++ ") — gdb may be producing malformed output")
  | .spawn error => .internalError ("failed to spawn gdb: " ++ error)
  | .pipeMissing pipe => .internalError ("gdb subprocess missing " ++ pipe ++ " pipe")
  | .io error => .internalError ("I/O error communicating with gdb: " ++ error)
  | .protocol error => .invalidParams ("protocol error: " ++ error.toString)

/-- What a selection uses of the transport: the requests submitted so far, the
synthetic logs, the remembered selection and how many probes were started. -/
structure TransportHandle where
  submitted : List SubmitRequest
  logs : List String
  lastTargetSelectionCommand : Option String
  probes : Nat

/-- What becomes of the last of the requests submitted so far. -/
abbrev Replies := List SubmitRequest → Except TransportError CommandOutcome

namespace TransportHandle

variable (handle : TransportHandle)

def request (replies : Replies) (request : SubmitRequest) :
    Except TransportError CommandOutcome × TransportHandle :=
  (replies (handle.submitted ++ [request]),
    { handle with submitted := handle.submitted ++ [request] })

def submit (replies : Replies) (command : MiCommand) :
    Except TransportError CommandOutcome × TransportHandle :=
  handle.request replies (structured command)

def submitRaw (replies : Replies) (rawLine : String) :
    Except TransportError CommandOutcome × TransportHandle :=
  handle.request replies (raw rawLine)

def recordSyntheticLog (text : String) : TransportHandle :=
  { handle with logs := handle.logs ++ [text] }

def rememberTargetSelectionCommand (rawCommand : String) : TransportHandle :=
  { handle with lastTargetSelectionCommand := some rawCommand }

def spawnVmlinuxProbe : TransportHandle :=
  { handle with probes := handle.probes + 1 }

end TransportHandle

/-- Done or connected. -/
def CommandOutcome.isSuccess : CommandOutcome → Bool
  | .done _ | .connected _ => true
  | .running | .error _ _ | .exit => false

def toAsciiLowercaseText (text : String) : List Char :=
  text.toList.map toAsciiLowercase

def isNonStopMismatch (msg : String) : Bool :=
  let haystack := toAsciiLowercaseText msg
  let contains (needle : String) : Bool := decide (needle.toList <:+: haystack)
  if !contains "non-stop" then false
  else contains "does not support" || contains "not supported" || contains "cannot enable"

def isRemoteTargetTransport (transport : String) : Bool :=
  let name := (trim transport.toList).map toAsciiLowercase
  name == "remote".toList || name == "extended-remote".toList || name == "qnx".toList

def rememberSuccessfulTargetSelectCommand (handle : TransportHandle) (command : MiCommand)
    (outcome : CommandOutcome) : TransportHandle :=
  if !outcome.isSuccess then handle
  else if toAsciiLowercaseText command.operation != toAsciiLowercaseText "target-select" then
    handle
  else handle.rememberTargetSelectionCommand (encodeMiCommand command)

def rememberSuccessfulRawTargetSelect (handle : TransportHandle) (rawCommand : String)
    (outcome : CommandOutcome) : TransportHandle :=
  if !outcome.isSuccess then handle
  else
    match rawMiOperation rawCommand with
    | .ok operation =>
        if toAsciiLowercaseText operation = toAsciiLowercaseText "target-select" then
          handle.rememberTargetSelectionCommand (String.ofList (trim rawCommand.toList))
        else handle
    | .error _ => handle

def gdbSetNonStopOff : MiCommand :=
  ((MiCommand.new "gdb-set").parameter "non-stop").parameter "off"

def targetSelect (transportName parameters : String) : MiCommand :=
  ((MiCommand.new "target-select").parameter transportName).parameter parameters

section Selecting

variable (replies : Replies) (debug : CommandOutcome → String)

/-- Switch non-stop off and send the command again; the logs show outcomes by
their debug text. -/
def downgradeNonStopAndRetry (handle : TransportHandle) (originalMsg : String)
    (rebuild : MiCommand) : Except McpError CommandOutcome × TransportHandle :=
  let handle := handle.recordSyntheticLog ("warning: remote rejected non-stop (" ++
    originalMsg ++ "); downgrading to all-stop and retrying -target-select")
  match handle.submit replies gdbSetNonStopOff with
  | (.ok other, handle) =>
      if other.isSuccess then
        match handle.submit replies rebuild with
        | (.ok outcome, handle) => (.ok outcome, handle)
        | (.error err, handle) => (.error (transportErrorToMcp err), handle)
      else
        (.ok (.error originalMsg none), handle.recordSyntheticLog (
          "warning: `-gdb-set non-stop off` returned " ++ debug other ++
            "; surfacing original target-select error"))
  | (.error err, handle) =>
      (.ok (.error originalMsg none), handle.recordSyntheticLog (
        "warning: `-gdb-set non-stop off` failed (" ++ err.toString ++
          "); surfacing original target-select error"))

/-- The outcome that is acted on after the first reply. -/
def settleTargetSelect (handle : TransportHandle) (rebuild : MiCommand) :
    CommandOutcome → Except McpError CommandOutcome × TransportHandle
  | .error msg code =>
      if isNonStopMismatch msg then downgradeNonStopAndRetry replies debug handle msg rebuild
      else (.ok (.error msg code), handle)
  | .done results => (.ok (.done results), handle)
  | .connected results => (.ok (.connected results), handle)
  | .running => (.ok .running, handle)
  | .exit => (.ok .exit, handle)

def performTargetSelect (handle : TransportHandle) (transportName parameters : String) :
    Except McpError CommandOutcome × TransportHandle :=
  let rebuild := targetSelect transportName parameters
  match handle.submit replies rebuild with
  | (.error err, handle) => (.error (transportErrorToMcp err), handle)
  | (.ok initial, handle) =>
      match settleTargetSelect replies debug handle rebuild initial with
      | (.error err, handle) => (.error err, handle)
      | (.ok outcome, handle) =>
          let handle := rememberSuccessfulTargetSelectCommand handle rebuild outcome
          (.ok outcome, if outcome.isSuccess && isRemoteTargetTransport transportName then
            handle.spawnVmlinuxProbe else handle)

/-- Disconnect and send the remembered line; the outcomes of both. -/
def reconnectTarget (handle : TransportHandle) :
    Except McpError (CommandOutcome × CommandOutcome) × TransportHandle :=
  match handle.lastTargetSelectionCommand with
  | none =>
      (.error (.invalidParams
        "no previous successful -target-select command is available to reconnect"), handle)
  | some selection =>
      match handle.submit replies (MiCommand.new "target-disconnect") with
      | (.error err, handle) => (.error (transportErrorToMcp err), handle)
      | (.ok disconnect, handle) =>
          match handle.submitRaw replies selection with
          | (.error err, handle) => (.error (transportErrorToMcp err), handle)
          | (.ok reconnect, handle) =>
              (.ok (disconnect, reconnect),
                rememberSuccessfulRawTargetSelect handle selection reconnect)

end Selecting

/-- A reply that lets the retry go on. -/
def replySucceeds : Except TransportError CommandOutcome → Bool
  | .ok outcome => outcome.isSuccess
  | .error _ => false

/-- The commands that a selection sends after what was submitted before, and
what it returns, by the replies it gets. -/
inductive Selects (replies : Replies) (submitted : List SubmitRequest) (command : MiCommand) :
    List MiCommand → Except McpError CommandOutcome → Prop
  | refused {err : TransportError} : replies (submitted ++ [structured command]) = .error err →
      Selects replies submitted command [command] (.error (transportErrorToMcp err))
  | answered {outcome : CommandOutcome} :
      replies (submitted ++ [structured command]) = .ok outcome →
      (∀ msg code, outcome = .error msg code → isNonStopMismatch msg = false) →
      Selects replies submitted command [command] (.ok outcome)
  | kept {msg : String} {code : Option String} :
      replies (submitted ++ [structured command]) = .ok (.error msg code) →
      isNonStopMismatch msg = true →
      replySucceeds
        (replies (submitted ++ [structured command, structured gdbSetNonStopOff])) = false →
      Selects replies submitted command [command, gdbSetNonStopOff] (.ok (.error msg none))
  | lost {msg : String} {code : Option String} {err : TransportError} :
      replies (submitted ++ [structured command]) = .ok (.error msg code) →
      isNonStopMismatch msg = true →
      replySucceeds
        (replies (submitted ++ [structured command, structured gdbSetNonStopOff])) = true →
      replies (submitted ++
        [structured command, structured gdbSetNonStopOff, structured command]) = .error err →
      Selects replies submitted command [command, gdbSetNonStopOff, command]
        (.error (transportErrorToMcp err))
  | retried {msg : String} {code : Option String} {outcome : CommandOutcome} :
      replies (submitted ++ [structured command]) = .ok (.error msg code) →
      isNonStopMismatch msg = true →
      replySucceeds
        (replies (submitted ++ [structured command, structured gdbSetNonStopOff])) = true →
      replies (submitted ++
        [structured command, structured gdbSetNonStopOff, structured command]) = .ok outcome →
      Selects replies submitted command [command, gdbSetNonStopOff, command] (.ok outcome)

section Selecting

variable (replies : Replies) (debug : CommandOutcome → String)

theorem downgradeNonStopAndRetry_selects {submitted : List SubmitRequest} {command : MiCommand}
    {msg : String} {code : Option String}
    (first : replies (submitted ++ [structured command]) = .ok (.error msg code))
    (mismatch : isNonStopMismatch msg = true) (handle : TransportHandle)
    (isSubmitted : handle.submitted = submitted ++ [structured command]) :
    let ran := downgradeNonStopAndRetry replies debug handle msg command
    ∃ sent, ran.2.submitted = submitted ++ sent.map structured ∧
      ran.2.lastTargetSelectionCommand = handle.lastTargetSelectionCommand ∧
      Selects replies submitted command sent ran.1 := by
  simp only [downgradeNonStopAndRetry, TransportHandle.submit, TransportHandle.request,
    TransportHandle.recordSyntheticLog,
    isSubmitted, List.append_assoc, List.cons_append, List.nil_append]
  cases downgraded : replies (submitted ++
      [structured command, structured gdbSetNonStopOff]) with
  | error err => exact ⟨_, rfl, rfl, .kept first mismatch (by rw [downgraded]; rfl)⟩
  | ok other =>
      have reply : replySucceeds (replies (submitted ++
      [structured command, structured gdbSetNonStopOff])) =
          other.isSuccess := by
        rw [downgraded]
        rfl
      cases succeeds : other.isSuccess with
      | false =>
          simp only [succeeds, Bool.false_eq_true, if_false]
          exact ⟨_, rfl, trivial, .kept first mismatch (reply.trans succeeds)⟩
      | true =>
          simp only [succeeds, if_true, List.append_assoc, List.cons_append, List.nil_append]
          cases retried : replies (submitted ++
              [structured command, structured gdbSetNonStopOff, structured command]) with
          | error err =>
              exact ⟨_, rfl, rfl, .lost first mismatch (reply.trans succeeds) retried⟩
          | ok outcome =>
              exact ⟨_, rfl, rfl, .retried first mismatch (reply.trans succeeds) retried⟩

/-- The line that is remembered once the selection has returned. -/
def selectionAfter (command : MiCommand) (result : Except McpError CommandOutcome)
    (previous : Option String) : Option String :=
  match result with
  | .ok outcome => if outcome.isSuccess then some (encodeMiCommand command) else previous
  | .error _ => previous

theorem settleTargetSelect_selects {submitted : List SubmitRequest} {command : MiCommand}
    {initial : CommandOutcome} (first : replies (submitted ++ [structured command]) = .ok initial)
    (handle : TransportHandle)
    (isSubmitted : handle.submitted = submitted ++ [structured command]) :
    let ran := settleTargetSelect replies debug handle command initial
    ∃ sent, ran.2.submitted = submitted ++ sent.map structured ∧
      ran.2.lastTargetSelectionCommand = handle.lastTargetSelectionCommand ∧
      Selects replies submitted command sent ran.1 := by
  cases initial with
  | error msg code =>
      simp only [settleTargetSelect]
      by_cases mismatch : isNonStopMismatch msg = true
      · rw [if_pos mismatch]
        exact downgradeNonStopAndRetry_selects replies debug first mismatch handle isSubmitted
      · rw [if_neg mismatch]
        refine ⟨[command], isSubmitted, rfl, .answered first ?_⟩
        rintro _ _ ⟨⟩
        exact eq_false_of_ne_true mismatch
  | done results => exact ⟨[command], isSubmitted, rfl, .answered first nofun⟩
  | connected results => exact ⟨[command], isSubmitted, rfl, .answered first nofun⟩
  | running => exact ⟨[command], isSubmitted, rfl, .answered first nofun⟩
  | exit => exact ⟨[command], isSubmitted, rfl, .answered first nofun⟩

theorem rememberSuccessfulTargetSelectCommand_targetSelect (handle : TransportHandle)
    (transportName parameters : String) (outcome : CommandOutcome) :
    rememberSuccessfulTargetSelectCommand handle (targetSelect transportName parameters) outcome =
      if outcome.isSuccess then
        handle.rememberTargetSelectionCommand
          (encodeMiCommand (targetSelect transportName parameters))
      else handle := by
  unfold rememberSuccessfulTargetSelectCommand
  cases outcome.isSuccess with
  | false => rfl
  | true =>
      rw [if_neg (by decide), if_neg, if_pos rfl]
      simp [targetSelect, MiCommand.new, MiCommand.parameter]

theorem performTargetSelect_selects (handle : TransportHandle)
    (transportName parameters : String) :
    let command := targetSelect transportName parameters
    let ran := performTargetSelect replies debug handle transportName parameters
    ∃ sent, ran.2.submitted = handle.submitted ++ sent.map structured ∧
      ran.2.lastTargetSelectionCommand =
        selectionAfter command ran.1 handle.lastTargetSelectionCommand ∧
      Selects replies handle.submitted command sent ran.1 := by
  simp only [performTargetSelect, TransportHandle.submit, TransportHandle.request]
  cases first : replies (handle.submitted ++
      [structured (targetSelect transportName parameters)]) with
  | error err => exact ⟨_, rfl, rfl, .refused first⟩
  | ok initial =>
      obtain ⟨sent, isSent, isMemo, selects⟩ := settleTargetSelect_selects replies debug first
        { handle with
          submitted := handle.submitted ++
            [structured (targetSelect transportName parameters)] } rfl
      simp only at isSent isMemo selects ⊢
      split
      · next err after settled =>
          rw [settled] at isSent isMemo selects
          exact ⟨sent, isSent, isMemo, selects⟩
      · next outcome after settled =>
          rw [settled] at isSent isMemo selects
          rw [rememberSuccessfulTargetSelectCommand_targetSelect]
          refine ⟨sent, ?_, ?_, selects⟩
          · split_ifs <;> exact isSent
          · cases succeeds : outcome.isSuccess with
            | false => simpa [selectionAfter, succeeds] using isMemo
            | true =>
                simp only [selectionAfter, succeeds, if_true, Bool.true_and]
                split_ifs <;> rfl

/-- If non-stop cannot be switched off, the first error comes back without its
code. -/
theorem performTargetSelect_of_failed_downgrade (handle : TransportHandle)
    {transportName parameters msg : String} {code : Option String}
    (first : replies (handle.submitted ++ [structured (targetSelect transportName parameters)]) =
      .ok (.error msg code))
    (mismatch : isNonStopMismatch msg = true)
    (fails : replySucceeds (replies (handle.submitted ++
      [structured (targetSelect transportName parameters), structured gdbSetNonStopOff])) =
        false) :
    (performTargetSelect replies debug handle transportName parameters).1 =
      .ok (.error msg none) := by
  obtain ⟨sent, _, _, selects⟩ :=
    performTargetSelect_selects replies debug handle transportName parameters
  generalize (performTargetSelect replies debug handle transportName parameters).1 = result
    at selects ⊢
  cases selects with
  | refused refused =>
      rw [first] at refused
      cases refused
  | answered answered noMismatch =>
      rw [first, Except.ok.injEq] at answered
      rw [noMismatch msg code answered.symm] at mismatch
      cases mismatch
  | kept again _ _ =>
      rw [first] at again
      cases again
      rfl
  | lost _ _ succeeds _ | retried _ _ succeeds _ =>
      rw [fails] at succeeds
      cases succeeds

/-- The error that comes back is the first one exactly if that had no code. -/
theorem failed_downgrade_keeps_error_iff (handle : TransportHandle)
    (transportName parameters msg : String) (code : Option String)
    (first : replies (handle.submitted ++ [structured (targetSelect transportName parameters)]) =
      .ok (.error msg code))
    (mismatch : isNonStopMismatch msg = true)
    (fails : replySucceeds (replies (handle.submitted ++
      [structured (targetSelect transportName parameters), structured gdbSetNonStopOff])) =
        false) :
    (performTargetSelect replies debug handle transportName parameters).1 =
      .ok (.error msg code) ↔ code = none := by
  rw [performTargetSelect_of_failed_downgrade replies debug handle first mismatch fails]
  simp [eq_comm]

end Selecting

/-- A transport before its first command. -/
def TransportHandle.unused : TransportHandle :=
  ⟨[], [], none, 0⟩

/-- A remote that rejects non-stop with some error code, and rejects whatever
follows. -/
def rejectsNonStop (code : Option String) : Replies := fun submitted =>
  match submitted with
  | [_] => .ok (.error "Target does not support non-stop mode" code)
  | _ => .ok (.error "Cannot change this setting while the inferior is running." none)

theorem failed_downgrade_keeps_error_remote :
    (performTargetSelect (rejectsNonStop none) (fun _ => "Error") .unused "remote" ":3333").1 =
      .ok (.error "Target does not support non-stop mode" none) :=
  (failed_downgrade_keeps_error_iff (rejectsNonStop none) (fun _ => "Error") .unused "remote"
    ":3333" "Target does not support non-stop mode" none rfl (by decide +kernel) rfl).mpr rfl

/-- An error code is lost. -/
theorem failed_downgrade_loses_code :
    ¬∀ (replies : Replies) (debug : CommandOutcome → String) (handle : TransportHandle)
      (transportName parameters msg : String) (code : Option String),
      replies (handle.submitted ++ [structured (targetSelect transportName parameters)]) =
        .ok (.error msg code) →
      isNonStopMismatch msg = true →
      replySucceeds (replies (handle.submitted ++
        [structured (targetSelect transportName parameters), structured gdbSetNonStopOff])) =
          false →
      (performTargetSelect replies debug handle transportName parameters).1 =
        .ok (.error msg code) := by
  intro keeps
  have mismatch : isNonStopMismatch "Target does not support non-stop mode" = true := by
    decide +kernel
  have kept := keeps (rejectsNonStop (some "undefined-command")) (fun _ => "Error") .unused
    "remote" ":3333" _ _ rfl mismatch rfl
  rw [performTargetSelect_of_failed_downgrade _ _ _ rfl mismatch rfl] at kept
  cases kept

def selectsTarget (command : MiCommand) : Bool :=
  command.operation == "target-select"

def switchesNonStopOff (command : MiCommand) : Bool :=
  command.operation == "gdb-set" && command.parameters == ["non-stop", "off"]

theorem switchesNonStopOff_targetSelect (transportName parameters : String) :
    switchesNonStopOff (targetSelect transportName parameters) = false := by
  simp [switchesNonStopOff, targetSelect, MiCommand.new, MiCommand.parameter]

/-- A remote that rejects non-stop in its first reply. -/
def RejectsNonStop (replies : Replies) (submitted : List SubmitRequest) (command : MiCommand) :
    Prop :=
  ∃ msg code, replies (submitted ++ [structured command]) = .ok (.error msg code) ∧
    isNonStopMismatch msg = true

/-- The commands of one selection. -/
inductive Attempts (command : MiCommand) : List MiCommand → Prop
  | once : Attempts command [command]
  | downgrade : Attempts command [command, gdbSetNonStopOff]
  | retry : Attempts command [command, gdbSetNonStopOff, command]

/-- Only a first reply that rejects non-stop is followed by more commands. -/
theorem Selects.attempts {replies : Replies} {submitted : List SubmitRequest}
    {command : MiCommand} {sent : List MiCommand} {result : Except McpError CommandOutcome}
    (selects : Selects replies submitted command sent result) :
    Attempts command sent ∧ (1 < sent.length → RejectsNonStop replies submitted command) := by
  cases selects with
  | refused _ | answered _ _ => exact ⟨.once, fun longer => absurd longer (by simp)⟩
  | kept first mismatch _ => exact ⟨.downgrade, fun _ => ⟨_, _, first, mismatch⟩⟩
  | lost first mismatch _ _ | retried first mismatch _ _ =>
      exact ⟨.retry, fun _ => ⟨_, _, first, mismatch⟩⟩

namespace Attempts

variable {command : MiCommand} {sent : List MiCommand}

theorem countP_selectsTarget_le (attempts : Attempts command sent) :
    sent.countP selectsTarget ≤ 2 := by
  have notTarget : selectsTarget gdbSetNonStopOff = false := by decide
  cases attempts with
  | once => exact List.countP_le_length.trans (by simp)
  | downgrade => exact List.countP_le_length
  | retry =>
      rw [List.countP_cons, List.countP_cons_of_neg (by simp [notTarget])]
      have := List.countP_le_length (p := selectsTarget) (l := [command])
      split_ifs <;> simp only [List.length_singleton] at this <;> omega

theorem countP_switchesNonStopOff_le (attempts : Attempts command sent)
    (notOff : switchesNonStopOff command = false) : sent.countP switchesNonStopOff ≤ 1 := by
  have isOff : switchesNonStopOff gdbSetNonStopOff = true := by decide
  cases attempts with
  | once | downgrade | retry => simp [notOff, isOff]

theorem index_eq_one (attempts : Attempts command sent)
    (notOff : switchesNonStopOff command = false) {index : Nat} {later : MiCommand}
    (isLater : sent[index]? = some later) (isOff : switchesNonStopOff later = true) :
    index = 1 := by
  have other : later ≠ command := by
    rintro rfl
    rw [notOff] at isOff
    cases isOff
  cases attempts with
  | once | downgrade | retry =>
      match index with
      | 0 => exact absurd (Option.some.inj isLater).symm other
      | 1 => rfl
      | 2 => first | exact absurd (Option.some.inj isLater).symm other | cases isLater
      | _ + 3 => cases isLater

end Attempts

/-- A selection sends its command at most twice and switches non-stop off at most
once, right after a first reply that rejects non-stop.  The memo changes exactly
if the target was selected, and sending its line again sends the same bytes, up
to the token. -/
theorem performTargetSelect_bounded (replies : Replies) (debug : CommandOutcome → String)
    (handle : TransportHandle) (transportName parameters : String) :
    let command := targetSelect transportName parameters
    let ran := performTargetSelect replies debug handle transportName parameters
    (∃ sent : List MiCommand, ran.2.submitted = handle.submitted ++ sent.map structured ∧
      sent.countP selectsTarget ≤ 2 ∧ sent.countP switchesNonStopOff ≤ 1 ∧
      ∀ index later, sent[index]? = some later → switchesNonStopOff later = true →
        index = 1 ∧ RejectsNonStop replies handle.submitted command) ∧
    ran.2.lastTargetSelectionCommand =
      selectionAfter command ran.1 handle.lastTargetSelectionCommand ∧
    ∃ line, ∀ token : Token,
      SubmitRequest.encode token (raw (encodeMiCommand command)) =
          Utf8Text.asBytes (toString token.toNat) ++ line ∧
        SubmitRequest.encode token (structured command) =
          Utf8Text.asBytes (toString token.toNat) ++ line := by
  intro command ran
  have notOff := switchesNonStopOff_targetSelect transportName parameters
  obtain ⟨sent, isSent, isMemo, selects⟩ :=
    performTargetSelect_selects replies debug handle transportName parameters
  obtain ⟨attempts, rejected⟩ := selects.attempts
  refine ⟨⟨sent, isSent, attempts.countP_selectsTarget_le,
    attempts.countP_switchesNonStopOff_le notOff, ?_⟩, isMemo, ?_⟩
  · intro index later isLater isOff
    have isSecond := attempts.index_eq_one notOff isLater isOff
    have bound := (List.getElem?_eq_some_iff.mp isLater).1
    exact ⟨isSecond, rejected (isSecond ▸ bound)⟩
  · refine ⟨commandBody command ++ [Ascii.newline], fun token => ?_⟩
    rw [encode_raw_encodeMiCommand, SubmitRequest.encode, encodeCommand_commandBody,
      encodeToken, writeU64_eq_toString, List.append_assoc]
    exact ⟨rfl, rfl⟩

theorem rememberSuccessfulRawTargetSelect_submitted (handle : TransportHandle)
    (rawCommand : String) (outcome : CommandOutcome) :
    (rememberSuccessfulRawTargetSelect handle rawCommand outcome).submitted =
      handle.submitted := by
  unfold rememberSuccessfulRawTargetSelect
  split
  · rfl
  · split
    · split <;> rfl
    · rfl

/-- Reconnecting sends the selected command again once the target is
disconnected. -/
theorem reconnectTarget_resends (replies : Replies) (handle : TransportHandle)
    {command : MiCommand} {disconnected : CommandOutcome}
    (isMemo : handle.lastTargetSelectionCommand = some (encodeMiCommand command))
    (disconnects : replies (handle.submitted ++
      [structured (MiCommand.new "target-disconnect")]) = .ok disconnected) :
    ∃ request, (reconnectTarget replies handle).2.submitted =
        handle.submitted ++ [structured (MiCommand.new "target-disconnect"), request] ∧
      ∀ token, SubmitRequest.encode token request =
        SubmitRequest.encode token (structured command) := by
  refine ⟨.raw (encodeMiCommand command), ?_, fun token =>
    encode_raw_encodeMiCommand token command⟩
  simp only [reconnectTarget, isMemo, TransportHandle.submit, TransportHandle.submitRaw,
    TransportHandle.request, disconnects]
  split
  · next err after sent =>
      obtain rfl := congrArg Prod.snd sent
      simp
  · next outcome after sent =>
      obtain rfl := congrArg Prod.snd sent
      rw [rememberSuccessfulRawTargetSelect_submitted]
      simp

end Framewalk
