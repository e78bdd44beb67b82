import Framewalk.ConnectionChunking
import Framewalk.TransitionSystem

/-!
# Sessions over whole runs

Behind the framer, whatever a caller does to a connection is a sequence of
complete lines, submits, polls and acknowledgements.  A run of this line-by-line
system passes through every state of the connection, and also stops between the
lines of one chunk.
-/

namespace Framewalk

open TransitionSystem LineSplitting

/-- The pending entry that a request leaves. -/
def SubmitRequest.info : SubmitRequest → PendingInfo
  | .structured command =>
      ⟨.fromName command.operation command.parameters, command.operation⟩
  | .raw _ => ⟨.raw, "_raw"⟩

/-- The line that a request sends under its token. -/
def SubmitRequest.encode (token : Token) : SubmitRequest → List UInt8
  | .structured command => encodeCommand (some token) command
  | .raw line =>
      Utf8Text.asBytes (toString token.toNat) ++ Utf8Text.asBytes line ++ [Ascii.newline]

def Session.submit (session : Session) (request : SubmitRequest) : Session :=
  { session with
    tokens := session.tokens.allocate.2
    pending := session.pending.insert session.tokens.allocate.1 request.info
    outbound := session.outbound.append (request.encode session.tokens.allocate.1) }

theorem Connection.submit_toSession (connection : Connection) (command : MiCommand) :
    (connection.submit command).2 =
      { connection with toSession := connection.toSession.submit (.structured command) } :=
  rfl

theorem Connection.submitRaw_toSession (connection : Connection) (rawLine : String) :
    (connection.submitRaw rawLine).2 =
      { connection with toSession := connection.toSession.submit (.raw rawLine) } :=
  rfl

/-- The record of a line that is no group terminator and parses. -/
def lineRecord (streamLine : List UInt8) : Option Record :=
  if isGroupTerminator (Framer.stripCarriageReturn streamLine) then none
  else (parseRecord (Framer.stripCarriageReturn streamLine)).toOption

theorem Session.receiveLine_of_none {streamLine : List UInt8}
    (noRecord : lineRecord streamLine = none) (session : Session) :
    ∃ event, session.receiveLine streamLine = session.pushEvent event := by
  rcases session.receiveBareLine_cases (Framer.stripCarriageReturn streamLine) with
    ⟨_, received⟩ | ⟨_, error, _, received⟩ | ⟨notTerminator, record, parsed, _, _⟩
  · exact ⟨.groupClosed, received⟩
  · exact ⟨.parseError ⟨error, _⟩, received⟩
  · rw [lineRecord, notTerminator, parsed] at noRecord
    cases noRecord

theorem Session.receiveLine_of_some {streamLine : List UInt8} {record : Record}
    (isRecord : lineRecord streamLine = some record) (session : Session) :
    session.receiveLine streamLine = session.classifyRecord record := by
  rcases session.receiveBareLine_cases (Framer.stripCarriageReturn streamLine) with
    ⟨isTerminator, _⟩ | ⟨notTerminator, error, failed, _⟩ |
    ⟨notTerminator, other, parsed, received, _⟩
  · rw [lineRecord, isTerminator] at isRecord
    cases isRecord
  · rw [lineRecord, notTerminator, failed] at isRecord
    cases isRecord
  · rw [lineRecord, notTerminator, parsed] at isRecord
    obtain rfl : other = record := Option.some.inj isRecord
    exact received

/-- The event that a line is turned into. -/
def lineEvent (streamLine : List UInt8) : Event :=
  if isGroupTerminator (Framer.stripCarriageReturn streamLine) then .groupClosed
  else
    match parseRecord (Framer.stripCarriageReturn streamLine) with
    | .ok record => record.classifiedEvent
    | .error error => .parseError ⟨error, Framer.stripCarriageReturn streamLine⟩

theorem Session.receiveLine_events (session : Session) (streamLine : List UInt8) :
    (session.receiveLine streamLine).events = session.events ++ [lineEvent streamLine] := by
  rw [receiveLine, lineEvent]
  rcases session.receiveBareLine_cases (Framer.stripCarriageReturn streamLine) with
    ⟨isTerminator, received⟩ | ⟨notTerminator, error, failed, received⟩ |
    ⟨notTerminator, record, parsed, _, received⟩
  · rw [received, if_pos isTerminator]
  · rw [received, notTerminator, failed]
    rfl
  · rw [received, notTerminator, parsed]
    rfl

theorem Session.foldl_receiveLine_events (lines : List (List UInt8)) (session : Session) :
    (lines.foldl receiveLine session).events = session.events ++ lines.map lineEvent := by
  induction lines generalizing session with
  | nil => exact (List.append_nil _).symm
  | cons line lines ih =>
      rw [List.foldl_cons, ih, receiveLine_events, List.append_assoc]
      rfl

/-- Only a result with a token completes a command. -/
theorem lineRecord_of_completed {streamLine : List UInt8} {token : Token}
    {outcome : CommandOutcome}
    (completes : lineEvent streamLine = .commandCompleted token outcome) :
    ∃ record, lineRecord streamLine = some (.result record) ∧ record.token = some token := by
  unfold lineEvent at completes
  unfold lineRecord
  split_ifs at completes ⊢ with isTerminator
  split at completes
  · next record parsed =>
      rw [parsed]
      unfold Record.classifiedEvent at completes
      split at completes
      · next result =>
          split at completes
          · cases completes
          · next own hasToken =>
              cases completes
              exact ⟨result, rfl, hasToken⟩
      · split_ifs at completes
      all_goals cases completes
  · cases completes

namespace Session

/-- The session with other queues to its caller. -/
def withQueues (session : Session) (events : List Event) (outbound : OutboundBuffer) : Session :=
  { session with events, outbound }

theorem routeDone_withQueues (session : Session) (events : List Event)
    (outbound : OutboundBuffer) (info : PendingInfo) (results : Results) :
    (session.withQueues events outbound).routeDone info results =
      (session.routeDone info results).withQueues events outbound := by
  unfold routeDone
  split
  · split <;> rfl
  · split <;> rfl
  all_goals rfl

theorem routeResult_withQueues (session : Session) (events : List Event)
    (outbound : OutboundBuffer) (info : Option PendingInfo) (record : ResultRecord) :
    (session.withQueues events outbound).routeResult info record =
      (session.routeResult info record).withQueues events outbound := by
  unfold routeResult
  split
  · exact routeDone_withQueues _ _ _ _ _
  · exact routeDone_withQueues _ _ _ _ _
  · split_ifs <;> rfl
  · rfl

/-- What a record does to a session does not depend on the queues. -/
theorem classifyRecord_withQueues (session : Session) (events : List Event)
    (outbound : OutboundBuffer) (record : Record) :
    ∃ more, (session.withQueues events outbound).classifyRecord record =
      (session.classifyRecord record).withQueues more outbound := by
  cases record with
  | result record =>
      simp only [classifyRecord, classifyResult]
      cases record.token with
      | none => exact ⟨_, rfl⟩
      | some token =>
          have routed := routeResult_withQueues
            { session with pending := (session.pending.remove token).2 } events outbound
            (session.pending.remove token).1 record
          exact ⟨_, congrArg (Session.pushEvent · _) routed⟩
  | exec record =>
      simp only [classifyRecord, classifyExec]
      split
      · exact ⟨_, rfl⟩
      · simp only [classifyStopped, enterStopped]
        split <;> exact ⟨_, rfl⟩
      · exact ⟨_, rfl⟩
  | notify record =>
      simp only [classifyRecord, classifyNotify]
      split <;> exact ⟨_, rfl⟩
  | status record | console record | target record | log record => exact ⟨_, rfl⟩

theorem receiveLine_withQueues (session : Session) (events : List Event)
    (outbound : OutboundBuffer) (streamLine : List UInt8) :
    ∃ more, (session.withQueues events outbound).receiveLine streamLine =
      (session.receiveLine streamLine).withQueues more outbound := by
  cases isRecord : lineRecord streamLine with
  | some record =>
      rw [receiveLine_of_some isRecord, receiveLine_of_some isRecord]
      exact classifyRecord_withQueues session events outbound record
  | none =>
      rcases receiveLine_of_none isRecord session with ⟨event, received⟩
      rcases receiveLine_of_none isRecord (session.withQueues events outbound) with
        ⟨other, otherReceived⟩
      rw [received, otherReceived]
      exact ⟨_, rfl⟩

end Session

inductive SessionLabel where
  | line (streamLine : List UInt8)
  | submit (request : SubmitRequest)
  | poll
  | consume (n : Nat)

/-- The labels that move only the queues to the caller. -/
def SessionLabel.IsSilent : SessionLabel → Prop
  | .line streamLine => lineRecord streamLine = none
  | .submit _ => False
  | .poll | .consume _ => True

namespace Session

def step (session : Session) : SessionLabel → Option Session
  | .line streamLine => some (session.receiveLine streamLine)
  | .submit request => some (session.submit request)
  | .poll => some { session with events := session.events.tail }
  | .consume n =>
      match session.outbound.consume n with
      | .ok outbound => some { session with outbound }
      | .error _ => none

/-- The steps of a session: a record is classified, a request is submitted, or
only the queues to the caller move. -/
theorem step_cases {session next : Session} {label : SessionLabel}
    (stepped : session.step label = some next) :
    (∃ streamLine record, label = .line streamLine ∧ lineRecord streamLine = some record ∧
        next = session.classifyRecord record) ∨
      (∃ request, label = .submit request ∧ next = session.submit request) ∨
      (label.IsSilent ∧ ∃ events outbound, next = { session with events, outbound }) := by
  cases label with
  | line streamLine =>
      obtain rfl := Option.some.inj stepped
      cases isRecord : lineRecord streamLine with
      | some record =>
          exact Or.inl ⟨streamLine, record, rfl, isRecord, session.receiveLine_of_some isRecord⟩
      | none =>
          rcases session.receiveLine_of_none isRecord with ⟨event, received⟩
          exact Or.inr (Or.inr ⟨isRecord, session.events ++ [event], session.outbound, received⟩)
  | submit request => exact Or.inr (Or.inl ⟨request, rfl, (Option.some.inj stepped).symm⟩)
  | poll =>
      obtain rfl := Option.some.inj stepped
      exact Or.inr (Or.inr ⟨trivial, session.events.tail, session.outbound, rfl⟩)
  | consume n =>
      simp only [step] at stepped
      split at stepped
      · next outbound _ =>
          obtain rfl := Option.some.inj stepped
          exact Or.inr (Or.inr ⟨trivial, session.events, outbound, rfl⟩)
      · cases stepped

theorem run_lines (lines : List (List UInt8)) (session : Session) :
    run step session (lines.map .line) = some (lines.foldl receiveLine session) := by
  induction lines generalizing session with
  | nil => rfl
  | cons line lines ih => exact ih (session.receiveLine line)

end Session

inductive ConnectionLabel where
  | receive (chunk : List UInt8)
  | submit (request : SubmitRequest)
  | poll
  | consume (n : Nat)

namespace Connection

def step (connection : Connection) : ConnectionLabel → Option Connection
  | .receive chunk => some (connection.receiveBytes chunk)
  | .submit (.structured command) => some (connection.submit command).2
  | .submit (.raw rawLine) => some (connection.submitRaw rawLine).2
  | .poll => some connection.pollEvent.2
  | .consume n => (connection.consumeOutbound n).toOption

/-- The lines that a chunk completes. -/
def linesOf (connection : Connection) (chunk : List UInt8) : List (List UInt8) :=
  completeLines Ascii.newline (connection.framer.unread ++ chunk)

theorem receiveBytes_toSession (connection : Connection) (chunk : List UInt8) :
    (connection.receiveBytes chunk).toSession =
      (connection.linesOf chunk).foldl Session.receiveLine connection.toSession :=
  congrArg Feed.state (connection.feed_receiveBytes chunk)

theorem receiveBytes_events (connection : Connection) (chunk : List UInt8) :
    (connection.receiveBytes chunk).events =
      connection.events ++ (connection.linesOf chunk).map lineEvent := by
  rw [← Session.foldl_receiveLine_events, ← receiveBytes_toSession]

/-- What every line preserves, received bytes preserve. -/
theorem receiveBytes_invariant {motive : Session → Prop}
    (preserves : ∀ session streamLine, motive session → motive (session.receiveLine streamLine))
    (connection : Connection) (chunk : List UInt8) (holds : motive connection.toSession) :
    motive (connection.receiveBytes chunk).toSession := by
  rw [receiveBytes_toSession]
  apply List.foldlRecOn (connection.linesOf chunk) Session.receiveLine holds
  intro session before streamLine _
  exact preserves session streamLine before

theorem step_submit {connection next : Connection} {request : SubmitRequest}
    (stepped : connection.step (.submit request) = some next) :
    next.toSession = connection.toSession.submit request := by
  cases request with
  | structured command =>
      obtain rfl := Option.some.inj stepped
      rw [submit_toSession]
  | raw rawLine =>
      obtain rfl := Option.some.inj stepped
      rw [submitRaw_toSession]

theorem step_consume {connection next : Connection} {n : Nat}
    (stepped : connection.step (.consume n) = some next) :
    ∃ outbound, connection.outbound.consume n = .ok outbound ∧
      next = { connection with outbound } := by
  rw [step, consumeOutbound] at stepped
  cases consumed : connection.outbound.consume n with
  | error error =>
      rw [consumed] at stepped
      cases stepped
  | ok outbound =>
      rw [consumed] at stepped
      exact ⟨outbound, rfl, (Option.some.inj stepped).symm⟩

/-- What a connection reaches in chunks, its session reaches in lines. -/
theorem session_reachable {start connection : Connection}
    (reachable : Reachable step start connection) :
    Reachable Session.step start.toSession connection.toSession := by
  apply reachable.map toSession
  intro connection next label stepped
  cases label with
  | receive chunk =>
      obtain rfl := Option.some.inj stepped
      refine ⟨(connection.linesOf chunk).map .line, ?_⟩
      rw [Session.run_lines, receiveBytes_toSession]
  | submit request =>
      refine ⟨[.submit request], ?_⟩
      rw [step_submit stepped]
      rfl
  | poll =>
      obtain rfl := Option.some.inj stepped
      exact ⟨[.poll], rfl⟩
  | consume n =>
      refine ⟨[.consume n], ?_⟩
      rcases step_consume stepped with ⟨outbound, consumed, rfl⟩
      have sessionStep : Session.step connection.toSession (.consume n) =
          some { connection.toSession with outbound } := by
        change (match connection.outbound.consume n with
          | .ok outbound => some { connection.toSession with outbound }
          | .error _ => none) = _
        rw [consumed]
      have started : run Session.step connection.toSession [] = some connection.toSession := rfl
      exact run_snoc started sessionStep

end Connection

end Framewalk
