import Framewalk.Connection

/-!
# The connection is a line-by-line fold

Through its session and its unread bytes a connection is a line consumer: it
cuts the stream at newlines and folds one step over the complete lines.  Each
step appends exactly one event, and chunk boundaries leave no trace.
-/

namespace Framewalk

open LineSplitting

/-- The event that a record is classified as. -/
def Record.classifiedEvent : Record → Event
  | .result record =>
      match record.token with
      | none => .unknown (.result record)
      | some token => .commandCompleted token (.ofRecord record)
  | .exec record =>
      if record.asyncClass = "running" then
        .running ⟨ResultsView.getStr record.results "thread-id"⟩
      else if record.asyncClass = "stopped" then
        .stopped ⟨StoppedReason.fromResults record.results,
          ResultsView.getStr record.results "thread-id", extractFrame record.results,
          record.results⟩
      else .unknown (.exec record)
  | .status record => .status ⟨record.asyncClass, record.results⟩
  | .notify record => .notify ⟨record.asyncClass, record.results⟩
  | .console record => .console record.text
  | .target record => .targetOutput record.text
  | .log record => .log record.text

/-- What a line without its terminator does to a session. -/
def Session.receiveBareLine (session : Session) (line : List UInt8) : Session :=
  if isGroupTerminator line then session.pushEvent .groupClosed
  else
    match parseRecord line with
    | .ok record => session.classifyRecord record
    | .error error => session.pushEvent (.parseError ⟨error, line⟩)

/-- What one complete line of the stream does to a session. -/
def Session.receiveLine (session : Session) (streamLine : List UInt8) : Session :=
  session.receiveBareLine (Framer.stripCarriageReturn streamLine)

theorem Session.classifyFrame_parse (session : Session) (streamLine : List UInt8) :
    session.classifyFrame (Frame.parse (.ofLine (Framer.stripCarriageReturn streamLine))) =
      session.receiveLine streamLine := by
  unfold Session.receiveLine Session.receiveBareLine Frame.ofLine
  split_ifs with terminator
  · rfl
  · simp only [Frame.parse]
    cases parseRecord (Framer.stripCarriageReturn streamLine) <;> rfl

@[simp]
theorem Session.pushEvent_events (session : Session) (event : Event) :
    (session.pushEvent event).events = session.events ++ [event] :=
  rfl

theorem Session.exists_of_routeDone (session : Session) (info : PendingInfo)
    (results : Results) :
    ∃ breakpoints varobjs features, session.routeDone info results =
      { session with breakpoints, varobjs, features } := by
  unfold Session.routeDone
  split
  · split <;> exact ⟨_, _, _, rfl⟩
  · split <;> exact ⟨_, _, _, rfl⟩
  all_goals exact ⟨_, _, _, rfl⟩

theorem Session.exists_of_routeResult (session : Session) (pendingInfo : Option PendingInfo)
    (record : ResultRecord) :
    ∃ target frames breakpoints varobjs features, session.routeResult pendingInfo record =
      { session with target, frames, breakpoints, varobjs, features } := by
  unfold Session.routeResult
  split
  · rcases session.exists_of_routeDone _ record.results with ⟨_, _, _, routed⟩
    exact ⟨_, _, _, _, _, routed⟩
  · rcases session.exists_of_routeDone _ record.results with ⟨_, _, _, routed⟩
    exact ⟨_, _, _, _, _, routed⟩
  · split_ifs <;> exact ⟨_, _, _, _, _, rfl⟩
  · exact ⟨_, _, _, _, _, rfl⟩

theorem Session.routeResult_events (session : Session) (pendingInfo : Option PendingInfo)
    (record : ResultRecord) : (session.routeResult pendingInfo record).events = session.events := by
  rcases session.exists_of_routeResult pendingInfo record with ⟨_, _, _, _, _, routed⟩
  rw [routed]

theorem Session.enterStopped_events (session : Session) (thread : Option ThreadId)
    (reason : Option StoppedReason) :
    (session.enterStopped thread reason).events = session.events := by
  unfold Session.enterStopped
  split <;> rfl

theorem Session.classifyRecord_events (session : Session) (record : Record) :
    (session.classifyRecord record).events = session.events ++ [record.classifiedEvent] := by
  cases record with
  | result record =>
      simp only [Session.classifyRecord, Session.classifyResult, Record.classifiedEvent]
      cases record.token with
      | none => rfl
      | some token => simp only [Session.pushEvent_events, Session.routeResult_events]
  | exec record =>
      simp only [Session.classifyRecord, Session.classifyExec, Record.classifiedEvent]
      split
      · next running =>
          rw [if_pos running]
          rfl
      · next stopped =>
          have notRunning : ¬ record.asyncClass = "running" := by simp [stopped]
          rw [if_neg notRunning, if_pos stopped]
          simp only [Session.classifyStopped, Session.pushEvent_events,
            Session.enterStopped_events]
      · next notRunning notStopped =>
          rw [if_neg notRunning, if_neg notStopped]
          rfl
  | notify record =>
      simp only [Session.classifyRecord, Session.classifyNotify, Record.classifiedEvent]
      split <;> rfl
  | status record => rfl
  | console record => rfl
  | target record => rfl
  | log record => rfl

/-- Every line queues one event: the end of a group, a parse error that
carries the line and touches nothing else, or a classified record. -/
theorem Session.receiveBareLine_cases (session : Session) (line : List UInt8) :
    (isGroupTerminator line = true ∧
        session.receiveBareLine line =
          { session with events := session.events ++ [.groupClosed] }) ∨
      (isGroupTerminator line = false ∧ ∃ error, parseRecord line = .error error ∧
        session.receiveBareLine line =
          { session with events := session.events ++ [.parseError ⟨error, line⟩] }) ∨
      (isGroupTerminator line = false ∧ ∃ record, parseRecord line = .ok record ∧
        session.receiveBareLine line = session.classifyRecord record ∧
        (session.receiveBareLine line).events =
          session.events ++ [record.classifiedEvent]) := by
  unfold Session.receiveBareLine
  by_cases terminator : isGroupTerminator line = true
  · exact Or.inl ⟨terminator, if_pos terminator⟩
  · have notTerminator : isGroupTerminator line = false := by simpa using terminator
    right
    simp only [if_neg terminator]
    cases parseRecord line with
    | error error => exact Or.inl ⟨notTerminator, error, rfl, rfl⟩
    | ok record =>
        exact Or.inr ⟨notTerminator, record, rfl, rfl, session.classifyRecord_events record⟩

namespace Connection

/-- A connection as a line consumer: the framer shows only its unread bytes. -/
def feed (connection : Connection) : Feed UInt8 Session :=
  ⟨connection.toSession, connection.framer.unread⟩

theorem feed_receiveBytes (connection : Connection) (bytes : List UInt8) :
    (connection.receiveBytes bytes).feed =
      connection.feed.receive Ascii.newline Session.receiveLine bytes := by
  simp only [feed, receiveBytes, Feed.receive, Framer.popAll_unread, Framer.popAll_frames,
    Framer.unread_push, List.map_map, List.foldl_map, Function.comp_apply,
    Session.classifyFrame_parse]

theorem feed_foldl_receiveBytes (chunks : List (List UInt8)) (connection : Connection) :
    (chunks.foldl receiveBytes connection).feed =
      connection.feed.receive Ascii.newline Session.receiveLine chunks.flatten := by
  rw [← Feed.foldl_receive Session.receiveLine chunks connection.drained]
  induction chunks generalizing connection with
  | nil => rfl
  | cons chunk chunks ih =>
      rw [List.foldl_cons, List.foldl_cons, ih, feed_receiveBytes]

/-- Everything a caller can observe of a connection. -/
structure SameObservables (first second : Connection) : Prop where
  session : first.toSession = second.toSession
  pendingBytes : first.pendingBytes = second.pendingBytes

theorem sameObservables_of_feed_eq {first second : Connection}
    (same : first.feed = second.feed) : first.SameObservables second where
  session := congrArg Feed.state same
  pendingBytes := by
    have unread : first.framer.unread = second.framer.unread := congrArg Feed.unread same
    rw [Connection.pendingBytes, Connection.pendingBytes, Framer.pendingBytes_eq,
      Framer.pendingBytes_eq, unread]

/-- Two receives are one receive of both chunks; any chunks give the fold over
the complete lines of the whole stream; and each line queues exactly one
event. -/
theorem receiveBytes_line_fold :
    (∀ (connection : Connection) (first second : List UInt8),
      ((connection.receiveBytes first).receiveBytes second).SameObservables
        (connection.receiveBytes (first ++ second))) ∧
    (∀ (connection : Connection) (chunks : List (List UInt8)),
      (chunks.foldl receiveBytes connection).toSession =
          (completeLines Ascii.newline (connection.framer.unread ++ chunks.flatten)).foldl
            Session.receiveLine connection.toSession ∧
        (chunks.foldl receiveBytes connection).framer.unread =
          unfinishedLine Ascii.newline (connection.framer.unread ++ chunks.flatten) ∧
        (chunks.foldl receiveBytes connection).pendingBytes =
          (unfinishedLine Ascii.newline (connection.framer.unread ++ chunks.flatten)).length) ∧
    (∀ (session : Session) (streamLine : List UInt8),
      let line := Framer.stripCarriageReturn streamLine
      (isGroupTerminator line = true ∧
          session.receiveLine streamLine =
            { session with events := session.events ++ [.groupClosed] }) ∨
        (isGroupTerminator line = false ∧ ∃ error, parseRecord line = .error error ∧
          session.receiveLine streamLine =
            { session with events := session.events ++ [.parseError ⟨error, line⟩] }) ∨
        (isGroupTerminator line = false ∧ ∃ record, parseRecord line = .ok record ∧
          session.receiveLine streamLine = session.classifyRecord record ∧
          (session.receiveLine streamLine).events =
            session.events ++ [record.classifiedEvent])) := by
  refine ⟨fun connection first second => ?_, fun connection chunks => ?_,
    fun session streamLine => session.receiveBareLine_cases _⟩
  · apply sameObservables_of_feed_eq
    rw [feed_receiveBytes, feed_receiveBytes, feed_receiveBytes, Feed.receive_append]
  · have folded := feed_foldl_receiveBytes chunks connection
    have unread := congrArg Feed.unread folded
    refine ⟨congrArg Feed.state folded, unread, ?_⟩
    rw [Connection.pendingBytes, Framer.pendingBytes_eq]
    exact congrArg List.length unread

end Connection

end Framewalk
