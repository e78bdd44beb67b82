import Framewalk.SnapshotFold

/-!
# The line limit

The reader tests its limit after it has parsed a chunk and before it drains the
events of the chunk.  A chunk is far shorter than the limit, so one that
completes a line leaves too little behind to exceed it, and when the reader does
disconnect nothing is queued.
-/

namespace Framewalk

open TransitionSystem LineSplitting

/-- The completion that a dispatched event fires, if its sender was found. -/
def completion? : Event × Option CallId → Option (CallId × Token × CommandOutcome)
  | (.commandCompleted handle outcome, some receiver) => some (receiver, handle, outcome)
  | _ => none

/-- The event of an entry that the wire brought. -/
def SequencedEvent.wireEvent? (entry : SequencedEvent) : Option Event :=
  match entry.source with
  | .wire _ => some entry.event
  | .synthetic => none

namespace Transport

/-- The sender that the pending map holds for a completion. -/
def senderOf (transport : Transport) : Event → Option CallId
  | .commandCompleted handle _ => transport.pending[handle]?
  | _ => none

/-- The events of the wire in the order in which they were journaled. -/
def journaled (transport : Transport) : List Event :=
  transport.history.filterMap SequencedEvent.wireEvent?

end Transport

/-- What remains to be dispatched of a batch of events. -/
def ReaderPhase.undispatched : ReaderPhase → List Event
  | .dispatching events => events
  | .firing _ _ _ rest | .journaling _ rest | .notifying rest => rest
  | .reading | .exiting | .exitStored | .exitNotified | .exited => []

/-- The completion that was taken out of the pending map and is not fired yet. -/
def ReaderPhase.unfired : ReaderPhase → List (CallId × Token × CommandOutcome)
  | .firing receiver handle outcome _ => [(receiver, handle, outcome)]
  | .dispatching _ | .journaling _ _ | .notifying _ | .reading | .exiting | .exitStored
  | .exitNotified | .exited => []

theorem ReaderPhase.idle_of_ended {reader : ReaderPhase} (ended : reader.remaining = none) :
    reader.undispatched = [] ∧ reader.unfired = [] := by
  cases reader with
  | exiting | exitStored | exitNotified | exited => exact ⟨rfl, rfl⟩
  | _ => cases ended

/-- The timeline of a run, whether the reader has disconnected at its limit, the
events dispatched so far with the senders found for them, and the senders
fired. -/
structure ReadLog where
  timeline : Timeline
  overflowed : Bool
  dispatched : List (Event × Option CallId)
  fired : List (CallId × Token × CommandOutcome)

namespace ReadLog

def empty : ReadLog :=
  ⟨.empty, false, [], []⟩

def noteReader (log : ReadLog) (transport : Transport) : ReadLog :=
  match transport.reader with
  | .dispatching (event :: _) =>
      { log with dispatched := log.dispatched ++ [(event, transport.senderOf event)] }
  | .firing receiver handle outcome _ =>
      { log with fired := log.fired ++ [(receiver, handle, outcome)] }
  | _ => log

def note (log : ReadLog) (transport : Transport) (label : Transport.Label) (next : Transport) :
    ReadLog :=
  let log := { log with timeline := log.timeline.note transport label next }
  match label with
  -- A receive leaves the reader with nothing to dispatch only at the limit.
  | .receive _ => { log with overflowed := next.reader.remaining.isNone }
  | .reader => log.noteReader transport
  | _ => log

/-- The bytes that the reader has read. -/
def stream (log : ReadLog) : List UInt8 :=
  log.timeline.chunks.flatten

/-- After some read, the unfinished line exceeded the limit. -/
def ExceedsLimit (log : ReadLog) : Prop :=
  ∃ before, before <+: log.timeline.chunks ∧
    maxPendingBytes < (unfinishedLine Ascii.newline before.flatten).length

end ReadLog

/-- Every event of the wire is dispatched, its sender fired and its entry
journaled, as far as the reader has come, nothing else is queued, and the reader
has disconnected exactly if some read exceeded its limit. -/
structure ReadLog.Describes (log : ReadLog) (transport : Transport) : Prop where
  follows : log.timeline.Follows transport
  queue : transport.connection.events = []
  dispatched : log.dispatched.map Prod.fst ++ transport.reader.undispatched = transport.wire
  fired : log.dispatched.filterMap completion? = log.fired ++ transport.reader.unfired
  journaled : transport.journaled ++ transport.reader.remaining.getD [] = transport.wire
  limit : log.overflowed = true ↔ log.ExceedsLimit
  ended : log.overflowed = true → transport.reader.remaining = none

namespace ReadLog

variable {log : ReadLog} {transport next : Transport} {label : Transport.Label}

theorem describes_new : empty.Describes .new where
  follows := Timeline.follows_new
  queue := rfl
  dispatched := rfl
  fired := rfl
  journaled := rfl
  limit := by
    apply iff_of_false
    · intro overflowed
      cases overflowed
    · rintro ⟨before, isPrefix, exceeds⟩
      obtain rfl := List.prefix_nil.mp isPrefix
      exact absurd exceeds (by decide)
  ended := by
    intro overflowed
    cases overflowed

theorem timeline_note :
    (log.note transport label next).timeline = log.timeline.note transport label next := by
  cases label with
  | reader =>
      simp only [note, noteReader]
      split <;> rfl
  | _ => rfl

theorem Describes.limit_of_chunks (describes : log.Describes transport) {later : ReadLog}
    (overflowed : later.overflowed = log.overflowed)
    (chunks : later.timeline.chunks = log.timeline.chunks) :
    later.overflowed = true ↔ later.ExceedsLimit := by
  rw [overflowed, ExceedsLimit, chunks]
  exact describes.limit

theorem linesOf_of_exceeds {connection : Connection} {chunk : List UInt8}
    (short : chunk.length ≤ stdoutReadBufSize)
    (exceeds : maxPendingBytes < (connection.receiveBytes chunk).pendingBytes) :
    connection.linesOf chunk = [] := by
  have unread : (connection.receiveBytes chunk).framer.unread =
      unfinishedLine Ascii.newline (connection.framer.unread ++ chunk) :=
    congrArg Feed.unread (connection.feed_receiveBytes chunk)
  rw [Connection.pendingBytes, Framer.pendingBytes_eq, unread] at exceeds
  rw [Connection.linesOf, completeLines_eq_nil_iff, List.mem_append, not_or]
  refine ⟨connection.drained, ?_⟩
  intro member
  have below := unfinishedLine_length_lt connection.framer.unread member
  rw [maxPendingBytes] at exceeds
  rw [stdoutReadBufSize] at short
  omega

theorem chunks_note_receive (chunk : List UInt8) :
    (log.note transport (.receive chunk) next).timeline.chunks =
      log.timeline.chunks ++ [chunk] :=
  rfl

theorem exceedsLimit_note_receive (chunk : List UInt8) :
    (log.note transport (.receive chunk) next).ExceedsLimit ↔
      log.ExceedsLimit ∨
        maxPendingBytes < (unfinishedLine Ascii.newline (log.stream ++ chunk)).length := by
  have whole : (log.timeline.chunks ++ [chunk]).flatten = log.stream ++ chunk := by
    rw [List.flatten_append, List.flatten_singleton]
    rfl
  rw [ExceedsLimit, chunks_note_receive]
  constructor
  · rintro ⟨before, isPrefix, exceeds⟩
    rcases List.prefix_concat_iff.mp isPrefix with rfl | earlier
    · rw [whole] at exceeds
      exact Or.inr exceeds
    · exact Or.inl ⟨before, earlier, exceeds⟩
  · rintro (⟨before, isPrefix, exceeds⟩ | exceeds)
    · exact ⟨before, isPrefix.trans (List.prefix_append _ _), exceeds⟩
    · exact ⟨_, List.prefix_rfl, whole ▸ exceeds⟩

/-- A chunk leaves its events to dispatch, and none where the reader
disconnects. -/
theorem receive_batch (queue : transport.connection.events = []) {chunk : List UInt8}
    (short : chunk.length ≤ stdoutReadBufSize) :
    ∃ batch, (transport.receive chunk).wire = transport.wire ++ batch ∧
      (transport.receive chunk).reader.undispatched = batch ∧
      (transport.receive chunk).reader.unfired = [] ∧
      (transport.receive chunk).reader.remaining.getD [] = batch ∧
      (transport.receive chunk).connection.events = [] ∧
      (transport.receive chunk).journaled = transport.journaled ∧
      ((transport.receive chunk).reader.remaining = none ↔
        maxPendingBytes < (transport.connection.receiveBytes chunk).pendingBytes) := by
  have queued := transport.connection.receiveBytes_events chunk
  rw [queue, List.nil_append] at queued
  unfold Transport.receive
  simp only [queue, List.length_nil, List.drop_zero]
  split_ifs with exceeds
  · rw [linesOf_of_exceeds short exceeds] at queued
    rw [queued]
    exact ⟨[], rfl, rfl, rfl, rfl, rfl, rfl, iff_of_true rfl exceeds⟩
  · refine ⟨_, rfl, rfl, rfl, rfl, rfl, rfl, iff_of_false ?_ exceeds⟩
    intro isNone
    cases isNone

theorem Describes.receive (describes : log.Describes transport) {chunk : List UInt8}
    (stepped : transport.step (.receive chunk) = some next) :
    (log.note transport (.receive chunk) next).Describes next := by
  have follows := Timeline.follows_step describes.follows stepped
  have short : chunk.length ≤ stdoutReadBufSize := by
    simp only [Transport.step] at stepped
    split at stepped
    · split_ifs at stepped with sized
      exact sized.2
    · cases stepped
  obtain ⟨reading, rfl⟩ := Transport.step_cases stepped
  have dispatched := describes.dispatched
  have fired := describes.fired
  have journaled := describes.journaled
  have limit := describes.limit
  have ended := describes.ended
  rw [reading] at dispatched fired journaled ended
  have notExceeded : ¬ log.ExceedsLimit := by
    intro exceeds
    cases ended (limit.mpr exceeds)
  have pending : (transport.connection.receiveBytes chunk).pendingBytes =
      (unfinishedLine Ascii.newline (log.stream ++ chunk)).length := by
    have unread : (transport.connection.receiveBytes chunk).framer.unread =
        unfinishedLine Ascii.newline (transport.connection.framer.unread ++ chunk) :=
      congrArg Feed.unread (transport.connection.feed_receiveBytes chunk)
    rw [Connection.pendingBytes, Framer.pendingBytes_eq, unread, describes.follows.unread,
      ← unfinishedLine_append]
    rfl
  rcases receive_batch describes.queue short with
    ⟨batch, wire, undispatched, unfired, unrecorded, queue, sameJournal, exceeds⟩
  refine ⟨follows, queue, ?_, ?_, ?_, ?_, ?_⟩
  · rw [wire, undispatched, ← dispatched]
    exact congrArg (· ++ batch) (List.append_nil _).symm
  · rw [unfired]
    exact fired
  · rw [wire, unrecorded, sameJournal, ← journaled]
    exact congrArg (· ++ batch) (List.append_nil _).symm
  · rw [exceedsLimit_note_receive, ← pending, ← exceeds, or_iff_right notExceeded]
    exact Option.isNone_iff_eq_none
  · exact Option.isNone_iff_eq_none.mp

theorem journaled_recordEvent (transport : Transport) (event : Event) (index : Nat) :
    (transport.recordEvent event (.wire index)).journaled = transport.journaled ++ [event] := by
  rw [Transport.journaled, Transport.recordEvent, List.filterMap_append]
  rfl

/-- A step moves events from what the reader has left to do to what it has
done. -/
structure ReaderMoves (transport next : Transport) (dispatched : List (Event × Option CallId))
    (fired : List (CallId × Token × CommandOutcome)) (recorded : List Event) : Prop where
  events : next.connection.events = transport.connection.events
  wire : next.wire = transport.wire
  journaled : next.journaled = transport.journaled ++ recorded
  undispatched :
    dispatched.map Prod.fst ++ next.reader.undispatched = transport.reader.undispatched
  unfired :
    transport.reader.unfired ++ dispatched.filterMap completion? = fired ++ next.reader.unfired
  unrecorded :
    recorded ++ next.reader.remaining.getD [] = transport.reader.remaining.getD []
  ended : transport.reader.remaining = none → next.reader.remaining = none

theorem ReaderMoves.of_same (events : next.connection.events = transport.connection.events)
    (wire : next.wire = transport.wire) (journaled : next.journaled = transport.journaled)
    (undispatched : next.reader.undispatched = transport.reader.undispatched)
    (unfired : next.reader.unfired = transport.reader.unfired)
    (unrecorded : next.reader.remaining.getD [] = transport.reader.remaining.getD [])
    (ended : transport.reader.remaining = none → next.reader.remaining = none) :
    ReaderMoves transport next [] [] [] where
  events := events
  wire := wire
  journaled := journaled.trans (List.append_nil _).symm
  undispatched := undispatched
  unfired := (List.append_nil _).trans unfired.symm
  unrecorded := unrecorded
  ended := ended

theorem readerMoves_of_call {i : CallId} (stepped : transport.step (.call i) = some next) :
    ReaderMoves transport next [] [] [] := by
  cases Transport.transition_of_step stepped with
  | allocate _ _ events => exact .of_same events rfl rfl rfl rfl rfl id
  | log isLogging =>
      refine .of_same rfl rfl ?_ rfl rfl rfl id
      change (transport.history ++ [transport.journal.nextEntry _ .synthetic]).filterMap _ = _
      rw [List.filterMap_append]
      exact List.append_nil _
  | _ => exact .of_same rfl rfl rfl rfl rfl rfl id

theorem readerMoves_of_dispatch {event : Event} {rest : List Event}
    (phase : transport.reader = .dispatching (event :: rest)) :
    ReaderMoves transport (transport.dispatchEvent (event :: rest))
      [(event, transport.senderOf event)] [] [] := by
  have undispatched : event :: rest = transport.reader.undispatched := by rw [phase]; rfl
  have unfired : transport.reader.unfired = [] := by rw [phase]; rfl
  have unrecorded : event :: rest = transport.reader.remaining.getD [] := by rw [phase]; rfl
  have remains : transport.reader.remaining ≠ none := by simp [phase, ReaderPhase.remaining]
  have ended : ∀ {later : Prop}, transport.reader.remaining = none → later :=
    fun ended => absurd ended remains
  have passes : ReaderMoves transport { transport with reader := .journaling event rest }
      [(event, none)] [] [] := by
    refine ⟨rfl, rfl, (List.append_nil _).symm, undispatched, ?_, unrecorded, ended⟩
    rw [unfired]
    cases event <;> rfl
  cases event with
  | commandCompleted handle outcome =>
      cases held : transport.pending[handle]? with
      | some receiver =>
          have isSender : transport.senderOf (.commandCompleted handle outcome) = some receiver :=
            held
          simp only [Transport.dispatchEvent, held, isSender]
          refine ⟨rfl, rfl, (List.append_nil _).symm, undispatched, ?_, unrecorded, ended⟩
          rw [unfired]
          rfl
      | none =>
          have noSender : transport.senderOf (.commandCompleted handle outcome) = none := held
          simp only [Transport.dispatchEvent, held, noSender]
          exact passes
  | _ => exact passes

theorem readerMoves_of_reader (stepped : transport.step .reader = some next) :
    ∃ dispatched fired recorded, ReaderMoves transport next dispatched fired recorded ∧
      ∀ log : ReadLog, log.noteReader transport = { log with
        dispatched := log.dispatched ++ dispatched, fired := log.fired ++ fired } := by
  have quiet : ReaderMoves transport next [] [] [] →
      (∀ log : ReadLog, log.noteReader transport = log) →
      ∃ dispatched fired recorded, ReaderMoves transport next dispatched fired recorded ∧
        ∀ log : ReadLog, log.noteReader transport = { log with
          dispatched := log.dispatched ++ dispatched, fired := log.fired ++ fired } := by
    intro moves nothing
    refine ⟨[], [], [], moves, ?_⟩
    intro log
    rw [nothing, List.append_nil, List.append_nil]
  simp only [Transport.step, Transport.stepReader] at stepped
  split at stepped
  · cases stepped
  · next events phase =>
      obtain rfl := Option.some.inj stepped
      cases events with
      | nil =>
          apply quiet
          · refine .of_same rfl rfl rfl ?_ ?_ ?_ ?_
            all_goals simp [phase, Transport.dispatchEvent, ReaderPhase.undispatched,
              ReaderPhase.unfired, ReaderPhase.remaining]
          · intro log
            simp only [noteReader, phase]
      | cons event rest =>
          refine ⟨_, _, _, readerMoves_of_dispatch phase, ?_⟩
          intro log
          simp only [noteReader, phase, List.append_nil]
  · next receiver handle outcome rest phase =>
      obtain rfl := Option.some.inj stepped
      refine ⟨[], [(receiver, handle, outcome)], [], ?_, ?_⟩
      · refine ⟨rfl, rfl, (List.append_nil _).symm, ?_, ?_, ?_, ?_⟩
        all_goals simp [phase, Transport.fire, ReaderPhase.undispatched, ReaderPhase.unfired,
          ReaderPhase.remaining]
      · intro log
        simp only [noteReader, phase, List.append_nil]
  · next event rest phase =>
      obtain rfl := Option.some.inj stepped
      refine ⟨[], [], [event], ?_, ?_⟩
      · refine ⟨rfl, rfl, journaled_recordEvent _ _ _, ?_, ?_, ?_, ?_⟩
        all_goals simp [phase, ReaderPhase.undispatched, ReaderPhase.unfired,
          ReaderPhase.remaining]
      · intro log
        simp only [noteReader, phase, List.append_nil]
  case h_9 => cases stepped
  all_goals
    rename_i phase
    obtain rfl := Option.some.inj stepped
    apply quiet
    · refine .of_same rfl rfl rfl ?_ ?_ ?_ ?_
      all_goals simp [phase, ReaderPhase.undispatched, ReaderPhase.unfired,
        ReaderPhase.remaining]
    · intro log
      simp only [noteReader, phase]

theorem Describes.advance (describes : log.Describes transport) {later : ReadLog}
    {dispatched : List (Event × Option CallId)} {fired : List (CallId × Token × CommandOutcome)}
    {recorded : List Event} (moves : ReaderMoves transport next dispatched fired recorded)
    (laterEq : later = ⟨later.timeline, log.overflowed, log.dispatched ++ dispatched,
      log.fired ++ fired⟩)
    (follows : later.timeline.Follows next)
    (chunks : later.timeline.chunks = log.timeline.chunks) : later.Describes next := by
  rw [laterEq] at follows chunks ⊢
  refine ⟨follows, moves.events.trans describes.queue, ?_, ?_, ?_, ?_, ?_⟩
  · rw [moves.wire, ← describes.dispatched, ← moves.undispatched, List.map_append,
      List.append_assoc]
  · rw [List.filterMap_append, describes.fired, List.append_assoc, moves.unfired,
      List.append_assoc]
  · rw [moves.wire, ← describes.journaled, ← moves.unrecorded, moves.journaled,
      List.append_assoc]
  · exact describes.limit_of_chunks rfl chunks
  · exact fun overflowed => moves.ended (describes.ended overflowed)

theorem Describes.step (describes : log.Describes transport)
    (stepped : transport.step label = some next) :
    (log.note transport label next).Describes next := by
  have follows := Timeline.follows_step describes.follows stepped
  rw [← timeline_note] at follows
  have quiet : ReaderMoves transport next [] [] [] → label.chunks = [] →
      log.note transport label next = ⟨(log.note transport label next).timeline,
        log.overflowed, log.dispatched, log.fired⟩ →
      (log.note transport label next).Describes next := by
    intro moves noChunks noted
    apply describes.advance moves _ follows
    · rw [timeline_note, Timeline.note, noChunks, List.append_nil]
    · rw [List.append_nil, List.append_nil]
      exact noted
  cases label with
  | receive chunk => exact describes.receive stepped
  | reader =>
      rcases readerMoves_of_reader stepped with ⟨dispatched, fired, recorded, moves, noted⟩
      apply describes.advance moves _ follows
      · rw [timeline_note]
        exact List.append_nil _
      · simp only [note, noted]
  | call i => exact quiet (readerMoves_of_call stepped) rfl rfl
  | endOfInput =>
      obtain ⟨reading, rfl⟩ := Transport.step_cases stepped
      apply quiet _ rfl rfl
      refine .of_same rfl rfl rfl ?_ ?_ ?_ ?_
      all_goals simp [reading, ReaderPhase.undispatched, ReaderPhase.unfired,
        ReaderPhase.remaining]
  | start | cancel =>
      obtain ⟨_, rfl⟩ := Transport.step_cases stepped
      exact quiet (.of_same rfl rfl rfl rfl rfl rfl id) rfl rfl
  | timeout | writerFinish | writerFail =>
      obtain ⟨_, _, rfl⟩ := Transport.step_cases stepped
      exact quiet (.of_same rfl rfl rfl rfl rfl rfl id) rfl rfl
  | writerTake =>
      obtain ⟨_, _, _, _, rfl⟩ := Transport.step_cases stepped
      exact quiet (.of_same rfl rfl rfl rfl rfl rfl id) rfl rfl

theorem describes_of_reachable {current : Remembering Transport ReadLog}
    (reachable : Reachable (remember Transport.step note) ⟨.new, .empty⟩ current) :
    current.memory.Describes current.state := by
  apply reachable.invariant
  · exact describes_new
  · intro current next label describes _ stepped
    rcases remember_eq_some stepped with ⟨stepped, noted⟩
    rw [noted]
    exact describes.step stepped

end ReadLog

/-- The reader disconnects exactly when some read leaves an unfinished line above
the limit, so never while all lines keep it; and once it has, no event is queued
and every complete line has been dispatched, fired and journaled. -/
structure KeepsLineLimit (current : Remembering Transport ReadLog) : Prop where
  overflowed_iff : current.memory.overflowed = true ↔ ∃ before,
    before <+: current.memory.timeline.chunks ∧
      maxPendingBytes < (unfinishedLine Ascii.newline before.flatten).length
  shortLines :
    (∀ line ∈ completeLines Ascii.newline current.memory.stream,
      line.length ≤ maxPendingBytes) →
    (unfinishedLine Ascii.newline current.memory.stream).length ≤ maxPendingBytes →
      current.memory.overflowed = false
  drained : current.memory.overflowed = true →
    current.state.reader.remaining = none ∧ current.state.connection.events = [] ∧
      current.memory.dispatched.map Prod.fst =
        (completeLines Ascii.newline current.memory.stream).map lineEvent ∧
      current.memory.fired = current.memory.dispatched.filterMap completion? ∧
      current.state.journaled =
        (completeLines Ascii.newline current.memory.stream).map lineEvent

/-- In every run of the transport the reader keeps the line limit. -/
theorem keeps_line_limit (labels : List Transport.Label) :
    Always (remember Transport.step ReadLog.note) ⟨.new, .empty⟩ KeepsLineLimit labels := by
  intro before isPrefix current ran
  have describes := ReadLog.describes_of_reachable (reachable_of_run ran)
  refine ⟨describes.limit, ?_, ?_⟩
  · intro completeShort unfinishedShort
    rw [← Bool.not_eq_true, describes.limit]
    rintro ⟨chunks, ⟨later, whole⟩, exceeds⟩
    have stream : current.memory.stream = chunks.flatten ++ later.flatten := by
      rw [ReadLog.stream, ← whole, List.flatten_append]
    obtain ⟨line, begins, isLine⟩ : ∃ line,
        unfinishedLine Ascii.newline chunks.flatten <+: line ∧
          (line ∈ completeLines Ascii.newline (chunks.flatten ++ later.flatten) ∨
            line = unfinishedLine Ascii.newline (chunks.flatten ++ later.flatten)) :=
      unfinishedLine_isPrefix_of_line _ _
    rw [← stream] at isLine
    have lineShort : line.length ≤ maxPendingBytes := by
      rcases isLine with complete | rfl
      · exact completeShort line complete
      · exact unfinishedShort
    have := begins.length_le
    omega
  · intro overflowed
    have ended := describes.ended overflowed
    rcases ReaderPhase.idle_of_ended ended with ⟨undispatched, unfired⟩
    have wire : current.state.wire =
        (completeLines Ascii.newline current.memory.stream).map lineEvent := by
      rw [describes.follows.wire, describes.follows.lines]
      rfl
    have dispatched := describes.dispatched
    have fired := describes.fired
    have journaled := describes.journaled
    rw [undispatched, List.append_nil, wire] at dispatched
    rw [unfired, List.append_nil] at fired
    rw [ended, wire] at journaled
    refine ⟨ended, describes.queue, dispatched, fired.symm, ?_⟩
    rw [← journaled]
    exact (List.append_nil _).symm

end Framewalk
