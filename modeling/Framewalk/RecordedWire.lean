import Framewalk.ConnectionChunking
import Framewalk.TransportTransitions

/-!
# The connection, the journal and the wire

The connection is ahead of the journal: a chunk updates the target at once, and
its events are recorded one by one afterwards.  This file relates both to the
events of the wire, in every reachable state.
-/

namespace Framewalk

theorem getElem?_of_isPrefix {α : Type} {wire longer : List α} (isPrefix : wire <+: longer)
    {index : Nat} (inWire : index < wire.length) : longer[index]? = wire[index]? := by
  rcases isPrefix with ⟨more, rfl⟩
  exact List.getElem?_append_left inWire

theorem getElem?_eq_some_of_isPrefix {α : Type} {wire longer : List α} (isPrefix : wire <+: longer)
    {index : Nat} {event : α} (found : wire[index]? = some event) :
    longer[index]? = some event := by
  have inWire : index < wire.length := (List.getElem?_eq_some_iff.mp found).1
  rw [getElem?_of_isPrefix isPrefix inWire, found]

/-- The events that say what the target does. -/
def Event.movesTarget : Event → Bool
  | .stopped _ | .running _ => true
  | _ => false

/-- The event with this index is a stop, and nothing after it moves the target. -/
def PutIntoStopped (wire : List Event) (index : Nat) : Prop :=
  (∃ stopped, wire[index]? = some (.stopped stopped)) ∧
    ∀ later event, index < later → wire[later]? = some event → event.movesTarget = false

/-- A stopped target was put into that state by an event of the wire. -/
def ExplainsStop (wire : List Event) (target : TargetState) : Prop :=
  target.isStopped = true → ∃ index, PutIntoStopped wire index

theorem PutIntoStopped.unique {wire : List Event} {first second : Nat}
    (isFirst : PutIntoStopped wire first) (isSecond : PutIntoStopped wire second) :
    first = second := by
  have notAfter : ∀ {first second : Nat}, PutIntoStopped wire first →
      PutIntoStopped wire second → ¬ first < second := by
    intro first second isFirst isSecond before
    rcases isSecond.1 with ⟨stopped, found⟩
    have still := isFirst.2 second (.stopped stopped) before found
    cases still
  have firstNotBefore := notAfter isFirst isSecond
  have secondNotBefore := notAfter isSecond isFirst
  omega

theorem PutIntoStopped.lt_length {wire : List Event} {index : Nat}
    (isStop : PutIntoStopped wire index) : index < wire.length := by
  rcases isStop.1 with ⟨stopped, found⟩
  exact (List.getElem?_eq_some_iff.mp found).1

theorem PutIntoStopped.append_still {wire : List Event} {index : Nat} {event : Event}
    (isStop : PutIntoStopped wire index) (still : event.movesTarget = false) :
    PutIntoStopped (wire ++ [event]) index := by
  have inWire := isStop.lt_length
  refine ⟨?_, ?_⟩
  · rw [List.getElem?_append_left inWire]
    exact isStop.1
  · intro later other after found
    rw [List.getElem?_append] at found
    split_ifs at found with old
    · exact isStop.2 later other after found
    · rw [List.getElem?_singleton] at found
      split_ifs at found
      exact Option.some.inj found ▸ still

theorem putIntoStopped_append_stop (wire : List Event) (stopped : StoppedEvent) :
    PutIntoStopped (wire ++ [.stopped stopped]) wire.length := by
  refine ⟨⟨stopped, by simp⟩, ?_⟩
  intro later event after found
  have beyond : (wire ++ [Event.stopped stopped]).length ≤ later := by
    rw [List.length_append, List.length_singleton]
    omega
  rw [List.getElem?_eq_none beyond] at found
  cases found

theorem Session.routeResult_isStopped {session : Session} {pendingInfo : Option PendingInfo}
    {record : ResultRecord}
    (isStopped : (session.routeResult pendingInfo record).target.isStopped = true) :
    session.target.isStopped = true := by
  unfold Session.routeResult at isStopped
  split at isStopped
  · rcases session.exists_of_routeDone _ record.results with ⟨_, _, _, routed⟩
    rw [routed] at isStopped
    exact isStopped
  · rcases session.exists_of_routeDone _ record.results with ⟨_, _, _, routed⟩
    rw [routed] at isStopped
    exact isStopped
  · split_ifs at isStopped
    · cases isStopped
    · exact isStopped
  · exact isStopped

/-- A record leaves the target stopped only if it is a stop, or it left a
stopped target alone. -/
theorem Session.classifyRecord_isStopped {session : Session} {record : Record}
    (isStopped : (session.classifyRecord record).target.isStopped = true) :
    (∃ stopped, record.classifiedEvent = .stopped stopped) ∨
      session.target.isStopped = true ∧ record.classifiedEvent.movesTarget = false := by
  cases record with
  | result record =>
      simp only [Session.classifyRecord, Session.classifyResult] at isStopped
      simp only [Record.classifiedEvent]
      cases token : record.token with
      | none =>
          rw [token] at isStopped
          exact Or.inr ⟨isStopped, rfl⟩
      | some value =>
          rw [token] at isStopped
          have routed : (Session.routeResult
              { session with pending := (session.pending.remove value).2 }
              (session.pending.remove value).1 record).target.isStopped = true := isStopped
          have was := Session.routeResult_isStopped routed
          exact Or.inr ⟨was, rfl⟩
  | exec record =>
      simp only [Session.classifyRecord, Session.classifyExec] at isStopped
      simp only [Record.classifiedEvent]
      split at isStopped
      · cases isStopped
      · next stopped =>
          have notRunning : ¬ record.asyncClass = "running" := by simp [stopped]
          rw [if_neg notRunning, if_pos stopped]
          exact Or.inl ⟨_, rfl⟩
      · next notRunning notStopped =>
          rw [if_neg notRunning, if_neg notStopped]
          exact Or.inr ⟨isStopped, rfl⟩
  | notify record =>
      have sameTarget : (session.classifyRecord (.notify record)).target = session.target := by
        simp only [Session.classifyRecord, Session.classifyNotify]
        split <;> rfl
      exact Or.inr ⟨sameTarget ▸ isStopped, rfl⟩
  | status record | console record | target record | log record =>
      exact Or.inr ⟨isStopped, rfl⟩

/-- One frame queues one event, and the wire with that event still explains the
target. -/
theorem Session.classifyFrame_explainsStop (session : Session) (frame : ParsedFrame)
    (wire : List Event) (explains : ExplainsStop wire session.target) :
    ∃ event, (session.classifyFrame frame).events = session.events ++ [event] ∧
      ExplainsStop (wire ++ [event]) (session.classifyFrame frame).target := by
  have still : ∀ event, event.movesTarget = false →
      ExplainsStop (wire ++ [event]) session.target := by
    intro event still isStopped
    rcases explains isStopped with ⟨index, isStop⟩
    exact ⟨index, isStop.append_still still⟩
  cases frame with
  | groupTerminator => exact ⟨.groupClosed, rfl, still _ rfl⟩
  | error failure => exact ⟨.parseError failure, rfl, still _ rfl⟩
  | record record =>
      refine ⟨record.classifiedEvent, session.classifyRecord_events record, ?_⟩
      intro isStopped
      rcases Session.classifyRecord_isStopped isStopped with ⟨stopped, isStop⟩ | ⟨was, unmoved⟩
      · rw [isStop]
        exact ⟨wire.length, putIntoStopped_append_stop wire stopped⟩
      · exact still _ unmoved was

theorem Session.foldl_classifyFrame_explainsStop (frames : List ParsedFrame) (session : Session)
    (wire : List Event) (explains : ExplainsStop wire session.target) :
    ∃ events, (frames.foldl Session.classifyFrame session).events = session.events ++ events ∧
      ExplainsStop (wire ++ events) (frames.foldl Session.classifyFrame session).target := by
  induction frames generalizing session wire with
  | nil => exact ⟨[], (List.append_nil _).symm, by rwa [List.append_nil]⟩
  | cons frame frames ih =>
      rcases session.classifyFrame_explainsStop frame wire explains with ⟨event, queued, first⟩
      rcases ih (session.classifyFrame frame) (wire ++ [event]) first with ⟨events, rest, last⟩
      refine ⟨event :: events, ?_, ?_⟩
      · rw [List.foldl_cons, rest, queued, List.append_assoc]
        rfl
      · rw [List.foldl_cons, List.append_cons]
        exact last

/-- A received chunk queues events behind which the wire still explains the
target. -/
theorem Connection.receiveBytes_explainsStop (connection : Connection) (chunk : List UInt8)
    (wire : List Event) (explains : ExplainsStop wire connection.target) :
    ExplainsStop
      (wire ++ (connection.receiveBytes chunk).events.drop connection.events.length)
      (connection.receiveBytes chunk).target := by
  rcases Session.foldl_classifyFrame_explainsStop
    ((connection.framer.push chunk).popAll.1.map Frame.parse) connection.toSession wire explains
    with ⟨events, queued, after⟩
  have received : (connection.receiveBytes chunk).events = connection.events ++ events := queued
  rw [received, List.drop_left]
  exact after

/-- The events that the reader still has to record; an exiting reader records no
more. -/
def ReaderPhase.remaining : ReaderPhase → Option (List Event)
  | .reading => some []
  | .dispatching events => some events
  | .firing _ handle outcome rest => some (.commandCompleted handle outcome :: rest)
  | .journaling event rest => some (event :: rest)
  | .notifying rest => some rest
  | .exiting | .exitStored | .exitNotified | .exited => none

/-- While the reader reads, the connection's queue is empty, and what is left to
record is what the wire holds beyond the recorded events. -/
def RecordsInOrder (queued : List Event) (reader : ReaderPhase) (wire : List Event)
    (recorded : Nat) : Prop :=
  ∀ events, reader.remaining = some events → queued = [] ∧ wire.drop recorded = events

/-- A reader that moves on without recording anything has the same left to
record. -/
theorem RecordsInOrder.of_remaining {queued : List Event} {reader next : ReaderPhase}
    {wire : List Event} {recorded : Nat}
    (inOrder : RecordsInOrder queued reader wire recorded)
    (same : next.remaining = reader.remaining) : RecordsInOrder queued next wire recorded :=
  fun events remaining => inOrder events (same ▸ remaining)

theorem RecordsInOrder.of_exiting {queued : List Event} {reader : ReaderPhase}
    {wire : List Event} {recorded : Nat} (exiting : reader.remaining = none) :
    RecordsInOrder queued reader wire recorded := by
  intro events remaining
  rw [exiting] at remaining
  cases remaining

/-- The entry was made of a recorded event of the wire, or is no stop. -/
def SequencedEvent.IsRecorded (entry : SequencedEvent) (wire : List Event) (recorded : Nat) :
    Prop :=
  match entry.source with
  | .wire index => index < recorded ∧ wire[index]? = some entry.event
  | .synthetic => entry.stop? = none

theorem exists_stop_of_putIntoStopped_take {wire : List Event} {seen shown : Nat}
    (isShown : PutIntoStopped (wire.take seen) shown) :
    ∃ stopped, wire[shown]? = some (.stopped stopped) := by
  rcases isShown.1 with ⟨stopped, found⟩
  exact ⟨stopped, getElem?_eq_some_of_isPrefix (List.take_prefix _ _) found⟩

/-- The stop was made of this event of the wire. -/
def StopEntry.IsAt (stop : StopEntry) (wire : List Event) (index : Nat) : Prop :=
  stop.source = .wire index ∧ wire[index]? = some (.stopped stop.stopped)

/-- The journal is the recent part of the history, the history follows the wire,
and the latest stop is the last one recorded. -/
structure Journaled (journal : EventJournal) (wire : List Event) (recorded : Nat)
    (history : List SequencedEvent) : Prop where
  inBounds : recorded ≤ wire.length
  isRecorded : ∀ entry ∈ history, entry.IsRecorded wire recorded
  inOrder : history.Pairwise fun first second => ∀ earlier later,
    first.source = .wire earlier → second.source = .wire later → earlier < later
  retained : journal.entries <:+ history
  numbered : ∀ entry ∈ history, entry.seq < journal.nextSeq ∨ entry.seq = maxEventSeq
  latest : ∀ stop, journal.latestStopped = some stop → ∃ index, stop.IsAt wire index ∧
    index < recorded ∧ ∀ later stopped, index < later → later < recorded →
      wire[later]? ≠ some (.stopped stopped)

theorem SequencedEvent.IsRecorded.mono {entry : SequencedEvent} {wire longer : List Event}
    {recorded more : Nat} (isRecorded : entry.IsRecorded wire recorded)
    (isPrefix : wire <+: longer) (recordedLe : recorded ≤ more) :
    entry.IsRecorded longer more := by
  unfold IsRecorded at *
  split
  · next index source =>
      rw [source] at isRecorded
      refine ⟨Nat.lt_of_lt_of_le isRecorded.1 recordedLe, ?_⟩
      exact getElem?_eq_some_of_isPrefix isPrefix isRecorded.2
  · next source =>
      rw [source] at isRecorded
      exact isRecorded

namespace Journaled

variable {journal : EventJournal} {wire : List Event} {recorded : Nat}
  {history : List SequencedEvent}

theorem receive (journaled : Journaled journal wire recorded history) {longer : List Event}
    (isPrefix : wire <+: longer) : Journaled journal longer recorded history where
  inBounds := Nat.le_trans journaled.inBounds isPrefix.length_le
  isRecorded entry member := (journaled.isRecorded entry member).mono isPrefix (Nat.le_refl _)
  inOrder := journaled.inOrder
  retained := journaled.retained
  numbered := journaled.numbered
  latest := by
    intro stop isLatest
    rcases journaled.latest stop isLatest with ⟨index, isAt, inRecorded, isLast⟩
    refine ⟨index, ⟨isAt.1, getElem?_eq_some_of_isPrefix isPrefix isAt.2⟩, inRecorded, ?_⟩
    intro later stopped after before
    rw [getElem?_of_isPrefix isPrefix (Nat.lt_of_lt_of_le before journaled.inBounds)]
    exact isLast later stopped after before

theorem push_retained (journaled : Journaled journal wire recorded history) (event : Event)
    (source : EventSource) (capacity : Nat) :
    (journal.push event source capacity).entries <:+
      history ++ [journal.nextEntry event source] := by
  have appended : journal.entries ++ [journal.nextEntry event source] <:+
      history ++ [journal.nextEntry event source] := by
    rcases journaled.retained with ⟨dropped, historyEq⟩
    exact ⟨dropped, by rw [← historyEq, List.append_assoc]⟩
  exact (List.drop_suffix _ _).trans appended

theorem push_numbered (journaled : Journaled journal wire recorded history) (event : Event)
    (source : EventSource) (capacity : Nat) :
    ∀ entry ∈ history ++ [journal.nextEntry event source],
      entry.seq < (journal.push event source capacity).nextSeq ∨ entry.seq = maxEventSeq := by
  intro entry member
  rcases List.mem_append.mp member with before | isEntry
  · rcases journaled.numbered entry before with below | isLargest
    · exact Or.inl (Nat.lt_of_lt_of_le below (journal.nextSeq_le_push event source capacity))
    · exact Or.inr isLargest
  · rw [List.mem_singleton.mp isEntry]
    exact journal.nextSeq_lt_push event source capacity

theorem record (journaled : Journaled journal wire recorded history) {event : Event}
    (isNext : wire[recorded]? = some event) (capacity : Nat) :
    Journaled (journal.push event (.wire recorded) capacity) wire (recorded + 1)
      (history ++ [journal.nextEntry event (.wire recorded)]) where
  inBounds := (List.getElem?_eq_some_iff.mp isNext).1
  isRecorded := by
    intro entry member
    rcases List.mem_append.mp member with before | isEntry
    · exact (journaled.isRecorded entry before).mono (List.prefix_refl _) (Nat.le_succ _)
    · rw [List.mem_singleton.mp isEntry]
      exact ⟨Nat.lt_succ_self _, isNext⟩
  inOrder := by
    rw [List.pairwise_append]
    refine ⟨journaled.inOrder, List.pairwise_singleton _ _, ?_⟩
    intro entry member second isEntry earlier later entryAt secondAt
    rw [List.mem_singleton.mp isEntry] at secondAt
    cases secondAt
    have isRecorded := journaled.isRecorded entry member
    rw [SequencedEvent.IsRecorded, entryAt] at isRecorded
    exact isRecorded.1
  retained := journaled.push_retained event (.wire recorded) capacity
  numbered := journaled.push_numbered event (.wire recorded) capacity
  latest := by
    intro stop isLatest
    have isLatest : (journal.nextEntry event (.wire recorded)).stop?.or journal.latestStopped =
        some stop := isLatest
    cases isStop : (journal.nextEntry event (.wire recorded)).stop? with
    | some pushed =>
        rw [isStop, Option.some_or] at isLatest
        obtain rfl := Option.some.inj isLatest
        rcases SequencedEvent.stop?_eq_some isStop with ⟨eventEq, _, sourceEq⟩
        have eventEq : event = .stopped pushed.stopped := eventEq
        refine ⟨recorded, ⟨sourceEq, eventEq ▸ isNext⟩, Nat.lt_succ_self _, ?_⟩
        intro later stopped after before
        omega
    | none =>
        rw [isStop, Option.none_or] at isLatest
        rcases journaled.latest stop isLatest with ⟨index, isAt, inRecorded, isLast⟩
        refine ⟨index, isAt, Nat.lt_succ_of_lt inRecorded, ?_⟩
        intro later stopped after before found
        rcases Nat.lt_succ_iff_lt_or_eq.mp before with old | rfl
        · exact isLast later stopped after old found
        · rw [isNext] at found
          cases found
          cases isStop

theorem log (journaled : Journaled journal wire recorded history) {event : Event}
    (notStop : (journal.nextEntry event .synthetic).stop? = none) (capacity : Nat) :
    Journaled (journal.push event .synthetic capacity) wire recorded
      (history ++ [journal.nextEntry event .synthetic]) where
  inBounds := journaled.inBounds
  isRecorded := by
    intro entry member
    rcases List.mem_append.mp member with before | isEntry
    · exact journaled.isRecorded entry before
    · rw [List.mem_singleton.mp isEntry]
      exact notStop
  inOrder := by
    rw [List.pairwise_append]
    refine ⟨journaled.inOrder, List.pairwise_singleton _ _, ?_⟩
    intro entry member second isEntry earlier later entryAt secondAt
    rw [List.mem_singleton.mp isEntry] at secondAt
    cases secondAt
  retained := journaled.push_retained event .synthetic capacity
  numbered := journaled.push_numbered event .synthetic capacity
  latest := by
    intro stop isLatest
    have isLatest : (journal.nextEntry event .synthetic).stop?.or journal.latestStopped =
        some stop := isLatest
    rw [notStop, Option.none_or] at isLatest
    exact journaled.latest stop isLatest

theorem isAt_of_mem (journaled : Journaled journal wire recorded history)
    {entry : SequencedEvent} (member : entry ∈ history) {stop : StopEntry}
    (isStop : entry.stop? = some stop) : ∃ index, stop.IsAt wire index ∧ index < recorded := by
  have isRecorded := journaled.isRecorded entry member
  rcases SequencedEvent.stop?_eq_some isStop with ⟨eventEq, _, sourceEq⟩
  unfold SequencedEvent.IsRecorded at isRecorded
  split at isRecorded
  · next index source =>
      exact ⟨index, ⟨sourceEq.trans source, eventEq ▸ isRecorded.2⟩, isRecorded.1⟩
  · rw [isStop] at isRecorded
    cases isRecorded

/-- The found stop is not behind another stop above the cursor. -/
theorem found_le (journaled : Journaled journal wire recorded history)
    {after : Nat} {found : StopEntry} (isFound : journal.findStopAfter after = some found)
    {entry : SequencedEvent} (member : entry ∈ journal.entries) {stop : StopEntry}
    (isStop : entry.stop? = some stop) (above : after < stop.seq) {foundIndex index : Nat}
    (foundAt : found.source = .wire foundIndex) (stopAt : stop.source = .wire index) :
    foundIndex ≤ index := by
  rcases EventJournal.exists_of_findStopAfter isFound with
    ⟨earlier, foundEntry, later, entriesEq, isFoundStop, _, earlierBelow⟩
  have inOrder := journaled.inOrder.sublist journaled.retained.sublist
  rw [entriesEq, List.pairwise_append, List.pairwise_cons] at inOrder
  have foundSource := (SequencedEvent.stop?_eq_some isFoundStop).2.2
  have stopSource := (SequencedEvent.stop?_eq_some isStop).2.2
  rcases EventJournal.mem_of_findStopAfter entriesEq earlierBelow member isStop above with
    rfl | isLater
  · have sameSource := foundAt.symm.trans (foundSource.trans (stopSource.symm.trans stopAt))
    exact Nat.le_of_eq (EventSource.wire.inj sameSource)
  · exact Nat.le_of_lt (inOrder.2.1.1 entry isLater foundIndex index
      (foundSource.symm.trans foundAt) (stopSource.symm.trans stopAt))

theorem le_latest (journaled : Journaled journal wire recorded history) {stop : StopEntry}
    (isLatest : journal.latestStopped = some stop) {shown : Nat}
    (isStop : ∃ stopped, wire[shown]? = some (.stopped stopped)) (isRecorded : shown < recorded) :
    ∃ index, stop.IsAt wire index ∧ shown ≤ index := by
  rcases journaled.latest stop isLatest with ⟨index, isAt, _, isLast⟩
  refine ⟨index, isAt, ?_⟩
  by_contra before
  rcases isStop with ⟨stopped, found⟩
  exact isLast shown stopped (Nat.lt_of_not_le before) isRecorded found

end Journaled

namespace Transport

open TransitionSystem

/-- How the connection, the reader and the journal stand to the wire. -/
def RecordsWire (transport : Transport) : Prop :=
  ExplainsStop transport.wire transport.connection.target ∧
    RecordsInOrder transport.connection.events transport.reader transport.wire
      transport.recorded ∧
    Journaled transport.journal transport.wire transport.recorded transport.history

theorem recordsWire_new : new.RecordsWire := by
  refine ⟨?_, ?_, ?_⟩
  · intro isStopped
    cases isStopped
  · intro events remaining
    cases remaining
    exact ⟨rfl, rfl⟩
  · exact ⟨Nat.le_refl _, by simp [new], .nil, List.suffix_refl _, by simp [new],
      by simp [new, EventJournal.new]⟩

theorem recordsWire_receive {transport : Transport} (records : transport.RecordsWire)
    (reading : transport.reader = .reading) (chunk : List UInt8) {events : List Event}
    {reader : ReaderPhase}
    (phase : reader = .exiting ∨ events = [] ∧
      reader = .dispatching (transport.connection.receiveBytes chunk).events) :
    RecordsWire { transport with
      connection := { transport.connection.receiveBytes chunk with events }
      wire := transport.wire ++
        (transport.connection.receiveBytes chunk).events.drop transport.connection.events.length
      reader } := by
  rcases records with ⟨explains, inOrder, journaled⟩
  have rest := inOrder [] (by rw [reading]; rfl)
  have allRecorded : transport.wire.length ≤ transport.recorded := List.drop_eq_nil_iff.mp rest.2
  refine ⟨?_, ?_, ?_⟩
  · exact transport.connection.receiveBytes_explainsStop chunk transport.wire explains
  · rcases phase with rfl | ⟨rfl, rfl⟩
    · exact .of_exiting rfl
    · intro events remaining
      cases remaining
      have recordedEq : transport.recorded = transport.wire.length :=
        Nat.le_antisymm journaled.inBounds allRecorded
      refine ⟨rfl, ?_⟩
      simp only [rest.1, List.length_nil, List.drop_zero, recordedEq, List.drop_left]
  · exact journaled.receive (List.prefix_append _ _)

theorem recordsWire_record {transport : Transport} (records : transport.RecordsWire)
    {event : Event} {rest : List Event} (journaling : transport.reader = .journaling event rest) :
    RecordsWire { transport.recordEvent event (.wire transport.recorded) with
      recorded := transport.recorded + 1
      reader := .notifying rest } := by
  rcases records with ⟨explains, inOrder, journaled⟩
  have left := inOrder (event :: rest) (by rw [journaling]; rfl)
  have isNext : transport.wire[transport.recorded]? = some event := by
    rw [← List.head?_drop, left.2]
    rfl
  refine ⟨explains, ?_, journaled.record isNext _⟩
  intro events remaining
  cases remaining
  refine ⟨left.1, ?_⟩
  change transport.wire.drop (transport.recorded + 1) = rest
  rw [← List.drop_drop, left.2]
  rfl

theorem recordsWire_step {transport next : Transport} {label : Label}
    (records : transport.RecordsWire) (stepped : transport.step label = some next) :
    next.RecordsWire := by
  have inOrder := records.2.1
  have moves : ∀ {reader : ReaderPhase}, reader.remaining = transport.reader.remaining →
      RecordsInOrder transport.connection.events reader transport.wire transport.recorded :=
    fun same => inOrder.of_remaining same
  cases transition_of_step stepped with
  | allocate _ target events =>
      refine ⟨?_, ?_, records.2.2⟩
      · exact (congrArg (ExplainsStop transport.wire) target).mpr records.1
      · intro left remaining
        exact (congrArg (· = [] ∧ _) events).mpr (inOrder left remaining)
  | log => exact ⟨records.1, inOrder, records.2.2.log rfl _⟩
  | receive reading phase => exact recordsWire_receive records reading _ phase
  | endOfInput => exact ⟨records.1, .of_exiting rfl, records.2.2⟩
  | record journaling => exact recordsWire_record records journaling
  | storeExit | notifyExit | clearPending => exact ⟨records.1, .of_exiting rfl, records.2.2⟩
  | dispatchedAll phase | takeSender phase | pass phase | fire phase | notify phase =>
      exact ⟨records.1, moves (by rw [phase]; rfl), records.2.2⟩
  | _ => exact records

theorem recordsWire_of_reachable {transport : Transport}
    (reachable : Reachable step new transport) : transport.RecordsWire := by
  apply reachable.invariant
  · exact recordsWire_new
  · intro transport next label records _ stepped
    exact recordsWire_step records stepped

end Transport

end Framewalk
