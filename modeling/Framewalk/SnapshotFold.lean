import Framewalk.CommandPipe
import Framewalk.SessionRuns
import Framewalk.TriggerAndWait

/-!
# Snapshots never lag the journal

A chunk reaches the connection as a whole before any of its events is journaled.
So a snapshot is the fold of all lines received so far, with the submits between
them, and these lines include whatever a client has seen in the journal.
-/

namespace Framewalk

open TransitionSystem LineSplitting

/-- Every registry of a session that a client may read. -/
structure StateSnapshot where
  target : TargetState
  threads : ThreadRegistry
  frames : FrameRegistry
  breakpoints : BreakpointRegistry
  varobjs : VarObjRegistry
  features : FeatureSet
  miVersion : MiVersion

def Session.snapshot (session : Session) : StateSnapshot where
  target := session.target
  threads := session.threads
  frames := session.frames
  breakpoints := session.breakpoints
  varobjs := session.varobjs
  features := session.features
  miVersion := session.miVersion

/-- The registries are cloned under one acquisition of the connection's lock. -/
def Transport.snapshot (transport : Transport) : StateSnapshot :=
  transport.connection.toSession.snapshot

/-- A complete line of the wire, or a submit. -/
inductive SessionInput where
  | line (streamLine : List UInt8)
  | submit (request : SubmitRequest)

def SessionInput.line? : SessionInput → Option (List UInt8)
  | .line streamLine => some streamLine
  | .submit _ => none

namespace Session

def process (session : Session) : SessionInput → Session
  | .line streamLine => session.receiveLine streamLine
  | .submit request => session.submit request

/-- The session that has processed these inputs in order. -/
def replay (inputs : List SessionInput) : Session :=
  inputs.foldl process (.withVersionHint .unknown)

theorem replay_append (first second : List SessionInput) :
    replay (first ++ second) = second.foldl process (replay first) :=
  List.foldl_append

theorem process_withQueues (session : Session) (events : List Event) (outbound : OutboundBuffer)
    (input : SessionInput) :
    ∃ more grown, (session.withQueues events outbound).process input =
      (session.process input).withQueues more grown := by
  cases input with
  | line streamLine =>
      rcases session.receiveLine_withQueues events outbound streamLine with ⟨more, received⟩
      exact ⟨more, outbound, received⟩
  | submit request => exact ⟨_, _, rfl⟩

theorem foldl_process_withQueues (inputs : List SessionInput) (session : Session)
    (events : List Event) (outbound : OutboundBuffer) :
    ∃ more grown, inputs.foldl process (session.withQueues events outbound) =
      (inputs.foldl process session).withQueues more grown := by
  induction inputs generalizing session events outbound with
  | nil => exact ⟨events, outbound, rfl⟩
  | cons input inputs ih =>
      rcases session.process_withQueues events outbound input with ⟨more, grown, processed⟩
      rw [List.foldl_cons, List.foldl_cons, processed]
      exact ih (session.process input) more grown

end Session

/-- The chunks that the reader has received, and the lines that they completed
in order with the submits between them. -/
structure Timeline where
  inputs : List SessionInput
  chunks : List (List UInt8)

def Transport.Label.chunks : Transport.Label → List (List UInt8)
  | .receive chunk => [chunk]
  | _ => []

/-- What the step gives to the session under the connection's lock. -/
def Transport.inputsOf (transport : Transport) : Transport.Label → List SessionInput
  | .receive chunk => (transport.connection.linesOf chunk).map .line
  | .call i =>
      match transport.calls i with
      | .tested request _ => [.submit request]
      | _ => []
  | _ => []

namespace Timeline

def empty : Timeline :=
  ⟨[], []⟩

def lines (timeline : Timeline) : List (List UInt8) :=
  timeline.inputs.filterMap SessionInput.line?

def note (timeline : Timeline) (transport : Transport) (label : Transport.Label)
    (_ : Transport) : Timeline :=
  ⟨timeline.inputs ++ transport.inputsOf label, timeline.chunks ++ label.chunks⟩

end Timeline

namespace Transport

variable {transport next : Transport} {label : Label}

/-- An allocation submits the request and moves the queues only. -/
theorem allocate_session (transport : Transport) (i : CallId) (request : SubmitRequest)
    (after : Option Nat) :
    (transport.allocate i request after).wire = transport.wire ∧
      (transport.allocate i request after).connection.framer = transport.connection.framer ∧
      ∃ events outbound, (transport.allocate i request after).connection.toSession =
        (transport.connection.toSession.submit request).withQueues events outbound := by
  have submitted : submitRequest transport.connection request =
      (transport.connection.tokens.next,
        { transport.connection with
          toSession := transport.connection.toSession.submit request }) := by
    cases request <;> rfl
  unfold allocate
  rw [submitted]
  simp only
  split
  · next bytes drained isDrained =>
      refine ⟨rfl, ?_⟩
      rcases exists_of_drainOutbound isDrained with ⟨outbound, rfl⟩
      exact ⟨rfl, _, _, rfl⟩
  · exact ⟨rfl, rfl, _, _, rfl⟩

/-- A step gives the session the lines of a chunk, or a submit, or nothing. -/
theorem inputs_of_step (stepped : transport.step label = some next) :
    (∃ chunk events, label = .receive chunk ∧
        next.connection = { transport.connection.receiveBytes chunk with events } ∧
        next.wire = transport.wire ++ (transport.connection.linesOf chunk).map lineEvent) ∨
      (∃ i request after, label = .call i ∧ transport.calls i = .tested request after ∧
        next = transport.allocate i request after) ∨
      (transport.inputsOf label = [] ∧ label.chunks = [] ∧
        next.connection = transport.connection ∧ next.wire = transport.wire) := by
  cases label with
  | receive chunk =>
      obtain ⟨_, rfl⟩ := step_cases stepped
      rcases transport.receive_eq chunk with ⟨events, reader, _, received⟩
      refine Or.inl ⟨chunk, events, rfl, congrArg Transport.connection received, ?_⟩
      rw [received, transport.connection.receiveBytes_events, List.drop_left]
  | call i =>
      by_cases tested : ∃ request after, transport.calls i = .tested request after
      · rcases tested with ⟨request, after, isTested⟩
        simp only [step, stepCall, isTested] at stepped
        exact Or.inr (Or.inl ⟨i, request, after, rfl, isTested, (Option.some.inj stepped).symm⟩)
      · have same : next.connection = transport.connection := by
          apply (stepCall_keeps stepped).2.resolve_right
          rintro ⟨request, after, isTested, _⟩
          exact tested ⟨request, after, isTested⟩
        refine Or.inr (Or.inr ⟨?_, rfl, same, ?_⟩)
        · simp only [inputsOf]
          split
          · next request after isTested => exact absurd ⟨request, after, isTested⟩ tested
          · rfl
        · cases transition_of_step stepped <;> rfl
  | reader =>
      refine Or.inr (Or.inr ⟨rfl, rfl, (stepReader_keeps stepped).2.1, ?_⟩)
      cases transition_of_step stepped <;> rfl
  | start | cancel | endOfInput =>
      obtain ⟨_, rfl⟩ := step_cases stepped
      exact Or.inr (Or.inr ⟨rfl, rfl, rfl, rfl⟩)
  | timeout | writerFinish | writerFail =>
      obtain ⟨_, _, rfl⟩ := step_cases stepped
      exact Or.inr (Or.inr ⟨rfl, rfl, rfl, rfl⟩)
  | writerTake =>
      obtain ⟨_, _, _, _, rfl⟩ := step_cases stepped
      exact Or.inr (Or.inr ⟨rfl, rfl, rfl, rfl⟩)

end Transport

/-- The session is the fold of the timeline up to the queues to the caller, and
the framer and the wire follow the chunks. -/
structure Timeline.Follows (timeline : Timeline) (transport : Transport) : Prop where
  session : ∃ events outbound, transport.connection.toSession =
    (Session.replay timeline.inputs).withQueues events outbound
  unread : transport.connection.framer.unread =
    unfinishedLine Ascii.newline timeline.chunks.flatten
  lines : timeline.lines = completeLines Ascii.newline timeline.chunks.flatten
  wire : transport.wire = timeline.lines.map lineEvent

theorem Timeline.follows_new : empty.Follows .new where
  session := ⟨[], .empty, rfl⟩
  unread := rfl
  lines := rfl
  wire := rfl

theorem SessionInput.lines_of_map_line (lines : List (List UInt8)) :
    (lines.map SessionInput.line).filterMap line? = lines := by
  induction lines with
  | nil => rfl
  | cons line lines ih => rw [List.map_cons, List.filterMap_cons, line?, ih]

section Step

variable {timeline : Timeline} {transport next : Transport} {label : Transport.Label}

theorem Timeline.Follows.receive (follows : timeline.Follows transport) {chunk : List UInt8}
    {events : List Event}
    (fed : next.connection = { transport.connection.receiveBytes chunk with events })
    (grown : next.wire =
      transport.wire ++ (transport.connection.linesOf chunk).map lineEvent) :
    (timeline.note transport (.receive chunk) next).Follows next := by
  have linesNoted : (timeline.note transport (.receive chunk) next).lines =
      timeline.lines ++ transport.connection.linesOf chunk := by
    rw [Timeline.lines, note, List.filterMap_append]
    exact congrArg (timeline.lines ++ ·) (SessionInput.lines_of_map_line _)
  have chunksNoted : (timeline.note transport (.receive chunk) next).chunks.flatten =
      timeline.chunks.flatten ++ chunk := by
    change (timeline.chunks ++ [chunk]).flatten = _
    rw [List.flatten_append, List.flatten_singleton]
  have unread := congrArg Feed.unread (transport.connection.feed_receiveBytes chunk)
  refine ⟨?_, ?_, ?_, ?_⟩
  · rcases follows.session with ⟨before, outbound, same⟩
    rcases Session.foldl_process_withQueues (transport.inputsOf (.receive chunk))
      (Session.replay timeline.inputs) before outbound with ⟨more, grown, processed⟩
    have folded : (transport.connection.receiveBytes chunk).toSession =
        (Session.replay (timeline.inputs ++ transport.inputsOf (.receive chunk))).withQueues
          more grown := by
      rw [Session.replay_append, ← processed, Connection.receiveBytes_toSession, same]
      rw [Transport.inputsOf, List.foldl_map]
      rfl
    refine ⟨events, grown, ?_⟩
    rw [fed]
    exact congrArg (fun session => session.withQueues events session.outbound) folded
  · rw [fed, chunksNoted, unfinishedLine_append, ← follows.unread]
    exact unread
  · rw [linesNoted, chunksNoted, completeLines_append, ← follows.lines, ← follows.unread]
    rfl
  · rw [grown, linesNoted, List.map_append, ← follows.wire]

theorem Timeline.Follows.allocate (follows : timeline.Follows transport) {i : CallId}
    {request : SubmitRequest} {after : Option Nat}
    (isTested : transport.calls i = .tested request after) :
    (timeline.note transport (.call i) next).Follows (transport.allocate i request after) := by
  have inputs : transport.inputsOf (.call i) = [.submit request] := by
    simp only [Transport.inputsOf, isTested]
  have linesNoted : (timeline.note transport (.call i) next).lines = timeline.lines := by
    rw [Timeline.lines, note, inputs, List.filterMap_append]
    exact List.append_nil _
  have chunksNoted : (timeline.note transport (.call i) next).chunks = timeline.chunks :=
    List.append_nil _
  rcases transport.allocate_session i request after with
    ⟨sameWire, sameFramer, events, outbound, submitted⟩
  refine ⟨?_, ?_, ?_, ?_⟩
  · rcases follows.session with ⟨before, queued, same⟩
    refine ⟨events, outbound, ?_⟩
    rw [submitted, same, note, inputs, Session.replay_append]
    rfl
  · rw [sameFramer, chunksNoted]
    exact follows.unread
  · rw [linesNoted, chunksNoted]
    exact follows.lines
  · rw [sameWire, linesNoted]
    exact follows.wire

theorem Timeline.follows_step (follows : timeline.Follows transport)
    (stepped : transport.step label = some next) :
    (timeline.note transport label next).Follows next := by
  rcases Transport.inputs_of_step stepped with
    ⟨chunk, events, rfl, fed, grown⟩ | ⟨i, request, after, rfl, isTested, rfl⟩ |
    ⟨noInputs, noChunks, sameConnection, sameWire⟩
  · exact follows.receive fed grown
  · exact follows.allocate isTested
  · have noted : timeline.note transport label next = timeline := by
      rw [note, noInputs, noChunks, List.append_nil, List.append_nil]
    rw [noted]
    refine ⟨?_, ?_, follows.lines, ?_⟩
    · rw [sameConnection]
      exact follows.session
    · rw [sameConnection]
      exact follows.unread
    · rw [sameWire]
      exact follows.wire

end Step

theorem Timeline.follows_of_reachable {current : Remembering Transport Timeline}
    (reachable : Reachable (remember Transport.step Timeline.note) ⟨.new, .empty⟩ current) :
    current.memory.Follows current.state := by
  apply reachable.invariant
  · exact follows_new
  · intro current next label follows _ stepped
    rcases remember_eq_some stepped with ⟨stepped, noted⟩
    rw [noted]
    exact follows_step follows stepped

/-- The transport shows this event of the wire to a client: in a page of the
journal, as its latest entry, as the result of a search, as the latest stop, or
as the reply to a submit. -/
inductive Transport.Shows (transport : Transport) (index : Nat) : Event → Prop
  | page (after : Nat) (entry : SequencedEvent) :
      entry ∈ transport.journal.eventsAfter after → entry.source = .wire index →
        Shows transport index entry.event
  | latest (entry : SequencedEvent) :
      transport.journal.latestEvent = some entry → entry.source = .wire index →
        Shows transport index entry.event
  | found (after : Nat) (stop : StopEntry) :
      transport.journal.findStopAfter after = some stop → stop.source = .wire index →
        Shows transport index (.stopped stop.stopped)
  | latestStop (stop : StopEntry) :
      transport.journal.latestStopped = some stop → stop.source = .wire index →
        Shows transport index (.stopped stop.stopped)
  | reply (i : CallId) (reply : Reply) :
      transport.replies i = some reply → reply.running = index →
        Shows transport index (.commandCompleted reply.handle reply.outcome)

theorem Transport.event_of_mem {transport : Transport} (records : transport.RecordsWire)
    {entry : SequencedEvent} (member : entry ∈ transport.journal.entries) {index : Nat}
    (source : entry.source = .wire index) : transport.wire[index]? = some entry.event := by
  have isRecorded := records.2.2.isRecorded entry (records.2.2.retained.subset member)
  rw [SequencedEvent.IsRecorded, source] at isRecorded
  exact isRecorded.2

theorem Transport.event_of_shows {transport : Transport}
    (reachable : Reachable step new transport) {index : Nat} {event : Event}
    (isShown : transport.Shows index event) : transport.wire[index]? = some event := by
  have records := recordsWire_of_reachable reachable
  cases isShown with
  | page after entry member source =>
      exact event_of_mem records (List.mem_filter.mp member).1 source
  | latest entry isLatest source =>
      exact event_of_mem records (List.mem_of_getLast? isLatest) source
  | found after stop isFound source =>
      rcases (EventJournal.findStopAfter_eq_some isFound).1 with ⟨entry, member, isStop⟩
      have ⟨eventEq, _, sourceEq⟩ := SequencedEvent.stop?_eq_some isStop
      rw [← eventEq]
      exact event_of_mem records member (sourceEq.symm.trans source)
  | latestStop stop isLatest source =>
      rcases records.2.2.latest stop isLatest with ⟨own, isAt, _⟩
      obtain rfl := EventSource.wire.inj (isAt.1.symm.trans source)
      exact isAt.2
  | reply i reply replied running =>
      rw [← running]
      exact (completedAt_of_reply reachable replied).completed

/-- Every later snapshot is the fold of all lines of the chunks received so far,
with the submits between them; chunks and inputs only grow, and the lines
include each one whose event was shown earlier. -/
structure SnapshotsFollow (earlier later : Remembering Transport Timeline) : Prop where
  isFold : later.state.snapshot = (Session.replay later.memory.inputs).snapshot
  atChunk : later.memory.lines = completeLines Ascii.newline later.memory.chunks.flatten
  chunksGrow : earlier.memory.chunks <+: later.memory.chunks
  inputsGrow : earlier.memory.inputs <+: later.memory.inputs
  includesShown : ∀ index event, earlier.state.Shows index event →
    ∃ line, later.memory.lines[index]? = some line ∧ lineEvent line = event

theorem Timeline.grows_of_reachable {earlier later : Remembering Transport Timeline}
    (reachable : Reachable (remember Transport.step Timeline.note) earlier later) :
    earlier.memory.inputs <+: later.memory.inputs ∧
      earlier.memory.chunks <+: later.memory.chunks := by
  apply reachable.invariant
  · exact ⟨List.prefix_refl _, List.prefix_refl _⟩
  · intro current next label grows _ stepped
    rw [(remember_eq_some stepped).2]
    exact ⟨grows.1.trans (List.prefix_append _ _), grows.2.trans (List.prefix_append _ _)⟩

/-- In every run, snapshots never lag what the journal has shown before. -/
theorem snapshots_follow_journal (first rest : List Transport.Label) :
    Always (remember Transport.step Timeline.note) ⟨.new, .empty⟩
      (fun earlier => Always (remember Transport.step Timeline.note) earlier
        (SnapshotsFollow earlier) rest) first := by
  intro before _ earlier ran between _ later ranOn
  have reachable := reachable_of_run ran
  have follows := Timeline.follows_of_reachable reachable
  have grows := Timeline.grows_of_reachable (reachable_of_run ranOn)
  have laterFollows := Timeline.follows_of_reachable (reachable.run ranOn)
  refine ⟨?_, laterFollows.lines, grows.2, grows.1, ?_⟩
  · rcases laterFollows.session with ⟨events, outbound, same⟩
    rw [Transport.snapshot, same]
    rfl
  · intro index event isShown
    have onWire := Transport.event_of_shows reachable.forget isShown
    rw [follows.wire, List.getElem?_map, Option.map_eq_some_iff] at onWire
    rcases onWire with ⟨line, isLine, isEvent⟩
    have linesGrow : earlier.memory.lines <+: later.memory.lines := grows.1.filterMap _
    exact ⟨line, getElem?_eq_some_of_isPrefix linesGrow isLine, isEvent⟩

end Framewalk
