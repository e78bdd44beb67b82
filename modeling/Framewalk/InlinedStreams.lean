import Framewalk.ConsoleText

/-!
# Stream output inlined in an evaluation's reply

The Scheme worker notes the cursor before it runs a program and afterwards
drains the journal above it: the earliest retained number, the entries and the
new cursor are read one after the other while the reader goes on.  Of the
entries it keeps the output streams and of those the first hundred.
-/

namespace Framewalk

open TransitionSystem Transport

def maxInlinedStreamEvents : Nat := 100

/-- The part of a reply that a drain contributes. -/
structure InlinedStreams where
  streams : List ObservedEvent
  truncatedStreams : Bool
  truncatedJournal : Bool

def ObservedEvent.isStream (observed : ObservedEvent) : Bool :=
  observed.kind == "console" || observed.kind == "target-output" || observed.kind == "log"

/-- What the drain shows, or nothing when no cursor was noted. -/
def collectStreamEvents : Option DrainEventsPayload → InlinedStreams
  | none => ⟨[], false, false⟩
  | some payload =>
      let streams := payload.events.filter ObservedEvent.isStream
      if streams.length > maxInlinedStreamEvents then
        ⟨streams.take maxInlinedStreamEvents, true, payload.truncated⟩
      else ⟨streams, false, payload.truncated⟩

/-- The three reads of a drain, each of the journal of its own moment. -/
def drainReads (fromCursor : Nat) (atEarliest atEvents atCursor : EventJournal) :
    DrainEventsPayload :=
  drainPayload fromCursor atEarliest.earliestSeq
    ((atEvents.eventsAfter fromCursor).filterMap SequencedEvent.summary?) atCursor.cursor

/-- The output among entries of the history, as it is shown. -/
def shownStreams (entries : List SequencedEvent) : List ObservedEvent :=
  (entries.filterMap SequencedEvent.summary?).filter ObservedEvent.isStream

theorem collectStreamEvents_streams (payload : DrainEventsPayload) :
    (collectStreamEvents (some payload)).streams =
        (payload.events.filter ObservedEvent.isStream).take maxInlinedStreamEvents ∧
      ((collectStreamEvents (some payload)).truncatedStreams = true ↔
        maxInlinedStreamEvents < (payload.events.filter ObservedEvent.isStream).length) ∧
      (collectStreamEvents (some payload)).truncatedJournal = payload.truncated := by
  simp only [collectStreamEvents]
  split_ifs with many
  · exact ⟨rfl, by simpa using many, rfl⟩
  · have few := Nat.le_of_not_lt many
    exact ⟨(List.take_of_length_le few).symm, by simpa using many, rfl⟩

variable {before during after : Remembering Transport CommandPipe}

theorem truncated_drainReads {earlier first : Transport} (isEarlier : earlier.IsJournaled)
    (isFirst : first.IsJournaled) (extended : earlier.Extends first)
    (inRange : first.history.length < maxEventSeq) (atEvents atCursor : EventJournal) :
    (drainReads earlier.journal.cursor first.journal atEvents atCursor).truncated = true ↔
      earlier.history.length < lost first := by
  have recordingsLe := extended.recordings.length_le
  rw [length_recordings, length_recordings] at recordingsLe
  have short : first.recordings.length < maxEventSeq := by rwa [length_recordings]
  have atRest := EventJournal.truncated_iff (by decide : 1 ≤ eventJournalCapacity) short
    earlier.journal.cursor
  rw [← isFirst.journal] at atRest
  have evicted : evictedCount eventJournalCapacity first.recordings = lost first := by
    rw [evictedCount, lost, length_recordings]
    omega
  have cursor := @EventJournal.cursor_of_short earlier.recordings
    (by rw [length_recordings]; omega) eventJournalCapacity
  rw [evicted] at atRest
  rw [isEarlier.journal, cursor, length_recordings] at atRest ⊢
  exact atRest

/-- The streams of a reply are the first hundred outputs that the journal still
held of what was recorded since the evaluation began; more than hundred are
flagged, and a gap is flagged when it was there at the first read. -/
structure InlinesOutput (before during after : Transport) (inlined : InlinedStreams) : Prop where
  streams : inlined.streams =
    (shownStreams (after.history.drop (max (lost after) before.history.length))).take
      maxInlinedStreamEvents
  truncatedStreams : inlined.truncatedStreams = true ↔ maxInlinedStreamEvents <
    (shownStreams (after.history.drop (max (lost after) before.history.length))).length
  truncatedJournal : inlined.truncatedJournal = true ↔ before.history.length < lost during

theorem inlinesOutput_of_journaled {before during after : Transport}
    (isBefore : before.IsJournaled) (isDuring : during.IsJournaled) (isAfter : after.IsJournaled)
    (first : before.Extends during) (second : during.Extends after)
    (inRange : after.history.length < maxEventSeq) (atCursor : EventJournal) :
    InlinesOutput before during after (collectStreamEvents (some
      (drainReads before.journal.cursor during.journal after.journal atCursor))) := by
  have duringLe := second.recordings.length_le
  rw [length_recordings, length_recordings] at duringLe
  have duringRange : during.history.length < maxEventSeq := by omega
  obtain ⟨streams, truncatedStreams, truncatedJournal⟩ := collectStreamEvents_streams
    (drainReads before.journal.cursor during.journal after.journal atCursor)
  have events : (drainReads before.journal.cursor during.journal after.journal atCursor).events =
      (after.history.drop (max (lost after) before.history.length)).filterMap
        SequencedEvent.summary? := by
    rw [← eventsAfter_eq isBefore isAfter (first.trans second) inRange]
    rfl
  rw [events] at streams truncatedStreams
  refine ⟨streams, truncatedStreams, ?_⟩
  rw [truncatedJournal]
  exact truncated_drainReads isBefore isDuring first duringRange _ _

theorem seq_of_mem_drop {transport : Transport} (journaled : transport.IsJournaled)
    (inRange : transport.history.length < maxEventSeq) {count : Nat} {entry : SequencedEvent}
    (member : entry ∈ transport.history.drop count) :
    count < entry.seq ∧ entry.seq ≤ transport.history.length := by
  obtain ⟨index, isEntry⟩ := List.mem_iff_getElem?.mp member
  have isIndex := (List.getElem?_eq_some_iff.mp isEntry).1
  rw [List.length_drop] at isIndex
  rw [List.getElem?_drop, journaled.history, numbered_eq_history (by rwa [length_recordings]),
    getElem?_history, Option.map_eq_some_iff] at isEntry
  obtain ⟨recording, _, rfl⟩ := isEntry
  dsimp only
  omega

/-- Every shown output carries a number above what was recorded before and up to
what is recorded now. -/
theorem InlinesOutput.seq_of_mem {before during after : Transport} {inlined : InlinedStreams}
    (inlines : InlinesOutput before during after inlined) (isAfter : after.IsJournaled)
    (inRange : after.history.length < maxEventSeq) {observed : ObservedEvent}
    (member : observed ∈ inlined.streams) :
    before.history.length < observed.seq ∧ observed.seq ≤ after.history.length := by
  rw [inlines.streams, shownStreams] at member
  have inSummaries := List.mem_of_mem_filter (List.mem_of_mem_take member)
  obtain ⟨entry, inHistory, isSummary⟩ := List.mem_filterMap.mp inSummaries
  rw [SequencedEvent.seq_of_summary? isSummary]
  have range := seq_of_mem_drop isAfter inRange inHistory
  omega

/-- The history since a moment is what the window has let go of it and what is
still there. -/
theorem shownStreams_since (transport : Transport) (count : Nat) :
    shownStreams (transport.history.drop count) =
      shownStreams ((transport.history.take (lost transport)).drop count) ++
        shownStreams (transport.history.drop (max (lost transport) count)) := by
  have split : transport.history.drop count =
      (transport.history.take (lost transport)).drop count ++
        transport.history.drop (max (lost transport) count) := by
    rcases Nat.le_total (lost transport) count with before | after
    · have nothing : (transport.history.take (lost transport)).drop count = [] :=
        List.drop_eq_nil_of_le ((List.length_take_le _ _).trans before)
      rw [nothing, List.nil_append, Nat.max_eq_right before]
    · rw [Nat.max_eq_left after, List.drop_take]
      have rest : transport.history.drop (lost transport) =
          (transport.history.drop count).drop (lost transport - count) := by
        rw [List.drop_drop, Nat.add_sub_cancel' after]
      rw [rest, List.take_append_drop]
  rw [shownStreams, split, List.filterMap_append, List.filter_append]
  rfl

/-- What an evaluation that ran between the first two states inlines in its
reply: outputs of its own time only, all of them up to the first hundred when
the window has not moved past its beginning, among them whatever GDB printed
before it answered a command that the evaluation ran.  If nothing is flagged,
then only what was evicted after the first read is not shown. -/
structure InlinesEvaluation (before during after : Remembering Transport CommandPipe)
    (inlined : InlinedStreams) : Prop where
  inlines : InlinesOutput before.state during.state after.state inlined
  ofItsTime : ∀ observed ∈ inlined.streams, before.state.history.length < observed.seq ∧
    observed.seq ≤ after.state.history.length
  complete : after.state.history.length ≤ before.state.history.length + eventJournalCapacity →
    inlined.streams = (shownStreams
      (after.state.history.drop before.state.history.length)).take maxInlinedStreamEvents ∧
    inlined.truncatedJournal = false
  unflagged : inlined.truncatedStreams = false → inlined.truncatedJournal = false →
    lost during.state ≤ before.state.history.length ∧
      shownStreams (after.state.history.drop before.state.history.length) =
        shownStreams ((after.state.history.take (lost after.state)).drop
          before.state.history.length) ++ inlined.streams
  ownOutput : ∀ i outcome, (before.state.calls i).isFresh = true →
    during.state.calls i = .done (.outcome outcome) →
    ∃ token index, (i, token) ∈ during.memory.issued ∧
      during.state.wire[index]? = some (.commandCompleted token outcome) ∧
      before.state.wire.length ≤ index ∧
      ∀ printed, before.state.recorded ≤ printed → printed < index →
        ∃ entry ∈ after.state.history.drop before.state.history.length,
          entry.source = .wire printed ∧ after.state.wire[printed]? = some entry.event

/-- Every drain at the end of an evaluation inlines the output of that
evaluation, however the reader and other clients go on meanwhile. -/
theorem eval_inlines_own_output (earlier : ReachesAnswering ⟨new, .empty⟩ before)
    (evaluated : ReachesAnswering before during) (later : ReachesAnswering during after)
    (inRange : after.state.history.length < maxEventSeq) (atCursor : EventJournal) :
    InlinesEvaluation before during after (collectStreamEvents (some (drainReads
      before.state.journal.cursor during.state.journal after.state.journal atCursor))) := by
  have keeps := keepsOutcomes_of_reaches earlier
  have keepsDuring := keepsOutcomes_later keeps evaluated
  have keepsAfter := keepsOutcomes_later keepsDuring later
  have isBefore := isJournaled_of_reachable keeps.reachable
  have isDuring := isJournaled_of_reachable keepsDuring.reachable
  have isAfter := isJournaled_of_reachable keepsAfter.reachable
  have first := extends_of_reaches evaluated
  have second := extends_of_reaches later
  have inlines := inlinesOutput_of_journaled isBefore isDuring isAfter first second inRange atCursor
  have records := recordsWire_of_reachable keeps.reachable
  refine ⟨inlines, fun observed member => inlines.seq_of_mem isAfter inRange member, ?_, ?_, ?_⟩
  · intro retained
    have notLost : lost after.state ≤ before.state.history.length := by
      unfold lost
      omega
    have grown := second.recordings.length_le
    rw [length_recordings, length_recordings] at grown
    constructor
    · rw [inlines.streams, Nat.max_eq_right notLost]
    · rw [Bool.eq_false_iff, Ne, inlines.truncatedJournal]
      unfold lost
      omega
  · intro allStreams allEntries
    have few := Nat.le_of_not_lt (mt inlines.truncatedStreams.mpr (Bool.eq_false_iff.mp allStreams))
    refine
      ⟨Nat.le_of_not_lt (mt inlines.truncatedJournal.mpr (Bool.eq_false_iff.mp allEntries)), ?_⟩
    rw [inlines.streams, List.take_of_length_le few]
    exact shownStreams_since after.state before.state.history.length
  · intro i outcome fresh returned
    obtain ⟨token, index, own⟩ := keepsDuring.returned i outcome returned
    refine ⟨token, index, own.issued, own.completed,
      length_le_of_ownOutcome keeps evaluated fresh own, ?_⟩
    intro printed isLater isEarlier
    obtain ⟨entry, member, source, onWire⟩ :=
      exists_entry_between isBefore isDuring first records own.journaled isLater isEarlier
    refine ⟨entry, ?_, source, ?_⟩
    · have split := history_take isDuring isAfter second
      rw [← split] at member
      rw [List.drop_take] at member
      exact List.mem_of_mem_take member
    · rwa [getElem?_of_isPrefix second.wire
        (Nat.lt_trans isEarlier (List.getElem?_eq_some_iff.mp own.completed).1)]

theorem eval_inlines_banner :
    ∃ after inlined, InlinesEvaluation versionAsked after after inlined ∧
      inlined.streams.map ObservedEvent.text = [some " GNU gdb", some " 15\n"] := by
  have prints :
      ((run (restrict (remember step CommandPipe.note) answersReceived) versionAsked
        bannerPrinted).any fun after =>
          after.state.history.length == 4 &&
          (collectStreamEvents (some (drainReads versionAsked.state.journal.cursor
            after.state.journal after.state.journal after.state.journal))).streams.map
              ObservedEvent.text == [some " GNU gdb", some " 15\n"]) = true := by
    decide +kernel
  rcases (Option.any_eq_true _ _).mp prints with ⟨after, ran, checks⟩
  rw [Bool.and_eq_true, beq_iff_eq, beq_iff_eq] at checks
  have asked : ReachesAnswering ⟨new, .empty⟩ versionAsked :=
    .tail (.start 0 (.submit (.structured ⟨"gdb-version", [], []⟩))) .refl rfl rfl
  have answered : ReachesAnswering versionAsked after :=
    reaches_of_run (eachStep_of_run_restrict ran) (run_of_run_restrict ran)
  have inRange : after.state.history.length < maxEventSeq := by
    rw [checks.1]
    decide
  exact ⟨after, _, eval_inlines_own_output asked answered .refl inRange after.state.journal,
    checks.2⟩

end Framewalk
