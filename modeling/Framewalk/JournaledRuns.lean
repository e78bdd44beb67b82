import Framewalk.JournalWindow
import Framewalk.LineLimit

/-!
# The journal along a run

In every reachable state the journal is the window over all that was recorded,
and of that the part that came from GDB is the beginning of the wire, in order.
What two states of one run have recorded differs by what was recorded between
them, so a reader that keeps a cursor sees exactly that part, as long as the
window still holds it.
-/

namespace Framewalk

open TransitionSystem

namespace Transport

/-- Everything that was ever recorded. -/
def recordings (transport : Transport) : List Recording :=
  transport.history.map fun entry => ⟨entry.event, entry.source⟩

/-- The journal is the window over the history, the history is numbered in
order, its wire events are what was recorded of the wire, and the server itself
adds nothing but log lines. -/
structure IsJournaled (transport : Transport) : Prop where
  journal : transport.journal = .ofRecordings eventJournalCapacity transport.recordings
  history : transport.history = numbered transport.recordings
  wire : transport.history.filterMap SequencedEvent.wireEvent? =
    transport.wire.take transport.recorded
  synthetic : ∀ entry ∈ transport.history, entry.source = .synthetic →
    ∃ text, entry.event = .log text

variable {transport next : Transport} {label : Label}

theorem isJournaled_new : new.IsJournaled where
  journal := rfl
  history := rfl
  wire := rfl
  synthetic := by
    intro entry member
    cases member

@[simp]
theorem length_recordings (transport : Transport) :
    transport.recordings.length = transport.history.length :=
  List.length_map _

theorem recordings_recordEvent (transport : Transport) (event : Event) (source : EventSource) :
    (transport.recordEvent event source).recordings =
      transport.recordings ++ [⟨event, source⟩] := by
  simp [recordings, recordEvent, EventJournal.nextEntry]

/-- Recording one event keeps the journal and the history in step. -/
theorem IsJournaled.record (journaled : transport.IsJournaled) (event : Event)
    (source : EventSource) :
    (transport.recordEvent event source).journal =
        .ofRecordings eventJournalCapacity (transport.recordEvent event source).recordings ∧
      (transport.recordEvent event source).history =
        numbered (transport.recordEvent event source).recordings := by
  rw [recordings_recordEvent, EventJournal.ofRecordings_append_singleton, ← journaled.journal,
    numbered_append_singleton, ← journaled.history]
  refine ⟨rfl, ?_⟩
  have nextSeq := EventJournal.nextSeq_ofRecordings eventJournalCapacity transport.recordings
  rw [← journaled.journal] at nextSeq
  change transport.history ++ [transport.journal.nextEntry event source] = _
  rw [EventJournal.nextEntry, nextSeq]

theorem isJournaled_step (records : transport.RecordsWire) (journaled : transport.IsJournaled)
    (stepped : transport.step label = some next) : next.IsJournaled := by
  cases transition_of_step stepped with
  | @log i text _ =>
      obtain ⟨journal, history⟩ := journaled.record (.log text) .synthetic
      refine ⟨journal, history, ?_, ?_⟩
      · change (transport.history ++ [_]).filterMap _ = _
        rw [List.filterMap_append, journaled.wire]
        exact List.append_nil _
      · intro entry member isSynthetic
        rcases List.mem_append.mp member with before | isNew
        · exact journaled.synthetic entry before isSynthetic
        · rw [List.mem_singleton.mp isNew]
          exact ⟨text, rfl⟩
  | @record event rest journaling =>
      obtain ⟨journal, history⟩ := journaled.record event (.wire transport.recorded)
      refine ⟨journal, history, ?_, ?_⟩
      · have left := records.2.1 (event :: rest) (by rw [journaling]; rfl)
        have isNext : transport.wire[transport.recorded]? = some event := by
          rw [← List.head?_drop, left.2]
          rfl
        change (transport.history ++ [_]).filterMap _ = transport.wire.take (transport.recorded + 1)
        rw [List.filterMap_append, journaled.wire, List.take_add_one, isNext]
        rfl
      · intro entry member isSynthetic
        rcases List.mem_append.mp member with before | isNew
        · exact journaled.synthetic entry before isSynthetic
        · rw [List.mem_singleton.mp isNew] at isSynthetic
          cases isSynthetic
  | receive =>
      refine ⟨journaled.journal, journaled.history, ?_, journaled.synthetic⟩
      rw [List.take_append_of_le_length records.2.2.1]
      exact journaled.wire
  | _ => exact ⟨journaled.journal, journaled.history, journaled.wire, journaled.synthetic⟩

theorem isJournaled_of_reachable (reachable : Reachable step new transport) :
    transport.IsJournaled := by
  induction reachable with
  | refl => exact isJournaled_new
  | tail label reached _ stepped ih =>
      exact isJournaled_step (recordsWire_of_reachable reached) ih stepped

/-- What a later state of a run keeps of an earlier one. -/
structure Extends (before after : Transport) : Prop where
  wire : before.wire <+: after.wire
  recordings : before.recordings <+: after.recordings
  recorded : before.recorded ≤ after.recorded

theorem Extends.refl (transport : Transport) : transport.Extends transport :=
  ⟨List.prefix_refl _, List.prefix_refl _, Nat.le_refl _⟩

theorem Extends.trans {first second third : Transport} (earlier : first.Extends second)
    (later : second.Extends third) : first.Extends third :=
  ⟨earlier.wire.trans later.wire, earlier.recordings.trans later.recordings,
    Nat.le_trans earlier.recorded later.recorded⟩

theorem extends_of_step (stepped : transport.step label = some next) :
    transport.Extends next := by
  have evolves := (transition_of_step stepped).evolves
  refine ⟨evolves.wire, ?_, evolves.recorded⟩
  rcases evolves.history with same | ⟨event, source, grown, _⟩
  · rw [recordings, recordings, same]
  · rw [recordings, recordings, grown, List.map_append]
    exact List.prefix_append _ _

theorem history_take {earlier later : Transport} (isEarlier : earlier.IsJournaled)
    (isLater : later.IsJournaled) (extended : earlier.Extends later) :
    later.history.take earlier.history.length = earlier.history := by
  obtain ⟨added, recordingsEq⟩ := extended.recordings
  rw [isLater.history, isEarlier.history, ← numbered_take, length_numbered, ← recordingsEq,
    List.take_left]

/-- What was recorded of the wire between two states, as entries and as a part
of the wire. -/
theorem wire_between {before after : Transport} (isBefore : before.IsJournaled)
    (isAfter : after.IsJournaled) (extended : before.Extends after) :
    (after.history.drop before.history.length).filterMap SequencedEvent.wireEvent? =
      (after.wire.take after.recorded).drop (before.wire.take before.recorded).length := by
  have historyEq := history_take isBefore isAfter extended
  have split := List.take_append_drop before.history.length after.history
  have wire := isAfter.wire
  rw [← split, List.filterMap_append, historyEq, isBefore.wire] at wire
  rw [← wire, List.drop_left]

end Transport

/-- The part of the history above a number begins at that number. -/
theorem filter_history (recordings : List Recording) (count after : Nat) :
    ((history recordings).drop count).filter (fun entry => decide (after < entry.seq)) =
      (history recordings).drop (max count after) := by
  have seqAt {first index : Nat} {entry : SequencedEvent}
      (isEntry : ((history recordings).drop first)[index]? = some entry) :
      entry.seq = first + index + 1 := by
    rw [List.getElem?_drop, getElem?_history, Option.map_eq_some_iff] at isEntry
    obtain ⟨recording, _, rfl⟩ := isEntry
    rfl
  have split := List.take_append_drop (after - count) ((history recordings).drop count)
  have rest : ((history recordings).drop count).drop (after - count) =
      (history recordings).drop (max count after) := by
    rw [List.drop_drop]
    congr 1
    omega
  have below : (((history recordings).drop count).take (after - count)).filter
      (fun entry => decide (after < entry.seq)) = [] := by
    rw [List.filter_eq_nil_iff]
    intro entry member
    obtain ⟨index, isEntry⟩ := List.mem_iff_getElem?.mp member
    rw [List.getElem?_take] at isEntry
    split_ifs at isEntry with inRange
    have := seqAt isEntry
    simp only [decide_eq_true_eq]
    omega
  have above : ((history recordings).drop (max count after)).filter
      (fun entry => decide (after < entry.seq)) = (history recordings).drop (max count after) := by
    rw [List.filter_eq_self]
    intro entry member
    obtain ⟨index, isEntry⟩ := List.mem_iff_getElem?.mp member
    have := seqAt isEntry
    simp only [decide_eq_true_eq]
    omega
  rw [← split, List.filter_append, below, List.nil_append, rest, above]

namespace EventJournal

theorem cursor_of_short {recordings : List Recording} (inRange : recordings.length < maxEventSeq)
    (capacity : Nat) : (ofRecordings capacity recordings).cursor = recordings.length := by
  rw [cursor_ofRecordings, seqAt]
  omega

theorem eventsAfter_ofRecordings {recordings : List Recording}
    (inRange : recordings.length < maxEventSeq) (capacity after : Nat) :
    (ofRecordings capacity recordings).eventsAfter after =
      (history recordings).drop (max (evictedCount capacity recordings) after) := by
  rw [eventsAfter, entries_eq_window inRange]
  exact filter_history recordings _ after

end EventJournal

/-- How many entries the window has let go. -/
def lost (transport : Transport) : Nat :=
  transport.history.length - eventJournalCapacity

theorem Transport.IsJournaled.entries {transport : Transport} (journaled : transport.IsJournaled) :
    transport.journal.entries = transport.history.drop (lost transport) := by
  rw [journaled.journal, EventJournal.entries_ofRecordings, ← journaled.history,
    length_recordings, lost]

/-- A client that reads above the cursor of an earlier state of its run is shown
what was recorded since, in order and nothing else, as far as the window still
holds it. -/
theorem eventsAfter_eq {earlier later : Transport} (isEarlier : earlier.IsJournaled)
    (isLater : later.IsJournaled) (extended : earlier.Extends later)
    (inRange : later.history.length < maxEventSeq) :
    later.journal.eventsAfter earlier.journal.cursor =
      later.history.drop (max (lost later) earlier.history.length) := by
  have recordingsLe := extended.recordings.length_le
  rw [Transport.length_recordings, Transport.length_recordings] at recordingsLe
  have evicted : evictedCount eventJournalCapacity later.recordings = lost later := by
    rw [evictedCount, lost, Transport.length_recordings]
    omega
  have cursor := @EventJournal.cursor_of_short earlier.recordings
    (by rw [Transport.length_recordings]; omega) eventJournalCapacity
  rw [isLater.journal, isEarlier.journal,
    EventJournal.eventsAfter_ofRecordings (by rwa [Transport.length_recordings]), evicted, cursor,
    Transport.length_recordings,
    ← numbered_eq_history (by rwa [Transport.length_recordings]), ← isLater.history]

end Framewalk
