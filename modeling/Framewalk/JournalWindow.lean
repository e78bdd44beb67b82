import Framewalk.JournalPaging

/-!
# The journal as a sliding window

As long as the sequence numbers do not saturate, the journal holds the last
recordings numbered without a gap, and a drain on a journal at rest reports
truncation exactly when an event above its cursor has been evicted.
-/

namespace Framewalk

open TransitionSystem

def history (recordings : List Recording) : List SequencedEvent :=
  recordings.mapIdx fun index recording => ⟨index + 1, recording.event, recording.source⟩

def evictedCount (capacity : Nat) (recordings : List Recording) : Nat :=
  recordings.length - min recordings.length capacity

namespace EventJournal

/-- A drain during which nothing is recorded. -/
def drainObservedEvents (journal : EventJournal) (fromCursor : Nat) : DrainEventsPayload :=
  drainPayload fromCursor journal.earliestSeq
    ((journal.eventsAfter fromCursor).filterMap SequencedEvent.summary?) journal.cursor

/-- What the journal shows is the end of the history. -/
structure IsWindow (journal : EventJournal) (capacity : Nat) (recordings : List Recording) :
    Prop where
  entries : journal.entries = (history recordings).drop (evictedCount capacity recordings)
  length : journal.entries.length = min recordings.length capacity
  cursor : journal.cursor = recordings.length
  eventsAfter : ∀ after, journal.eventsAfter after =
    ((history recordings).drop (evictedCount capacity recordings)).filter
      fun entry => after < entry.seq
  latestStopped : journal.latestStopped =
    ((history recordings).filterMap SequencedEvent.stop?).getLast?
  truncated : ∀ fromCursor, (journal.drainObservedEvents fromCursor).truncated = true ↔
    ∃ evicted ∈ (history recordings).take (evictedCount capacity recordings),
      fromCursor < evicted.seq

end EventJournal

theorem getElem?_history (recordings : List Recording) (index : Nat) :
    (history recordings)[index]? =
      recordings[index]?.map fun recording => ⟨index + 1, recording.event, recording.source⟩ :=
  List.getElem?_mapIdx

theorem length_history (recordings : List Recording) :
    (history recordings).length = recordings.length :=
  List.length_mapIdx

theorem numbered_eq_history {recordings : List Recording}
    (inRange : recordings.length < maxEventSeq) : numbered recordings = history recordings := by
  apply List.ext_getElem?
  intro index
  rw [getElem?_numbered, getElem?_history]
  by_cases isIndex : index < recordings.length
  · have seqEq : seqAt index = index + 1 := by
      unfold seqAt
      omega
    rw [seqEq]
  · rw [List.getElem?_eq_none (Nat.le_of_not_lt isIndex)]
    rfl

theorem exists_evicted_iff {capacity fromCursor : Nat} {recordings : List Recording} :
    (∃ evicted ∈ (history recordings).take (evictedCount capacity recordings),
        fromCursor < evicted.seq) ↔
      fromCursor < evictedCount capacity recordings := by
  constructor
  · rintro ⟨evicted, member, above⟩
    rcases List.mem_iff_getElem?.mp member with ⟨index, isEvicted⟩
    rw [List.getElem?_take] at isEvicted
    split_ifs at isEvicted with inRange
    rw [getElem?_history, Option.map_eq_some_iff] at isEvicted
    rcases isEvicted with ⟨recording, _, rfl⟩
    have : fromCursor < index + 1 := above
    omega
  · intro above
    have inRange : fromCursor < recordings.length := by
      have : evictedCount capacity recordings ≤ recordings.length := Nat.sub_le _ _
      omega
    have isEvicted : ((history recordings).take (evictedCount capacity recordings))[fromCursor]? =
        some ⟨fromCursor + 1, recordings[fromCursor].event, recordings[fromCursor].source⟩ := by
      rw [List.getElem?_take_of_lt above, getElem?_history, List.getElem?_eq_getElem inRange]
      rfl
    exact ⟨_, List.mem_of_getElem? isEvicted, Nat.lt_succ_self fromCursor⟩

namespace EventJournal

theorem entries_eq_window {capacity : Nat} {recordings : List Recording}
    (inRange : recordings.length < maxEventSeq) :
    (ofRecordings capacity recordings).entries =
      (history recordings).drop (evictedCount capacity recordings) := by
  have counts : recordings.length - capacity = evictedCount capacity recordings := by
    unfold evictedCount
    omega
  rw [entries_ofRecordings, numbered_eq_history inRange, counts]

theorem earliestSeq_eq {capacity : Nat} (positive : 1 ≤ capacity) {recordings : List Recording}
    (inRange : recordings.length < maxEventSeq) :
    (ofRecordings capacity recordings).earliestSeq =
      if recordings = [] then none else some (evictedCount capacity recordings + 1) := by
  rw [earliestSeq, entries_eq_window inRange, List.head?_drop, getElem?_history]
  by_cases empty : recordings = []
  · rw [if_pos empty, empty]
    rfl
  · have isIndex : evictedCount capacity recordings < recordings.length := by
      have := List.length_pos_iff.mpr empty
      unfold evictedCount
      omega
    rw [if_neg empty, List.getElem?_eq_getElem isIndex]
    rfl

/-- The truncation test compares the successor of the cursor, which saturates,
with the earliest retained number. -/
theorem truncated_iff {capacity : Nat} (positive : 1 ≤ capacity) {recordings : List Recording}
    (inRange : recordings.length < maxEventSeq) (fromCursor : Nat) :
    ((ofRecordings capacity recordings).drainObservedEvents fromCursor).truncated = true ↔
      fromCursor < evictedCount capacity recordings := by
  have evictedLe : evictedCount capacity recordings ≤ recordings.length := Nat.sub_le _ _
  simp only [drainObservedEvents, drainPayload, earliestSeq_eq positive inRange]
  by_cases empty : recordings = []
  · rw [if_pos empty, empty]
    simp [evictedCount]
  · rw [if_neg empty, Option.any_some, decide_eq_true_iff]
    constructor
    · intro overtaken
      omega
    · intro overtaken
      omega

/-- Recording fewer events than there are sequence numbers slides a window over
them. -/
theorem isWindow_ofRecordings {capacity : Nat} (positive : 1 ≤ capacity)
    {recordings : List Recording} (inRange : recordings.length < maxEventSeq) :
    (ofRecordings capacity recordings).IsWindow capacity recordings := by
  have entriesEq : (ofRecordings capacity recordings).entries =
      (history recordings).drop (evictedCount capacity recordings) :=
    entries_eq_window inRange
  constructor
  · exact entriesEq
  · rw [entriesEq, List.length_drop, length_history]
    unfold evictedCount
    omega
  · rw [cursor_ofRecordings]
    unfold seqAt
    omega
  · intro after
    rw [EventJournal.eventsAfter, entriesEq]
  · rw [latestStopped_ofRecordings, numbered_eq_history inRange]
  · intro fromCursor
    rw [truncated_iff positive inRange, exists_evicted_iff]

/-- Three recordings in a journal for two. -/
theorem isWindow_two :
    (ofRecordings 2 [⟨.console "a", .wire 0⟩, ⟨.console "b", .wire 1⟩,
        ⟨.console "c", .wire 2⟩]).IsWindow 2
      [⟨.console "a", .wire 0⟩, ⟨.console "b", .wire 1⟩, ⟨.console "c", .wire 2⟩] :=
  isWindow_ofRecordings (by decide) (by decide)

theorem run_drainObservedEvents {paging : Paging} (phase : paging.phase = .started) :
    run Paging.step paging [.earliestEventSeq, .eventsAfter, .eventCursor] =
      some { paging with
        cursor := paging.journal.cursor
        drains := paging.drains ++ [paging.journal.drainObservedEvents paging.cursor] } := by
  rcases paging with ⟨journal, cursor, _, drains⟩
  cases phase
  rfl

end EventJournal

end Framewalk
