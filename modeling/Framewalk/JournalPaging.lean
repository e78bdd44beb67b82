import Framewalk.JournalHistory
import Framewalk.ObservedEvents
import Framewalk.TransitionSystem

/-!
# Paging through the journal

A drain locks the journal three times: for the earliest retained number, for the
entries above its cursor, and for the cursor it returns.  Events are recorded
and evicted in between, and the next drain starts from the returned cursor.
-/

namespace Framewalk

open TransitionSystem

structure DrainEventsPayload where
  fromCursor : Nat
  cursor : Nat
  truncated : Bool
  retainedFrom : Option Nat
  events : List ObservedEvent

/-- Which of its reads a drain has made. -/
inductive DrainPhase where
  | started
  | readEarliest (retainedFrom : Option Nat)
  | readEvents (retainedFrom : Option Nat) (events : List ObservedEvent)

/-- The journal, and a client that drains it from its cursor on. -/
structure Paging where
  journal : EventJournal
  cursor : Nat
  phase : DrainPhase
  drains : List DrainEventsPayload

inductive PagingLabel where
  | record (recording : Recording)
  | earliestEventSeq
  | eventsAfter
  | eventCursor

/-- A drain that has made all its reads. -/
def drainPayload (fromCursor : Nat) (retainedFrom : Option Nat) (events : List ObservedEvent)
    (cursor : Nat) : DrainEventsPayload where
  fromCursor
  cursor
  truncated := retainedFrom.any fun earliest => min (fromCursor + 1) maxEventSeq < earliest
  retainedFrom
  events

namespace Paging

/-- A client may start at any cursor that the journal has handed out: the one
after the earlier recordings. -/
def start (earlier later : List Recording) : Paging where
  journal := .ofRecordings eventJournalCapacity (earlier ++ later)
  cursor := (EventJournal.ofRecordings eventJournalCapacity earlier).cursor
  phase := .started
  drains := []

def step (paging : Paging) : PagingLabel → Option Paging
  | .record recording =>
      some { paging with
        journal := paging.journal.push recording.event recording.source eventJournalCapacity }
  | .earliestEventSeq =>
      match paging.phase with
      | .started => some { paging with phase := .readEarliest paging.journal.earliestSeq }
      | _ => none
  | .eventsAfter =>
      match paging.phase with
      | .readEarliest retainedFrom =>
          some { paging with
            phase := .readEvents retainedFrom
              ((paging.journal.eventsAfter paging.cursor).filterMap SequencedEvent.summary?) }
      | _ => none
  | .eventCursor =>
      match paging.phase with
      | .readEvents retainedFrom events =>
          some { paging with
            cursor := paging.journal.cursor
            phase := .started
            drains := paging.drains ++
              [drainPayload paging.cursor retainedFrom events paging.journal.cursor] }
      | _ => none

theorem step_cases {paging next : Paging} {label : PagingLabel}
    (stepped : paging.step label = some next) :
    (∃ recording, label = .record recording ∧
        next = { paging with
          journal := paging.journal.push recording.event recording.source
            eventJournalCapacity }) ∨
      (label = .earliestEventSeq ∧ paging.phase = .started ∧
        next = { paging with phase := .readEarliest paging.journal.earliestSeq }) ∨
      (∃ retainedFrom, label = .eventsAfter ∧ paging.phase = .readEarliest retainedFrom ∧
        next = { paging with
          phase := .readEvents retainedFrom
            ((paging.journal.eventsAfter paging.cursor).filterMap SequencedEvent.summary?) }) ∨
      ∃ retainedFrom events, label = .eventCursor ∧
        paging.phase = .readEvents retainedFrom events ∧
        next = { paging with
          cursor := paging.journal.cursor
          phase := .started
          drains := paging.drains ++
            [drainPayload paging.cursor retainedFrom events paging.journal.cursor] } := by
  cases label with
  | record recording => exact Or.inl ⟨recording, rfl, (Option.some.inj stepped).symm⟩
  | earliestEventSeq =>
      simp only [step] at stepped
      split at stepped
      · next phase => exact Or.inr (Or.inl ⟨rfl, phase, (Option.some.inj stepped).symm⟩)
      · cases stepped
  | eventsAfter =>
      simp only [step] at stepped
      split at stepped
      · next retainedFrom phase =>
          exact Or.inr (Or.inr (Or.inl
            ⟨retainedFrom, rfl, phase, (Option.some.inj stepped).symm⟩))
      · cases stepped
  | eventCursor =>
      simp only [step] at stepped
      split at stepped
      · next retainedFrom events phase =>
          exact Or.inr (Or.inr (Or.inr
            ⟨retainedFrom, events, rfl, phase, (Option.some.inj stepped).symm⟩))
      · cases stepped

end Paging

/-- Everything recorded, and how much of it there was when the current drain
read the earliest number and when it read the entries. -/
structure PagingMemory where
  recordings : List Recording
  atEarliest : Nat
  atEvents : Nat

namespace PagingMemory

def start (earlier later : List Recording) : PagingMemory :=
  ⟨earlier ++ later, 0, 0⟩

def note (memory : PagingMemory) (_ : Paging) (label : PagingLabel) (_ : Paging) :
    PagingMemory :=
  match label with
  | .record recording => { memory with recordings := memory.recordings ++ [recording] }
  | .earliestEventSeq => { memory with atEarliest := memory.recordings.length }
  | .eventsAfter => { memory with atEvents := memory.recordings.length }
  | .eventCursor => memory

/-- The memory explains the journal and what the current drain has read, and the
drains so far follow each other from the first cursor to the current one. -/
structure Tracks (memory : PagingMemory) (first : Nat) (paging : Paging) : Prop where
  journal : paging.journal = .ofRecordings eventJournalCapacity memory.recordings
  notBefore : first ≤ paging.cursor
  notAhead : paging.cursor ≤ paging.journal.cursor
  earliest : ∀ retainedFrom events, paging.phase = .readEarliest retainedFrom ∨
      paging.phase = .readEvents retainedFrom events →
    memory.atEarliest ≤ memory.recordings.length ∧
      retainedFrom = (EventJournal.ofRecordings eventJournalCapacity
        (memory.recordings.take memory.atEarliest)).earliestSeq
  events : ∀ retainedFrom events, paging.phase = .readEvents retainedFrom events →
    memory.atEvents ≤ memory.recordings.length ∧
      events = ((EventJournal.ofRecordings eventJournalCapacity
        (memory.recordings.take memory.atEvents)).eventsAfter paging.cursor).filterMap
          SequencedEvent.summary?
  past : ∀ drain ∈ paging.drains, first ≤ drain.fromCursor ∧ drain.cursor ≤ paging.cursor

section Step

variable {memory : PagingMemory} {first : Nat} {paging : Paging}

theorem Tracks.record (tracks : memory.Tracks first paging) (recording : Recording) :
    Tracks { memory with recordings := memory.recordings ++ [recording] } first
      { paging with
        journal := paging.journal.push recording.event recording.source
          eventJournalCapacity } := by
  -- What had been recorded at an earlier read is not changed by a new recording.
  have earlierReads : ∀ count ≤ memory.recordings.length,
      count ≤ (memory.recordings ++ [recording]).length ∧
        (memory.recordings ++ [recording]).take count = memory.recordings.take count := by
    intro count inRange
    refine ⟨?_, List.take_append_of_le_length inRange⟩
    exact Nat.le_trans inRange (List.length_append ▸ Nat.le_add_right _ _)
  have grown := EventJournal.ofRecordings_append_singleton eventJournalCapacity
    memory.recordings recording
  refine ⟨?_, tracks.notBefore, ?_, ?_, ?_, tracks.past⟩
  · exact (congrArg (EventJournal.push · _ _ _) tracks.journal).trans grown.symm
  · have grows := paging.journal.nextSeq_le_push recording.event recording.source
      eventJournalCapacity
    exact Nat.le_trans tracks.notAhead (Nat.sub_le_sub_right grows 1)
  · intro retainedFrom events phase
    rcases tracks.earliest retainedFrom events phase with ⟨inRange, same⟩
    have unchanged := earlierReads memory.atEarliest inRange
    exact ⟨unchanged.1, unchanged.2.symm ▸ same⟩
  · intro retainedFrom events phase
    rcases tracks.events retainedFrom events phase with ⟨inRange, same⟩
    have unchanged := earlierReads memory.atEvents inRange
    exact ⟨unchanged.1, unchanged.2.symm ▸ same⟩

theorem Tracks.readEarliest (tracks : memory.Tracks first paging) :
    Tracks { memory with atEarliest := memory.recordings.length } first
      { paging with phase := .readEarliest paging.journal.earliestSeq } := by
  refine ⟨tracks.journal, tracks.notBefore, tracks.notAhead, ?_, ?_, tracks.past⟩
  · rintro retainedFrom events (isPhase | isPhase)
    · cases isPhase
      refine ⟨Nat.le_refl _, ?_⟩
      simp only [List.take_length, tracks.journal]
    · cases isPhase
  · intro retainedFrom events isPhase
    cases isPhase

theorem Tracks.readEvents (tracks : memory.Tracks first paging) {retainedFrom : Option Nat}
    (phase : paging.phase = .readEarliest retainedFrom) :
    Tracks { memory with atEvents := memory.recordings.length } first
      { paging with
        phase := .readEvents retainedFrom
          ((paging.journal.eventsAfter paging.cursor).filterMap SequencedEvent.summary?) } := by
  refine ⟨tracks.journal, tracks.notBefore, tracks.notAhead, ?_, ?_, tracks.past⟩
  · rintro otherFrom events (isPhase | isPhase)
    · cases isPhase
    · cases isPhase
      exact tracks.earliest retainedFrom [] (Or.inl phase)
  · intro otherFrom events isPhase
    cases isPhase
    refine ⟨Nat.le_refl _, ?_⟩
    simp only [List.take_length, tracks.journal]

theorem Tracks.readCursor (tracks : memory.Tracks first paging) (retainedFrom : Option Nat)
    (events : List ObservedEvent) :
    Tracks memory first
      { paging with
        cursor := paging.journal.cursor
        phase := .started
        drains := paging.drains ++
          [drainPayload paging.cursor retainedFrom events paging.journal.cursor] } := by
  refine ⟨tracks.journal, Nat.le_trans tracks.notBefore tracks.notAhead, Nat.le_refl _, ?_, ?_,
    ?_⟩
  · rintro otherFrom otherEvents (isPhase | isPhase) <;> cases isPhase
  · intro otherFrom otherEvents isPhase
    cases isPhase
  · intro drain member
    rcases List.mem_append.mp member with before | isDrain
    · have past := tracks.past drain before
      exact ⟨past.1, Nat.le_trans past.2 tracks.notAhead⟩
    · rw [List.mem_singleton.mp isDrain]
      exact ⟨tracks.notBefore, Nat.le_refl _⟩

end Step

theorem tracks_step {first : Nat} {current next : Remembering Paging PagingMemory}
    {label : PagingLabel} (tracks : current.memory.Tracks first current.state)
    (stepped : remember Paging.step note current label = some next) :
    next.memory.Tracks first next.state := by
  rcases remember_eq_some stepped with ⟨stepped, noted⟩
  rw [noted]
  rcases Paging.step_cases stepped with ⟨recording, rfl, nextEq⟩ | ⟨rfl, phase, nextEq⟩ |
    ⟨retainedFrom, rfl, phase, nextEq⟩ | ⟨retainedFrom, events, rfl, phase, nextEq⟩
  all_goals rw [nextEq]
  · exact tracks.record recording
  · exact tracks.readEarliest
  · exact tracks.readEvents phase
  · exact tracks.readCursor retainedFrom events

theorem tracks_start (earlier later : List Recording) :
    (start earlier later).Tracks
      (EventJournal.ofRecordings eventJournalCapacity earlier).cursor
      (Paging.start earlier later) := by
  refine ⟨rfl, Nat.le_refl _, ?_, ?_, ?_, ?_⟩
  · change (EventJournal.ofRecordings _ earlier).cursor ≤
      (EventJournal.ofRecordings _ (earlier ++ later)).cursor
    rw [EventJournal.cursor_ofRecordings, EventJournal.cursor_ofRecordings]
    apply Nat.sub_le_sub_right
    apply seqAt_mono
    exact List.length_append ▸ Nat.le_add_right _ _
  · rintro retainedFrom events (isPhase | isPhase) <;> cases isPhase
  · intro retainedFrom events isPhase
    cases isPhase
  · intro drain member
    cases member

theorem tracks_of_reachable {earlier later : List Recording}
    {current : Remembering Paging PagingMemory}
    (reachable : Reachable (remember Paging.step note)
      ⟨.start earlier later, .start earlier later⟩ current) :
    current.memory.Tracks (EventJournal.ofRecordings eventJournalCapacity earlier).cursor
      current.state := by
  apply reachable.invariant
  · exact tracks_start earlier later
  · intro current next label tracks _ stepped
    exact tracks_step tracks stepped

end PagingMemory

namespace EventJournal

theorem entries_take {recordings : List Recording} {count : Nat}
    (inRange : count ≤ recordings.length) (capacity : Nat) :
    (ofRecordings capacity (recordings.take count)).entries =
      ((numbered recordings).take count).drop (count - capacity) := by
  rw [entries_ofRecordings, numbered_take, List.length_take, Nat.min_eq_left inRange]

theorem earliestSeq_take {recordings : List Recording} {count : Nat}
    (inRange : count ≤ recordings.length) :
    (ofRecordings eventJournalCapacity (recordings.take count)).earliestSeq =
      if count = 0 then none else some (seqAt (count - eventJournalCapacity)) := by
  rw [earliestSeq, entries_take inRange, List.head?_drop]
  by_cases empty : count = 0
  · rw [if_pos empty, empty]
    rfl
  · have positive : 0 < eventJournalCapacity := by decide
    have before : count - eventJournalCapacity < count := by omega
    rw [if_neg empty, List.getElem?_take_of_lt before, getElem?_numbered,
      List.getElem?_eq_getElem (Nat.lt_of_lt_of_le before inRange)]
    rfl

end EventJournal

namespace PagingMemory

/-- The entry with this index was retained when the drain read the entries. -/
def Retained (memory : PagingMemory) (index : Nat) : Prop :=
  memory.atEvents - eventJournalCapacity ≤ index ∧ index < memory.atEvents

/-- When the drain read the earliest number, the one after its cursor was
already gone. -/
def Overtaken (memory : PagingMemory) (fromCursor : Nat) : Prop :=
  fromCursor + 1 < seqAt (memory.atEarliest - eventJournalCapacity)

variable {memory : PagingMemory} {first : Nat} {paging : Paging}
  {retainedFrom : Option Nat} {events : List ObservedEvent}

theorem mem_events_iff (tracks : memory.Tracks first paging)
    (phase : paging.phase = .readEvents retainedFrom events) {observed : ObservedEvent} :
    observed ∈ events ↔ ∃ (index : Nat) (entry : SequencedEvent),
      (numbered memory.recordings)[index]? = some entry ∧ memory.Retained index ∧
        paging.cursor < entry.seq ∧ entry.summary? = some observed := by
  rcases tracks.events retainedFrom events phase with ⟨inRange, rfl⟩
  rw [List.mem_filterMap, EventJournal.eventsAfter, EventJournal.entries_take inRange]
  constructor
  · rintro ⟨entry, member, isSummary⟩
    rcases List.mem_filter.mp member with ⟨member, above⟩
    rcases List.mem_iff_getElem?.mp member with ⟨offset, isEntry⟩
    rw [List.getElem?_drop, List.getElem?_take] at isEntry
    split_ifs at isEntry with before
    exact ⟨_, entry, isEntry, ⟨Nat.le_add_right _ _, before⟩, of_decide_eq_true above, isSummary⟩
  · rintro ⟨index, entry, isEntry, ⟨notEvicted, before⟩, above, isSummary⟩
    refine ⟨entry, ?_, isSummary⟩
    refine List.mem_filter.mpr ⟨?_, decide_eq_true above⟩
    rw [List.mem_iff_getElem?]
    refine ⟨index - (memory.atEvents - eventJournalCapacity), ?_⟩
    rw [List.getElem?_drop, Nat.add_sub_of_le notEvicted, List.getElem?_take_of_lt before]
    exact isEntry

theorem pairwise_events (tracks : memory.Tracks first paging)
    (phase : paging.phase = .readEvents retainedFrom events)
    (below : ∀ observed ∈ events, observed.seq < maxEventSeq) :
    events.Pairwise fun first second => first.seq < second.seq := by
  rcases tracks.events retainedFrom events phase with ⟨inRange, same⟩
  have sorted : (numbered memory.recordings).Pairwise fun first second =>
      first.seq < maxEventSeq → first.seq < second.seq := by
    rw [List.pairwise_iff_getElem]
    intro first second inFirst inSecond inOrder
    rw [seq_of_getElem? (List.getElem?_eq_getElem inFirst),
      seq_of_getElem? (List.getElem?_eq_getElem inSecond)]
    exact seqAt_lt inOrder
  have read : ((EventJournal.ofRecordings eventJournalCapacity
      (memory.recordings.take memory.atEvents)).eventsAfter paging.cursor).Sublist
        (numbered memory.recordings) := by
    rw [EventJournal.eventsAfter, EventJournal.entries_take inRange]
    exact List.filter_sublist.trans ((List.drop_sublist _ _).trans (List.take_sublist _ _))
  rw [same, List.pairwise_filterMap]
  apply (sorted.sublist read).imp_of_mem
  intro one other member _ increases observed isSummary next isNext
  have isDelivered : observed ∈ events := same ▸ List.mem_filterMap.mpr ⟨one, member, isSummary⟩
  have notLargest := below observed isDelivered
  rw [SequencedEvent.seq_of_summary? isSummary] at notLargest ⊢
  rw [SequencedEvent.seq_of_summary? isNext]
  exact increases notLargest

/-- A drain reports truncation exactly when it had been overtaken at its first
read. -/
theorem truncated_iff (tracks : memory.Tracks first paging)
    (phase : paging.phase = .readEvents retainedFrom events) (cursor : Nat) :
    (drainPayload paging.cursor retainedFrom events cursor).truncated = true ↔
      memory.Overtaken paging.cursor := by
  rcases tracks.earliest retainedFrom events (Or.inr phase) with ⟨inRange, rfl⟩
  have notLargest := paging.journal.cursor_lt_maxEventSeq
  have notAhead := tracks.notAhead
  rw [EventJournal.earliestSeq_take inRange, drainPayload, Overtaken,
    Nat.min_eq_left (by omega)]
  by_cases empty : memory.atEarliest = 0
  · rw [if_pos empty, empty]
    simp [seqAt, maxEventSeq]
  · rw [if_neg empty]
    simp

end PagingMemory

/-- Everything delivered so far, in order. -/
def Paging.delivered (paging : Paging) : List ObservedEvent :=
  paging.drains.flatMap DrainEventsPayload.events

/-- The client is shown journaled events in order, each drain shows events of
its own range, and every event in the range of a drain is shown exactly once,
unless that drain reported truncation. -/
structure PagesWithoutLoss (first : Nat) (current : Remembering Paging PagingMemory) : Prop where
  inOrder : current.state.delivered.Pairwise fun first second => first.seq < second.seq
  inRange : ∀ drain ∈ current.state.drains, ∀ observed ∈ drain.events,
    drain.fromCursor < observed.seq ∧ observed.seq ≤ drain.cursor
  journaled : ∀ observed ∈ current.state.delivered,
    ∃ entry ∈ numbered current.memory.recordings, entry.summary? = some observed
  exactlyOnce : ∀ entry ∈ numbered current.memory.recordings, ∀ observed,
    entry.summary? = some observed → first < entry.seq → entry.seq ≤ current.state.cursor →
      current.state.delivered.filter (fun other => other.seq == entry.seq) = [observed] ∨
        ∃ drain ∈ current.state.drains, drain.truncated = true ∧
          drain.fromCursor < entry.seq ∧ entry.seq ≤ drain.cursor

/-- An entry above the client's cursor that is shown to clients. -/
def ShowsEntry (current : Remembering Paging PagingMemory) (index : Nat)
    (entry : SequencedEvent) : Prop :=
  (numbered current.memory.recordings)[index]? = some entry ∧
    entry.summary?.isSome = true ∧ current.state.cursor < entry.seq

/-- A drain that reads its cursor has read only entries up to it, and all of
these, or it had been overtaken when it began. -/
def DrainsInTime (current : Remembering Paging PagingMemory) : PagingLabel → Prop
  | .eventCursor =>
      (∀ index entry, ShowsEntry current index entry → current.memory.Retained index →
          entry.seq ≤ current.state.journal.cursor) ∧
        (current.memory.Overtaken current.state.cursor ∨
          ∀ index entry, ShowsEntry current index entry →
            entry.seq ≤ current.state.journal.cursor → current.memory.Retained index)
  | _ => True

theorem filter_seq_eq {observations : List ObservedEvent}
    (inOrder : observations.Pairwise fun first second => first.seq < second.seq)
    {observed : ObservedEvent} (member : observed ∈ observations) :
    observations.filter (fun other => other.seq == observed.seq) = [observed] := by
  induction observations with
  | nil => cases member
  | cons head rest ih =>
      rw [List.pairwise_cons] at inOrder
      rcases List.mem_cons.mp member with rfl | later
      · have others : rest.filter (fun other => other.seq == observed.seq) = [] := by
          rw [List.filter_eq_nil_iff]
          intro other inRest same
          have := inOrder.1 other inRest
          have := eq_of_beq same
          omega
        rw [List.filter_cons, if_pos (BEq.rfl), others]
      · have differs : ¬ (head.seq == observed.seq) = true := by
          intro same
          have := inOrder.1 observed later
          have := eq_of_beq same
          omega
        rw [List.filter_cons, if_neg differs]
        exact ih inOrder.2 later

section Runs

variable {first : Nat} {current next : Remembering Paging PagingMemory}

theorem PagesWithoutLoss.of_still (pages : PagesWithoutLoss first current)
    (drains : next.state.drains = current.state.drains)
    (cursor : next.state.cursor = current.state.cursor)
    (recordings : next.memory.recordings = current.memory.recordings) :
    PagesWithoutLoss first next := by
  have delivered : next.state.delivered = current.state.delivered := by
    rw [Paging.delivered, drains]
    rfl
  refine ⟨?_, ?_, ?_, ?_⟩
  · exact delivered ▸ pages.inOrder
  · exact drains ▸ pages.inRange
  · rw [delivered, recordings]
    exact pages.journaled
  · rw [delivered, recordings, cursor, drains]
    exact pages.exactlyOnce

theorem PagesWithoutLoss.record (tracks : current.memory.Tracks first current.state)
    (pages : PagesWithoutLoss first current) (recording : Recording)
    (drains : next.state.drains = current.state.drains)
    (cursor : next.state.cursor = current.state.cursor)
    (recordings : next.memory.recordings = current.memory.recordings ++ [recording]) :
    PagesWithoutLoss first next := by
  have delivered : next.state.delivered = current.state.delivered := by
    rw [Paging.delivered, drains]
    rfl
  refine ⟨?_, ?_, ?_, ?_⟩
  · exact delivered ▸ pages.inOrder
  · exact drains ▸ pages.inRange
  · rw [delivered, recordings, numbered_append_singleton]
    intro observed member
    rcases pages.journaled observed member with ⟨entry, isEntry, isSummary⟩
    exact ⟨entry, List.mem_append_left _ isEntry, isSummary⟩
  · rw [delivered, recordings, cursor, drains, numbered_append_singleton]
    intro entry member observed isSummary above below
    rcases List.mem_append.mp member with before | isNew
    · exact pages.exactlyOnce entry before observed isSummary above below
    · have notAhead := tracks.notAhead
      have nextSeq := current.state.journal.cursor_lt_nextSeq
      rw [tracks.journal, EventJournal.nextSeq_ofRecordings] at nextSeq
      rw [List.mem_singleton.mp isNew] at below
      rw [← tracks.journal] at nextSeq
      simp only at below
      omega

/-- The state after the last read of a drain. -/
def Paging.drained (paging : Paging) (retainedFrom : Option Nat) (events : List ObservedEvent) :
    Paging :=
  { paging with
    cursor := paging.journal.cursor
    phase := .started
    drains := paging.drains ++
      [drainPayload paging.cursor retainedFrom events paging.journal.cursor] }

theorem Paging.delivered_drained (paging : Paging) (retainedFrom : Option Nat)
    (events : List ObservedEvent) :
    (paging.drained retainedFrom events).delivered = paging.delivered ++ events := by
  rw [delivered, drained, List.flatMap_append, List.flatMap_cons, List.flatMap_nil,
    List.append_nil]
  rfl

variable {retainedFrom : Option Nat} {events : List ObservedEvent}

theorem inRange_of_inTime (tracks : current.memory.Tracks first current.state)
    (phase : current.state.phase = .readEvents retainedFrom events)
    (inTime : DrainsInTime current .eventCursor) {observed : ObservedEvent}
    (member : observed ∈ events) :
    current.state.cursor < observed.seq ∧ observed.seq ≤ current.state.journal.cursor := by
  rcases (PagingMemory.mem_events_iff tracks phase).mp member with
    ⟨index, entry, isEntry, retained, above, isSummary⟩
  rw [SequencedEvent.seq_of_summary? isSummary]
  exact ⟨above, inTime.1 index entry ⟨isEntry, isSummary ▸ rfl, above⟩ retained⟩

theorem PagesWithoutLoss.le_cursor (tracks : current.memory.Tracks first current.state)
    (pages : PagesWithoutLoss first current) {observed : ObservedEvent}
    (member : observed ∈ current.state.delivered) : observed.seq ≤ current.state.cursor := by
  rcases List.mem_flatMap.mp member with ⟨drain, isDrain, inDrain⟩
  exact Nat.le_trans (pages.inRange drain isDrain observed inDrain).2
    (tracks.past drain isDrain).2

theorem PagesWithoutLoss.inOrder_drained (tracks : current.memory.Tracks first current.state)
    (pages : PagesWithoutLoss first current)
    (phase : current.state.phase = .readEvents retainedFrom events)
    (inTime : DrainsInTime current .eventCursor) :
    (current.state.drained retainedFrom events).delivered.Pairwise
      fun first second => first.seq < second.seq := by
  have cursorBelow := current.state.journal.cursor_lt_maxEventSeq
  rw [Paging.delivered_drained, List.pairwise_append]
  refine ⟨pages.inOrder, ?_, ?_⟩
  · apply PagingMemory.pairwise_events tracks phase
    intro observed member
    exact Nat.lt_of_le_of_lt (inRange_of_inTime tracks phase inTime member).2 cursorBelow
  · intro old isOld new isNew
    exact Nat.lt_of_le_of_lt (pages.le_cursor tracks isOld)
      (inRange_of_inTime tracks phase inTime isNew).1

theorem filter_delivered_drained (tracks : current.memory.Tracks first current.state)
    (phase : current.state.phase = .readEvents retainedFrom events)
    (inTime : DrainsInTime current .eventCursor) {seq : Nat}
    (old : seq ≤ current.state.cursor) :
    (current.state.drained retainedFrom events).delivered.filter (fun other => other.seq == seq) =
      current.state.delivered.filter fun other => other.seq == seq := by
  have notNew : events.filter (fun other => other.seq == seq) = [] := by
    rw [List.filter_eq_nil_iff]
    intro other isNew same
    have := (inRange_of_inTime tracks phase inTime isNew).1
    have := eq_of_beq same
    omega
  rw [Paging.delivered_drained, List.filter_append, notNew, List.append_nil]

theorem PagesWithoutLoss.drained (tracks : current.memory.Tracks first current.state)
    (pages : PagesWithoutLoss first current)
    (phase : current.state.phase = .readEvents retainedFrom events)
    (inTime : DrainsInTime current .eventCursor) :
    PagesWithoutLoss first ⟨current.state.drained retainedFrom events, current.memory⟩ := by
  have inOrder := pages.inOrder_drained tracks phase inTime
  refine ⟨inOrder, ?_, ?_, ?_⟩
  · intro drain member observed inDrain
    rcases List.mem_append.mp member with before | isDrain
    · exact pages.inRange drain before observed inDrain
    · rw [List.mem_singleton.mp isDrain] at inDrain ⊢
      exact inRange_of_inTime tracks phase inTime inDrain
  · intro observed member
    rw [Paging.delivered_drained] at member
    rcases List.mem_append.mp member with before | isNew
    · exact pages.journaled observed before
    · rcases (PagingMemory.mem_events_iff tracks phase).mp isNew with
        ⟨index, entry, isEntry, _, _, isSummary⟩
      exact ⟨entry, List.mem_of_getElem? isEntry, isSummary⟩
  · intro entry member observed isSummary above below
    by_cases old : entry.seq ≤ current.state.cursor
    · rcases pages.exactlyOnce entry member observed isSummary above old with
        once | ⟨drain, isDrain, truncated⟩
      · exact Or.inl ((filter_delivered_drained tracks phase inTime old).trans once)
      · exact Or.inr ⟨drain, List.mem_append_left _ isDrain, truncated⟩
    · have new : current.state.cursor < entry.seq := Nat.lt_of_not_le old
      rcases inTime.2 with overtaken | all
      · refine Or.inr ⟨_, List.mem_append_right _ (List.mem_singleton_self _), ?_, new, below⟩
        exact (PagingMemory.truncated_iff tracks phase _).mpr overtaken
      · left
        rcases List.mem_iff_getElem?.mp member with ⟨index, isEntry⟩
        have retained := all index entry ⟨isEntry, isSummary ▸ rfl, new⟩ below
        have isNew : observed ∈ events := (PagingMemory.mem_events_iff tracks phase).mpr
          ⟨index, entry, isEntry, retained, new, isSummary⟩
        rw [← SequencedEvent.seq_of_summary? isSummary]
        apply filter_seq_eq inOrder
        rw [Paging.delivered_drained]
        exact List.mem_append_right _ isNew

/-- A drain that shows no event beyond its range and misses none in it is in
time. -/
theorem drainsInTime_of_drained (tracks : current.memory.Tracks first current.state)
    (phase : current.state.phase = .readEvents retainedFrom events)
    (pages : PagesWithoutLoss first ⟨current.state.drained retainedFrom events, current.memory⟩) :
    DrainsInTime current .eventCursor := by
  have isLast : drainPayload current.state.cursor retainedFrom events
      current.state.journal.cursor ∈ (current.state.drained retainedFrom events).drains :=
    List.mem_append_right _ (List.mem_singleton_self _)
  refine ⟨?_, ?_⟩
  · intro index entry shown retained
    rcases Option.isSome_iff_exists.mp shown.2.1 with ⟨observed, isSummary⟩
    rw [← SequencedEvent.seq_of_summary? isSummary]
    apply (pages.inRange _ isLast observed _).2
    exact (PagingMemory.mem_events_iff tracks phase).mpr
      ⟨index, entry, shown.1, retained, shown.2.2, isSummary⟩
  · by_cases overtaken : current.memory.Overtaken current.state.cursor
    · exact Or.inl overtaken
    · right
      intro index entry shown below
      rcases Option.isSome_iff_exists.mp shown.2.1 with ⟨observed, isSummary⟩
      have above : first < entry.seq := Nat.lt_of_le_of_lt tracks.notBefore shown.2.2
      -- An earlier drain ends before this entry.
      have notEarlier : ∀ drain ∈ current.state.drains, ¬ entry.seq ≤ drain.cursor := by
        intro drain isDrain covered
        have := (tracks.past drain isDrain).2
        have := shown.2.2
        omega
      rcases pages.exactlyOnce entry (List.mem_of_getElem? shown.1) observed isSummary above
        below with once | ⟨drain, isDrain, truncated, _, covered⟩
      · have member := List.mem_singleton_self observed
        rw [← once] at member
        rcases List.mem_flatMap.mp (List.mem_filter.mp member).1 with ⟨drain, isDrain, inDrain⟩
        rcases List.mem_append.mp isDrain with before | isNew
        · have inRange := (pages.inRange drain isDrain observed inDrain).2
          rw [SequencedEvent.seq_of_summary? isSummary] at inRange
          exact absurd inRange (notEarlier drain before)
        · rw [List.mem_singleton.mp isNew] at inDrain
          rcases (PagingMemory.mem_events_iff tracks phase).mp inDrain with
            ⟨other, otherEntry, isOther, retained, _, otherSummary⟩
          have sameSeq := (SequencedEvent.seq_of_summary? isSummary).symm.trans
            (SequencedEvent.seq_of_summary? otherSummary)
          have notLargest := Nat.lt_of_le_of_lt below
            current.state.journal.cursor_lt_maxEventSeq
          have sameIndex := index_eq_of_seq_eq shown.1 isOther sameSeq notLargest
          exact sameIndex.symm ▸ retained
      · rcases List.mem_append.mp isDrain with before | isNew
        · exact absurd covered (notEarlier drain before)
        · rw [List.mem_singleton.mp isNew, PagingMemory.truncated_iff tracks phase] at truncated
          exact absurd truncated overtaken

end Runs

theorem pagesWithoutLoss_step {first : Nat} {current next : Remembering Paging PagingMemory}
    {label : PagingLabel} (tracks : current.memory.Tracks first current.state)
    (pages : PagesWithoutLoss first current) (inTime : DrainsInTime current label)
    (stepped : remember Paging.step PagingMemory.note current label = some next) :
    PagesWithoutLoss first next := by
  rcases remember_eq_some stepped with ⟨stepped, noted⟩
  rcases Paging.step_cases stepped with ⟨recording, rfl, nextEq⟩ | ⟨rfl, phase, nextEq⟩ |
    ⟨retainedFrom, rfl, phase, nextEq⟩ | ⟨retainedFrom, events, rfl, phase, nextEq⟩
  · exact pages.record tracks recording (nextEq ▸ rfl) (nextEq ▸ rfl) (noted ▸ rfl)
  · exact pages.of_still (nextEq ▸ rfl) (nextEq ▸ rfl) (noted ▸ rfl)
  · exact pages.of_still (nextEq ▸ rfl) (nextEq ▸ rfl) (noted ▸ rfl)
  · have drained := pages.drained tracks phase inTime
    rcases next with ⟨state, memory⟩
    obtain rfl : state = current.state.drained retainedFrom events := nextEq
    obtain rfl : memory = current.memory := noted
    exact drained

theorem drainsInTime_of_step {first : Nat} {current next : Remembering Paging PagingMemory}
    {label : PagingLabel} (tracks : current.memory.Tracks first current.state)
    (pages : PagesWithoutLoss first next)
    (stepped : remember Paging.step PagingMemory.note current label = some next) :
    DrainsInTime current label := by
  rcases remember_eq_some stepped with ⟨stepped, noted⟩
  rcases Paging.step_cases stepped with ⟨recording, rfl, nextEq⟩ | ⟨rfl, phase, nextEq⟩ |
    ⟨retainedFrom, rfl, phase, nextEq⟩ | ⟨retainedFrom, events, rfl, phase, nextEq⟩
  · trivial
  · trivial
  · trivial
  · rcases next with ⟨state, memory⟩
    obtain rfl : state = current.state.drained retainedFrom events := nextEq
    obtain rfl : memory = current.memory := noted
    exact drainsInTime_of_drained tracks phase pages

/-- Paging loses nothing throughout a run exactly when every drain of the run is
in time. -/
theorem pages_without_loss_iff (earlier later : List Recording) (labels : List PagingLabel) :
    Always (remember Paging.step PagingMemory.note)
        ⟨.start earlier later, .start earlier later⟩
        (PagesWithoutLoss (EventJournal.ofRecordings eventJournalCapacity earlier).cursor)
        labels ↔
      EachStep (remember Paging.step PagingMemory.note)
        ⟨.start earlier later, .start earlier later⟩ DrainsInTime labels := by
  apply always_iff_eachStep_of_step_iff
  · refine ⟨.nil, ?_, ?_, ?_⟩
    · intro drain member
      cases member
    · intro observed member
      cases member
    · intro entry member observed isSummary above below
      exact absurd above (Nat.not_lt_of_le below)
  · intro current next label reachable pages stepped
    have tracks := PagingMemory.tracks_of_reachable reachable
    constructor
    · intro pagesNext
      exact drainsInTime_of_step tracks pagesNext stepped
    · intro inTime
      exact pagesWithoutLoss_step tracks pages inTime stepped

/-- An event is recorded between the last two reads of a drain. -/
def recordedInside : List PagingLabel :=
  [.earliestEventSeq, .eventsAfter, .record ⟨.console "hello", .wire 0⟩, .eventCursor]

/-- The drain returns a cursor behind which the event is lost, and reports no
truncation. -/
theorem recordedInside_loses :
    ∃ final, run (remember Paging.step PagingMemory.note) ⟨.start [] [], .start [] []⟩
        recordedInside = some final ∧
      final.state.drains = [⟨0, 1, false, none, []⟩] ∧ ¬ PagesWithoutLoss 0 final := by
  have ran : ∃ final, run (remember Paging.step PagingMemory.note)
      ⟨.start [] [], .start [] []⟩ recordedInside = some final ∧
        final.state.drains = [⟨0, 1, false, none, []⟩] ∧ final.state.cursor = 1 ∧
        final.memory.recordings = [⟨.console "hello", .wire 0⟩] :=
    ⟨_, rfl, rfl, rfl, rfl⟩
  rcases ran with ⟨final, ran, drains, cursor, recordings⟩
  refine ⟨final, ran, drains, ?_⟩
  intro pages
  have member : (⟨1, .console "hello", .wire 0⟩ : SequencedEvent) ∈
      numbered final.memory.recordings := by
    rw [recordings]
    exact List.mem_singleton_self _
  have below : 1 ≤ final.state.cursor := cursor ▸ Nat.le_refl 1
  rcases pages.exactlyOnce _ member _ rfl Nat.zero_lt_one below with
    once | ⟨drain, isDrain, truncated, _⟩
  · rw [Paging.delivered, drains] at once
    cases once
  · rw [drains, List.mem_singleton] at isDrain
    rw [isDrain] at truncated
    cases truncated

end Framewalk
