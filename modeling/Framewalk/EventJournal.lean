import Framewalk.Connection

/-!
# The sequenced event journal

A bounded history of events under increasing sequence numbers.  Each entry also
records where its event came from; no operation reads that mark, it only lets
statements speak about the wire.
-/

namespace Framewalk

/-- The largest sequence number, a `u64`; the successor saturates here. -/
def maxEventSeq : Nat :=
  2 ^ 64 - 1

/-- How many entries the journal retains. -/
def eventJournalCapacity : Nat := 1024

/-- Where a journaled event came from: a line of the wire, counted from zero,
or the server itself. -/
inductive EventSource where
  | wire (index : Nat)
  | synthetic
  deriving DecidableEq

structure SequencedEvent where
  seq : Nat
  event : Event
  source : EventSource

/-- A journaled stop. -/
structure StopEntry where
  seq : Nat
  stopped : StoppedEvent
  source : EventSource

/-- The stop that an entry holds, if it holds one. -/
def SequencedEvent.stop? (entry : SequencedEvent) : Option StopEntry :=
  match entry.event with
  | .stopped stopped => some ⟨entry.seq, stopped, entry.source⟩
  | _ => none

theorem SequencedEvent.stop?_eq_some {entry : SequencedEvent} {stop : StopEntry}
    (isStop : entry.stop? = some stop) :
    entry.event = .stopped stop.stopped ∧ stop.seq = entry.seq ∧ stop.source = entry.source := by
  unfold stop? at isStop
  split at isStop
  · next stopped event =>
      cases isStop
      exact ⟨event, rfl, rfl⟩
  · cases isStop

/-- Sequence numbers never decrease along the journal and stay below the next
one. -/
structure EventJournal where
  nextSeq : Nat
  entries : List SequencedEvent
  latestStopped : Option StopEntry
  positive : 1 ≤ nextSeq
  inRange : nextSeq ≤ maxEventSeq
  sorted : entries.Pairwise fun first second => first.seq ≤ second.seq
  bounded : ∀ entry ∈ entries, entry.seq ≤ nextSeq

namespace EventJournal

def new : EventJournal where
  nextSeq := 1
  entries := []
  latestStopped := none
  positive := Nat.le_refl 1
  inRange := by decide
  sorted := .nil
  bounded := by simp

def cursor (journal : EventJournal) : Nat :=
  journal.nextSeq - 1

/-- The entry that the next push appends. -/
def nextEntry (journal : EventJournal) (event : Event) (source : EventSource) : SequencedEvent :=
  ⟨journal.nextSeq, event, source⟩

/-- Append an event and drop the oldest entries beyond the capacity. -/
def push (journal : EventJournal) (event : Event) (source : EventSource) (capacity : Nat) :
    EventJournal :=
  let entry := journal.nextEntry event source
  let appended := journal.entries ++ [entry]
  { nextSeq := min (journal.nextSeq + 1) maxEventSeq
    entries := appended.drop (appended.length - capacity)
    latestStopped := entry.stop?.or journal.latestStopped
    positive := by
      have := journal.positive
      have : 1 ≤ maxEventSeq := by decide
      omega
    inRange := Nat.min_le_right _ _
    sorted := by
      have appendedSorted : appended.Pairwise fun first second => first.seq ≤ second.seq := by
        rw [List.pairwise_append]
        refine ⟨journal.sorted, List.pairwise_singleton _ _, ?_⟩
        intro first member second isEntry
        rw [List.mem_singleton.mp isEntry]
        exact journal.bounded first member
      exact appendedSorted.sublist (List.drop_sublist _ _)
    bounded := by
      intro found member
      have inRange := journal.inRange
      have old : found.seq ≤ journal.nextSeq := by
        rcases List.mem_append.mp (List.mem_of_mem_drop member) with before | isEntry
        · exact journal.bounded found before
        · rw [List.mem_singleton.mp isEntry]
          exact Nat.le_refl _
      omega }

/-- The first retained stop above a cursor. -/
def findStopAfter (journal : EventJournal) (after : Nat) : Option StopEntry :=
  journal.entries.findSome? fun entry =>
    match entry.stop? with
    | some stop => if stop.seq > after then some stop else none
    | none => none

/-- The retained entries above a cursor. -/
def eventsAfter (journal : EventJournal) (after : Nat) : List SequencedEvent :=
  journal.entries.filter fun entry => entry.seq > after

def latestEvent (journal : EventJournal) : Option SequencedEvent :=
  journal.entries.getLast?

def earliestSeq (journal : EventJournal) : Option Nat :=
  journal.entries.head?.map SequencedEvent.seq

/-- The journal retains this stop. -/
def Retains (journal : EventJournal) (stop : StopEntry) : Prop :=
  ∃ entry ∈ journal.entries, entry.stop? = some stop

theorem cursor_lt_nextSeq (journal : EventJournal) : journal.cursor < journal.nextSeq := by
  have := journal.positive
  rw [cursor]
  omega

theorem cursor_lt_maxEventSeq (journal : EventJournal) : journal.cursor < maxEventSeq :=
  Nat.lt_of_lt_of_le journal.cursor_lt_nextSeq journal.inRange

theorem mem_push_entries {journal : EventJournal} {event : Event} {source : EventSource}
    {capacity : Nat} {entry : SequencedEvent}
    (member : entry ∈ (journal.push event source capacity).entries) :
    entry ∈ journal.entries ∨ entry = journal.nextEntry event source := by
  rcases List.mem_append.mp (List.mem_of_mem_drop member) with before | isEntry
  · exact Or.inl before
  · exact Or.inr (List.mem_singleton.mp isEntry)

theorem nextSeq_le_push (journal : EventJournal) (event : Event) (source : EventSource)
    (capacity : Nat) : journal.nextSeq ≤ (journal.push event source capacity).nextSeq := by
  have := journal.inRange
  change journal.nextSeq ≤ min (journal.nextSeq + 1) maxEventSeq
  omega

theorem nextSeq_lt_push (journal : EventJournal) (event : Event) (source : EventSource)
    (capacity : Nat) : journal.nextSeq < (journal.push event source capacity).nextSeq ∨
      journal.nextSeq = maxEventSeq := by
  have := journal.inRange
  change journal.nextSeq < min (journal.nextSeq + 1) maxEventSeq ∨ journal.nextSeq = maxEventSeq
  omega

theorem findStopAfter_eq_none_iff {journal : EventJournal} {after : Nat} :
    journal.findStopAfter after = none ↔ ∀ stop, journal.Retains stop → stop.seq ≤ after := by
  rw [findStopAfter, List.findSome?_eq_none_iff]
  constructor
  · rintro nothing stop ⟨entry, member, isStop⟩
    have notFound := nothing entry member
    rw [isStop] at notFound
    by_contra above
    simp only [if_pos (Nat.lt_of_not_le above), reduceCtorEq] at notFound
  · intro below entry member
    cases isStop : entry.stop? with
    | none => rfl
    | some stop =>
        have notAbove : ¬ stop.seq > after := Nat.not_lt_of_le (below stop ⟨entry, member, isStop⟩)
        simp only [if_neg notAbove]

theorem findStopAfter_push_eq_none {journal : EventJournal} {after : Nat}
    (notFound : journal.findStopAfter after = none) {event : Event} {source : EventSource}
    (notStop : (journal.nextEntry event source).stop? = none) (capacity : Nat) :
    (journal.push event source capacity).findStopAfter after = none := by
  rw [findStopAfter_eq_none_iff] at *
  rintro stop ⟨entry, member, isStop⟩
  rcases mem_push_entries member with before | isEntry
  · exact notFound stop ⟨entry, before, isStop⟩
  · rw [isEntry, notStop] at isStop
    cases isStop

/-- What is found lies above the cursor, and no entry before it holds a stop
above the cursor. -/
theorem exists_of_findStopAfter {journal : EventJournal} {after : Nat} {stop : StopEntry}
    (found : journal.findStopAfter after = some stop) :
    ∃ earlier entry later, journal.entries = earlier ++ entry :: later ∧
      entry.stop? = some stop ∧ after < stop.seq ∧
      ∀ first ∈ earlier, ∀ other, first.stop? = some other → other.seq ≤ after := by
  rw [findStopAfter, List.findSome?_eq_some_iff] at found
  rcases found with ⟨earlier, entry, later, entriesEq, entryFound, earlierNone⟩
  cases isStop : entry.stop? with
  | none =>
      rw [isStop] at entryFound
      cases entryFound
  | some found =>
      rw [isStop] at entryFound
      simp only at entryFound
      split_ifs at entryFound with above
      cases entryFound
      refine ⟨earlier, entry, later, entriesEq, isStop, above, ?_⟩
      intro first member other otherStop
      have notFound := earlierNone first member
      rw [otherStop] at notFound
      by_contra otherAbove
      simp only [if_pos (Nat.lt_of_not_le otherAbove), reduceCtorEq] at notFound

theorem mem_of_findStopAfter {journal : EventJournal} {after : Nat}
    {earlier later : List SequencedEvent} {entry other : SequencedEvent}
    (entriesEq : journal.entries = earlier ++ entry :: later)
    (earlierBelow : ∀ first ∈ earlier, ∀ stop, first.stop? = some stop → stop.seq ≤ after)
    (member : other ∈ journal.entries) {stop : StopEntry} (isStop : other.stop? = some stop)
    (above : after < stop.seq) : other = entry ∨ other ∈ later := by
  rw [entriesEq, List.mem_append, List.mem_cons] at member
  rcases member with before | atOrAfter
  · have below := earlierBelow other before stop isStop
    omega
  · exact atOrAfter

/-- What is found is retained, lies above the cursor, and is the lowest such
stop. -/
theorem findStopAfter_eq_some {journal : EventJournal} {after : Nat} {stop : StopEntry}
    (found : journal.findStopAfter after = some stop) :
    journal.Retains stop ∧ after < stop.seq ∧
      ∀ other, journal.Retains other → after < other.seq → stop.seq ≤ other.seq := by
  rcases exists_of_findStopAfter found with
    ⟨earlier, entry, later, entriesEq, isStop, above, earlierBelow⟩
  have sorted := journal.sorted
  rw [entriesEq, List.pairwise_append, List.pairwise_cons] at sorted
  refine ⟨⟨entry, by simp [entriesEq], isStop⟩, above, ?_⟩
  rintro other ⟨otherEntry, member, otherStop⟩ otherAbove
  have seqEq := (SequencedEvent.stop?_eq_some isStop).2.1
  have otherSeqEq := (SequencedEvent.stop?_eq_some otherStop).2.1
  rcases mem_of_findStopAfter entriesEq earlierBelow member otherStop otherAbove with rfl | after
  · omega
  · have := sorted.2.1.1 otherEntry after
    omega

end EventJournal

end Framewalk
