import Framewalk.EventJournal
import Mathlib.Data.List.DropRight

/-!
# The journal as the end of its history

What has been recorded is numbered in order, up to the largest sequence number,
and the journal is the end of that list: at most the last thousand and
twenty-four entries, the next number, and the last stop whether or not it is
still among them.  A search for a stop sees only the entries.
-/

namespace Framewalk

/-- An event as it is recorded. -/
structure Recording where
  event : Event
  source : EventSource

/-- The sequence number of the entry with this index. -/
def seqAt (index : Nat) : Nat :=
  min (index + 1) maxEventSeq

/-- Every entry ever made of these recordings. -/
def numbered (recordings : List Recording) : List SequencedEvent :=
  recordings.mapIdx fun index recording => ⟨seqAt index, recording.event, recording.source⟩

theorem seqAt_succ (index : Nat) : seqAt (index + 1) = min (seqAt index + 1) maxEventSeq := by
  unfold seqAt
  omega

theorem seqAt_mono {first second : Nat} (inOrder : first ≤ second) :
    seqAt first ≤ seqAt second := by
  unfold seqAt
  omega

theorem seqAt_lt {first second : Nat} (inOrder : first < second)
    (notLargest : seqAt first < maxEventSeq) : seqAt first < seqAt second := by
  unfold seqAt at *
  omega

@[simp]
theorem length_numbered (recordings : List Recording) :
    (numbered recordings).length = recordings.length :=
  List.length_mapIdx

theorem getElem?_numbered (recordings : List Recording) (index : Nat) :
    (numbered recordings)[index]? =
      recordings[index]?.map fun recording =>
        ⟨seqAt index, recording.event, recording.source⟩ :=
  List.getElem?_mapIdx

theorem seq_of_getElem? {recordings : List Recording} {index : Nat} {entry : SequencedEvent}
    (isEntry : (numbered recordings)[index]? = some entry) : entry.seq = seqAt index := by
  rw [getElem?_numbered, Option.map_eq_some_iff] at isEntry
  rcases isEntry with ⟨recording, _, rfl⟩
  rfl

theorem index_eq_of_seq_eq {recordings : List Recording} {first second : Nat}
    {entry other : SequencedEvent} (isFirst : (numbered recordings)[first]? = some entry)
    (isSecond : (numbered recordings)[second]? = some other) (same : entry.seq = other.seq)
    (below : entry.seq < maxEventSeq) : first = second := by
  rw [seq_of_getElem? isFirst, seq_of_getElem? isSecond] at same
  rw [seq_of_getElem? isFirst] at below
  rcases Nat.lt_trichotomy first second with before | isSame | after
  · have := seqAt_lt before below
    omega
  · exact isSame
  · have := seqAt_lt after (same ▸ below)
    omega

theorem numbered_append_singleton (recordings : List Recording) (recording : Recording) :
    numbered (recordings ++ [recording]) =
      numbered recordings ++
        [⟨seqAt recordings.length, recording.event, recording.source⟩] := by
  rw [numbered, List.mapIdx_append]
  simp [numbered]

theorem numbered_take (recordings : List Recording) (count : Nat) :
    numbered (recordings.take count) = (numbered recordings).take count := by
  apply List.ext_getElem?
  intro index
  rw [getElem?_numbered, List.getElem?_take, List.getElem?_take, getElem?_numbered]
  by_cases inRange : index < count
  · rw [if_pos inRange, if_pos inRange]
  · rw [if_neg inRange, if_neg inRange]
    rfl

namespace EventJournal

/-- Record everything in order. -/
def ofRecordings (capacity : Nat) (recordings : List Recording) : EventJournal :=
  recordings.foldl
    (fun journal recording => journal.push recording.event recording.source capacity) .new

theorem ofRecordings_append_singleton (capacity : Nat) (recordings : List Recording)
    (recording : Recording) :
    ofRecordings capacity (recordings ++ [recording]) =
      (ofRecordings capacity recordings).push recording.event recording.source capacity := by
  rw [ofRecordings, List.foldl_append]
  rfl

theorem nextSeq_ofRecordings (capacity : Nat) (recordings : List Recording) :
    (ofRecordings capacity recordings).nextSeq = seqAt recordings.length := by
  induction recordings using List.reverseRecOn with
  | nil => rfl
  | append_singleton recordings recording ih =>
      rw [ofRecordings_append_singleton, List.length_append, List.length_singleton, seqAt_succ,
        ← ih]
      rfl

theorem cursor_ofRecordings (capacity : Nat) (recordings : List Recording) :
    (ofRecordings capacity recordings).cursor = seqAt recordings.length - 1 :=
  congrArg (· - 1) (nextSeq_ofRecordings capacity recordings)

theorem drop_append_singleton {α : Type} (values : List α) (value : α) (capacity : Nat) :
    (values.drop (values.length - capacity) ++ [value]).drop
        ((values.drop (values.length - capacity) ++ [value]).length - capacity) =
      (values ++ [value]).drop ((values ++ [value]).length - capacity) := by
  rw [← List.drop_append_of_le_length (Nat.sub_le _ _), List.drop_drop]
  congr 1
  simp only [List.length_drop, List.length_append, List.length_singleton]
  omega

theorem entries_ofRecordings (capacity : Nat) (recordings : List Recording) :
    (ofRecordings capacity recordings).entries =
      (numbered recordings).drop (recordings.length - capacity) := by
  induction recordings using List.reverseRecOn with
  | nil => exact List.drop_nil.symm
  | append_singleton recordings recording ih =>
      have dropped := drop_append_singleton (numbered recordings)
        ⟨seqAt recordings.length, recording.event, recording.source⟩ capacity
      rw [← numbered_append_singleton, length_numbered, length_numbered] at dropped
      rw [← dropped, ← ih, ofRecordings_append_singleton, ← nextSeq_ofRecordings capacity]
      rfl

theorem latestStopped_ofRecordings (capacity : Nat) (recordings : List Recording) :
    (ofRecordings capacity recordings).latestStopped =
      ((numbered recordings).filterMap SequencedEvent.stop?).getLast? := by
  induction recordings using List.reverseRecOn with
  | nil => rfl
  | append_singleton recordings recording ih =>
      rw [ofRecordings_append_singleton, numbered_append_singleton, List.filterMap_append,
        List.getLast?_append, ← ih, ← nextSeq_ofRecordings capacity]
      rw [List.filterMap_cons, List.filterMap_nil]
      change (SequencedEvent.stop? _).or _ = _
      cases isStop : SequencedEvent.stop?
        ⟨(ofRecordings capacity recordings).nextSeq, recording.event, recording.source⟩ with
      | none =>
          rw [nextEntry, isStop]
          rfl
      | some stop =>
          rw [nextEntry, isStop]
          rfl

end EventJournal

/-- A stop numbered above the cursor has been recorded. -/
def RecordsStopAbove (recordings : List Recording) (after : Nat) : Prop :=
  ∃ entry ∈ numbered recordings, ∃ stop, entry.stop? = some stop ∧ after < stop.seq

/-- If such a stop has been recorded, the journal finds one. -/
def FindsRecordedStop (recordings : List Recording) (after : Nat) : Prop :=
  RecordsStopAbove recordings after → ∃ stop,
    (EventJournal.ofRecordings eventJournalCapacity recordings).findStopAfter after = some stop ∧
      after < stop.seq

/-- The entries made after the last stop. -/
def sinceLastStop (recordings : List Recording) : List SequencedEvent :=
  (numbered recordings).rtakeWhile fun entry => entry.stop?.isNone

theorem stop?_of_mem_sinceLastStop {recordings : List Recording} {entry : SequencedEvent}
    (member : entry ∈ sinceLastStop recordings) : entry.stop? = none := by
  have isNone := @List.mem_rtakeWhile_imp _ (fun entry : SequencedEvent => entry.stop?.isNone) _
    entry member
  exact Option.isNone_iff_eq_none.mp isNone

theorem sorted_numbered (recordings : List Recording) :
    (numbered recordings).Pairwise fun first second => first.seq ≤ second.seq := by
  rw [List.pairwise_iff_getElem]
  intro first second inFirst inSecond inOrder
  have firstSeq := seq_of_getElem? (List.getElem?_eq_getElem inFirst)
  have secondSeq := seq_of_getElem? (List.getElem?_eq_getElem inSecond)
  rw [firstSeq, secondSeq]
  exact seqAt_mono (Nat.le_of_lt inOrder)

/-- The last stop stands right before the entries made after it, and no stop has
a higher number. -/
theorem exists_last_stop {recordings : List Recording} {after : Nat}
    (above : RecordsStopAbove recordings after) :
    ∃ earlier entry stop,
      numbered recordings = earlier ++ entry :: sinceLastStop recordings ∧
        entry.stop? = some stop ∧ after < stop.seq := by
  rcases above with ⟨entry, member, stop, isStop, seqAbove⟩
  have split := List.rdropWhile_append_rtakeWhile
    (p := fun entry : SequencedEvent => entry.stop?.isNone) (l := numbered recordings)
  have nonempty : (numbered recordings).rdropWhile (fun entry => entry.stop?.isNone) ≠ [] := by
    intro empty
    have noStop := List.rdropWhile_eq_nil_iff.mp empty entry member
    rw [isStop] at noStop
    cases noStop
  have lastStops := List.rdropWhile_last_not _ _ nonempty
  rw [← List.dropLast_append_getLast nonempty] at split
  rw [Option.isNone_iff_eq_none, ← ne_eq, Option.ne_none_iff_exists'] at lastStops
  rcases lastStops with ⟨last, isLast⟩
  rw [List.append_assoc, List.singleton_append] at split
  refine ⟨_, _, last, split.symm, isLast, ?_⟩
  have sorted := sorted_numbered recordings
  rw [← split, List.pairwise_append, List.pairwise_cons] at sorted
  have stopSeq := (SequencedEvent.stop?_eq_some isStop).2.1
  have lastSeq := (SequencedEvent.stop?_eq_some isLast).2.1
  rw [← split, List.mem_append, List.mem_cons] at member
  rcases member with before | rfl | since
  · have ordered := sorted.2.2 entry before _ List.mem_cons_self
    omega
  · omega
  · rw [stop?_of_mem_sinceLastStop since] at isStop
    cases isStop

/-- With a full capacity of entries after the last stop, no stop is retained. -/
theorem findStopAfter_eq_none_of_crowded {recordings : List Recording} {capacity : Nat}
    (crowded : capacity ≤ (sinceLastStop recordings).length) (after : Nat) :
    (EventJournal.ofRecordings capacity recordings).findStopAfter after = none := by
  rw [EventJournal.findStopAfter_eq_none_iff]
  rintro stop ⟨entry, member, isStop⟩
  rw [EventJournal.entries_ofRecordings] at member
  have retained : entry ∈ sinceLastStop recordings := by
    have suffix : sinceLastStop recordings <:+ numbered recordings :=
      List.rtakeWhile_suffix _ _
    rcases suffix with ⟨before, split⟩
    have lengths := congrArg List.length split
    rw [List.length_append, length_numbered] at lengths
    rw [← split, List.drop_append, List.drop_eq_nil_of_le (by omega), List.nil_append] at member
    exact List.mem_of_mem_drop member
  rw [stop?_of_mem_sinceLastStop retained] at isStop
  cases isStop

theorem exists_findStopAfter_of_recent {recordings : List Recording} {capacity after : Nat}
    (recent : (sinceLastStop recordings).length < capacity)
    (above : RecordsStopAbove recordings after) :
    ∃ stop, (EventJournal.ofRecordings capacity recordings).findStopAfter after = some stop ∧
      after < stop.seq := by
  rcases exists_last_stop above with ⟨earlier, entry, last, split, isLast, lastAbove⟩
  have retains : (EventJournal.ofRecordings capacity recordings).Retains last := by
    refine ⟨entry, ?_, isLast⟩
    have lengths := congrArg List.length split
    rw [List.length_append, List.length_cons, length_numbered] at lengths
    rw [EventJournal.entries_ofRecordings, split, List.drop_append_of_le_length (by omega)]
    exact List.mem_append_right _ List.mem_cons_self
  cases found : (EventJournal.ofRecordings capacity recordings).findStopAfter after with
  | none =>
      have below := EventJournal.findStopAfter_eq_none_iff.mp found last retains
      omega
  | some stop => exact ⟨stop, rfl, (EventJournal.findStopAfter_eq_some found).2.1⟩

/-- A recorded stop above the cursor is found exactly when less than a full
capacity of events has followed the last stop. -/
theorem findsRecordedStop_iff (recordings : List Recording) (after : Nat) :
    FindsRecordedStop recordings after ↔
      (RecordsStopAbove recordings after →
        (sinceLastStop recordings).length < eventJournalCapacity) := by
  constructor
  · intro finds above
    by_contra crowded
    rcases finds above with ⟨stop, found, _⟩
    rw [findStopAfter_eq_none_of_crowded (Nat.le_of_not_lt crowded)] at found
    cases found
  · intro recent above
    exact exists_findStopAfter_of_recent (recent above) above

/-- The separately kept latest stop is above the cursor whenever one was
recorded. -/
theorem latestStopped_above_iff (recordings : List Recording) (after : Nat) :
    RecordsStopAbove recordings after ↔ ∃ stop,
      (EventJournal.ofRecordings eventJournalCapacity recordings).latestStopped = some stop ∧
        after < stop.seq := by
  rw [EventJournal.latestStopped_ofRecordings]
  constructor
  · intro above
    rcases exists_last_stop above with ⟨earlier, entry, last, split, isLast, lastAbove⟩
    refine ⟨last, ?_, lastAbove⟩
    have noStops : (sinceLastStop recordings).filterMap SequencedEvent.stop? = [] :=
      List.filterMap_eq_nil_iff.mpr fun _ => stop?_of_mem_sinceLastStop
    rw [split, List.filterMap_append, List.filterMap_cons, isLast, noStops]
    exact List.getLast?_concat
  · rintro ⟨stop, isLatest, above⟩
    rcases List.mem_filterMap.mp (List.mem_of_getLast? isLatest) with ⟨entry, member, isStop⟩
    exact ⟨entry, member, stop, isStop, above⟩

/-- A stop, and then that much console output. -/
def stopThenOutput (count : Nat) : List Recording :=
  ⟨.stopped ⟨none, none, none, []⟩, .wire 0⟩ :: List.replicate count ⟨.console "", .wire 1⟩

theorem stopThenOutput_records_stop (count : Nat) :
    RecordsStopAbove (stopThenOutput count) EventJournal.new.cursor := by
  have first : (numbered (stopThenOutput count))[0]? =
      some ⟨seqAt 0, .stopped ⟨none, none, none, []⟩, .wire 0⟩ := by
    rw [getElem?_numbered]
    rfl
  exact ⟨_, List.mem_of_getElem? first, _, rfl, Nat.zero_lt_one⟩

theorem le_sinceLastStop_stopThenOutput (count : Nat) :
    count ≤ (sinceLastStop (stopThenOutput count)).length := by
  rcases exists_last_stop (stopThenOutput_records_stop count) with
    ⟨earlier, entry, last, split, isLast, _⟩
  have total : (stopThenOutput count).length = count + 1 := by
    rw [stopThenOutput, List.length_cons, List.length_replicate]
  have lengths := congrArg List.length split
  rw [List.length_append, List.length_cons, length_numbered, total] at lengths
  by_contra few
  -- Then the last stop is not the first entry, but every other one is output.
  obtain ⟨index, isLater⟩ : ∃ index, earlier.length = index + 1 :=
    Nat.exists_eq_succ_of_ne_zero (by omega)
  have isEntry : (numbered (stopThenOutput count))[index + 1]? = some entry := by
    rw [split, ← isLater]
    simp
  rw [getElem?_numbered, stopThenOutput, List.getElem?_cons_succ, List.getElem?_replicate,
    if_pos (by omega), Option.map_some, Option.some.injEq] at isEntry
  rw [← isEntry] at isLast
  cases isLast

/-- After a full capacity of output nothing is found above the cursor of the
empty journal, but the latest stop is there. -/
theorem stopThenOutput_not_found :
    (EventJournal.ofRecordings eventJournalCapacity
        (stopThenOutput eventJournalCapacity)).findStopAfter EventJournal.new.cursor = none ∧
      ∃ stop, (EventJournal.ofRecordings eventJournalCapacity
          (stopThenOutput eventJournalCapacity)).latestStopped = some stop ∧
        EventJournal.new.cursor < stop.seq :=
  ⟨findStopAfter_eq_none_of_crowded (le_sinceLastStop_stopThenOutput _) _,
    (latestStopped_above_iff _ _).mp (stopThenOutput_records_stop _)⟩

end Framewalk
