import Framewalk.RecordedWire

/-!
# The current stop or the next one

The call tests a snapshot of the connection, then reads the journal.  The two
are read at different times, and the journal is behind the connection: a stop
that the reader journals between the test and the cursor is slept through, and one
that it has not yet journaled leaves an older one to be returned.
-/

namespace Framewalk

namespace Transport

open TransitionSystem

/-- A call that found its target not stopped waits only from a cursor below
every stop journaled since. -/
def NeverSleepsThroughStop (transport : Transport) : Prop :=
  ∀ i waiter journaled, (transport.calls i).waiter? = some waiter →
    waiter.origin = .afterTest journaled →
      ∀ entry ∈ transport.history.drop journaled, ∀ stop, entry.stop? = some stop →
        waiter.cursor < stop.seq

/-- When the call reads its cursor, no stop has been journaled since its test,
unless under the largest number, where the numbers saturate. -/
def NoStopBeforeCursor (transport : Transport) (label : Label) : Prop :=
  ∀ i journaled, label = .call i → transport.calls i = .readingCursor journaled →
    ∀ entry ∈ transport.history.drop journaled, ∀ stop, entry.stop? = some stop →
      stop.seq = maxEventSeq

/-- The wait is below the next sequence number and below every stop since the
test that began it. -/
def WaitsBelowStops (transport : Transport) (state : CallState) : Prop :=
  ∀ waiter journaled, state.waiter? = some waiter → waiter.origin = .afterTest journaled →
    waiter.cursor < transport.journal.nextSeq ∧
      ∀ entry ∈ transport.history.drop journaled, ∀ stop, entry.stop? = some stop →
        waiter.cursor < stop.seq

theorem waitsBelowStops_evolves {transport next : Transport} {state : CallState}
    (evolves : transport.Evolves next) (below : transport.WaitsBelowStops state) :
    next.WaitsBelowStops state := by
  intro waiter journaled waits origin
  rcases below waiter journaled waits origin with ⟨belowNext, belowStops⟩
  refine ⟨Nat.lt_of_lt_of_le belowNext evolves.nextSeq, ?_⟩
  intro entry member stop isStop
  rcases evolves.history with same | ⟨event, source, grown, _⟩
  · exact belowStops entry (same ▸ member) stop isStop
  · rw [grown, List.drop_append, List.mem_append] at member
    rcases member with before | isNew
    · exact belowStops entry before stop isStop
    · rw [List.mem_singleton.mp (List.mem_of_mem_drop isNew)] at isStop
      have seqEq := (SequencedEvent.stop?_eq_some isStop).2.1
      rw [seqEq]
      exact belowNext

theorem waitsBelowStops_taken {transport : Transport} {label : Label} {i : CallId}
    {state : CallState} (inTime : transport.NoStopBeforeCursor label)
    (takes : CallStep transport i label (transport.calls i) state)
    (below : transport.WaitsBelowStops (transport.calls i)) :
    transport.WaitsBelowStops state := by
  intro waiter journaled waits origin
  rcases takes.waiter waits with waited | direct | ⟨_, own, reads, rfl⟩ | ⟨_, _, _, _, _, _, rfl⟩
  · exact below waiter journaled waited origin
  · rw [direct] at origin
    cases origin
  · cases origin
    refine ⟨transport.journal.cursor_lt_nextSeq, ?_⟩
    intro entry member stop isStop
    rw [inTime i journaled own reads entry member stop isStop]
    exact transport.journal.cursor_lt_maxEventSeq
  · cases origin

theorem neverSleepsThroughStop_of_reaches {transport : Transport}
    (reaches : Reaches step NoStopBeforeCursor new transport) :
    transport.NeverSleepsThroughStop := by
  intro i waiter journaled waits origin
  have below : transport.WaitsBelowStops (transport.calls i) := by
    apply invariant_of_calls WaitsBelowStops _ _ waitsBelowStops_evolves _ reaches
    · intro transport waiter journaled waits
      cases waits
    · intro transport state below
      rw [WaitsBelowStops, waiter?_wake]
      exact below
    · intro transport label i state _ inTime takes below
      exact waitsBelowStops_taken inTime takes below
  exact (below waiter journaled waits origin).2

/-- Reading the cursor after a stop since the test makes the call wait past
that stop. -/
theorem sleeps_of_stop_before_cursor {transport next : Transport} {label : Label}
    (reachable : Reachable step new transport) (stepped : transport.step label = some next)
    (tooLate : ¬ transport.NoStopBeforeCursor label) : ¬ next.NeverSleepsThroughStop := by
  unfold NoStopBeforeCursor at tooLate
  push Not at tooLate
  rcases tooLate with ⟨i, journaled, rfl, reads, entry, member, stop, isStop, notLargest⟩
  have waiting : next = transport.setCall i
      (.lookingUp ⟨transport.journal.cursor, .afterTest journaled⟩) := by
    simp only [step, stepCall, reads, advance, Option.map_some] at stepped
    exact (Option.some.inj stepped).symm
  subst waiting
  intro never
  have waits : ((transport.setCall i
      (.lookingUp ⟨transport.journal.cursor, .afterTest journaled⟩)).calls i).waiter? =
        some ⟨transport.journal.cursor, .afterTest journaled⟩ := by
    rw [setCall_calls_self]
    rfl
  have above : transport.journal.cursor < stop.seq :=
    never i _ journaled waits rfl entry member stop isStop
  have journaledWire := (recordsWire_of_reachable reachable).2.2
  have seqEq := (SequencedEvent.stop?_eq_some isStop).2.1
  rcases journaledWire.numbered entry (List.mem_of_mem_drop member) with below | isLargest
  · rw [EventJournal.cursor] at above
    omega
  · exact notLargest (seqEq.trans isLargest)

/-- No such call waits past a stop throughout a run exactly when every cursor is
read before the next stop is journaled. -/
theorem neverSleepsThroughStop_iff_noStopBeforeCursor (labels : List Label) :
    Always step new NeverSleepsThroughStop labels ↔ EachStep step new NoStopBeforeCursor labels :=
  always_iff_eachStep (fun _ => neverSleepsThroughStop_of_reaches)
    (fun _ => sleeps_of_stop_before_cursor) labels

/-- The call finds the target not stopped; the stop arrives and is journaled;
the call reads a cursor that covers it and parks. -/
def sleptThrough : List Label :=
  [.start 0 .currentOrNextStop, .call 0, .receive (Utf8Text.asBytes "*stopped\n"), .reader,
    .reader, .call 0, .call 0, .call 0, .call 0, .call 0, .call 0]

theorem sleptThrough_parks :
    ∃ final, run step new sleptThrough = some final ∧
      final.calls 0 = .parked ⟨1, .afterTest 0⟩ false ∧ ¬ final.NeverSleepsThroughStop := by
  have ran : ∃ final, run step new sleptThrough = some final ∧
      final.calls 0 = .parked ⟨1, .afterTest 0⟩ false ∧
      final.history.map SequencedEvent.stop? = [some ⟨1, ⟨none, none, none, []⟩, .wire 0⟩] :=
    ⟨_, rfl, rfl, rfl⟩
  rcases ran with ⟨final, ran, parked, stops⟩
  refine ⟨final, ran, parked, ?_⟩
  intro never
  have waits : (final.calls 0).waiter? = some ⟨1, .afterTest 0⟩ := by rw [parked]; rfl
  have isStop := List.mem_singleton_self (some (⟨1, ⟨none, none, none, []⟩, .wire 0⟩ : StopEntry))
  rw [← stops, List.mem_map] at isStop
  rcases isStop with ⟨entry, member, isStop⟩
  exact absurd (never 0 _ 0 waits rfl entry member _ isStop) (Nat.lt_irrefl 1)

/-- A stop returned on a stopped snapshot is the one that put the snapshot in
that state, or a later one. -/
def ShowsCurrentStop (transport : Transport) : Prop :=
  ∀ i entry seen, transport.calls i = .done (.stop entry (.snapshot seen)) →
    ∃ shown index, PutIntoStopped (transport.wire.take seen) shown ∧
      entry.IsAt transport.wire index ∧ shown ≤ index

/-- When the call reads the latest stop, and there is one, the stop that its
snapshot shows has been journaled. -/
def ShownStopJournaled (transport : Transport) (label : Label) : Prop :=
  ∀ i seen journaled stop shown, label = .call i →
    transport.calls i = .readingLatest seen journaled →
      transport.journal.latestStopped = some stop →
        PutIntoStopped (transport.wire.take seen) shown → shown < transport.recorded

/-- What a call knows of the wire between its snapshot and its result. -/
def KnowsShownStop (transport : Transport) (state : CallState) : Prop :=
  (∀ seen journaled, state = .readingLatest seen journaled →
    seen ≤ transport.wire.length ∧ ∃ shown, PutIntoStopped (transport.wire.take seen) shown) ∧
  ∀ entry seen, state = .done (.stop entry (.snapshot seen)) →
    seen ≤ transport.wire.length ∧ ∃ shown index,
      PutIntoStopped (transport.wire.take seen) shown ∧
        entry.IsAt transport.wire index ∧ shown ≤ index

theorem knowsShownStop_evolves {transport next : Transport} {state : CallState}
    (evolves : transport.Evolves next) (knows : transport.KnowsShownStop state) :
    next.KnowsShownStop state := by
  have sameTake : ∀ {seen}, seen ≤ transport.wire.length →
      next.wire.take seen = transport.wire.take seen := by
    intro seen inWire
    rcases evolves.wire with ⟨more, wireEq⟩
    rw [← wireEq, List.take_append_of_le_length inWire]
  refine ⟨?_, ?_⟩
  · intro seen journaled reads
    rcases knows.1 seen journaled reads with ⟨inWire, shown, isShown⟩
    exact ⟨Nat.le_trans inWire evolves.wire.length_le, shown, sameTake inWire ▸ isShown⟩
  · intro entry seen returned
    rcases knows.2 entry seen returned with ⟨inWire, shown, index, isShown, isAt, notStale⟩
    refine ⟨Nat.le_trans inWire evolves.wire.length_le, shown, index,
      sameTake inWire ▸ isShown, ⟨isAt.1, ?_⟩, notStale⟩
    exact getElem?_eq_some_of_isPrefix evolves.wire isAt.2

theorem CallStep.snapshot {transport : Transport} {i : CallId} {label : Label}
    {state next : CallState} (takes : CallStep transport i label state next)
    {seen journaled : Nat} (reads : next = .readingLatest seen journaled) :
    transport.connection.target.isStopped = true ∧ seen = transport.wire.length := by
  cases takes with
  | start call => cases call <;> cases reads
  | snapshotStopped isStopped =>
      cases reads
      exact ⟨isStopped, rfl⟩
  | _ => cases reads

theorem knowsShownStop_taken {transport : Transport} {label : Label} {i : CallId}
    {state : CallState} (records : transport.RecordsWire)
    (inTime : transport.ShownStopJournaled label)
    (takes : CallStep transport i label (transport.calls i) state)
    (knows : transport.KnowsShownStop (transport.calls i)) :
    transport.KnowsShownStop state := by
  refine ⟨?_, ?_⟩
  · intro seen journaled reads
    rcases takes.snapshot reads with ⟨isStopped, rfl⟩
    refine ⟨Nat.le_refl _, ?_⟩
    rw [List.take_length]
    exact records.1 isStopped
  · intro entry seen returned
    rcases takes.stop returned with ⟨own, ⟨_, journaled, reads, isLatest, origin⟩ | searched⟩
    · cases origin
      rcases knows.1 seen journaled reads with ⟨inWire, shown, isShown⟩
      have isRecorded := inTime i seen journaled entry shown own reads isLatest isShown
      rcases records.2.2.le_latest isLatest (exists_stop_of_putIntoStopped_take isShown)
        isRecorded with ⟨index, isAt, notStale⟩
      exact ⟨inWire, shown, index, isShown, isAt, notStale⟩
    · rcases searched with ⟨waiter, _, origin, _⟩
      cases origin

theorem showsCurrentStop_of_reaches {transport : Transport}
    (reaches : Reaches step ShownStopJournaled new transport) : transport.ShowsCurrentStop := by
  intro i entry seen returned
  have knows : transport.KnowsShownStop (transport.calls i) := by
    apply invariant_of_calls KnowsShownStop _ _ knowsShownStop_evolves _ reaches
    · intro transport
      refine ⟨?_, ?_⟩
      · intro seen journaled reads
        cases reads
      · intro entry seen returned
        cases returned
    · intro transport state knows
      refine ⟨?_, ?_⟩
      · intro seen journaled reads
        exact knows.1 seen journaled (eq_of_wake reads rfl)
      · intro entry seen returned
        exact knows.2 entry seen (eq_of_wake returned rfl)
    · intro transport label i state reaches inTime takes knows
      exact knowsShownStop_taken (recordsWire_of_reachable reaches.reachable) inTime takes knows
  exact (knows.2 entry seen returned).2

/-- Reading the latest stop before the shown one is journaled returns an older
stop. -/
theorem stale_of_latest_behind {transport next : Transport} {label : Label}
    (reachable : Reachable step new transport) (stepped : transport.step label = some next)
    (behind : ¬ transport.ShownStopJournaled label) : ¬ next.ShowsCurrentStop := by
  unfold ShownStopJournaled at behind
  push Not at behind
  rcases behind with ⟨i, seen, journaled, stop, shown, rfl, reads, isLatest, isShown, notYet⟩
  have returned : next = transport.setCall i (.done (.stop stop (.snapshot seen))) := by
    simp only [step, stepCall, reads, advance, isLatest, Option.map_some] at stepped
    exact (Option.some.inj stepped).symm
  subst returned
  intro shows
  rcases shows i stop seen (setCall_calls_self _ _ _) with ⟨again, index, isAgain, isAt, notStale⟩
  obtain rfl := isShown.unique isAgain
  rcases (recordsWire_of_reachable reachable).2.2.latest stop isLatest with
    ⟨latestIndex, latestAt, isRecorded, _⟩
  have sameSource := isAt.1.symm.trans latestAt.1
  cases sameSource
  omega

/-- The returned stop is never stale throughout a run exactly when every read of
the latest stop comes after the shown stop is journaled. -/
theorem showsCurrentStop_iff_shownStopJournaled (labels : List Label) :
    Always step new ShowsCurrentStop labels ↔ EachStep step new ShownStopJournaled labels :=
  always_iff_eachStep (fun _ => showsCurrentStop_of_reaches)
    (fun _ => stale_of_latest_behind) labels

/-- A first stop is journaled; a chunk that resumes and stops the target again
reaches the connection; the call reads both before the chunk is journaled. -/
def staleStop : List Label :=
  [.receive (Utf8Text.asBytes "*stopped\n"), .reader, .reader, .reader, .reader,
    .receive (Utf8Text.asBytes "*running\n*stopped\n"), .start 0 .currentOrNextStop, .call 0,
    .call 0]

theorem staleStop_returned :
    ∃ final, run step new staleStop = some final ∧ ¬ final.ShowsCurrentStop := by
  have ran : ∃ final, run step new staleStop = some final ∧
      final.calls 0 =
        .done (.stop ⟨1, ⟨none, none, none, []⟩, .wire 0⟩ (.snapshot 3)) ∧
      (final.wire.take 3)[1]? = some (.running ⟨none⟩) :=
    ⟨_, rfl, rfl, rfl⟩
  rcases ran with ⟨final, ran, returned, resumed⟩
  refine ⟨final, ran, ?_⟩
  intro shows
  rcases shows 0 _ 3 returned with ⟨shown, index, isShown, isAt, notStale⟩
  have isFirst : index = 0 := by
    have source := isAt.1
    cases source
    rfl
  obtain rfl : shown = 0 := by omega
  have still := isShown.2 1 _ Nat.zero_lt_one resumed
  cases still

end Transport

end Framewalk
