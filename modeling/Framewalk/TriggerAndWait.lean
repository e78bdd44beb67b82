import Framewalk.RecordedWire

/-!
# Trigger and wait

The cursor is read before the command is submitted, so every stop journaled
between that read and the command's `^running` result is above it, whatever
caused the stop.
-/

namespace Framewalk

namespace Transport

open TransitionSystem

/-- A call that has registered a sender did so under this token. -/
def IsUnder (token : Token) : CallState → Prop
  | .idle | .submitting _ _ | .tested _ _ | .allocated _ _ _ | .triggering _ => False
  | .registered own _ _ | .rollingBack own | .awaiting own _ => own = token
  | _ => True

/-- Every sender, before and after it is fired, belongs to a call that
registered it under the token it is kept by. -/
structure OwnsSenders (transport : Transport) : Prop where
  pending : ∀ token i, transport.pending[token]? = some i → IsUnder token (transport.calls i)
  firing : ∀ i token outcome rest, transport.reader = .firing i token outcome rest →
    IsUnder token (transport.calls i)
  replies : ∀ i reply, transport.replies i = some reply →
    IsUnder reply.handle (transport.calls i)

theorem isUnder_wake {token : Token} {state : CallState} (under : IsUnder token state) :
    IsUnder token state.wake := by
  cases state <;> exact under

theorem CallStep.isUnder {transport : Transport} {i : CallId} {label : Label}
    {state next : CallState} (takes : CallStep transport i label state next) {token : Token}
    (under : IsUnder token state) : IsUnder token next := by
  cases takes with
  | start | testSubmit | allocate | register | trigger => exact under.elim
  | send | refuse => exact under
  | _ => trivial

theorem Transition.isUnder {transport next : Transport} {label : Label}
    (transition : Transition transport label next) {token : Token} {i : CallId}
    (under : IsUnder token (transport.calls i)) : IsUnder token (next.calls i) := by
  rcases transition.calls i with stays | notified | takes
  · exact stays ▸ under
  · exact notified ▸ isUnder_wake under
  · exact takes.isUnder under

theorem Transition.firing {transport next : Transport} {label : Label}
    (transition : Transition transport label next) {i : CallId} {token : Token}
    {outcome : CommandOutcome} {rest : List Event}
    (firing : next.reader = .firing i token outcome rest) :
    transport.reader = .firing i token outcome rest ∨ transport.pending[token]? = some i := by
  cases transition with
  | takeSender _ taken =>
      cases firing
      exact Or.inr taken
  | receive _ phase =>
      rcases phase with rfl | ⟨_, rfl⟩ <;> cases firing
  | endOfInput | dispatchedAll | pass | fire | record | notify | storeExit | notifyExit
  | clearPending => cases firing
  | _ => exact Or.inl firing

theorem Transition.replies {transport next : Transport} {label : Label}
    (transition : Transition transport label next) {i : CallId} {reply : Reply}
    (replied : next.replies i = some reply) :
    transport.replies i = some reply ∨ ∃ rest,
      transport.reader = .firing i reply.handle reply.outcome rest ∧
        reply.running = transport.recorded ∧ reply.journaled = transport.history.length := by
  cases transition with
  | @fire receiver handle outcome rest firing =>
      by_cases same : i = receiver
      · subst same
        simp only [Transport.fire, Function.update_self, Option.some.injEq] at replied
        subst replied
        exact Or.inr ⟨rest, firing, rfl, rfl⟩
      · simp only [Transport.fire, Function.update_of_ne same] at replied
        exact Or.inl replied
  | _ => exact Or.inl replied

theorem ownsSenders_step {transport next : Transport} {label : Label}
    (owns : transport.OwnsSenders) (stepped : transport.step label = some next) :
    next.OwnsSenders := by
  have transition := transition_of_step stepped
  refine ⟨?_, ?_, ?_⟩
  · intro token i holds
    rcases transition.pending holds with before | ⟨bytes, after, _, isRegistered⟩
    · exact transition.isUnder (owns.pending token i before)
    · rw [isRegistered]
      rfl
  · intro i token outcome rest firing
    rcases transition.firing firing with before | taken
    · exact transition.isUnder (owns.firing i token outcome rest before)
    · exact transition.isUnder (owns.pending token i taken)
  · intro i reply replied
    rcases transition.replies replied with before | ⟨rest, firing, _, _⟩
    · exact transition.isUnder (owns.replies i reply before)
    · exact transition.isUnder (owns.firing i reply.handle reply.outcome rest firing)

theorem ownsSenders_of_reachable {transport : Transport}
    (reachable : Reachable step new transport) : transport.OwnsSenders := by
  apply reachable.invariant
  · refine ⟨?_, ?_, ?_⟩
    · intro token i holds
      simp [new] at holds
    · intro i token outcome rest firing
      cases firing
    · intro i reply replied
      cases replied
  · intro transport next label owns _ stepped
    exact ownsSenders_step owns stepped

/-- The event with this index completed the command, and the journal entries
made before it was recorded are exactly the first ones. -/
structure CompletedAt (transport : Transport) (token : Token) (outcome : CommandOutcome)
    (index journaled : Nat) : Prop where
  completed : transport.wire[index]? = some (.commandCompleted token outcome)
  reached : index ≤ transport.recorded
  inHistory : journaled ≤ transport.history.length
  before : ∀ entry ∈ transport.history.take journaled, ∀ source,
    entry.source = .wire source → source < index
  after : ∀ entry ∈ transport.history.drop journaled, ∀ source,
    entry.source = .wire source → index ≤ source

theorem CompletedAt.evolves {transport next : Transport} {token : Token}
    {outcome : CommandOutcome} {index journaled : Nat}
    (completed : transport.CompletedAt token outcome index journaled)
    (evolves : transport.Evolves next) : next.CompletedAt token outcome index journaled := by
  refine ⟨getElem?_eq_some_of_isPrefix evolves.wire completed.completed,
    Nat.le_trans completed.reached evolves.recorded, ?_, ?_, ?_⟩
  all_goals rcases evolves.history with same | ⟨event, source, grown, fromWire⟩
  · exact same ▸ completed.inHistory
  · rw [grown, List.length_append]
    exact Nat.le_add_right_of_le completed.inHistory
  · exact same ▸ completed.before
  · rw [grown, List.take_append_of_le_length completed.inHistory]
    exact completed.before
  · exact same ▸ completed.after
  · intro entry member position entryAt
    rw [grown, List.drop_append, List.mem_append] at member
    rcases member with old | isNew
    · exact completed.after entry old position entryAt
    · rw [List.mem_singleton.mp (List.mem_of_mem_drop isNew)] at entryAt
      rw [fromWire position entryAt]
      exact completed.reached

theorem completedAt_of_firing {transport : Transport} (records : transport.RecordsWire)
    {i : CallId} {token : Token} {outcome : CommandOutcome} {rest : List Event}
    (firing : transport.reader = .firing i token outcome rest) :
    transport.CompletedAt token outcome transport.recorded transport.history.length := by
  have left := records.2.1 (.commandCompleted token outcome :: rest) (by rw [firing]; rfl)
  refine ⟨?_, Nat.le_refl _, Nat.le_refl _, ?_, ?_⟩
  · rw [← List.head?_drop, left.2]
    rfl
  · intro entry member source entryAt
    have isRecorded := records.2.2.isRecorded entry (List.mem_of_mem_take member)
    rw [SequencedEvent.IsRecorded, entryAt] at isRecorded
    exact isRecorded.1
  · intro entry member
    rw [List.drop_length] at member
    cases member

theorem completedAt_of_reply {transport : Transport} (reachable : Reachable step new transport)
    {i : CallId} {reply : Reply} (replied : transport.replies i = some reply) :
    transport.CompletedAt reply.handle reply.outcome reply.running reply.journaled := by
  induction reachable generalizing i reply with
  | refl => cases replied
  | tail label reachable _ stepped ih =>
      have transition := transition_of_step stepped
      rcases transition.replies replied with before | ⟨rest, firing, running, journaled⟩
      · exact (ih before).evolves transition.evolves
      · rw [running, journaled]
        exact (completedAt_of_firing (recordsWire_of_reachable reachable) firing).evolves
          transition.evolves

/-- A call that waits for the stop of its command knows where the command was
reported running. -/
def KnowsCompletion (transport : Transport) (state : CallState) : Prop :=
  ∀ waiter token running journaled, state.waiter? = some waiter →
    waiter.origin = .afterCommand token running journaled →
      transport.CompletedAt token .running running journaled

theorem knowsCompletion_taken {transport : Transport} (reachable : Reachable step new transport)
    {label : Label} {i : CallId} {state : CallState}
    (takes : CallStep transport i label (transport.calls i) state)
    (knows : transport.KnowsCompletion (transport.calls i)) :
    transport.KnowsCompletion state := by
  intro waiter token running journaled waits origin
  rcases takes.waiter waits with waited | direct | ⟨_, _, _, rfl⟩ |
    ⟨own, cursor, reply, isAwaiting, replied, isRunning, rfl⟩
  · exact knows waiter token running journaled waited origin
  · rw [direct] at origin
    cases origin
  · cases origin
  · cases origin
    have under := (ownsSenders_of_reachable reachable).replies i reply replied
    rw [isAwaiting] at under
    have sameToken : token = reply.handle := under
    rw [sameToken, ← isRunning]
    exact completedAt_of_reply reachable replied

theorem knowsCompletion_of_reachable {transport : Transport}
    (reachable : Reachable step new transport) (i : CallId) :
    transport.KnowsCompletion (transport.calls i) := by
  apply invariant_of_calls KnowsCompletion _ _ _ _ reachable
  · intro transport waiter token running journaled waits
    cases waits
  · intro transport state knows
    rw [KnowsCompletion, waiter?_wake]
    exact knows
  · intro transport next state evolves knows waiter token running journaled waits origin
    exact (knows waiter token running journaled waits origin).evolves evolves
  · intro transport label i state reachable _ takes knows
    exact knowsCompletion_taken reachable takes knows

/-- A retained stop that was journaled after a completion comes from a later
record. -/
theorem CompletedAt.lt_of_journaled_after {transport : Transport} {token : Token}
    {outcome : CommandOutcome} {running journaled : Nat}
    (completed : transport.CompletedAt token outcome running journaled)
    (records : transport.RecordsWire) {entry : SequencedEvent}
    (member : entry ∈ transport.history.drop journaled) {stop : StopEntry}
    (isStop : entry.stop? = some stop) :
    ∃ index, stop.IsAt transport.wire index ∧ running < index := by
  rcases records.2.2.isAt_of_mem (List.mem_of_mem_drop member) isStop with ⟨index, isAt, _⟩
  refine ⟨index, isAt, ?_⟩
  have sourceEq := (SequencedEvent.stop?_eq_some isStop).2.2
  have notBefore := completed.after entry member index (sourceEq.symm.trans isAt.1)
  apply Nat.lt_of_le_of_ne notBefore
  rintro rfl
  have same := completed.completed.symm.trans isAt.2
  cases same

/-- A stop that a call returns for its command comes from a record after the
`^running` result of that command. -/
def IsOwnStop (transport : Transport) (state : CallState) : Prop :=
  ∀ entry token running journaled,
    state = .done (.stop entry (.search (.afterCommand token running journaled))) →
      transport.wire[running]? = some (.commandCompleted token .running) ∧
        ∃ index, entry.IsAt transport.wire index ∧ running < index

def ReturnsOwnStop (transport : Transport) : Prop :=
  ∀ i, transport.IsOwnStop (transport.calls i)

/-- When such a call searches the journal, it retains no stop above the call's
cursor that was journaled before the `^running` result. -/
def NoEarlierStopRetained (transport : Transport) (label : Label) : Prop :=
  ∀ i waiter token running journaled, label = .call i →
    (transport.calls i).lookup? = some waiter →
      waiter.origin = .afterCommand token running journaled →
        ∀ entry ∈ transport.history.take journaled, entry ∈ transport.journal.entries →
          ∀ stop, entry.stop? = some stop → stop.seq ≤ waiter.cursor

theorem isOwnStop_taken {transport : Transport} {label : Label} {i : CallId}
    {state : CallState} (reachable : Reachable step new transport)
    (noEarlier : transport.NoEarlierStopRetained label)
    (takes : CallStep transport i label (transport.calls i) state) :
    transport.IsOwnStop state := by
  intro entry token running journaled returned
  rcases takes.stop returned with ⟨own, ⟨_, _, _, _, origin⟩ | ⟨waiter, looksUp, origin, found⟩⟩
  · cases origin
  · have waiterOrigin : waiter.origin = .afterCommand token running journaled :=
      (StopOrigin.search.inj origin).symm
    have completed := knowsCompletion_of_reachable reachable i waiter token running journaled
      (waiter?_of_lookup? looksUp) waiterOrigin
    refine ⟨completed.completed, ?_⟩
    have records := recordsWire_of_reachable reachable
    rcases EventJournal.exists_of_findStopAfter found with
      ⟨earlier, foundEntry, later, entriesEq, isStop, above, _⟩
    have retained : foundEntry ∈ transport.journal.entries := by simp [entriesEq]
    have inHistory := records.2.2.retained.subset retained
    rw [← List.take_append_drop journaled transport.history, List.mem_append] at inHistory
    rcases inHistory with before | after
    · have below := noEarlier i waiter token running journaled own looksUp waiterOrigin foundEntry
        before retained entry isStop
      omega
    · exact completed.lt_of_journaled_after records after isStop

theorem returnsOwnStop_of_reaches {transport : Transport}
    (reaches : Reaches step NoEarlierStopRetained new transport) :
    transport.ReturnsOwnStop := by
  intro i
  apply invariant_of_calls IsOwnStop _ _ _ _ reaches
  · intro transport entry token running journaled returned
    cases returned
  · intro transport state isOwn entry token running journaled returned
    exact isOwn entry token running journaled (eq_of_wake returned rfl)
  · intro transport next state evolves isOwn entry token running journaled returned
    rcases isOwn entry token running journaled returned with ⟨completed, index, isAt, isLater⟩
    exact ⟨getElem?_eq_some_of_isPrefix evolves.wire completed, index,
      ⟨isAt.1, getElem?_eq_some_of_isPrefix evolves.wire isAt.2⟩, isLater⟩
  · intro transport label i state reaches noEarlier takes _
    exact isOwnStop_taken reaches.reachable noEarlier takes

theorem step_of_found {transport : Transport} {i : CallId} {waiter : Waiter}
    (looksUp : (transport.calls i).lookup? = some waiter) {stop : StopEntry}
    (found : transport.journal.findStopAfter waiter.cursor = some stop) :
    transport.step (.call i) =
      some (transport.setCall i (.done (.stop stop (.search waiter.origin)))) := by
  cases isCall : transport.calls i with
  | lookingUp | lookingUpAgain =>
      rw [isCall] at looksUp
      obtain rfl := Option.some.inj looksUp
      simp only [step, stepCall, isCall, advance, found, Option.map_some]
  | _ =>
      rw [isCall] at looksUp
      cases looksUp

/-- A search that runs while an earlier stop is retained returns an earlier
stop. -/
theorem earlier_stop_of_retained {transport next : Transport} {label : Label}
    (reachable : Reachable step new transport) (stepped : transport.step label = some next)
    (retained : ¬ transport.NoEarlierStopRetained label) : ¬ next.ReturnsOwnStop := by
  unfold NoEarlierStopRetained at retained
  push Not at retained
  rcases retained with ⟨i, waiter, token, running, journaled, rfl, looksUp, origin, entry,
    before, member, stop, isStop, above⟩
  have records := recordsWire_of_reachable reachable
  have completed := knowsCompletion_of_reachable reachable i waiter token running journaled
    (waiter?_of_lookup? looksUp) origin
  cases isFound : transport.journal.findStopAfter waiter.cursor with
  | none =>
      have below := EventJournal.findStopAfter_eq_none_iff.mp isFound stop ⟨entry, member, isStop⟩
      omega
  | some found =>
      rw [step_of_found looksUp isFound, origin] at stepped
      obtain rfl := Option.some.inj stepped
      intro returnsOwn
      rcases returnsOwn i found token running journaled (setCall_calls_self _ _ _) with
        ⟨_, foundIndex, foundAt, isLater⟩
      rcases records.2.2.isAt_of_mem (List.mem_of_mem_take before) isStop with ⟨index, isAt, _⟩
      have foundLe := records.2.2.found_le isFound member isStop above foundAt.1 isAt.1
      have sourceEq := (SequencedEvent.stop?_eq_some isStop).2.2
      have isBefore := completed.before entry before index (sourceEq.symm.trans isAt.1)
      omega

/-- Every trigger and wait returns a stop of its own command throughout a run
exactly when no search of such a call meets an earlier stop. -/
theorem returnsOwnStop_iff_noEarlierStopRetained (labels : List Label) :
    Always step new ReturnsOwnStop labels ↔ EachStep step new NoEarlierStopRetained labels :=
  always_iff_eachStep (fun _ => returnsOwnStop_of_reaches)
    (fun _ => earlier_stop_of_retained) labels

/-- While the call submits its command, a stop that was already on its way
arrives in front of the `^running` result. -/
def otherStop : List Label :=
  [.start 0 (.submitAndAwaitStop "-exec-continue"), .call 0, .call 0, .call 0, .call 0, .call 0,
    .receive (Utf8Text.asBytes "*stopped\n1^running\n"), .reader, .reader, .reader, .reader,
    .reader, .call 0, .call 0]

theorem otherStop_returned :
    ∃ final, run step new otherStop = some final ∧ ¬ final.ReturnsOwnStop := by
  have ran : ∃ final, run step new otherStop = some final ∧
      final.calls 0 = .done (.stop ⟨1, ⟨none, none, none, []⟩, .wire 0⟩
        (.search (.afterCommand 1 1 1))) :=
    ⟨_, rfl, rfl⟩
  rcases ran with ⟨final, ran, returned⟩
  refine ⟨final, ran, ?_⟩
  intro returnsOwn
  rcases returnsOwn 0 _ 1 1 1 returned with ⟨_, index, isAt, isLater⟩
  have isFirst : index = 0 := by
    have source := isAt.1
    cases source
    rfl
  omega

end Transport

end Framewalk
