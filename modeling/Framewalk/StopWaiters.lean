import Framewalk.TransportTransitions

/-!
# Waiting for a stop loses no wake-up

A waiter creates its notification, searches the journal and tests the reader
once more, and only then parks.  Whatever it did not see in that second round
was pushed or stored later, by a producer that has yet to notify it.
-/

namespace Framewalk

namespace Transport

open TransitionSystem

/-- A producer stands between its push, or the reader's store on exit, and its
notification of the waiters. -/
def NotifyPending (transport : Transport) : Prop :=
  (∃ rest, transport.reader = .notifying rest) ∨ transport.reader = .exitStored ∨
    ∃ i seq, transport.calls i = .logged seq

/-- Nothing that this wait looks for is in the journal, or the reader has yet to
notify. -/
def SeesStops (transport : Transport) (waiter : Waiter) : Prop :=
  transport.journal.findStopAfter waiter.cursor = none ∨
    ∃ rest, transport.reader = .notifying rest

def SeesExit (transport : Transport) : Prop :=
  transport.readerAlive = true ∨ transport.reader = .exitStored

/-- A wait past its second search has missed no stop, and a parked one has not
missed the exit either, unless it has been notified. -/
def MissesNothing (transport : Transport) (state : CallState) : Prop :=
  (∀ waiter, state = .testingAliveAgain waiter false → transport.SeesStops waiter) ∧
    ∀ waiter, state = .parked waiter false → transport.SeesStops waiter ∧ transport.SeesExit

theorem Transition.seesStops {transport next : Transport} {label : Label}
    (transition : Transition transport label next) {waiter : Waiter}
    (sees : transport.SeesStops waiter) :
    next.SeesStops waiter ∨ ∀ i, next.calls i = (transport.calls i).wake := by
  have journalOnly : ∀ {phase : ReaderPhase}, transport.reader = phase →
      (∀ rest, phase ≠ .notifying rest) →
        transport.journal.findStopAfter waiter.cursor = none := by
    rintro phase rfl notNotifying
    rcases sees with nothing | ⟨rest, notifying⟩
    · exact nothing
    · exact absurd notifying (notNotifying rest)
  cases transition with
  | log =>
      rcases sees with nothing | notifying
      · exact Or.inl (Or.inl (EventJournal.findStopAfter_push_eq_none nothing rfl _))
      · exact Or.inl (Or.inr notifying)
  | @record event rest => exact Or.inl (Or.inr ⟨rest, rfl⟩)
  | notify | notifyExit => exact Or.inr fun _ => rfl
  | receive phase | endOfInput phase | dispatchedAll phase | takeSender phase | pass phase
  | fire phase | storeExit phase | clearPending phase =>
      exact Or.inl (Or.inl (journalOnly phase (by simp)))
  | _ => exact Or.inl sees

theorem Transition.seesExit {transport next : Transport} {label : Label}
    (transition : Transition transport label next) (sees : transport.SeesExit) :
    next.SeesExit ∨ ∀ i, next.calls i = (transport.calls i).wake := by
  have aliveStill : ∀ {phase : ReaderPhase}, transport.reader = phase → phase ≠ .exitStored →
      transport.readerAlive = true := by
    rintro phase rfl notStored
    exact sees.resolve_right notStored
  cases transition with
  | storeExit => exact Or.inl (Or.inr rfl)
  | notify | notifyExit => exact Or.inr fun _ => rfl
  | receive phase | endOfInput phase | dispatchedAll phase | takeSender phase | pass phase
  | fire phase | record phase | clearPending phase =>
      exact Or.inl (Or.inl (aliveStill phase (by simp)))
  | _ => exact Or.inl sees

theorem CallStep.missesNothing {transport : Transport} {i : CallId} {label : Label}
    {state next : CallState} (takes : CallStep transport i label state next)
    (misses : transport.MissesNothing state) : transport.MissesNothing next := by
  refine ⟨?_, ?_⟩
  · intro waiter isTesting
    cases takes with
    | start call => cases call <;> cases isTesting
    | findNoneAgain _ woken notFound =>
        cases isTesting
        exact Or.inl notFound
    | _ => cases isTesting
  · intro waiter isParked
    cases takes with
    | start call => cases call <;> cases isParked
    | park _ woken alive =>
        cases isParked
        exact ⟨misses.1 waiter rfl, Or.inl alive⟩
    | _ => cases isParked

theorem wake_ne_unwoken (state : CallState) (waiter : Waiter) :
    state.wake ≠ .testingAliveAgain waiter false ∧ state.wake ≠ .parked waiter false := by
  cases state <;> simp [CallState.wake]

theorem missesNothing_step {transport next : Transport} {label : Label}
    (misses : ∀ i, transport.MissesNothing (transport.calls i))
    (stepped : transport.step label = some next) (i : CallId) :
    next.MissesNothing (next.calls i) := by
  have transition := transition_of_step stepped
  by_cases notified : next.calls i = (transport.calls i).wake
  · have unwoken := wake_ne_unwoken (transport.calls i)
    refine ⟨?_, ?_⟩
    · intro waiter isTesting
      exact absurd (notified ▸ isTesting) (unwoken waiter).1
    · intro waiter isParked
      exact absurd (notified ▸ isParked) (unwoken waiter).2
  · -- What the call learned before this step stays true after it.
    have before : transport.MissesNothing (next.calls i) := by
      rcases transition.calls i with stays | woken | takes
      · exact stays ▸ misses i
      · exact absurd woken notified
      · exact takes.missesNothing (misses i)
    have seesStops : ∀ waiter, transport.SeesStops waiter → next.SeesStops waiter := by
      intro waiter sees
      exact (transition.seesStops sees).resolve_right fun all => notified (all i)
    refine ⟨?_, ?_⟩
    · intro waiter isTesting
      exact seesStops waiter (before.1 waiter isTesting)
    · intro waiter isParked
      rcases before.2 waiter isParked with ⟨stops, exit⟩
      exact ⟨seesStops waiter stops,
        (transition.seesExit exit).resolve_right fun all => notified (all i)⟩

theorem missesNothing_of_reachable {transport : Transport}
    (reachable : Reachable step new transport) :
    ∀ i, transport.MissesNothing (transport.calls i) := by
  apply reachable.invariant
  · intro i
    refine ⟨?_, ?_⟩
    · intro waiter isTesting
      cases isTesting
    · intro waiter isParked
      cases isParked
  · intro transport next label misses _ stepped
    exact missesNothing_step misses stepped

theorem notify_of_pending {transport : Transport} (pending : transport.NotifyPending) :
    ∃ label next, transport.step label = some next ∧ ∀ i waiter,
      transport.calls i = .parked waiter false → next.calls i = .parked waiter true := by
  have woken : ∀ {i waiter}, transport.calls i = .parked waiter false →
      transport.notifyWaiters.calls i = .parked waiter true := by
    intro i waiter isParked
    simp only [notifyWaiters, isParked, CallState.wake]
  rcases pending with ⟨rest, notifying⟩ | stored | ⟨j, seq, isLogged⟩
  · exact ⟨.reader, { transport.notifyWaiters with reader := .dispatching rest },
      by simp only [step, stepReader, notifying], fun _ _ => woken⟩
  · exact ⟨.reader, { transport.notifyWaiters with reader := .exitNotified },
      by simp only [step, stepReader, stored], fun _ _ => woken⟩
  · refine ⟨.call j, transport.notifyWaiters.setCall j (.done (.logged seq)),
      by simp only [step, stepCall, isLogged], ?_⟩
    intro i waiter isParked
    have other : i ≠ j := by
      rintro rfl
      rw [isParked] at isLogged
      cases isLogged
    rw [setCall_calls_of_ne other]
    exact woken isParked

/-- A parked wait for something that has happened is notified, or a producer is
about to notify it and does so at its next step; and the stop that a wait returns
is the lowest retained one above its cursor when it was found. -/
def LosesNoWakeUp (transport : Transport) : Prop :=
  (∀ i waiter woken, transport.calls i = .parked waiter woken →
    ((∃ stop, transport.journal.Retains stop ∧ waiter.cursor < stop.seq) ∨
      transport.readerAlive = false) →
        woken = true ∨ transport.NotifyPending) ∧
  (transport.NotifyPending → ∃ label next, transport.step label = some next ∧
    ∀ i waiter, transport.calls i = .parked waiter false →
      next.calls i = .parked waiter true) ∧
  ∀ i waiter label next stop origin, (transport.calls i).waiter? = some waiter →
    transport.step label = some next → next.calls i = .done (.stop stop origin) →
      transport.journal.Retains stop ∧ waiter.cursor < stop.seq ∧
        ∀ other, transport.journal.Retains other → waiter.cursor < other.seq →
          stop.seq ≤ other.seq

theorem found_of_returned {transport next : Transport} {label : Label} {i : CallId}
    {waiter : Waiter} (waits : (transport.calls i).waiter? = some waiter)
    (stepped : transport.step label = some next) {stop : StopEntry} {origin : StopOrigin}
    (returned : next.calls i = .done (.stop stop origin)) :
    transport.journal.findStopAfter waiter.cursor = some stop := by
  rcases (transition_of_step stepped).calls i with stays | notified | takes
  · rw [← stays, returned] at waits
    cases waits
  · rw [eq_of_wake (notified.symm.trans returned) rfl] at waits
    cases waits
  · rcases takes.stop returned with ⟨_, ⟨_, _, reads, _, _⟩ | ⟨own, looksUp, _, found⟩⟩
    · rw [reads] at waits
      cases waits
    · have sameWaiter := (waiter?_of_lookup? looksUp).symm.trans waits
      obtain rfl := Option.some.inj sameWaiter
      exact found

/-- No wait loses a wake-up in any state of any run. -/
theorem nextStopAfter_losesNoWakeUp (labels : List Label) :
    Always step new LosesNoWakeUp labels := by
  intro before isPrefix transport ran
  have misses := missesNothing_of_reachable (reachable_of_run ran)
  refine ⟨?_, notify_of_pending, ?_⟩
  · intro i waiter woken isParked happened
    cases woken with
    | true => exact Or.inl rfl
    | false =>
        rcases (misses i).2 waiter isParked with ⟨seesStops, seesExit⟩
        right
        rcases happened with ⟨stop, retains, above⟩ | exited
        · rcases seesStops with nothing | notifying
          · have below := EventJournal.findStopAfter_eq_none_iff.mp nothing stop retains
            omega
          · exact Or.inl notifying
        · rcases seesExit with alive | stored
          · rw [exited] at alive
            cases alive
          · exact Or.inr (Or.inl stored)
  · intro i waiter label next stop origin waits stepped returned
    exact EventJournal.findStopAfter_eq_some (found_of_returned waits stepped returned)

/-- The window that the second search closes is real: here a stop is journaled,
the wait is parked, and the reader has yet to notify it. -/
example : ∃ final, run step new
    [.start 0 (.nextStopAfter 0), .call 0, .call 0, .call 0, .call 0, .call 0,
      .receive (Utf8Text.asBytes "*stopped\n"), .reader, .reader] = some final ∧
    final.calls 0 = .parked ⟨0, .direct⟩ false ∧
    (final.journal.findStopAfter 0).isSome = true :=
  ⟨_, rfl, rfl, rfl⟩

end Transport

end Framewalk
