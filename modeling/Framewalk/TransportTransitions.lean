import Framewalk.Transport

/-!
# What one step of the transport can do

Every enabled step is one of a short list of transitions, and every call either
stays, is notified, or takes one of a short list of its own steps.  All later
invariants are derived from these lists.
-/

namespace Framewalk

namespace Transport

open TransitionSystem

/-- The steps of a call, with what it learns from the state it leaves. -/
inductive CallStep (transport : Transport) (i : CallId) : Label → CallState → CallState → Prop
  | start (call : Call) : CallStep transport i (.start i call) .idle call.entry
  | testSubmit (request : SubmitRequest) (after : Option Nat) :
      transport.readerAlive = true →
        CallStep transport i (.call i) (.submitting request after) (.tested request after)
  | allocate (request : SubmitRequest) (after : Option Nat) (token : Token)
      (bytes : List UInt8) :
      CallStep transport i (.call i) (.tested request after) (.allocated token bytes after)
  | register (token : Token) (bytes : List UInt8) (after : Option Nat) :
      CallStep transport i (.call i) (.allocated token bytes after) (.registered token bytes after)
  | send (token : Token) (bytes : List UInt8) (after : Option Nat) :
      transport.writer ≠ .ended →
        CallStep transport i (.call i) (.registered token bytes after) (.awaiting token after)
  | refuse (token : Token) (bytes : List UInt8) (after : Option Nat) :
      CallStep transport i (.call i) (.registered token bytes after) (.rollingBack token)
  | awaitStop (token : Token) (cursor : Nat) (reply : Reply) :
      transport.replies i = some reply → reply.outcome = .running →
        CallStep transport i (.call i) (.awaiting token (some cursor))
          (.lookingUp ⟨cursor, .afterCommand token reply.running reply.journaled⟩)
  | trigger (raw : String) :
      CallStep transport i (.call i) (.triggering raw)
        (.submitting (.raw raw) (some transport.journal.cursor))
  | snapshotStopped :
      transport.connection.target.isStopped = true →
        CallStep transport i (.call i) .snapshotting
          (.readingLatest transport.wire.length transport.history.length)
  | snapshotOther :
      CallStep transport i (.call i) .snapshotting (.readingCursor transport.history.length)
  | latest (seen journaled : Nat) (stop : StopEntry) :
      transport.journal.latestStopped = some stop →
        CallStep transport i (.call i) (.readingLatest seen journaled)
          (.done (.stop stop (.snapshot seen)))
  | noLatest (seen journaled : Nat) :
      CallStep transport i (.call i) (.readingLatest seen journaled) (.readingCursor journaled)
  | readCursor (journaled : Nat) :
      CallStep transport i (.call i) (.readingCursor journaled)
        (.lookingUp ⟨transport.journal.cursor, .afterTest journaled⟩)
  | find (waiter : Waiter) (stop : StopEntry) :
      transport.journal.findStopAfter waiter.cursor = some stop →
        CallStep transport i (.call i) (.lookingUp waiter)
          (.done (.stop stop (.search waiter.origin)))
  | findNone (waiter : Waiter) :
      CallStep transport i (.call i) (.lookingUp waiter) (.testingAlive waiter)
  | testWait (waiter : Waiter) :
      CallStep transport i (.call i) (.testingAlive waiter) (.creating waiter)
  | create (waiter : Waiter) :
      CallStep transport i (.call i) (.creating waiter) (.lookingUpAgain waiter false)
  | findAgain (waiter : Waiter) (woken : Bool) (stop : StopEntry) :
      transport.journal.findStopAfter waiter.cursor = some stop →
        CallStep transport i (.call i) (.lookingUpAgain waiter woken)
          (.done (.stop stop (.search waiter.origin)))
  | findNoneAgain (waiter : Waiter) (woken : Bool) :
      transport.journal.findStopAfter waiter.cursor = none →
        CallStep transport i (.call i) (.lookingUpAgain waiter woken)
          (.testingAliveAgain waiter woken)
  | park (waiter : Waiter) (woken : Bool) :
      transport.readerAlive = true →
        CallStep transport i (.call i) (.testingAliveAgain waiter woken) (.parked waiter woken)
  | resume (waiter : Waiter) (woken : Bool) :
      CallStep transport i (.call i) (.parked waiter woken) (.lookingUp waiter)
  | log (text : String) (seq : Nat) :
      CallStep transport i (.call i) (.logging text) (.logged seq)
  | finish (label : Label) (state : CallState) (result : CallResult) :
      state ≠ .idle → (∀ stop origin, result ≠ .stop stop origin) →
        CallStep transport i label state (.done result)

/-- The steps that change only their own call are steps of that call. -/
theorem callStep_of_advance {transport : Transport} {i : CallId} {state next : CallState}
    (advances : transport.advance i state = some next) :
    CallStep transport i (.call i) state next := by
  have finishes : ∀ error, state ≠ .idle →
      CallStep transport i (.call i) state (.done (.failed error)) := by
    intro error notIdle
    exact .finish _ _ _ notIdle (by simp)
  cases state with
  | submitting request after =>
      simp only [advance, Option.some.injEq] at advances
      split_ifs at advances with alive
      · exact advances ▸ .testSubmit request after alive
      · exact advances ▸ finishes _ (by simp)
  | awaiting token after =>
      simp only [advance] at advances
      split at advances
      · next reply replied =>
          obtain rfl := Option.some.inj advances
          unfold Reply.resume
          split
          · next cursor isRunning => exact .awaitStop token cursor reply replied isRunning
          · exact .finish _ _ _ (by simp) (by simp)
      · split_ifs at advances
        exact Option.some.inj advances ▸ finishes _ (by simp)
  | triggering raw => exact Option.some.inj advances ▸ .trigger raw
  | snapshotting =>
      simp only [advance, Option.some.injEq] at advances
      split_ifs at advances with stopped
      · exact advances ▸ .snapshotStopped stopped
      · exact advances ▸ .snapshotOther
  | readingLatest seen journaled =>
      simp only [advance] at advances
      split at advances
      · next stop shown => exact Option.some.inj advances ▸ .latest seen journaled stop shown
      · exact Option.some.inj advances ▸ .noLatest seen journaled
  | readingCursor journaled => exact Option.some.inj advances ▸ .readCursor journaled
  | lookingUp waiter =>
      simp only [advance] at advances
      split at advances
      · next stop found => exact Option.some.inj advances ▸ .find waiter stop found
      · exact Option.some.inj advances ▸ .findNone waiter
  | testingAlive waiter =>
      simp only [advance, Option.some.injEq] at advances
      split_ifs at advances
      · exact advances ▸ .testWait waiter
      · exact advances ▸ finishes _ (by simp)
  | creating waiter => exact Option.some.inj advances ▸ .create waiter
  | lookingUpAgain waiter woken =>
      simp only [advance] at advances
      split at advances
      · next stop found => exact Option.some.inj advances ▸ .findAgain waiter woken stop found
      · next notFound => exact Option.some.inj advances ▸ .findNoneAgain waiter woken notFound
  | testingAliveAgain waiter woken =>
      simp only [advance, Option.some.injEq] at advances
      split_ifs at advances with alive
      · exact advances ▸ .park waiter woken alive
      · exact advances ▸ finishes _ (by simp)
  | parked waiter woken =>
      simp only [advance] at advances
      split_ifs at advances
      exact Option.some.inj advances ▸ .resume waiter woken
  | _ => cases advances

theorem waiter?_wake (state : CallState) : state.wake.waiter? = state.waiter? := by
  cases state <;> rfl

theorem waiter?_of_lookup? {state : CallState} {waiter : Waiter}
    (looksUp : state.lookup? = some waiter) : state.waiter? = some waiter := by
  cases state with
  | lookingUp | lookingUpAgain => exact looksUp
  | _ => cases looksUp

theorem eq_of_wake {state next : CallState} (woken : state.wake = next)
    (notWaiting : next.waiter? = none) : state = next := by
  subst woken
  cases state with
  | lookingUpAgain | testingAliveAgain | parked => cases notWaiting
  | _ => rfl

/-- A call that waits after a step waited before it, or begins a wait: a plain
one, one from the cursor it reads, or one for the stop of its command. -/
theorem CallStep.waiter {transport : Transport} {i : CallId} {label : Label}
    {state next : CallState} (takes : CallStep transport i label state next) {waiter : Waiter}
    (waits : next.waiter? = some waiter) :
    state.waiter? = some waiter ∨ waiter.origin = .direct ∨
      (∃ journaled, label = .call i ∧ state = .readingCursor journaled ∧
        waiter = ⟨transport.journal.cursor, .afterTest journaled⟩) ∨
      (∃ token cursor reply, state = .awaiting token (some cursor) ∧
        transport.replies i = some reply ∧ reply.outcome = .running ∧
        waiter = ⟨cursor, .afterCommand token reply.running reply.journaled⟩) := by
  cases takes with
  | start call =>
      cases call with
      | nextStopAfter after =>
          obtain rfl := Option.some.inj waits
          exact Or.inr (Or.inl rfl)
      | _ => cases waits
  | readCursor journaled =>
      obtain rfl := Option.some.inj waits
      exact Or.inr (Or.inr (Or.inl ⟨journaled, rfl, rfl, rfl⟩))
  | awaitStop token cursor reply replied isRunning =>
      obtain rfl := Option.some.inj waits
      exact Or.inr (Or.inr (Or.inr ⟨token, cursor, reply, rfl, replied, isRunning, rfl⟩))
  | findNone | testWait | create | findNoneAgain | park | resume => exact Or.inl waits
  | _ => cases waits

/-- A call returns a stop only as the latest one after its snapshot, or from a
search above its cursor. -/
theorem CallStep.stop {transport : Transport} {i : CallId} {label : Label}
    {state next : CallState} (takes : CallStep transport i label state next) {entry : StopEntry}
    {origin : StopOrigin} (returns : next = .done (.stop entry origin)) :
    label = .call i ∧
      ((∃ seen journaled, state = .readingLatest seen journaled ∧
          transport.journal.latestStopped = some entry ∧ origin = .snapshot seen) ∨
        ∃ waiter, state.lookup? = some waiter ∧ origin = .search waiter.origin ∧
          transport.journal.findStopAfter waiter.cursor = some entry) := by
  cases takes with
  | start call => cases call <;> cases returns
  | latest seen journaled stop isLatest =>
      cases returns
      exact ⟨rfl, Or.inl ⟨seen, journaled, rfl, isLatest, rfl⟩⟩
  | find waiter stop found | findAgain waiter _ stop found =>
      cases returns
      exact ⟨rfl, Or.inr ⟨waiter, rfl, rfl, found⟩⟩
  | finish _ _ result notIdle notStop =>
      cases returns
      exact absurd rfl (notStop entry origin)
  | _ => cases returns

/-- The transitions of the transport by what they change besides calls. -/
inductive Transition (transport : Transport) : Label → Transport → Prop
  | call {label : Label} {i : CallId} {state : CallState} :
      CallStep transport i label (transport.calls i) state →
        Transition transport label (transport.setCall i state)
  | allocate {i : CallId} {state : CallState} {connection : Connection} :
      CallStep transport i (.call i) (transport.calls i) state →
        connection.target = transport.connection.target →
        connection.events = transport.connection.events →
        Transition transport (.call i) ({ transport with connection }.setCall i state)
  | register {i : CallId} {token : Token} {bytes : List UInt8} {after : Option Nat} :
      transport.calls i = .allocated token bytes after →
        Transition transport (.call i) (transport.registerPending i token bytes after)
  | send {i : CallId} {token : Token} {bytes : List UInt8} {after : Option Nat} :
      transport.calls i = .registered token bytes after →
        transport.writer ≠ .ended →
        Transition transport (.call i)
          ({ transport with queue := transport.queue ++ [bytes] }.setCall i
            (.awaiting token after))
  | rollBack {i : CallId} {token : Token} :
      transport.calls i = .rollingBack token →
        Transition transport (.call i) (transport.rollBack i token)
  | log {i : CallId} {text : String} :
      transport.calls i = .logging text →
        Transition transport (.call i)
          ((transport.recordEvent (.log text) .synthetic).setCall i
            (.logged transport.journal.nextSeq))
  | announce {i : CallId} {seq : Nat} :
      transport.calls i = .logged seq →
        Transition transport (.call i)
          (transport.notifyWaiters.setCall i (.done (.logged seq)))
  | receive {chunk : List UInt8} {events : List Event} {reader : ReaderPhase} :
      transport.reader = .reading →
        (reader = .exiting ∨ events = [] ∧
          reader = .dispatching (transport.connection.receiveBytes chunk).events) →
        Transition transport (.receive chunk)
          { transport with
            connection := { transport.connection.receiveBytes chunk with events }
            wire := transport.wire ++
              (transport.connection.receiveBytes chunk).events.drop
                transport.connection.events.length
            reader }
  | endOfInput :
      transport.reader = .reading →
        Transition transport .endOfInput { transport with reader := .exiting }
  | dispatchedAll :
      transport.reader = .dispatching [] →
        Transition transport .reader { transport with reader := .reading }
  | takeSender {receiver : CallId} {handle : Token} {outcome : CommandOutcome}
      {rest : List Event} :
      transport.reader = .dispatching (.commandCompleted handle outcome :: rest) →
        transport.pending[handle]? = some receiver →
        Transition transport .reader
          { transport with
            pending := transport.pending.erase handle
            reader := .firing receiver handle outcome rest }
  | pass {event : Event} {rest : List Event} :
      transport.reader = .dispatching (event :: rest) →
        Transition transport .reader { transport with reader := .journaling event rest }
  | fire {receiver : CallId} {handle : Token} {outcome : CommandOutcome} {rest : List Event} :
      transport.reader = .firing receiver handle outcome rest →
        Transition transport .reader (transport.fire receiver handle outcome rest)
  | record {event : Event} {rest : List Event} :
      transport.reader = .journaling event rest →
        Transition transport .reader
          { transport.recordEvent event (.wire transport.recorded) with
            recorded := transport.recorded + 1
            reader := .notifying rest }
  | notify {rest : List Event} :
      transport.reader = .notifying rest →
        Transition transport .reader
          { transport.notifyWaiters with reader := .dispatching rest }
  | storeExit :
      transport.reader = .exiting →
        Transition transport .reader
          { transport with readerAlive := false, reader := .exitStored }
  | notifyExit :
      transport.reader = .exitStored →
        Transition transport .reader { transport.notifyWaiters with reader := .exitNotified }
  | clearPending :
      transport.reader = .exitNotified →
        Transition transport .reader { transport with pending := ∅, reader := .exited }
  | write {label : Label} (writer : WriterPhase) (queue : List (List UInt8)) :
      Transition transport label { transport with writer, queue }

theorem submitRequest_target (connection : Connection) (request : SubmitRequest) :
    (submitRequest connection request).2.target = connection.target := by
  cases request <;> rfl

theorem submitRequest_events (connection : Connection) (request : SubmitRequest) :
    (submitRequest connection request).2.events = connection.events := by
  cases request <;> rfl

theorem drainOutbound_eq (connection : Connection) :
    ∃ outbound, drainOutbound connection =
      .ok (connection.outbound.available, { connection with outbound }) := by
  have inBounds := connection.outbound.inBounds
  have fits : (connection.outbound.consumed + connection.outbound.length) % 2 ^ 64 ≤
      connection.outbound.bytes.length := by
    apply Nat.le_trans (Nat.mod_le _ _)
    rw [OutboundBuffer.length]
    omega
  unfold drainOutbound Connection.consumeOutbound OutboundBuffer.consume
  rw [dif_pos fits]
  split_ifs <;> exact ⟨_, rfl⟩

theorem exists_of_drainOutbound {connection drained : Connection} {bytes : List UInt8}
    (isDrained : drainOutbound connection = .ok (bytes, drained)) :
    ∃ outbound, drained = { connection with outbound } := by
  rcases drainOutbound_eq connection with ⟨outbound, drainedEq⟩
  rw [drainedEq] at isDrained
  cases isDrained
  exact ⟨outbound, rfl⟩

theorem transition_allocate {transport : Transport} {i : CallId} {request : SubmitRequest}
    {after : Option Nat} (isTested : transport.calls i = .tested request after) :
    Transition transport (.call i) (transport.allocate i request after) := by
  have target := submitRequest_target transport.connection request
  have events := submitRequest_events transport.connection request
  unfold allocate
  rcases submission : submitRequest transport.connection request with ⟨token, submitted⟩
  rw [submission] at target events
  simp only
  split
  · next bytes drained isDrained =>
      rcases exists_of_drainOutbound isDrained with ⟨outbound, rfl⟩
      apply Transition.allocate (isTested ▸ .allocate request after token bytes)
      · exact target
      · exact events
  · apply Transition.allocate _ target events
    exact isTested ▸ .finish _ _ _ (by simp) (by simp)

theorem transition_of_stepCall {transport next : Transport} {i : CallId}
    (stepped : transport.stepCall i = some next) : Transition transport (.call i) next := by
  unfold stepCall at stepped
  split at stepped
  · next isTested => exact Option.some.inj stepped ▸ transition_allocate isTested
  · next isAllocated => exact Option.some.inj stepped ▸ .register isAllocated
  · next token bytes after isRegistered =>
      have refused : Transition transport (.call i)
          (transport.setCall i (.rollingBack token)) :=
        .call (isRegistered ▸ .refuse token bytes after)
      unfold send at stepped
      split at stepped
      · exact Option.some.inj stepped ▸ refused
      · next notEnded =>
          split_ifs at stepped
          exact Option.some.inj stepped ▸ .send isRegistered notEnded
  · next isRollingBack => exact Option.some.inj stepped ▸ .rollBack isRollingBack
  · next isLogging => exact Option.some.inj stepped ▸ .log isLogging
  · next isLogged => exact Option.some.inj stepped ▸ .announce isLogged
  · rw [Option.map_eq_some_iff] at stepped
    rcases stepped with ⟨state, advances, rfl⟩
    exact .call (callStep_of_advance advances)

theorem transition_of_stepReader {transport next : Transport}
    (stepped : transport.stepReader = some next) : Transition transport .reader next := by
  unfold stepReader at stepped
  split at stepped
  · cases stepped
  · next events dispatching =>
      obtain rfl := Option.some.inj stepped
      unfold dispatchEvent
      split
      · exact .dispatchedAll dispatching
      · split
        · next taken => exact .takeSender dispatching taken
        · exact .pass dispatching
      · exact .pass dispatching
  · next firing => exact Option.some.inj stepped ▸ .fire firing
  · next journaling => exact Option.some.inj stepped ▸ .record journaling
  · next notifying => exact Option.some.inj stepped ▸ .notify notifying
  · next exiting => exact Option.some.inj stepped ▸ .storeExit exiting
  · next stored => exact Option.some.inj stepped ▸ .notifyExit stored
  · next notified => exact Option.some.inj stepped ▸ .clearPending notified
  · cases stepped

theorem step_cases {transport next : Transport} {label : Label}
    (stepped : transport.step label = some next) :
    match label with
    | .start i call => transport.calls i = .idle ∧ next = transport.setCall i call.entry
    | .call i => transport.stepCall i = some next
    | .cancel i =>
        (transport.calls i).isSuspended = true ∧ next = transport.setCall i (.done .cancelled)
    | .timeout i => ∃ waiter, transport.calls i = .parked waiter false ∧
        next = transport.setCall i (.done .timedOut)
    | .receive chunk => transport.reader = .reading ∧ next = transport.receive chunk
    | .endOfInput => transport.reader = .reading ∧ next = { transport with reader := .exiting }
    | .reader => transport.stepReader = some next
    | .writerTake => ∃ bytes queue, transport.writer = .waiting ∧
        transport.queue = bytes :: queue ∧
          next = { transport with writer := .writing bytes, queue }
    | .writerFinish => ∃ bytes, transport.writer = .writing bytes ∧
        next = { transport with writer := .waiting }
    | .writerFail => ∃ bytes, transport.writer = .writing bytes ∧
        next = { transport with writer := .ended, queue := [] } := by
  cases label with
  | call | reader => exact stepped
  | cancel i =>
      simp only [step] at stepped
      split_ifs at stepped with suspended
      exact ⟨suspended, (Option.some.inj stepped).symm⟩
  | receive chunk =>
      simp only [step] at stepped
      split at stepped
      · next reading =>
          split_ifs at stepped
          exact ⟨reading, (Option.some.inj stepped).symm⟩
      · cases stepped
  | start | endOfInput =>
      simp only [step] at stepped
      split at stepped
      · next enabled => exact ⟨enabled, (Option.some.inj stepped).symm⟩
      · cases stepped
  | timeout | writerFinish | writerFail =>
      simp only [step] at stepped
      split at stepped
      · next enabled => exact ⟨_, enabled, (Option.some.inj stepped).symm⟩
      · cases stepped
  | writerTake =>
      simp only [step] at stepped
      split at stepped
      · next waiting queued => exact ⟨_, _, waiting, queued, (Option.some.inj stepped).symm⟩
      · cases stepped

/-- A received chunk changes the connection, the wire and the phase of the
reader only. -/
theorem receive_eq (transport : Transport) (chunk : List UInt8) :
    ∃ events reader,
      (reader = .exiting ∨ events = [] ∧
        reader = .dispatching (transport.connection.receiveBytes chunk).events) ∧
      transport.receive chunk =
        { transport with
          connection := { transport.connection.receiveBytes chunk with events }
          wire := transport.wire ++
            (transport.connection.receiveBytes chunk).events.drop
              transport.connection.events.length
          reader } := by
  unfold receive
  simp only
  split_ifs
  · exact ⟨_, _, Or.inl rfl, rfl⟩
  · exact ⟨_, _, Or.inr ⟨rfl, rfl⟩, rfl⟩

theorem transition_of_step {transport next : Transport} {label : Label}
    (stepped : transport.step label = some next) : Transition transport label next := by
  cases label with
  | start i call =>
      obtain ⟨isIdle, rfl⟩ := step_cases stepped
      exact .call (isIdle ▸ .start call)
  | call i => exact transition_of_stepCall stepped
  | cancel i =>
      obtain ⟨suspended, rfl⟩ := step_cases stepped
      have notIdle : transport.calls i ≠ .idle := by
        intro isIdle
        rw [isIdle] at suspended
        cases suspended
      exact .call (.finish _ _ _ notIdle (by simp))
  | timeout i =>
      obtain ⟨waiter, isParked, rfl⟩ := step_cases stepped
      exact .call (.finish _ _ _ (by simp [isParked]) (by simp))
  | receive chunk =>
      obtain ⟨reading, rfl⟩ := step_cases stepped
      rcases transport.receive_eq chunk with ⟨events, reader, phase, received⟩
      rw [received]
      exact .receive reading phase
  | endOfInput =>
      obtain ⟨reading, rfl⟩ := step_cases stepped
      exact .endOfInput reading
  | reader => exact transition_of_stepReader stepped
  | writerTake =>
      obtain ⟨_, _, _, _, rfl⟩ := step_cases stepped
      exact .write _ _
  | writerFinish | writerFail =>
      obtain ⟨_, _, rfl⟩ := step_cases stepped
      exact .write _ _

@[simp]
theorem setCall_calls_self (transport : Transport) (i : CallId) (state : CallState) :
    (transport.setCall i state).calls i = state := by
  simp only [setCall, Function.update_self]

theorem setCall_calls_of_ne {i j : CallId} (other : j ≠ i) (transport : Transport)
    (state : CallState) : (transport.setCall i state).calls j = transport.calls j := by
  simp only [setCall, Function.update_of_ne other]

/-- Setting one call to its next step leaves every other call alone. -/
theorem callStep_setCall (shared : Transport) {transport : Transport} {label : Label}
    {i : CallId} {state : CallState} (takes : CallStep transport i label (transport.calls i) state)
    (j : CallId) :
    (shared.setCall i state).calls j = shared.calls j ∨
      CallStep transport j label (transport.calls j) ((shared.setCall i state).calls j) := by
  by_cases same : j = i
  · subst same
    rw [setCall_calls_self]
    exact Or.inr takes
  · exact Or.inl (setCall_calls_of_ne same shared state)

theorem Transition.calls {transport next : Transport} {label : Label}
    (transition : Transition transport label next) (j : CallId) :
    next.calls j = transport.calls j ∨ next.calls j = (transport.calls j).wake ∨
      CallStep transport j label (transport.calls j) (next.calls j) := by
  have own : ∀ {i : CallId} {state : CallState} (shared : Transport),
      shared.calls = transport.calls →
      CallStep transport i label (transport.calls i) state →
      (shared.setCall i state).calls j = transport.calls j ∨
        (shared.setCall i state).calls j = (transport.calls j).wake ∨
        CallStep transport j label (transport.calls j) ((shared.setCall i state).calls j) := by
    intro i state shared same takes
    rcases callStep_setCall shared takes j with stays | moves
    · exact Or.inl (stays.trans (congrFun same j))
    · exact Or.inr (Or.inr moves)
  cases transition with
  | call takes => exact own transport rfl takes
  | allocate takes => exact own _ (by rfl) takes
  | @register i token bytes after isAllocated =>
      exact own _ (by rfl) (isAllocated ▸ .register token bytes after)
  | @send i token bytes after isRegistered notEnded =>
      exact own _ (by rfl) (isRegistered ▸ .send token bytes after notEnded)
  | rollBack isRollingBack =>
      exact own _ (by rfl) (.finish _ _ _ (by simp [isRollingBack]) (by simp))
  | @log i text isLogging => exact own _ (by rfl) (isLogging ▸ .log text _)
  | @announce i seq isLogged =>
      have takes : CallStep transport i (.call i) (transport.calls i) (.done (.logged seq)) :=
        .finish _ _ _ (by simp [isLogged]) (by simp)
      rcases callStep_setCall transport.notifyWaiters takes j with stays | moves
      · exact Or.inr (Or.inl stays)
      · exact Or.inr (Or.inr moves)
  | notify | notifyExit => exact Or.inr (Or.inl rfl)
  | _ => exact Or.inl rfl

/-- The call that a label belongs to. -/
def Label.caller? : Label → Option CallId
  | .start i _ | .call i | .cancel i | .timeout i => some i
  | _ => none

theorem calls_of_stepReader {transport next : Transport}
    (stepped : transport.stepReader = some next) (i : CallId) :
    next.calls i = transport.calls i ∨ next.calls i = (transport.calls i).wake := by
  unfold stepReader at stepped
  split at stepped
  · cases stepped
  · obtain rfl := Option.some.inj stepped
    unfold dispatchEvent
    split
    · exact Or.inl rfl
    · split <;> exact Or.inl rfl
    · exact Or.inl rfl
  · obtain rfl := Option.some.inj stepped
    exact Or.inl rfl
  · obtain rfl := Option.some.inj stepped
    exact Or.inl rfl
  · obtain rfl := Option.some.inj stepped
    exact Or.inr rfl
  · obtain rfl := Option.some.inj stepped
    exact Or.inl rfl
  · obtain rfl := Option.some.inj stepped
    exact Or.inr rfl
  · obtain rfl := Option.some.inj stepped
    exact Or.inl rfl
  · cases stepped

theorem calls_of_stepCall_of_ne {transport next : Transport} {i j : CallId} (other : i ≠ j)
    (stepped : transport.stepCall j = some next) :
    next.calls i = transport.calls i ∨ next.calls i = (transport.calls i).wake := by
  have left : ∀ (shared : Transport) (state : CallState),
      (shared.setCall j state).calls i = shared.calls i :=
    fun shared state => setCall_calls_of_ne other shared state
  unfold stepCall at stepped
  split at stepped
  · obtain rfl := Option.some.inj stepped
    unfold allocate
    simp only
    split <;> exact Or.inl (left _ _)
  · obtain rfl := Option.some.inj stepped
    exact Or.inl (left _ _)
  · unfold send at stepped
    split at stepped
    · obtain rfl := Option.some.inj stepped
      exact Or.inl (left _ _)
    · split_ifs at stepped
      obtain rfl := Option.some.inj stepped
      exact Or.inl (left _ _)
  · obtain rfl := Option.some.inj stepped
    exact Or.inl (left _ _)
  · obtain rfl := Option.some.inj stepped
    exact Or.inl (left _ _)
  · obtain rfl := Option.some.inj stepped
    exact Or.inr (left transport.notifyWaiters _)
  · rw [Option.map_eq_some_iff] at stepped
    rcases stepped with ⟨state, _, rfl⟩
    exact Or.inl (left _ _)

/-- A step of another call, of the reader or of the writer at most notifies a
call. -/
theorem calls_of_step_of_ne {transport next : Transport} {label : Label}
    (stepped : transport.step label = some next) {i : CallId} (other : label.caller? ≠ some i) :
    next.calls i = transport.calls i ∨ next.calls i = (transport.calls i).wake := by
  have notCaller : ∀ {j : CallId}, label.caller? = some j → i ≠ j := by
    rintro j isCaller rfl
    exact other isCaller
  cases label with
  | call j => exact calls_of_stepCall_of_ne (notCaller rfl) stepped
  | reader => exact calls_of_stepReader stepped i
  | start j call =>
      obtain ⟨_, rfl⟩ := step_cases stepped
      exact Or.inl (setCall_calls_of_ne (notCaller rfl) transport _)
  | cancel j =>
      obtain ⟨_, rfl⟩ := step_cases stepped
      exact Or.inl (setCall_calls_of_ne (notCaller rfl) transport _)
  | timeout j =>
      obtain ⟨_, _, rfl⟩ := step_cases stepped
      exact Or.inl (setCall_calls_of_ne (notCaller rfl) transport _)
  | receive chunk =>
      obtain ⟨_, rfl⟩ := step_cases stepped
      rcases transport.receive_eq chunk with ⟨_, _, _, received⟩
      rw [received]
      exact Or.inl rfl
  | endOfInput =>
      obtain ⟨_, rfl⟩ := step_cases stepped
      exact Or.inl rfl
  | writerTake =>
      obtain ⟨_, _, _, _, rfl⟩ := step_cases stepped
      exact Or.inl rfl
  | writerFinish | writerFail =>
      obtain ⟨_, _, rfl⟩ := step_cases stepped
      exact Or.inl rfl

/-- A sender enters the pending map only when its call registers it. -/
theorem Transition.pending {transport next : Transport} {label : Label}
    (transition : Transition transport label next) {token : Token} {i : CallId}
    (holds : next.pending[token]? = some i) :
    transport.pending[token]? = some i ∨ ∃ bytes after,
      transport.calls i = .allocated token bytes after ∧
        next.calls i = .registered token bytes after := by
  have kept_of_erase : ∀ {erased : Token},
      (transport.pending.erase erased)[token]? = some i → transport.pending[token]? = some i := by
    intro erased found
    rw [Std.ExtTreeMap.getElem?_erase] at found
    split_ifs at found
    exact found
  cases transition with
  | @register j registeredToken bytes after isAllocated =>
      rw [registerPending, setCall, Std.ExtTreeMap.getElem?_insert] at holds
      split_ifs at holds with same
      · obtain rfl := Std.LawfulEqOrd.eq_of_compare same
        obtain rfl := Option.some.inj holds
        exact Or.inr ⟨bytes, after, isAllocated, setCall_calls_self _ _ _⟩
      · exact Or.inl holds
  | rollBack | takeSender => exact Or.inl (kept_of_erase holds)
  | clearPending =>
      exfalso
      rw [Std.ExtTreeMap.getElem?_empty] at holds
      cases holds
  | _ => exact Or.inl holds

theorem Transition.exited {transport next : Transport} {label : Label}
    (transition : Transition transport label next) (exited : next.reader = .exited) :
    transport.reader = .exited ∨ next.pending = ∅ := by
  cases transition with
  | clearPending => exact Or.inr rfl
  | receive _ phase =>
      rcases phase with rfl | ⟨_, rfl⟩
      · cases exited
      · cases exited
  | endOfInput | dispatchedAll | takeSender | pass | fire | record | notify | storeExit
  | notifyExit => cases exited
  | _ => exact Or.inl exited

/-- The memory of the past only grows, and the journal grows one entry at a
time. -/
structure Evolves (transport next : Transport) : Prop where
  wire : transport.wire <+: next.wire
  recorded : transport.recorded ≤ next.recorded
  nextSeq : transport.journal.nextSeq ≤ next.journal.nextSeq
  history : next.history = transport.history ∨ ∃ event source,
    next.history = transport.history ++ [transport.journal.nextEntry event source] ∧
      ∀ index, source = .wire index → index = transport.recorded

theorem Evolves.of_same {transport next : Transport} (wire : next.wire = transport.wire)
    (recorded : next.recorded = transport.recorded) (journal : next.journal = transport.journal)
    (history : next.history = transport.history) : transport.Evolves next where
  wire := wire ▸ List.prefix_refl _
  recorded := Nat.le_of_eq recorded.symm
  nextSeq := Nat.le_of_eq (congrArg EventJournal.nextSeq journal.symm)
  history := Or.inl history

theorem Transition.evolves {transport next : Transport} {label : Label}
    (transition : Transition transport label next) : transport.Evolves next := by
  cases transition with
  | @log i text =>
      refine ⟨List.prefix_refl _, Nat.le_refl _, EventJournal.nextSeq_le_push _ _ _ _, ?_⟩
      exact Or.inr ⟨.log text, .synthetic, rfl, by simp⟩
  | @record event rest =>
      refine ⟨List.prefix_refl _, Nat.le_succ _, EventJournal.nextSeq_le_push _ _ _ _, ?_⟩
      exact Or.inr ⟨event, .wire transport.recorded, rfl, by simp⟩
  | receive => exact ⟨List.prefix_append _ _, Nat.le_refl _, Nat.le_refl _, Or.inl rfl⟩
  | _ => exact .of_same rfl rfl rfl rfl

/-- A fact about calls holds throughout when it holds of idle calls, survives
notifications and the growth of the past, and is established by each step that a
call can take. -/
theorem invariant_of_calls {allowed : Transport → Label → Prop}
    (property : Transport → CallState → Prop)
    (start : ∀ transport, property transport .idle)
    (woken : ∀ {transport state}, property transport state → property transport state.wake)
    (kept : ∀ {transport next state}, transport.Evolves next → property transport state →
      property next state)
    (taken : ∀ {transport label i state}, Reaches step allowed new transport →
      allowed transport label → CallStep transport i label (transport.calls i) state →
      property transport (transport.calls i) → property transport state)
    {transport : Transport} (reaches : Reaches step allowed new transport) (i : CallId) :
    property transport (transport.calls i) := by
  induction reaches with
  | refl => exact start new
  | @tail transport next label reaches allowed stepped ih =>
      have transition := transition_of_step stepped
      apply kept transition.evolves
      rcases transition.calls i with stays | notified | takes
      · exact stays ▸ ih
      · exact notified ▸ woken ih
      · exact taken reaches allowed takes ih

end Transport

end Framewalk
