import Framewalk.ConsoleText
import Framewalk.Settling
import Framewalk.StopWaiters

/-!
# Nothing is held up

Left to itself, the reader works off what it has received.  Once it has, every
result that GDB has printed is in the channel of the call that it belongs to,
and a call stands still only for something that is not the transport's to do:
GDB has not answered, no stop has come, or GDB does not read its input.
-/

namespace Framewalk

open TransitionSystem Transport

/-- The steps that the reader can take on its own. -/
def ReaderPhase.stepsLeft : ReaderPhase → Nat
  | .reading | .exited => 0
  | .dispatching events => 4 * events.length + 1
  | .firing _ _ _ rest => 4 * rest.length + 4
  | .journaling _ rest => 4 * rest.length + 3
  | .notifying rest => 4 * rest.length + 2
  | .exiting => 3
  | .exitStored => 2
  | .exitNotified => 1

/-- The reader waits for input, or has gone. -/
def Transport.CaughtUp (transport : Transport) : Prop :=
  transport.reader = .reading ∨ transport.reader = .exited

variable {transport next : Transport} {label : Label}

theorem Transport.stepsLeft_of_stepReader (stepped : transport.stepReader = some next) :
    next.reader.stepsLeft < transport.reader.stepsLeft := by
  cases phase : transport.reader with
  | reading | exited =>
      rw [stepReader, phase] at stepped
      cases stepped
  | dispatching events =>
      cases events with
      | nil =>
          simp only [stepReader, phase, dispatchEvent, Option.some.injEq] at stepped
          rw [← stepped]
          exact Nat.zero_lt_succ _
      | cons event rest =>
          have dispatched : next.reader = .journaling event rest ∨
              ∃ receiver handle outcome, next.reader = .firing receiver handle outcome rest := by
            simp only [stepReader, phase, Option.some.injEq] at stepped
            rw [← stepped]
            unfold dispatchEvent
            split
            · next nothing => cases nothing
            · next isCompletion =>
                cases isCompletion
                split
                · exact .inr ⟨_, _, _, rfl⟩
                · exact .inl rfl
            · next isEvent =>
                cases isEvent
                exact .inl rfl
          rcases dispatched with journals | ⟨_, _, _, fires⟩
          · simp only [journals, ReaderPhase.stepsLeft, List.length_cons]
            omega
          · simp only [fires, ReaderPhase.stepsLeft, List.length_cons]
            omega
  | firing | journaling | notifying | exiting | exitStored | exitNotified =>
      simp only [stepReader, phase, Option.some.injEq] at stepped
      rw [← stepped]
      simp only [fire, ReaderPhase.stepsLeft]
      omega

theorem Transport.caughtUp_of_stepReader_eq_none (rests : transport.stepReader = none) :
    transport.CaughtUp := by
  cases phase : transport.reader with
  | reading => exact .inl phase
  | exited => exact .inr phase
  | _ =>
      rw [stepReader, phase] at rests
      cases rests

theorem usesUp_reader :
    UsesUp (remember step CommandPipe.note) .reader fun current =>
      current.state.reader.stepsLeft := by
  intro current after stepped
  exact stepsLeft_of_stepReader (remember_eq_some stepped).1

/-- The token of a call whose sender has been registered. -/
def CallState.heldToken? : CallState → Option Token
  | .registered token _ _ | .awaiting token _ => some token
  | _ => none

theorem CallState.heldToken?_wake (state : CallState) :
    state.wake.heldToken? = state.heldToken? := by
  cases state <;> rfl

theorem CallState.token?_of_heldToken? {state : CallState} {token : Token}
    (holds : state.heldToken? = some token) : state.token? = some token := by
  cases state with
  | registered | awaiting => exact holds
  | _ => cases holds

/-- The sender of a registered call has been fired or is being fired, or nothing
that the reader has passed completes its command and the sender waits in the
pending map, as long as the reader has not cleared it. -/
inductive SenderStands (transport : Transport) (i : CallId) (token : Token) : Prop
  | fired {reply : Reply} (replied : transport.replies i = some reply)
  | firing {outcome : CommandOutcome} {rest : List Event}
      (firing : transport.reader = .firing i token outcome rest)
  | waiting (notCompleted : NotCompleted transport.wire transport.passed token)
      (held : transport.pending[token]? = some i ∨ transport.reader = .exited)

/-- A call holds a token after a step only if it did before or has just entered
its sender. -/
theorem Transport.CallStep.heldToken {i : CallId} {state after : CallState}
    (takes : CallStep transport i label state after) {token : Token}
    (holds : after.heldToken? = some token) :
    state.heldToken? = some token ∨
      label = .call i ∧ ∃ bytes next, state = .allocated token bytes next := by
  cases takes with
  | register own bytes next =>
      cases holds
      exact .inr ⟨rfl, bytes, next, rfl⟩
  | send => exact .inl holds
  | start call => cases call <;> cases holds
  | _ => cases holds

theorem heldToken_of_step (stepped : transport.step label = some next) {i : CallId}
    {token : Token} (holds : (next.calls i).heldToken? = some token) :
    (transport.calls i).heldToken? = some token ∨
      label = .call i ∧ ∃ bytes after, transport.calls i = .allocated token bytes after := by
  rcases (transition_of_step stepped).calls i with stays | woken | takes
  · rw [stays] at holds
    exact .inl holds
  · rw [woken, CallState.heldToken?_wake] at holds
    exact .inl holds
  · exact takes.heldToken holds

theorem replies_of_step (stepped : transport.step label = some next) {i : CallId} {reply : Reply}
    (replied : transport.replies i = some reply) : ∃ reply, next.replies i = some reply := by
  cases transition_of_step stepped with
  | @fire receiver handle outcome rest firing =>
      by_cases same : i = receiver
      · subst same
        exact ⟨_, Function.update_self i _ transport.replies⟩
      · refine ⟨reply, ?_⟩
        change Function.update transport.replies receiver _ i = some reply
        rw [Function.update_of_ne same, replied]
  | _ => exact ⟨reply, replied⟩

theorem senderStands_of_firing (stepped : transport.step label = some next) {i : CallId}
    {token : Token} {outcome : CommandOutcome} {rest : List Event}
    (firing : transport.reader = .firing i token outcome rest) : SenderStands next i token := by
  cases transition_of_step stepped with
  | @fire receiver handle other others fires =>
      rw [firing] at fires
      cases fires
      exact .fired (Function.update_self i _ transport.replies)
  | receive phase | endOfInput phase | dispatchedAll phase | takeSender phase | pass phase
  | record phase | notify phase | storeExit phase | notifyExit phase | clearPending phase =>
      rw [firing] at phase
      cases phase
  | _ => exact .firing firing

/-- A waiting sender stays in the pending map until the first completion of its
command takes it out to fire it, or the reader goes. -/
theorem held_of_step (stepped : transport.step label = some next) {i : CallId} {token : Token}
    (others : ∀ j, (transport.calls j).token? = some token → j = i)
    (holds : (transport.calls i).heldToken? = some token)
    (held : transport.pending[token]? = some i ∨ transport.reader = .exited) :
    (∃ outcome rest, next.reader = .firing i token outcome rest) ∨
      next.pending[token]? = some i ∨ next.reader = .exited := by
  have notEntering {j : CallId} {state : CallState} (isState : transport.calls j = state)
      (hasToken : state.token? = some token) (notHeld : state.heldToken? = none) : False := by
    have own := others j (isState ▸ hasToken)
    subst own
    rw [isState, notHeld] at holds
    cases holds
  cases transition_of_step stepped with
  | @register j entered bytes after isAllocated =>
      right
      refine held.imp_left fun stays => ?_
      change (transport.pending.insert entered j)[token]? = some i
      rw [Std.ExtTreeMap.getElem?_insert]
      split
      · next sameToken =>
          rw [Std.LawfulEqCmp.compare_eq_iff_eq] at sameToken
          subst sameToken
          exact (notEntering isAllocated rfl rfl).elim
      · exact stays
  | @rollBack j withdrawn rollingBack =>
      right
      refine held.imp_left fun stays => ?_
      change (transport.pending.erase withdrawn)[token]? = some i
      rw [Std.ExtTreeMap.getElem?_erase]
      split
      · next sameToken =>
          rw [Std.LawfulEqCmp.compare_eq_iff_eq] at sameToken
          subst sameToken
          exact (notEntering rollingBack rfl rfl).elim
      · exact stays
  | @takeSender receiver handle outcome rest dispatching taken =>
      rcases held with stays | exited
      · by_cases sameToken : handle = token
        · subst sameToken
          rw [stays] at taken
          obtain rfl := Option.some.inj taken
          exact .inl ⟨outcome, rest, rfl⟩
        · refine .inr (.inl ?_)
          change (transport.pending.erase handle)[token]? = some i
          rw [Std.ExtTreeMap.getElem?_erase, if_neg, stays]
          rwa [Std.LawfulEqCmp.compare_eq_iff_eq]
      · rw [dispatching] at exited
        cases exited
  | clearPending => exact .inr (.inr rfl)
  | receive phase | endOfInput phase | dispatchedAll phase | pass phase | fire phase
  | record phase | notify phase | storeExit phase | notifyExit phase =>
      refine .inr (.inl (held.resolve_right fun exited => ?_))
      rw [exited] at phase
      cases phase
  | _ => exact .inr held

/-- A sender that the reader could still find is one that no completion has
passed. -/
theorem senderStands_of_waiting (records : transport.RecordsWire)
    (stepped : transport.step label = some next) {i : CallId} {token : Token}
    (others : ∀ j, (transport.calls j).token? = some token → j = i)
    (holds : (transport.calls i).heldToken? = some token)
    (notCompleted : NotCompleted transport.wire transport.passed token)
    (held : transport.pending[token]? = some i ∨ transport.reader = .exited) :
    SenderStands next i token := by
  have evolves := (transition_of_step stepped).evolves
  rcases held_of_step stepped others holds held with ⟨outcome, rest, firing⟩ | stillHeld
  · exact .firing firing
  · refine .waiting ?_ stillHeld
    rcases passed_of_step stepped with same | ⟨event, rest, dispatching, passes, _, taken⟩
    · exact notCompleted.evolves records evolves (Nat.le_of_eq same)
    · intro index inRange outcome completed
      rw [passes] at inRange
      by_cases old : index < transport.passed
      · exact notCompleted.evolves records evolves (Nat.le_refl _) index old outcome completed
      · -- The event just passed would have taken the sender out.
        have isNext : index = transport.recorded := by
          simp only [passed, dispatching] at old inRange
          omega
        have left := records.2.1 (event :: rest) (by rw [dispatching]; rfl)
        have atNext : transport.wire[transport.recorded]? = some event := by
          rw [← List.head?_drop, left.2]
          rfl
        rw [isNext, getElem?_eq_some_of_isPrefix evolves.wire atNext] at completed
        rcases stillHeld with stays | exited
        · rw [taken token outcome (Option.some.inj completed)] at stays
          cases stays
        · cases transition_of_step stepped with
          | takeSender | pass | dispatchedAll | fire | record | notify | storeExit | notifyExit =>
              cases exited
          | clearPending phase | receive phase | endOfInput phase =>
              rw [dispatching] at phase
              cases phase
          | _ =>
              rw [show transport.reader = _ from exited] at dispatching
              cases dispatching

/-- Every call whose sender is registered has it fired, or can still have it
fired. -/
def SendersStand (transport : Transport) : Prop :=
  ∀ i token, (transport.calls i).heldToken? = some token → SenderStands transport i token

section Runs

variable {current after : Remembering Transport CommandPipe}

theorem sendersStand_step (keeps : KeepsOutcomes current) (stands : SendersStand current.state)
    (answers : answersReceived current label = true)
    (stepped : remember step CommandPipe.note current label = some after) :
    SendersStand after.state := by
  obtain ⟨moved, _⟩ := remember_eq_some stepped
  have records := recordsWire_of_reachable keeps.reachable
  have others {i : CallId} {token : Token} (own : (current.state.calls i).token? = some token)
      (j : CallId) (other : (current.state.calls j).token? = some token) : j = i :=
    keeps.matching.issues.unique (keeps.matching.issues.own j token other)
      (keeps.matching.issues.own i token own)
  intro i token holds
  rcases heldToken_of_step moved holds with before | ⟨rfl, bytes, next, isAllocated⟩
  · have own := others (CallState.token?_of_heldToken? before)
    cases stands i token before with
    | fired replied =>
        obtain ⟨reply, stillReplied⟩ := replies_of_step moved replied
        exact .fired stillReplied
    | firing firing => exact senderStands_of_firing moved firing
    | waiting notCompleted held =>
        exact senderStands_of_waiting records moved own before notCompleted held
  · have isNext : after.state =
        current.state.registerPending i token bytes next := by
      rw [step, stepCall, isAllocated] at moved
      exact (Option.some.inj moved).symm
    refine .waiting (not_completed_of_registering keeps.matching answers moved isAllocated _) ?_
    left
    rw [isNext]
    exact Std.ExtTreeMap.getElem?_insert_self

theorem sendersStand_of_reaches (reaches : ReachesAnswering ⟨new, .empty⟩ current) :
    SendersStand current.state := by
  suffices both : KeepsOutcomes current ∧ SendersStand current.state from both.2
  apply reaches.invariant
  · refine ⟨keepsOutcomes_start, ?_⟩
    intro i token holds
    cases holds
  · intro current next label ih answers stepped
    exact ⟨keepsOutcomes_step ih.1 answers stepped, sendersStand_step ih.1 ih.2 answers stepped⟩

theorem passed_of_caughtUp (reachable : Reachable step new transport)
    (caughtUp : transport.CaughtUp) : transport.passed = transport.wire.length := by
  have records := recordsWire_of_reachable reachable
  have passedEq : transport.passed = transport.recorded := by
    unfold passed
    rcases caughtUp with reading | exited
    · rw [reading]
    · rw [exited]
  rw [passedEq]
  apply Nat.le_antisymm records.2.2.inBounds
  rcases caughtUp with reading | exited
  · have rest := records.2.1 [] (by rw [reading]; rfl)
    exact List.drop_eq_nil_iff.mp rest.2
  · obtain ⟨log, reached⟩ : ∃ log, Reachable (remember step ReadLog.note) ⟨new, .empty⟩
        ⟨transport, log⟩ := reachable.exists_memory _
    have describes := (ReadLog.describes_of_reachable reached).journaled
    rw [exited] at describes
    have wire := (isJournaled_of_reachable reachable).wire
    change transport.journaled = _ at wire
    rw [← describes, wire]
    simp [ReaderPhase.remaining]

/-- Why a call cannot take a step: it has not been made or has returned; the
writer's channel is full; GDB has not printed its result; or it waits while the
reader lives, and a full window has been recorded behind every stop above its
cursor. -/
inductive BlockedFor (transport : Transport) (i : CallId) : Prop
  | notCalled (idle : transport.calls i = .idle)
  | returned {result : CallResult} (isDone : transport.calls i = .done result)
  | noRoom {token : Token} {bytes : List UInt8} {after : Option Nat}
      (registered : transport.calls i = .registered token bytes after)
      (full : writeChannelCapacity ≤ transport.queue.length) (writes : transport.writer ≠ .ended)
  | unanswered {token : Token} {after : Option Nat}
      (awaiting : transport.calls i = .awaiting token after)
      (notCompleted : NotCompleted transport.wire transport.wire.length token)
  | noStop {waiter : Waiter} (parked : transport.calls i = .parked waiter false)
      (alive : transport.readerAlive = true)
      (evicted : ∀ (index : Nat) (entry : SequencedEvent) (stop : StopEntry),
        transport.history[index]? = some entry → entry.stop? = some stop →
          waiter.cursor < stop.seq → index + eventJournalCapacity < transport.history.length)

theorem step_awaiting {i : CallId} {token : Token} {after : Option Nat}
    (awaiting : transport.calls i = .awaiting token after) {reply : Reply}
    (replied : transport.replies i = some reply) :
    transport.step (.call i) = some (transport.setCall i (reply.resume token after)) := by
  simp only [step, stepCall, awaiting, advance, replied, Option.map_some]

theorem evicted_of_findStopAfter (journaled : transport.IsJournaled) {after index : Nat}
    (nothing : transport.journal.findStopAfter after = none) {entry : SequencedEvent}
    {stop : StopEntry} (isEntry : transport.history[index]? = some entry)
    (isStop : entry.stop? = some stop) (above : after < stop.seq) :
    index + eventJournalCapacity < transport.history.length := by
  by_contra retained
  have inHistory := (List.getElem?_eq_some_iff.mp isEntry).1
  have inWindow : lost transport ≤ index := by
    unfold lost
    omega
  have inJournal : entry ∈ transport.journal.entries := by
    rw [journaled.entries]
    apply List.mem_of_getElem?
    rw [List.getElem?_drop, Nat.add_sub_cancel' inWindow]
    exact isEntry
  have below := EventJournal.findStopAfter_eq_none_iff.mp nothing stop ⟨entry, inJournal, isStop⟩
  omega

theorem noStop_of_parked (reachable : Reachable step new transport)
    (caughtUp : transport.CaughtUp) {i : CallId} {waiter : Waiter}
    (parked : transport.calls i = .parked waiter false) : BlockedFor transport i := by
  obtain ⟨seesStops, seesExit⟩ := (missesNothing_of_reachable reachable i).2 waiter parked
  have notStored : transport.reader ≠ .exitStored := by
    rintro stored
    rcases caughtUp with reading | exited
    · rw [reading] at stored
      cases stored
    · rw [exited] at stored
      cases stored
  have notNotifying : ¬ ∃ rest, transport.reader = .notifying rest := by
    rintro ⟨rest, notifying⟩
    rcases caughtUp with reading | exited
    · rw [reading] at notifying
      cases notifying
    · rw [exited] at notifying
      cases notifying
  have nothing := seesStops.resolve_right notNotifying
  exact .noStop parked (seesExit.resolve_right notStored) fun _ _ _ isEntry isStop above =>
    evicted_of_findStopAfter (isJournaled_of_reachable reachable) nothing isEntry isStop above

/-- Where the reader has caught up, a sender that was not fired is one whose
command GDB has not answered. -/
theorem notCompleted_of_caughtUp (reachable : Reachable step new transport)
    (stands : SendersStand transport) (caughtUp : transport.CaughtUp) {i : CallId} {token : Token}
    {after : Option Nat} (awaiting : transport.calls i = .awaiting token after) :
    (∃ reply, transport.replies i = some reply) ∨
      NotCompleted transport.wire transport.wire.length token := by
  cases stands i token (by rw [awaiting]; rfl) with
  | fired replied => exact .inl ⟨_, replied⟩
  | firing firing =>
      rcases caughtUp with reading | exited
      · rw [reading] at firing
        cases firing
      · rw [exited] at firing
        cases firing
  | waiting notCompleted _ =>
      rw [passed_of_caughtUp reachable caughtUp] at notCompleted
      exact .inr notCompleted

theorem blockedFor_of_caughtUp (reachable : Reachable step new transport)
    (stands : SendersStand transport) (caughtUp : transport.CaughtUp) {i : CallId}
    (blocked : transport.step (.call i) = none) : BlockedFor transport i := by
  cases state : transport.calls i with
  | idle => exact .notCalled state
  | done result => exact .returned state
  | registered token bytes after =>
      simp only [step, stepCall, state, send] at blocked
      split at blocked
      · cases blocked
      · next writes =>
          split_ifs at blocked with room
          exact .noRoom state (Nat.le_of_not_lt room) writes
  | awaiting token after =>
      rcases notCompleted_of_caughtUp reachable stands caughtUp state with
        ⟨reply, replied⟩ | notCompleted
      · rw [step_awaiting state replied] at blocked
        cases blocked
      · exact .unanswered state notCompleted
  | parked waiter woken =>
      cases woken with
      | true =>
          simp only [step, stepCall, state, advance, if_true] at blocked
          cases blocked
      | false => exact noStop_of_parked reachable caughtUp state
  | readingLatest seen journaled =>
      simp only [step, stepCall, state, advance] at blocked
      split at blocked <;> cases blocked
  | lookingUp waiter | lookingUpAgain waiter =>
      simp only [step, stepCall, state, advance] at blocked
      split at blocked <;> cases blocked
  | _ =>
      simp only [step, stepCall, state, advance, Option.map_some] at blocked
      cases blocked

/-- The reader has caught up; every call whose result was printed takes it, as
the first result for its own token; and no call stands still without cause. -/
structure HoldsNothingUp (current : Remembering Transport CommandPipe) : Prop where
  caughtUp : current.state.CaughtUp
  delivered : ∀ (i : CallId) (token : Token) (after : Option Nat) (index : Nat)
    (outcome : CommandOutcome), current.state.calls i = .awaiting token after →
      current.state.wire[index]? = some (.commandCompleted token outcome) →
        ∃ (reply : Reply) (first : Nat), OwnOutcome current i reply.outcome token first ∧
          current.state.step (.call i) =
            some (current.state.setCall i (reply.resume token after))
  blocked : ∀ i, current.state.step (.call i) = none → BlockedFor current.state i

theorem holdsNothingUp_of_caughtUp (reaches : ReachesAnswering ⟨new, .empty⟩ current)
    (caughtUp : current.state.CaughtUp) : HoldsNothingUp current := by
  have keeps := keepsOutcomes_of_reaches reaches
  have stands := sendersStand_of_reaches reaches
  refine ⟨caughtUp, ?_, fun i => blockedFor_of_caughtUp keeps.reachable stands caughtUp⟩
  intro i token after index outcome awaiting completed
  rcases notCompleted_of_caughtUp keeps.reachable stands caughtUp awaiting with
    ⟨reply, replied⟩ | notCompleted
  · have own := ownOutcome_of_reply keeps.matching keeps.first keeps.reachable replied
    have isOwn : (i, token) ∈ current.memory.issued := by
      apply keeps.matching.issues.own
      rw [awaiting]
      rfl
    have sameToken : reply.handle = token :=
      keeps.matching.issues.once i _ _ own.issued isOwn
    rw [sameToken] at own
    exact ⟨reply, reply.running, own, step_awaiting awaiting replied⟩
  · have inWire := (List.getElem?_eq_some_iff.mp completed).1
    exact absurd completed (notCompleted index inWire outcome)

/-- From every state, the reader alone catches up within the steps it has left,
and then nothing is held up. -/
theorem nothing_is_held_up (earlier : ReachesAnswering ⟨new, .empty⟩ current) :
    ∃ count settled, count ≤ current.state.reader.stepsLeft ∧
      run (remember step CommandPipe.note) current (List.replicate count .reader) =
        some settled ∧ HoldsNothingUp settled := by
  obtain ⟨count, settled, few, ran, rests⟩ := usesUp_reader.settles current
  have reaches := earlier.run_replicate (fun _ => rfl) ran
  have caughtUp : settled.state.CaughtUp := by
    apply caughtUp_of_stepReader_eq_none
    rw [remember, Option.map_eq_none_iff] at rests
    exact rests
  exact ⟨count, settled, few, ran, holdsNothingUp_of_caughtUp reaches caughtUp⟩

end Runs

/-- The reader has received a banner and the result of its command, and has
dispatched nothing yet. -/
theorem nothing_is_held_up_banner :
    ∃ current : Remembering Transport CommandPipe, current.state.reader.stepsLeft = 17 ∧
      ∃ count settled, count ≤ current.state.reader.stepsLeft ∧
        run (remember step CommandPipe.note) current (List.replicate count .reader) =
          some settled ∧ HoldsNothingUp settled := by
  have received :
      ((run (restrict (remember step CommandPipe.note) answersReceived) ⟨new, .empty⟩
        (.start 0 (.submit (.structured ⟨"gdb-version", [], []⟩)) ::
          bannerPrinted.take 7)).any fun current =>
          current.state.reader.stepsLeft == 17) = true := by
    decide +kernel
  rcases (Option.any_eq_true _ _).mp received with ⟨current, ran, stepsLeft⟩
  have reaches : ReachesAnswering ⟨new, .empty⟩ current :=
    reaches_of_run (eachStep_of_run_restrict ran) (run_of_run_restrict ran)
  exact ⟨current, beq_iff_eq.mp stepsLeft, nothing_is_held_up reaches⟩

end Framewalk
