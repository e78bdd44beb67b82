import Framewalk.IssuedTokens
import Framewalk.TriggerAndWait

/-!
# Every command gets its own outcome

A sender is in the pending map before its line is sent, so the first result for
its token finds it there, whatever else is under way.  The reader takes the
sender out, fires it, and only then journals the result.
-/

namespace Framewalk

open TransitionSystem Transport

/-- The events whose senders the reader has taken out of the pending map. -/
def Transport.passed (transport : Transport) : Nat :=
  match transport.reader with
  | .firing _ _ _ _ | .journaling _ _ => transport.recorded + 1
  | _ => transport.recorded

/-- None of the first events of the wire completes the command. -/
def NotCompleted (wire : List Event) (count : Nat) (token : Token) : Prop :=
  ∀ index < count, ∀ outcome, wire[index]? ≠ some (.commandCompleted token outcome)

theorem NotCompleted.mono {wire longer : List Event} {count fewer : Nat} {token : Token}
    (notCompleted : NotCompleted wire count token) (isPrefix : wire <+: longer)
    (fewerLe : fewer ≤ count) (inBounds : fewer ≤ wire.length) :
    NotCompleted longer fewer token := by
  intro index before outcome found
  rw [getElem?_of_isPrefix isPrefix (Nat.lt_of_lt_of_le before inBounds)] at found
  exact notCompleted index (Nat.lt_of_lt_of_le before fewerLe) outcome found

/-- A step keeps what has been passed, or passes the next event once its sender
is out of the pending map. -/
theorem Transport.passed_of_step {transport next : Transport} {label : Label}
    (stepped : transport.step label = some next) :
    next.passed = transport.passed ∨ ∃ event rest,
      transport.reader = .dispatching (event :: rest) ∧
        next.passed = transport.passed + 1 ∧ next.wire = transport.wire ∧
        ∀ token outcome, event = .commandCompleted token outcome →
          next.pending[token]? = none := by
  cases transition_of_step stepped with
  | receive reading phase =>
      left
      rcases phase with rfl | ⟨_, rfl⟩ <;> simp only [passed, reading]
  | endOfInput phase | dispatchedAll phase | fire phase | record phase | notify phase
  | storeExit phase | notifyExit phase | clearPending phase =>
      left
      simp only [passed, phase, Transport.fire, notifyWaiters]
  | @takeSender receiver handle outcome rest dispatching taken =>
      refine Or.inr ⟨_, rest, dispatching, ?_, rfl, ?_⟩
      · simp only [passed, dispatching]
      · intro token other isCompletion
        cases isCompletion
        exact Std.ExtTreeMap.getElem?_erase_self
  | @pass event rest dispatching =>
      refine Or.inr ⟨event, rest, dispatching, ?_, rfl, ?_⟩
      · simp only [passed, dispatching]
      · rintro token outcome rfl
        cases held : transport.pending[token]? with
        | none => rfl
        | some receiver =>
            -- A held sender would have been taken out instead.
            simp only [step, stepReader, dispatching, dispatchEvent, held] at stepped
            have sameReader := congrArg Transport.reader (Option.some.inj stepped)
            cases sameReader
  | _ => exact Or.inl rfl

/-- GDB answers only tokens whose lines the writer has begun to write, and the
allocator does not come to its end. -/
def answersReceived (current : Remembering Transport CommandPipe) : Label → Bool
  | .receive chunk =>
      (current.state.connection.linesOf chunk).all fun line =>
        match lineRecord line with
        | some (.result record) =>
            record.token.all fun token => current.memory.received.contains token
        | _ => true
  | .call i =>
      match current.state.calls i with
      | .tested _ _ => current.memory.issued.length + 1 < 2 ^ 64 - 1
      | _ => true
  | _ => true

/-- Every sender, wherever it is, belongs to the call that was given its token,
and every completed token was sent. -/
structure SendersMatch (current : Remembering Transport CommandPipe) : Prop where
  issues : current.memory.Issues current.state
  sent : ∀ line ∈ current.memory.sent, (line.call, line.token) ∈ current.memory.issued ∧
    IsUnder line.token (current.state.calls line.call)
  pending : ∀ token i, current.state.pending[token]? = some i → (i, token) ∈ current.memory.issued
  firing : ∀ i token outcome rest, current.state.reader = .firing i token outcome rest →
    (i, token) ∈ current.memory.issued
  replies : ∀ i reply, current.state.replies i = some reply →
    (i, reply.handle) ∈ current.memory.issued
  wire : ∀ (index : Nat) (token : Token) (outcome : CommandOutcome),
    current.state.wire[index]? = some (.commandCompleted token outcome) →
      ∃ line ∈ current.memory.sent, line.token = token

section Step

variable {current next : Remembering Transport CommandPipe} {label : Label}

theorem issuesFew_of_answersReceived (answers : answersReceived current label = true) :
    current.memory.IssuesFew current.state label := by
  rintro i ⟨rfl, request, after, isTested⟩
  simp only [answersReceived, isTested, decide_eq_true_eq] at answers
  exact answers

theorem sent_of_completed (matching : SendersMatch current)
    (answers : answersReceived current label = true)
    (stepped : current.state.step label = some next.state) {index : Nat} {token : Token}
    {outcome : CommandOutcome}
    (completed : next.state.wire[index]? = some (.commandCompleted token outcome)) :
    ∃ line ∈ current.memory.sent, line.token = token := by
  have transition := transition_of_step stepped
  rcases current with ⟨transport, pipe⟩
  rcases next with ⟨state, memory⟩
  cases transition with
  | @receive chunk events reader reading phase =>
      have received := transport.connection.receiveBytes_events chunk
      simp only [received, List.drop_left] at completed
      by_cases old : index < transport.wire.length
      · rw [List.getElem?_append_left old] at completed
        exact matching.wire index token outcome completed
      · rw [List.getElem?_append_right (Nat.le_of_not_lt old)] at completed
        rcases List.mem_map.mp (List.mem_of_getElem? completed) with ⟨line, isLine, completes⟩
        rcases lineRecord_of_completed completes with ⟨record, isRecord, hasToken⟩
        have answered := List.all_eq_true.mp answers line isLine
        simp only [isRecord, hasToken, Option.all_some, List.contains_iff_mem] at answered
        rcases List.mem_map.mp answered with ⟨sent, isSent, sameToken⟩
        exact ⟨sent, List.mem_of_mem_take isSent, sameToken⟩
  | _ => exact matching.wire index token outcome completed

theorem sendersMatch_step (matching : SendersMatch current)
    (answers : answersReceived current label = true)
    (stepped : remember step CommandPipe.note current label = some next) :
    SendersMatch next := by
  rcases remember_eq_some stepped with ⟨stepped, noted⟩
  have transition := transition_of_step stepped
  have issues := matching.issues.step (issuesFew_of_answersReceived answers) stepped
  rw [← noted] at issues
  have issuedKept : ∀ {entry : CallId × Token}, entry ∈ current.memory.issued →
      entry ∈ next.memory.issued := by
    intro entry member
    rw [noted]
    exact CommandPipe.mem_issued_note member
  have sentKept : ∀ {line : SentLine}, line ∈ current.memory.sent → line ∈ next.memory.sent := by
    intro line member
    rw [noted]
    exact (current.memory.sent_isPrefix_note _ _ _).subset member
  refine ⟨issues, ?_, ?_, ?_, ?_, ?_⟩
  · intro line member
    rw [noted] at member
    rcases current.memory.sent_note current.state next.state label with
      same | ⟨i, token, bytes, after, own, cursor, _, isRegistered, _, grown⟩
    · rw [same] at member
      have before := matching.sent line member
      exact ⟨issuedKept before.1, transition.isUnder before.2⟩
    · rw [grown] at member
      rcases List.mem_append.mp member with old | isNew
      · have before := matching.sent line old
        exact ⟨issuedKept before.1, transition.isUnder before.2⟩
      · rw [List.mem_singleton.mp isNew]
        refine ⟨issuedKept (matching.issues.own i token ?_), transition.isUnder ?_⟩
        · rw [isRegistered]
          rfl
        · rw [isRegistered]
          rfl
  · intro token i holds
    rcases transition.pending holds with before | ⟨bytes, after, isAllocated, _⟩
    · exact issuedKept (matching.pending token i before)
    · apply issuedKept (matching.issues.own i token _)
      rw [isAllocated]
      rfl
  · intro i token outcome rest firing
    rcases transition.firing firing with before | taken
    · exact issuedKept (matching.firing i token outcome rest before)
    · exact issuedKept (matching.pending token i taken)
  · intro i reply replied
    rcases transition.replies replied with before | ⟨rest, firing, _, _⟩
    · exact issuedKept (matching.replies i reply before)
    · exact issuedKept (matching.firing i reply.handle reply.outcome rest firing)
  · intro index token outcome completed
    rcases sent_of_completed matching answers stepped completed with
      ⟨line, member, sameToken⟩
    exact ⟨line, sentKept member, sameToken⟩

/-- Nothing that the reader has passed completes the command of a sender that is
still in the pending map, and every sender is fired by the first completion of
its command. -/
structure FiresFirst (transport : Transport) : Prop where
  pending : ∀ (token : Token) (i : CallId), transport.pending[token]? = some i →
    NotCompleted transport.wire transport.passed token
  firing : ∀ i token outcome rest, transport.reader = .firing i token outcome rest →
    NotCompleted transport.wire transport.recorded token
  replies : ∀ i reply, transport.replies i = some reply →
    NotCompleted transport.wire reply.running reply.handle

theorem passed_le {transport : Transport} (records : transport.RecordsWire) :
    transport.passed ≤ transport.wire.length := by
  have inBounds := records.2.2.inBounds
  have next : ∀ event rest, transport.reader.remaining = some (event :: rest) →
      transport.recorded + 1 ≤ transport.wire.length := by
    intro event rest remaining
    have left := records.2.1 (event :: rest) remaining
    have lengths := congrArg List.length left.2
    rw [List.length_drop, List.length_cons] at lengths
    omega
  unfold passed
  split
  · next firing => exact next _ _ (by rw [firing]; rfl)
  · next journaling => exact next _ _ (by rw [journaling]; rfl)
  · exact inBounds

/-- A call that registers its sender has not sent its line, so nothing completes
its command. -/
theorem not_completed_of_registering (matching : SendersMatch current)
    (answers : answersReceived current label = true)
    (stepped : current.state.step label = some next.state) {i : CallId} {token : Token}
    {bytes : List UInt8} {after : Option Nat}
    (isAllocated : current.state.calls i = .allocated token bytes after) (count : Nat) :
    NotCompleted next.state.wire count token := by
  intro index _ outcome completed
  rcases sent_of_completed matching answers stepped completed with ⟨line, member, rfl⟩
  have sent := matching.sent line member
  have own : (i, line.token) ∈ current.memory.issued := by
    apply matching.issues.own
    rw [isAllocated]
    rfl
  rw [matching.issues.unique sent.1 own, isAllocated] at sent
  exact sent.2

section Transport

variable {transport after : Transport}

theorem NotCompleted.evolves {token : Token} {count : Nat}
    (notCompleted : NotCompleted transport.wire transport.passed token)
    (records : transport.RecordsWire) (evolves : transport.Evolves after)
    (countLe : count ≤ transport.passed) : NotCompleted after.wire count token :=
  notCompleted.mono evolves.wire countLe (Nat.le_trans countLe (passed_le records))

theorem FiresFirst.pending_step (first : FiresFirst transport) (records : transport.RecordsWire)
    (stepped : transport.step label = some after) {token : Token} {i : CallId}
    (before : transport.pending[token]? = some i) (holds : after.pending[token]? = some i) :
    NotCompleted after.wire after.passed token := by
  have evolves := (transition_of_step stepped).evolves
  have notCompleted := first.pending token i before
  rcases passed_of_step stepped with same | ⟨event, rest, dispatching, passes, _, taken⟩
  · exact notCompleted.evolves records evolves (Nat.le_of_eq same)
  · intro index inRange outcome completed
    rw [passes] at inRange
    by_cases old : index < transport.passed
    · exact notCompleted.evolves records evolves (Nat.le_refl _) index old outcome completed
    · -- The event just passed completes no command whose sender is left.
      have isNext : index = transport.recorded := by
        simp only [passed, dispatching] at old inRange
        omega
      have left := records.2.1 (event :: rest) (by rw [dispatching]; rfl)
      have atNext : transport.wire[transport.recorded]? = some event := by
        rw [← List.head?_drop, left.2]
        rfl
      rw [isNext, getElem?_eq_some_of_isPrefix evolves.wire atNext] at completed
      rw [taken token outcome (Option.some.inj completed)] at holds
      cases holds

theorem FiresFirst.firing_step (first : FiresFirst transport) (records : transport.RecordsWire)
    (stepped : transport.step label = some after) {i : CallId} {token : Token}
    {outcome : CommandOutcome} {rest : List Event}
    (firing : after.reader = .firing i token outcome rest) :
    NotCompleted after.wire after.recorded token := by
  have transition := transition_of_step stepped
  have evolves := transition.evolves
  have passedNext : after.passed = after.recorded + 1 := by
    simp only [passed, firing]
  rcases transition.firing firing with before | taken
  · have passedBefore : transport.passed = transport.recorded + 1 := by
      simp only [passed, before]
    rcases passed_of_step stepped with same | ⟨event, others, dispatching, _⟩
    · have sameRecorded : after.recorded = transport.recorded := by omega
      rw [sameRecorded]
      exact (first.firing i token outcome rest before).mono evolves.wire (Nat.le_refl _)
        records.2.2.inBounds
    · rw [before] at dispatching
      cases dispatching
  · have notCompleted := first.pending token i taken
    rcases passed_of_step stepped with same | ⟨_, _, _, passes, _⟩
    · exact notCompleted.evolves records evolves (by omega)
    · exact notCompleted.evolves records evolves (by omega)

theorem FiresFirst.replies_step (first : FiresFirst transport)
    (reachable : Reachable step new transport) (stepped : transport.step label = some after)
    {i : CallId} {reply : Reply} (replied : after.replies i = some reply) :
    NotCompleted after.wire reply.running reply.handle := by
  have transition := transition_of_step stepped
  have evolves := transition.evolves
  have inBounds := (recordsWire_of_reachable reachable).2.2.inBounds
  rcases transition.replies replied with before | ⟨rest, firing, running, _⟩
  · have completed := completedAt_of_reply reachable before
    exact (first.replies i reply before).mono evolves.wire (Nat.le_refl _)
      (Nat.le_trans completed.reached inBounds)
  · rw [running]
    exact (first.firing i reply.handle reply.outcome rest firing).mono evolves.wire
      (Nat.le_refl _) inBounds

end Transport

theorem firesFirst_step (first : FiresFirst current.state) (matching : SendersMatch current)
    (reachable : Reachable step new current.state)
    (answers : answersReceived current label = true)
    (stepped : current.state.step label = some next.state) : FiresFirst next.state := by
  have records := recordsWire_of_reachable reachable
  refine ⟨?_, ?_, ?_⟩
  · intro token i holds
    rcases (transition_of_step stepped).pending holds with before | ⟨bytes, after, isAllocated, _⟩
    · exact first.pending_step records stepped before holds
    · exact not_completed_of_registering matching answers stepped isAllocated _
  · intro i token outcome rest firing
    exact first.firing_step records stepped firing
  · intro i reply replied
    exact first.replies_step reachable stepped replied

end Step

theorem Transport.outcome_of_advance {transport : Transport} {i : CallId} {state : CallState}
    {outcome : CommandOutcome}
    (advances : transport.advance i state = some (.done (.outcome outcome))) :
    ∃ reply, transport.replies i = some reply ∧ reply.outcome = outcome := by
  cases state with
  | awaiting token after =>
      simp only [advance] at advances
      split at advances
      · next reply replied =>
          refine ⟨reply, replied, ?_⟩
          have resumed := Option.some.inj advances
          unfold Reply.resume at resumed
          split at resumed
          · cases resumed
          · cases resumed
            rfl
      · split_ifs at advances
        cases advances
  | submitting | snapshotting | testingAlive | testingAliveAgain | parked =>
      simp only [advance] at advances
      split_ifs at advances <;> cases advances
  | readingLatest | lookingUp | lookingUpAgain =>
      simp only [advance] at advances
      split at advances <;> cases advances
  | _ => cases advances

theorem Transport.outcome_of_stepCall {transport next : Transport} {i : CallId}
    {outcome : CommandOutcome} (stepped : transport.stepCall i = some next)
    (returned : next.calls i = .done (.outcome outcome)) :
    ∃ reply, transport.replies i = some reply ∧ reply.outcome = outcome := by
  have other : ∀ (shared : Transport) (state : CallState), state ≠ .done (.outcome outcome) →
      (shared.setCall i state).calls i ≠ .done (.outcome outcome) := by
    intro shared state other
    rwa [setCall_calls_self]
  unfold stepCall at stepped
  split at stepped
  · obtain rfl := Option.some.inj stepped
    unfold allocate at returned
    simp only at returned
    split at returned <;> exact absurd returned (other _ _ (by simp))
  · obtain rfl := Option.some.inj stepped
    exact absurd returned (other _ _ (by simp))
  · unfold send at stepped
    split at stepped
    · obtain rfl := Option.some.inj stepped
      exact absurd returned (other _ _ (by simp))
    · split_ifs at stepped
      obtain rfl := Option.some.inj stepped
      exact absurd returned (other _ _ (by simp))
  · obtain rfl := Option.some.inj stepped
    exact absurd returned (other _ _ (by simp))
  · obtain rfl := Option.some.inj stepped
    exact absurd returned (other _ _ (by simp))
  · obtain rfl := Option.some.inj stepped
    exact absurd returned (other _ _ (by simp))
  · rw [Option.map_eq_some_iff] at stepped
    rcases stepped with ⟨state, advances, rfl⟩
    rw [setCall_calls_self] at returned
    exact outcome_of_advance (returned ▸ advances)

theorem Transport.outcome_of_step {transport next : Transport} {label : Label}
    (stepped : transport.step label = some next) {i : CallId} {outcome : CommandOutcome}
    (returned : next.calls i = .done (.outcome outcome)) :
    transport.calls i = .done (.outcome outcome) ∨
      ∃ reply, transport.replies i = some reply ∧ reply.outcome = outcome := by
  by_cases isOwn : label.caller? = some i
  · right
    cases label with
    | call =>
        cases isOwn
        exact outcome_of_stepCall stepped returned
    | start _ call =>
        cases isOwn
        obtain ⟨_, rfl⟩ := step_cases stepped
        rw [setCall_calls_self] at returned
        cases call <;> cases returned
    | cancel =>
        cases isOwn
        obtain ⟨_, rfl⟩ := step_cases stepped
        rw [setCall_calls_self] at returned
        cases returned
    | timeout =>
        cases isOwn
        obtain ⟨_, _, rfl⟩ := step_cases stepped
        rw [setCall_calls_self] at returned
        cases returned
    | _ => cases isOwn
  · left
    rcases calls_of_step_of_ne stepped isOwn with stays | notified
    · exact stays ▸ returned
    · exact eq_of_wake (notified.symm.trans returned) rfl

/-- Every one of the first events of the wire has been journaled. -/
def Transport.HasJournaled (transport : Transport) (count : Nat) : Prop :=
  ∀ index < count, ∃ entry ∈ transport.history,
    entry.source = .wire index ∧ transport.wire[index]? = some entry.event

theorem Transport.HasJournaled.evolves {transport next : Transport} {count : Nat}
    (journaled : transport.HasJournaled count) (evolves : transport.Evolves next) :
    next.HasJournaled count := by
  intro index before
  rcases journaled index before with ⟨entry, member, source, isEvent⟩
  refine ⟨entry, ?_, source, getElem?_eq_some_of_isPrefix evolves.wire isEvent⟩
  rcases evolves.history with same | ⟨_, _, grown, _⟩
  · exact same ▸ member
  · rw [grown]
    exact List.mem_append_left _ member

theorem Transport.hasJournaled_recorded {transport : Transport}
    (reachable : Reachable step new transport) :
    transport.HasJournaled transport.recorded := by
  induction reachable with
  | refl =>
      intro index before
      exact absurd before (Nat.not_lt_zero index)
  | @tail transport next label reachable _ stepped ih =>
      have transition := transition_of_step stepped
      have journaled := ih.evolves transition.evolves
      cases transition with
      | @record event rest journaling =>
          intro index before
          rcases Nat.lt_succ_iff_lt_or_eq.mp before with old | rfl
          · exact journaled index old
          · have left := (recordsWire_of_reachable reachable).2.1 (event :: rest)
              (by rw [journaling]; rfl)
            refine ⟨_, List.mem_append_right _ (List.mem_singleton_self _), rfl, ?_⟩
            change transport.wire[transport.recorded]? = some event
            rw [← List.head?_drop, left.2]
            rfl
      | _ => exact journaled

/-- The outcome is that of the first result on the wire for the token of this
very call, and every event before that result has been journaled. -/
structure OwnOutcome (current : Remembering Transport CommandPipe) (i : CallId)
    (outcome : CommandOutcome) (token : Token) (index : Nat) : Prop where
  issued : (i, token) ∈ current.memory.issued
  completed : current.state.wire[index]? = some (.commandCompleted token outcome)
  first : NotCompleted current.state.wire index token
  journaled : current.state.HasJournaled index

/-- Each call has at most one token, and no other call has it; a call returns
only an outcome of its own, every fired sender is given the outcome of its own
call, and no result is given to two calls. -/
structure CommandsGetOwnOutcomes (current : Remembering Transport CommandPipe) : Prop where
  oneToken : ∀ i first second, (i, first) ∈ current.memory.issued →
    (i, second) ∈ current.memory.issued → first = second
  oneCall : ∀ i j token, (i, token) ∈ current.memory.issued →
    (j, token) ∈ current.memory.issued → i = j
  returned : ∀ i outcome, current.state.calls i = .done (.outcome outcome) →
    ∃ token index, OwnOutcome current i outcome token index
  fired : ∀ i reply, current.state.replies i = some reply →
    OwnOutcome current i reply.outcome reply.handle reply.running
  notShared : ∀ i j first second, current.state.replies i = some first →
    current.state.replies j = some second → first.running = second.running → i = j

section Runs

variable {current next : Remembering Transport CommandPipe} {label : Label}

theorem OwnOutcome.step {i : CallId} {outcome : CommandOutcome} {token : Token} {index : Nat}
    (own : OwnOutcome current i outcome token index)
    (stepped : remember step CommandPipe.note current label = some next) :
    OwnOutcome next i outcome token index := by
  rcases remember_eq_some stepped with ⟨stepped, noted⟩
  have evolves := (transition_of_step stepped).evolves
  have inWire := (List.getElem?_eq_some_iff.mp own.completed).1
  refine ⟨?_, getElem?_eq_some_of_isPrefix evolves.wire own.completed, ?_,
    own.journaled.evolves evolves⟩
  · rw [noted]
    exact CommandPipe.mem_issued_note own.issued
  · exact own.first.mono evolves.wire (Nat.le_refl _) (Nat.le_of_lt inWire)

theorem ownOutcome_of_reply (matching : SendersMatch current) (first : FiresFirst current.state)
    (reachable : Reachable step new current.state) {i : CallId} {reply : Reply}
    (replied : current.state.replies i = some reply) :
    OwnOutcome current i reply.outcome reply.handle reply.running := by
  have completed := completedAt_of_reply reachable replied
  refine ⟨matching.replies i reply replied, completed.completed, first.replies i reply replied,
    ?_⟩
  intro index before
  exact hasJournaled_recorded reachable index (Nat.lt_of_lt_of_le before completed.reached)

/-- What every state of a run keeps that the property follows from. -/
structure KeepsOutcomes (current : Remembering Transport CommandPipe) : Prop where
  reachable : Reachable step new current.state
  matching : SendersMatch current
  first : FiresFirst current.state
  returned : ∀ i outcome, current.state.calls i = .done (.outcome outcome) →
    ∃ token index, OwnOutcome current i outcome token index

theorem keepsOutcomes_start : KeepsOutcomes ⟨new, .empty⟩ := by
  refine ⟨.refl, ⟨CommandPipe.issues_new, ?_, ?_, ?_, ?_, ?_⟩, ⟨?_, ?_, ?_⟩, ?_⟩
  · intro line member
    cases member
  · intro token i holds
    simp [new] at holds
  · intro i token outcome rest firing
    cases firing
  · intro i reply replied
    cases replied
  · intro index token outcome completed
    cases completed
  · intro token i holds
    simp [new] at holds
  · intro i token outcome rest firing
    cases firing
  · intro i reply replied
    cases replied
  · intro i outcome returned
    cases returned

theorem keepsOutcomes_step (keeps : KeepsOutcomes current)
    (answers : answersReceived current label = true)
    (stepped : remember step CommandPipe.note current label = some next) :
    KeepsOutcomes next := by
  have transportStep := (remember_eq_some stepped).1
  refine ⟨.tail label keeps.reachable trivial transportStep,
    sendersMatch_step keeps.matching answers stepped,
    firesFirst_step keeps.first keeps.matching keeps.reachable answers transportStep, ?_⟩
  intro i outcome returned
  rcases outcome_of_step transportStep returned with before | ⟨reply, replied, rfl⟩
  · rcases keeps.returned i outcome before with ⟨token, index, own⟩
    exact ⟨token, index, own.step stepped⟩
  · have own := ownOutcome_of_reply keeps.matching keeps.first keeps.reachable replied
    exact ⟨_, _, own.step stepped⟩

theorem commandsGetOwnOutcomes_of_keeps (keeps : KeepsOutcomes current) :
    CommandsGetOwnOutcomes current where
  oneToken := keeps.matching.issues.once
  oneCall _ _ _ isFirst isSecond := keeps.matching.issues.unique isFirst isSecond
  returned := keeps.returned
  fired _ _ replied := ownOutcome_of_reply keeps.matching keeps.first keeps.reachable replied
  notShared := by
    intro i j first second isFirst isSecond same
    have firstOwn := ownOutcome_of_reply keeps.matching keeps.first keeps.reachable isFirst
    have secondOwn := ownOutcome_of_reply keeps.matching keeps.first keeps.reachable isSecond
    have completed := firstOwn.completed
    rw [same, secondOwn.completed, Option.some.injEq, Event.commandCompleted.injEq] at completed
    have issued := secondOwn.issued
    rw [completed.1] at issued
    exact keeps.matching.issues.unique firstOwn.issued issued

end Runs

/-- In every run in which GDB answers only tokens it may have received, every
command gets its own outcome. -/
theorem commands_get_own_outcomes {labels : List Label}
    (answers : EachStep (remember step CommandPipe.note) ⟨new, .empty⟩
      (fun current label => answersReceived current label = true) labels) :
    Always (remember step CommandPipe.note) ⟨new, .empty⟩ CommandsGetOwnOutcomes labels := by
  refine always_of_eachStep ?_ answers
  intro current reaches
  apply commandsGetOwnOutcomes_of_keeps
  apply reaches.invariant
  · exact keepsOutcomes_start
  · intro current next label keeps answers stepped
    exact keepsOutcomes_step keeps answers stepped

/-- Two submits are sent; GDB answers the second one first. -/
def answeredOutOfOrder : List Label :=
  [.start 0 (.submit (.structured ⟨"gdb-version", [], []⟩)),
    .start 1 (.submit (.raw "-list-features")), .call 0, .call 1, .call 0, .call 1, .call 0,
    .call 1, .call 0, .call 1, .writerTake, .writerFinish, .writerTake,
    .receive (Utf8Text.asBytes "2^error,msg=\"no\"\n1^done\n"), .reader, .reader, .reader,
    .reader, .call 1, .reader, .reader, .call 0]

/-- Both calls return, each with the outcome of its own result. -/
theorem answeredOutOfOrder_returns :
    ∃ final, run (remember step CommandPipe.note) ⟨new, .empty⟩ answeredOutOfOrder = some final ∧
      final.state.calls 0 = .done (.outcome (.done [])) ∧
      final.state.calls 1 = .done (.outcome (.error "no" none)) ∧
      CommandsGetOwnOutcomes final := by
  have returns :
      ((run (restrict (remember step CommandPipe.note) answersReceived) ⟨new, .empty⟩
        answeredOutOfOrder).any fun final =>
          match final.state.calls 0, final.state.calls 1 with
          | .done (.outcome (.done results)), .done (.outcome (.error msg code)) =>
              results.isEmpty && msg == "no" && code.isNone
          | _, _ => false) = true := by
    decide +kernel
  rcases (Option.any_eq_true _ _).mp returns with ⟨final, ran, outcomes⟩
  split at outcomes
  · next results msg code first second =>
      rw [Bool.and_eq_true, Bool.and_eq_true, List.isEmpty_iff, beq_iff_eq,
        Option.isNone_iff_eq_none] at outcomes
      obtain ⟨⟨rfl, rfl⟩, rfl⟩ := outcomes
      have always := commands_get_own_outcomes (eachStep_of_run_restrict ran)
      exact ⟨final, run_of_run_restrict ran, first, second,
        always _ (List.prefix_refl _) final (run_of_run_restrict ran)⟩
  · cases outcomes

end Framewalk
