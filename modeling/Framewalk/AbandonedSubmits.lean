import Framewalk.IssuedTokens
import Framewalk.ReaderExit
import Framewalk.ResultRouting

/-!
# Submits that do not go through

A submit is entered in the table of the connection and in the pending map before
it awaits room in the writer's channel.  A refused send takes it out of the
pending map only, and a submit dropped at that point is taken out of neither.
-/

namespace Framewalk

open TransitionSystem Transport

theorem Session.classifyResult_keeps {session : Session} {record : ResultRecord} {token : Token}
    {info : PendingInfo}
    (found : (session.classifyResult record).pending.byToken[token]? = some info) :
    session.pending.byToken[token]? = some info := by
  cases entry : session.answered? record with
  | none => rwa [(classifyResult_of_none entry).2.2] at found
  | some answered =>
      rw [answered?, Option.bind_eq_some_iff] at entry
      rcases entry with ⟨own, hasToken, isPending⟩
      rw [(classifyResult_of_some hasToken isPending).2.2] at found
      split_ifs at found
      exact found

theorem Session.receiveLine_keeps {session : Session} {streamLine : List UInt8} {token : Token}
    {info : PendingInfo}
    (found : (session.receiveLine streamLine).pending.byToken[token]? = some info) :
    session.pending.byToken[token]? = some info := by
  cases isRecord : lineRecord streamLine with
  | none =>
      rcases receiveLine_of_none isRecord session with ⟨event, received⟩
      rw [received] at found
      exact found
  | some record =>
      rw [receiveLine_of_some isRecord] at found
      cases record with
      | result record => exact classifyResult_keeps found
      | _ =>
          rw [(classifyRecord_pending _ (by simp)).1] at found
          exact found

theorem Connection.receiveBytes_keeps {connection : Connection} {chunk : List UInt8}
    {token : Token} {info : PendingInfo}
    (found : (connection.receiveBytes chunk).pending.byToken[token]? = some info) :
    connection.pending.byToken[token]? = some info := by
  revert found
  apply receiveBytes_invariant (motive := fun session =>
    session.pending.byToken[token]? = some info → connection.pending.byToken[token]? = some info)
  · intro session streamLine before found
    exact before (Session.receiveLine_keeps found)
  · exact fun found => found

theorem Transport.allocate_enters (transport : Transport) (i : CallId) (request : SubmitRequest)
    (after : Option Nat) :
    ((transport.allocate i request after).calls i).token? =
        some transport.connection.tokens.next ∧
      (transport.allocate i request after).pending = transport.pending ∧
      (transport.allocate i request after).connection.pending =
        transport.connection.pending.insert transport.connection.tokens.next request.info := by
  have submission : (submitRequest transport.connection request).1 =
      transport.connection.tokens.next := by
    cases request <;> rfl
  have entered : (submitRequest transport.connection request).2.pending =
      transport.connection.pending.insert transport.connection.tokens.next request.info := by
    cases request <;> rfl
  rcases drainOutbound_eq (submitRequest transport.connection request).2 with ⟨outbound, drained⟩
  unfold allocate
  simp only [drained]
  refine ⟨?_, rfl, entered⟩
  rw [setCall_calls_self, submission]
  rfl

theorem Transport.table_of_step {transport next : Transport} {label : Label}
    (stepped : transport.step label = some next) (none : ∀ i, ¬ transport.Allocates label i)
    {token : Token} {info : PendingInfo}
    (found : next.connection.pending.byToken[token]? = some info) :
    transport.connection.pending.byToken[token]? = some info := by
  cases label with
  | call i =>
      rcases (stepCall_keeps stepped).2 with same | ⟨request, after, isTested, _⟩
      · rw [same] at found
        exact found
      · exact absurd ⟨rfl, request, after, isTested⟩ (none i)
  | reader =>
      rw [(stepReader_keeps stepped).2.1] at found
      exact found
  | receive chunk =>
      obtain ⟨_, rfl⟩ := step_cases stepped
      rcases transport.receive_eq chunk with ⟨_, _, _, received⟩
      rw [received] at found
      exact Connection.receiveBytes_keeps found
  | start | cancel | endOfInput =>
      obtain ⟨_, rfl⟩ := step_cases stepped
      exact found
  | timeout | writerFinish | writerFail =>
      obtain ⟨_, _, rfl⟩ := step_cases stepped
      exact found
  | writerTake =>
      obtain ⟨_, _, _, _, rfl⟩ := step_cases stepped
      exact found

namespace CallState

/-- A call that has not handed a line to the writer. -/
def isUnsent : CallState → Bool
  | .idle | .submitting _ _ | .tested _ _ | .allocated _ _ _ | .registered _ _ _
  | .rollingBack _ | .triggering _ => true
  | _ => false

/-- A call that returned an error or was dropped. -/
def IsAbandoned (state : CallState) : Prop :=
  state = .done .cancelled ∨ ∃ error, state = .done (.failed error)

theorem isUnsent_wake (state : CallState) : state.wake.isUnsent = state.isUnsent := by
  cases state <;> rfl

theorem IsAbandoned.token? {state : CallState} (isAbandoned : state.IsAbandoned) :
    state.token? = none := by
  rcases isAbandoned with rfl | ⟨error, rfl⟩ <;> rfl

end CallState

theorem Transport.CallStep.isUnsent {transport : Transport} {label : Label} {i : CallId}
    {state after : CallState} (takes : CallStep transport i label state after)
    (unsent : after.isUnsent = true) : state.isUnsent = true := by
  cases takes with
  | start | testSubmit | allocate | register | refuse | trigger => rfl
  | _ => cases unsent

theorem Transport.token?_of_stepCall {transport next : Transport} {i : CallId}
    (stepped : transport.stepCall i = some next) {token : Token}
    (holds : (transport.calls i).token? = some token) :
    (next.calls i).token? = some token ∨
      (∃ after, transport.calls i = .awaiting token after) ∨
      transport.calls i = .rollingBack token := by
  cases state : transport.calls i with
  | allocated own bytes after =>
      left
      simp only [stepCall, state] at stepped
      obtain rfl := Option.some.inj stepped
      rw [registerPending, setCall_calls_self]
      rwa [state] at holds
  | registered own bytes after =>
      left
      rw [state] at holds
      simp only [stepCall, state, send] at stepped
      split at stepped
      · obtain rfl := Option.some.inj stepped
        rwa [setCall_calls_self]
      · split_ifs at stepped
        obtain rfl := Option.some.inj stepped
        rwa [setCall_calls_self]
  | rollingBack own =>
      rw [state] at holds
      cases holds
      exact Or.inr (Or.inr rfl)
  | awaiting own after =>
      rw [state] at holds
      cases holds
      exact Or.inr (Or.inl ⟨after, rfl⟩)
  | _ =>
      rw [state] at holds
      cases holds

theorem Transport.token?_kept {transport next : Transport} {label : Label}
    (stepped : transport.step label = some next) {i : CallId} {token : Token}
    (holds : (transport.calls i).token? = some token) :
    (next.calls i).token? = some token ∨
      (∃ after, transport.calls i = .awaiting token after) ∨
      (label = .cancel i ∧ ∃ bytes after, transport.calls i = .registered token bytes after) ∨
      (label = .call i ∧ transport.calls i = .rollingBack token) := by
  by_cases isOwn : label.caller? = some i
  · cases label with
    | call =>
        cases isOwn
        rcases token?_of_stepCall stepped holds with kept | answered | rolledBack
        · exact Or.inl kept
        · exact Or.inr (Or.inl answered)
        · exact Or.inr (Or.inr (Or.inr ⟨rfl, rolledBack⟩))
    | cancel =>
        cases isOwn
        have suspended := (step_cases stepped).1
        cases state : transport.calls i with
        | registered own bytes after =>
            rw [state] at holds
            cases holds
            exact Or.inr (Or.inr (Or.inl ⟨rfl, bytes, after, rfl⟩))
        | awaiting own after =>
            rw [state] at holds
            cases holds
            exact Or.inr (Or.inl ⟨after, rfl⟩)
        | parked =>
            rw [state] at holds
            cases holds
        | _ =>
            rw [state] at suspended
            cases suspended
    | start =>
        cases isOwn
        rw [(step_cases stepped).1] at holds
        cases holds
    | timeout =>
        cases isOwn
        obtain ⟨_, isParked, _⟩ := step_cases stepped
        rw [isParked] at holds
        cases holds
    | _ => cases isOwn
  · left
    rcases calls_of_step_of_ne stepped isOwn with stays | notified
    · rwa [stays]
    · rwa [notified, CallState.token?_wake]

namespace CommandPipe

/-- The call that was last given the token, whose entry the table holds. -/
def owner? (pipe : CommandPipe) (token : Token) : Option CallId :=
  (pipe.issued.reverse.find? fun entry => entry.2 == token).map Prod.fst

/-- The call's line under the token was handed to the writer. -/
def HandedOver (pipe : CommandPipe) (i : CallId) (token : Token) : Prop :=
  ∃ line ∈ pipe.sent, line.call = i ∧ line.token = token

section Note

variable {pipe : CommandPipe} {transport next : Transport} {label : Label}

theorem HandedOver.note {i : CallId} {token : Token} (handedOver : pipe.HandedOver i token) :
    (pipe.note transport label next).HandedOver i token := by
  rcases handedOver with ⟨line, isSent, own⟩
  exact ⟨line, (pipe.sent_isPrefix_note transport next label).subset isSent, own⟩

theorem owner?_of_not_allocates (pipe : CommandPipe) (next : Transport)
    (none : ∀ i, ¬ transport.Allocates label i) (token : Token) :
    (pipe.note transport label next).owner? token = pipe.owner? token := by
  rw [owner?, owner?, issued_of_not_allocates pipe next none]

theorem owner?_of_allocates (pipe : CommandPipe) (next : Transport) {i : CallId}
    (allocates : transport.Allocates label i) (token : Token) :
    (pipe.note transport label next).owner? token =
      if transport.connection.tokens.next = token then some i else pipe.owner? token := by
  rw [owner?, owner?, issued_of_allocates pipe next allocates, List.reverse_append,
    List.reverse_singleton, List.singleton_append, List.find?_cons]
  by_cases same : transport.connection.tokens.next = token
  · rw [beq_iff_eq.mpr same, if_pos same]
    rfl
  · rw [beq_false_of_ne same, if_neg same]

end Note

/-- A call that awaits its reply has handed over its line, and a call that has
not come so far has not. -/
structure MatchesSends (pipe : CommandPipe) (transport : Transport) : Prop where
  awaiting : ∀ i token after, transport.calls i = .awaiting token after → pipe.HandedOver i token
  unsent : ∀ i, (transport.calls i).isUnsent = true → ∀ token, ¬ pipe.HandedOver i token

theorem matchesSends_new : empty.MatchesSends .new where
  awaiting i token after isAwaiting := by cases isAwaiting
  unsent i _ token := by
    rintro ⟨line, isSent, _⟩
    cases isSent

theorem MatchesSends.step {pipe : CommandPipe} {transport next : Transport} {label : Label}
    (matching : pipe.MatchesSends transport) (stepped : transport.step label = some next) :
    (pipe.note transport label next).MatchesSends next where
  awaiting := by
    intro i token after isAwaiting
    rcases (transition_of_step stepped).calls i with stays | notified | takes
    · exact (matching.awaiting i token after (stays ▸ isAwaiting)).note
    · have wasAwaiting := eq_of_wake (notified.symm.trans isAwaiting) rfl
      exact (matching.awaiting i token after wasAwaiting).note
    · rcases takes.send_of_awaiting isAwaiting with ⟨rfl, _, bytes, isRegistered⟩
      refine ⟨⟨i, token, bytes⟩, ?_, rfl, rfl⟩
      simp only [note, noteCall, isRegistered, isAwaiting]
      exact List.mem_append_right _ (List.mem_singleton_self _)
  unsent := by
    intro i unsent token handedOver
    have wasUnsent : (transport.calls i).isUnsent = true := by
      rcases (transition_of_step stepped).calls i with stays | notified | takes
      · exact stays ▸ unsent
      · rw [notified, CallState.isUnsent_wake] at unsent
        exact unsent
      · exact takes.isUnsent unsent
    apply matching.unsent i wasUnsent token
    rcases handedOver with ⟨line, isSent, own⟩
    rcases pipe.sent_note transport next label with
      same | ⟨j, sentToken, bytes, after, _, cursor, _, _, isAwaiting, grown⟩
    · rw [same] at isSent
      exact ⟨line, isSent, own⟩
    · rw [grown, List.mem_append, List.mem_singleton] at isSent
      rcases isSent with before | rfl
      · exact ⟨line, before, own⟩
      · -- The call that sent this line awaits its reply now.
        obtain rfl : j = i := own.1
        rw [isAwaiting] at unsent
        cases unsent

end CommandPipe

/-- The call is a submit still running under the token, or its line under the
token was handed to the writer. -/
def Accounted (current : Remembering Transport CommandPipe) (i : CallId) (token : Token) : Prop :=
  (current.state.calls i).token? = some token ∨ current.memory.HandedOver i token

/-- Neither map holds an entry of the call. -/
structure HasNoEntry (current : Remembering Transport CommandPipe) (i : CallId) : Prop where
  senders : ∀ token : Token, current.state.pending[token]? ≠ some i
  table : ∀ (token : Token) info, current.state.connection.pending.byToken[token]? = some info →
    current.memory.owner? token ≠ some i

/-- Every entry of either map is accounted for, and a submit that failed or was
dropped before it handed over its line has none. -/
structure LeavesNothingBehind (current : Remembering Transport CommandPipe) : Prop where
  senders : ∀ (token : Token) i, current.state.pending[token]? = some i → Accounted current i token
  table : ∀ (token : Token) info, current.state.connection.pending.byToken[token]? = some info →
    ∃ i, current.memory.owner? token = some i ∧ Accounted current i token
  abandoned : ∀ i, (current.state.calls i).IsAbandoned →
    (∀ token, ¬ current.memory.HandedOver i token) → HasNoEntry current i

/-- A submit that awaits room in the channel is dropped, and one whose send was
refused is rolled back, only when it has no entry but the one that the step
itself takes out. -/
def UnwindsSubmits (current : Remembering Transport CommandPipe) : Label → Prop
  | .cancel i => ∀ token bytes after, current.state.calls i = .registered token bytes after →
      HasNoEntry current i
  | .call i => ∀ token, current.state.calls i = .rollingBack token →
      ∀ (entered : Token) info, current.state.connection.pending.byToken[entered]? = some info →
        current.memory.owner? entered ≠ some i
  | _ => True

section Step

variable {current next : Remembering Transport CommandPipe} {label : Label}

theorem Accounted.step {i : CallId} {token : Token} (accounted : Accounted current i token)
    (matching : current.memory.MatchesSends current.state)
    (stepped : remember step CommandPipe.note current label = some next) :
    Accounted next i token ∨
      (label = .cancel i ∧
        ∃ bytes after, current.state.calls i = .registered token bytes after) ∨
      (label = .call i ∧ current.state.calls i = .rollingBack token) := by
  rcases remember_eq_some stepped with ⟨stepped, noted⟩
  have staysHandedOver : current.memory.HandedOver i token → Accounted next i token := by
    intro handedOver
    right
    rw [noted]
    exact handedOver.note
  rcases accounted with isRunning | handedOver
  · rcases token?_kept stepped isRunning with kept | ⟨after, isAwaiting⟩ | lost
    · exact Or.inl (Or.inl kept)
    · exact Or.inl (staysHandedOver (matching.awaiting i token after isAwaiting))
    · exact Or.inr lost
  · exact Or.inl (staysHandedOver handedOver)

theorem LeavesNothingBehind.senders_step (leaves : LeavesNothingBehind current)
    (matching : current.memory.MatchesSends current.state)
    (unwinds : UnwindsSubmits current label)
    (stepped : remember step CommandPipe.note current label = some next) {token : Token}
    {i : CallId} (holds : next.state.pending[token]? = some i) : Accounted next i token := by
  have transportStep := (remember_eq_some stepped).1
  rcases (transition_of_step transportStep).pending holds with
    before | ⟨bytes, after, _, isRegistered⟩
  · rcases (leaves.senders token i before).step matching stepped with
      accounted | ⟨rfl, bytes, after, isRegistered⟩ | ⟨rfl, isRollingBack⟩
    · exact accounted
    · exact absurd before ((unwinds token bytes after isRegistered).senders token)
    · simp only [step, stepCall, isRollingBack] at transportStep
      rw [← Option.some.inj transportStep] at holds
      exact absurd (Std.ExtTreeMap.getElem?_erase_self.symm.trans holds) (by simp)
  · left
    rw [isRegistered]
    rfl

theorem LeavesNothingBehind.table_step (leaves : LeavesNothingBehind current)
    (matching : current.memory.MatchesSends current.state)
    (unwinds : UnwindsSubmits current label)
    (stepped : remember step CommandPipe.note current label = some next) {token : Token}
    {info : PendingInfo}
    (found : next.state.connection.pending.byToken[token]? = some info) :
    ∃ i, next.memory.owner? token = some i ∧ Accounted next i token := by
  rcases remember_eq_some stepped with ⟨transportStep, noted⟩
  have fromBefore : current.state.connection.pending.byToken[token]? = some info →
      ∃ i, current.memory.owner? token = some i ∧ Accounted next i token := by
    intro before
    rcases leaves.table token info before with ⟨i, owns, accounted⟩
    refine ⟨i, owns, ?_⟩
    rcases accounted.step matching stepped with
      stays | ⟨rfl, bytes, after, isRegistered⟩ | ⟨rfl, isRollingBack⟩
    · exact stays
    · exact absurd owns ((unwinds token bytes after isRegistered).table token info before)
    · exact absurd owns (unwinds token isRollingBack token info before)
  by_cases allocates : ∃ i, current.state.Allocates label i
  · rcases allocates with ⟨i, allocates⟩
    rcases eq_allocate_of_allocates transportStep allocates with ⟨request, after, allocated⟩
    rcases current.state.allocate_enters i request after with ⟨isRunning, _, entered⟩
    rw [noted, CommandPipe.owner?_of_allocates current.memory next.state allocates]
    by_cases same : current.state.connection.tokens.next = token
    · refine ⟨i, if_pos same, Or.inl ?_⟩
      rw [allocated, ← same]
      exact isRunning
    · rw [if_neg same]
      apply fromBefore
      rw [allocated, entered, PendingCommands.insert, Std.ExtTreeMap.getElem?_insert,
        if_neg (by simpa using same)] at found
      exact found
  · have none : ∀ i, ¬ current.state.Allocates label i := not_exists.mp allocates
    rw [noted, CommandPipe.owner?_of_not_allocates current.memory next.state none]
    exact fromBefore (table_of_step transportStep none found)

theorem hasNoEntry_of_isAbandoned
    (senders : ∀ (token : Token) i, current.state.pending[token]? = some i →
      Accounted current i token)
    (table : ∀ (token : Token) info,
      current.state.connection.pending.byToken[token]? = some info →
        ∃ i, current.memory.owner? token = some i ∧ Accounted current i token)
    {i : CallId} (isAbandoned : (current.state.calls i).IsAbandoned)
    (unsent : ∀ token, ¬ current.memory.HandedOver i token) : HasNoEntry current i := by
  have notAccounted : ∀ token, ¬ Accounted current i token := by
    rintro token (isRunning | handedOver)
    · rw [isAbandoned.token?] at isRunning
      cases isRunning
    · exact unsent token handedOver
  constructor
  · intro token holds
    exact notAccounted token (senders token i holds)
  · intro token info found owns
    rcases table token info found with ⟨owner, isOwner, accounted⟩
    obtain rfl : owner = i := Option.some.inj (isOwner.symm.trans owns)
    exact notAccounted token accounted

theorem LeavesNothingBehind.step (leaves : LeavesNothingBehind current)
    (matching : current.memory.MatchesSends current.state)
    (unwinds : UnwindsSubmits current label)
    (stepped : remember step CommandPipe.note current label = some next) :
    LeavesNothingBehind next := by
  have senders : ∀ (token : Token) i, next.state.pending[token]? = some i →
      Accounted next i token :=
    fun _ _ holds => leaves.senders_step matching unwinds stepped holds
  have table : ∀ (token : Token) info,
      next.state.connection.pending.byToken[token]? = some info →
        ∃ i, next.memory.owner? token = some i ∧ Accounted next i token :=
    fun _ _ found => leaves.table_step matching unwinds stepped found
  exact ⟨senders, table, fun _ => hasNoEntry_of_isAbandoned senders table⟩

/-- A submit that is dropped or rolled back keeps the entries that the step does
not take out. -/
theorem unwindsSubmits_of_step (matching : current.memory.MatchesSends current.state)
    (stepped : remember step CommandPipe.note current label = some next)
    (leaves : LeavesNothingBehind next) : UnwindsSubmits current label := by
  rcases next with ⟨state, memory⟩
  rcases remember_eq_some stepped with ⟨stepped, noted⟩
  cases label with
  | cancel i =>
      intro token bytes after isRegistered
      obtain rfl : memory = current.memory := noted
      obtain ⟨_, rfl⟩ := step_cases stepped
      have unsent := matching.unsent i (by rw [isRegistered]; rfl)
      have none := leaves.abandoned i (Or.inl (setCall_calls_self _ _ _)) unsent
      exact ⟨none.senders, none.table⟩
  | call i =>
      intro token isRollingBack
      obtain rfl : memory = current.memory := by
        simpa only [CommandPipe.note, CommandPipe.noteCall, isRollingBack] using noted
      simp only [step, stepCall, isRollingBack] at stepped
      obtain rfl := Option.some.inj stepped
      have unsent := matching.unsent i (by rw [isRollingBack]; rfl)
      have failed : (current.state.rollBack i token).calls i = .done (.failed .exited) :=
        setCall_calls_self _ _ _
      exact (leaves.abandoned i (Or.inr ⟨.exited, failed⟩) unsent).table
  | _ => trivial

theorem matchesSends_of_reachable
    (reachable : Reachable (remember step CommandPipe.note) ⟨new, .empty⟩ current) :
    current.memory.MatchesSends current.state := by
  apply reachable.invariant
  · exact CommandPipe.matchesSends_new
  · intro current next label matching _ stepped
    rcases remember_eq_some stepped with ⟨stepped, noted⟩
    rw [noted]
    exact matching.step stepped

end Step

theorem leavesNothingBehind_start : LeavesNothingBehind ⟨new, .empty⟩ where
  senders token i holds := by
    rw [new, Std.ExtTreeMap.getElem?_empty] at holds
    cases holds
  table token info found := by
    have empty : (∅ : Std.ExtTreeMap Token PendingInfo)[token]? = some info := found
    rw [Std.ExtTreeMap.getElem?_empty] at empty
    cases empty
  abandoned i isAbandoned := by
    rcases isAbandoned with isDone | ⟨error, isDone⟩ <;> cases isDone

/-- Submits leave nothing behind throughout a run exactly when no step of the run
drops or rolls back a submit that leaves an entry. -/
theorem leavesNothingBehind_iff (labels : List Label) :
    Always (remember step CommandPipe.note) ⟨new, .empty⟩ LeavesNothingBehind labels ↔
      EachStep (remember step CommandPipe.note) ⟨new, .empty⟩ UnwindsSubmits labels := by
  apply always_iff_eachStep_of_step_iff
  · exact leavesNothingBehind_start
  · intro current next label reachable leaves stepped
    have matching := matchesSends_of_reachable reachable
    constructor
    · exact unwindsSubmits_of_step matching stepped
    · intro unwinds
      exact leaves.step matching unwinds stepped

/-- A call that sent nothing has an entry under the token. -/
def hasUnsentEntry (current : Remembering Transport CommandPipe) (i : CallId) (token : Token) :
    Bool :=
  current.memory.sent.all (fun line => line.call != i) &&
    (current.state.pending[token]? == some i ||
      current.state.connection.pending.byToken[token]?.isSome &&
        current.memory.owner? token == some i)

theorem not_leavesNothingBehind_of_hasUnsentEntry {current : Remembering Transport CommandPipe}
    {i : CallId} {token : Token} (isAbandoned : (current.state.calls i).IsAbandoned)
    (hasEntry : hasUnsentEntry current i token = true) : ¬ LeavesNothingBehind current := by
  simp only [hasUnsentEntry, Bool.and_eq_true, Bool.or_eq_true, beq_iff_eq] at hasEntry
  rcases hasEntry with ⟨sentNothing, entry⟩
  intro leaves
  have none : HasNoEntry current i := by
    apply leaves.abandoned i isAbandoned
    rintro token ⟨line, isSent, own, _⟩
    exact absurd own (by simpa using List.all_eq_true.mp sentNothing line isSent)
  rcases entry with held | ⟨isPending, owns⟩
  · exact none.senders token held
  · rcases Option.isSome_iff_exists.mp isPending with ⟨info, found⟩
    exact none.table token info found owns

/-- The steps of a submit until it is entered in both maps. -/
def enterSubmit (i : CallId) : List Label :=
  [.start i (.submit (.structured ⟨"gdb-version", [], []⟩)), .call i, .call i, .call i]

/-- As many submits as the channel has room for are sent, and one more waits. -/
def waitingForRoom : List Label :=
  ((List.range writeChannelCapacity).flatMap fun i => enterSubmit i ++ [.call i]) ++
    enterSubmit writeChannelCapacity

/-- The write of the first line fails, and the send of a second one is refused. -/
def refusedSend : List Label :=
  enterSubmit 0 ++ [.call 0, .writerTake, .writerFail] ++ enterSubmit 1 ++ [.call 1]

/-- The submit that waits for room is dropped and stays in both maps; the one
that is rolled back stays in the table of the connection. -/
theorem submits_leave_entries :
    (∃ waiting final,
      run (remember step CommandPipe.note) ⟨new, .empty⟩ waitingForRoom = some waiting ∧
        waiting.state.step (.call writeChannelCapacity) = none ∧
        remember step CommandPipe.note waiting (.cancel writeChannelCapacity) = some final ∧
        ¬ LeavesNothingBehind final) ∧
      ∃ refused final,
        run (remember step CommandPipe.note) ⟨new, .empty⟩ refusedSend = some refused ∧
          remember step CommandPipe.note refused (.call 1) = some final ∧
          final.state.calls 1 = .done (.failed .exited) ∧ ¬ LeavesNothingBehind final := by
  constructor
  · have runs : ((run (remember step CommandPipe.note) ⟨new, .empty⟩ waitingForRoom).any
        fun waiting => (waiting.state.step (.call writeChannelCapacity)).isNone &&
          (remember step CommandPipe.note waiting (.cancel writeChannelCapacity)).any
            fun final => hasUnsentEntry final writeChannelCapacity 65) = true := by
      decide +kernel
    rcases (Option.any_eq_true _ _).mp runs with ⟨waiting, ran, waits⟩
    rw [Bool.and_eq_true, Option.isNone_iff_eq_none] at waits
    rcases (Option.any_eq_true _ _).mp waits.2 with ⟨final, dropped, hasEntry⟩
    refine ⟨waiting, final, ran, waits.1, dropped, ?_⟩
    apply not_leavesNothingBehind_of_hasUnsentEntry _ hasEntry
    left
    rw [(step_cases (remember_eq_some dropped).1).2, setCall_calls_self]
  · have runs : ((run (remember step CommandPipe.note) ⟨new, .empty⟩ refusedSend).any
        fun refused => (refused.state.calls 1).token? == some 2 &&
          (refused.state.calls 1).isUnsent &&
          (remember step CommandPipe.note refused (.call 1)).any fun final =>
            (final.state.calls 1).token? == none && hasUnsentEntry final 1 2) = true := by
      decide +kernel
    rcases (Option.any_eq_true _ _).mp runs with ⟨refused, ran, isRefused⟩
    simp only [Bool.and_eq_true, beq_iff_eq] at isRefused
    rcases isRefused with ⟨⟨holds, unsent⟩, rolledBack⟩
    rcases (Option.any_eq_true _ _).mp rolledBack with ⟨final, stepped, isDone⟩
    rw [Bool.and_eq_true, beq_iff_eq] at isDone
    have failed : final.state.calls 1 = .done (.failed .exited) := by
      have transportStep : refused.state.stepCall 1 = some final.state :=
        (remember_eq_some stepped).1
      rcases token?_of_stepCall transportStep holds with kept | ⟨after, isAwaiting⟩ | isRollingBack
      · rw [isDone.1] at kept
        cases kept
      · rw [isAwaiting] at unsent
        cases unsent
      · simp only [stepCall, isRollingBack] at transportStep
        rw [← Option.some.inj transportStep, rollBack, setCall_calls_self]
    refine ⟨refused, final, ran, stepped, failed, ?_⟩
    exact not_leavesNothingBehind_of_hasUnsentEntry (Or.inr ⟨.exited, failed⟩) isDone.2

end Framewalk
