import Framewalk.CommandPipe
import Framewalk.SessionRuns

/-!
# Every token is issued once

The allocator counts upwards from one, so as long as it has not wrapped around
the token of a command is its place in the list of all commands, and every call
is given at most one of them.
-/

namespace Framewalk

open TransitionSystem

namespace CallState

/-- The token that a call still holds. -/
def token? : CallState → Option Token
  | .allocated token _ _ | .registered token _ _ | .rollingBack token | .awaiting token _ =>
      some token
  | _ => none

/-- The call has not been given a token. -/
def isFresh : CallState → Bool
  | .idle | .submitting _ _ | .tested _ _ | .triggering _ => true
  | _ => false

theorem token?_wake (state : CallState) : state.wake.token? = state.token? := by
  cases state <;> rfl

theorem isFresh_wake (state : CallState) : state.wake.isFresh = state.isFresh := by
  cases state <;> rfl

end CallState

namespace Transport

variable {transport next : Transport} {label : Label}

/-- The step allocates a token for this call. -/
def Allocates (transport : Transport) (label : Label) (i : CallId) : Prop :=
  label = .call i ∧ ∃ request after, transport.calls i = .tested request after

theorem CallStep.token? {i : CallId} {state after : CallState}
    (takes : CallStep transport i label state after) {token : Token}
    (holds : after.token? = some token) :
    state.token? = some token ∨
      label = .call i ∧ ∃ request cursor, state = .tested request cursor := by
  cases takes with
  | start call => cases call <;> cases holds
  | allocate request cursor => exact Or.inr ⟨rfl, request, cursor, rfl⟩
  | register | send | refuse => exact Or.inl holds
  | _ => cases holds

theorem CallStep.isFresh {i : CallId} {state after : CallState}
    (takes : CallStep transport i label state after) (fresh : after.isFresh = true) :
    state.isFresh = true := by
  cases takes with
  | start | testSubmit | trigger => rfl
  | _ => cases fresh

theorem token?_of_step (stepped : transport.step label = some next) {i : CallId} {token : Token}
    (holds : (next.calls i).token? = some token) :
    (transport.calls i).token? = some token ∨ transport.Allocates label i := by
  rcases (transition_of_step stepped).calls i with stays | notified | takes
  · exact Or.inl (stays ▸ holds)
  · rw [notified, CallState.token?_wake] at holds
    exact Or.inl holds
  · exact takes.token? holds

theorem isFresh_of_step (stepped : transport.step label = some next) {i : CallId}
    (fresh : (next.calls i).isFresh = true) : (transport.calls i).isFresh = true := by
  rcases (transition_of_step stepped).calls i with stays | notified | takes
  · exact stays ▸ fresh
  · rw [notified, CallState.isFresh_wake] at fresh
    exact fresh
  · exact takes.isFresh fresh

theorem eq_allocate_of_allocates {i : CallId} (stepped : transport.step label = some next)
    (allocates : transport.Allocates label i) :
    ∃ request after, next = transport.allocate i request after := by
  rcases allocates with ⟨rfl, request, after, isTested⟩
  simp only [step, stepCall, isTested] at stepped
  exact ⟨request, after, (Option.some.inj stepped).symm⟩

end Transport

theorem Session.routeResult_tokens (session : Session) (info : Option PendingInfo)
    (record : ResultRecord) : (session.routeResult info record).tokens = session.tokens := by
  rcases session.exists_of_routeResult info record with ⟨_, _, _, _, _, routed⟩
  rw [routed]

theorem Session.classifyRecord_tokens (session : Session) (record : Record) :
    (session.classifyRecord record).tokens = session.tokens := by
  cases record with
  | result record =>
      simp only [classifyRecord, classifyResult]
      cases record.token with
      | none => rfl
      | some token => exact routeResult_tokens _ _ _
  | exec record =>
      simp only [classifyRecord, classifyExec]
      split
      · rfl
      · simp only [classifyStopped, enterStopped]
        split <;> rfl
      · rfl
  | notify record =>
      simp only [classifyRecord, classifyNotify]
      split <;> rfl
  | status | console | target | log => rfl

theorem Session.receiveLine_tokens (session : Session) (streamLine : List UInt8) :
    (session.receiveLine streamLine).tokens = session.tokens := by
  cases isRecord : lineRecord streamLine with
  | some record =>
      rw [receiveLine_of_some isRecord]
      exact session.classifyRecord_tokens record
  | none =>
      rcases receiveLine_of_none isRecord session with ⟨event, received⟩
      rw [received]
      rfl

theorem Connection.receiveBytes_tokens (connection : Connection) (chunk : List UInt8) :
    (connection.receiveBytes chunk).tokens = connection.tokens := by
  apply receiveBytes_invariant (motive := fun session => session.tokens = connection.tokens)
  · intro session streamLine same
    rw [session.receiveLine_tokens, same]
  · rfl

/-- Only an allocation moves the allocator. -/
theorem Transport.tokens_of_step {transport next : Transport} {label : Label}
    (stepped : transport.step label = some next) (none : ∀ i, ¬ transport.Allocates label i) :
    next.connection.tokens = transport.connection.tokens := by
  cases label with
  | call i =>
      rcases (stepCall_keeps stepped).2 with same | ⟨request, after, isTested, _⟩
      · rw [same]
      · exact absurd ⟨rfl, request, after, isTested⟩ (none i)
  | reader => rw [(stepReader_keeps stepped).2.1]
  | receive chunk =>
      obtain ⟨_, rfl⟩ := step_cases stepped
      rcases transport.receive_eq chunk with ⟨_, _, _, received⟩
      rw [received]
      exact transport.connection.receiveBytes_tokens chunk
  | start | cancel | endOfInput =>
      obtain ⟨_, rfl⟩ := step_cases stepped
      rfl
  | timeout | writerFinish | writerFail =>
      obtain ⟨_, _, rfl⟩ := step_cases stepped
      rfl
  | writerTake =>
      obtain ⟨_, _, _, _, rfl⟩ := step_cases stepped
      rfl

namespace CommandPipe

/-- The next token follows the number of issued ones, each issued token is its
place among them, and every call has at most the one it still knows. -/
structure Issues (pipe : CommandPipe) (transport : Transport) : Prop where
  next : transport.connection.tokens.next.toNat = pipe.issued.length + 1
  numbered : ∀ (index : Nat) (i : CallId) (token : Token),
    pipe.issued[index]? = some (i, token) → token.toNat = index + 1
  own : ∀ i token, (transport.calls i).token? = some token → (i, token) ∈ pipe.issued
  fresh : ∀ i, (transport.calls i).isFresh = true → ∀ token, (i, token) ∉ pipe.issued
  once : ∀ i first second, (i, first) ∈ pipe.issued → (i, second) ∈ pipe.issued → first = second

/-- Two calls never have the same token. -/
theorem Issues.unique {pipe : CommandPipe} {transport : Transport}
    (issues : pipe.Issues transport) {first second : CallId} {token : Token}
    (isFirst : (first, token) ∈ pipe.issued) (isSecond : (second, token) ∈ pipe.issued) :
    first = second := by
  rcases List.mem_iff_getElem?.mp isFirst with ⟨firstIndex, atFirst⟩
  rcases List.mem_iff_getElem?.mp isSecond with ⟨secondIndex, atSecond⟩
  have firstNumber := issues.numbered firstIndex first token atFirst
  have secondNumber := issues.numbered secondIndex second token atSecond
  obtain rfl : firstIndex = secondIndex := by omega
  rw [atFirst] at atSecond
  cases atSecond
  rfl

theorem issues_new : empty.Issues .new where
  next := rfl
  numbered := by
    intro index i token found
    cases found
  own := by
    intro i token holds
    cases holds
  fresh := by simp [empty]
  once := by simp [empty]

/-- Fewer than the number of tokens after which the allocator wraps around are
issued. -/
def IssuesFew (pipe : CommandPipe) (transport : Transport) (label : Transport.Label) : Prop :=
  ∀ i, transport.Allocates label i → pipe.issued.length + 1 < 2 ^ 64 - 1

variable {pipe : CommandPipe} {transport next : Transport} {label : Transport.Label}

theorem issued_of_allocates (pipe : CommandPipe) (next : Transport) {i : CallId}
    (allocates : transport.Allocates label i) :
    (pipe.note transport label next).issued =
      pipe.issued ++ [(i, transport.connection.tokens.next)] := by
  rcases allocates with ⟨rfl, request, after, isTested⟩
  simp only [note, noteCall, isTested]

theorem issued_of_not_allocates (pipe : CommandPipe) (next : Transport)
    (none : ∀ i, ¬ transport.Allocates label i) :
    (pipe.note transport label next).issued = pipe.issued := by
  rcases pipe.issued_note transport next label with same | ⟨i, request, after, own, isTested, _⟩
  · exact same
  · exact absurd ⟨own, request, after, isTested⟩ (none i)

section Allocate

variable {i : CallId} (issues : pipe.Issues transport)
  (allocates : transport.Allocates label i) (stepped : transport.step label = some next)

include allocates stepped in
theorem given_of_allocates :
    next.connection.tokens = transport.connection.tokens.allocate.2 ∧
      ((∃ bytes after,
          next.calls i = .allocated transport.connection.tokens.next bytes after) ∨
        ∃ error, next.calls i = .done (.failed (.protocol error))) := by
  rcases Transport.eq_allocate_of_allocates stepped allocates with ⟨request, after, rfl⟩
  rcases transport.allocate_cases i request after with ⟨_, tokens, ⟨bytes, given⟩ | failed⟩
  · exact ⟨tokens, Or.inl ⟨bytes, after, given⟩⟩
  · exact ⟨tokens, Or.inr failed⟩

include issues allocates stepped in
theorem Issues.next_allocate (few : pipe.IssuesFew transport label) :
    next.connection.tokens.next.toNat = (pipe.note transport label next).issued.length + 1 := by
  have few := few i allocates
  have notWrapped : transport.connection.tokens.next.toNat + 1 < 2 ^ 64 := by
    rw [issues.next]
    omega
  rw [(given_of_allocates allocates stepped).1, issued_of_allocates pipe next allocates,
    List.length_append, List.length_singleton, TokenAllocator.allocate, if_pos notWrapped,
    UInt64.toNat_add, ← issues.next]
  exact Nat.mod_eq_of_lt notWrapped

include issues allocates in
theorem Issues.numbered_allocate {index : Nat} {j : CallId} {token : Token}
    (found : (pipe.note transport label next).issued[index]? = some (j, token)) :
    token.toNat = index + 1 := by
  rw [issued_of_allocates pipe next allocates] at found
  by_cases old : index < pipe.issued.length
  · rw [List.getElem?_append_left old] at found
    exact issues.numbered index j token found
  · rw [List.getElem?_append_right (Nat.le_of_not_lt old)] at found
    rcases List.getElem?_eq_some_iff.mp found with ⟨isFirst, entry⟩
    rw [List.length_singleton] at isFirst
    have isLast : index = pipe.issued.length := by omega
    subst isLast
    rw [Nat.sub_self] at found
    cases found
    exact issues.next

include issues allocates stepped in
theorem Issues.own_allocate {j : CallId} {token : Token}
    (holds : (next.calls j).token? = some token) :
    (j, token) ∈ (pipe.note transport label next).issued := by
  rw [issued_of_allocates pipe next allocates, List.mem_append, List.mem_singleton]
  rcases Transport.token?_of_step stepped holds with before | takesOwn
  · exact Or.inl (issues.own j token before)
  · right
    have sameLabel := takesOwn.1.symm.trans allocates.1
    cases sameLabel
    rcases (given_of_allocates allocates stepped).2 with ⟨bytes, after, given⟩ | ⟨error, failed⟩
    · rw [given] at holds
      cases holds
      rfl
    · rw [failed] at holds
      cases holds

include issues allocates stepped in
theorem Issues.fresh_allocate {j : CallId} (fresh : (next.calls j).isFresh = true)
    (token : Token) : (j, token) ∉ (pipe.note transport label next).issued := by
  rw [issued_of_allocates pipe next allocates, List.mem_append, List.mem_singleton, not_or]
  refine ⟨issues.fresh j (Transport.isFresh_of_step stepped fresh) token, ?_⟩
  intro isNew
  cases isNew
  rcases (given_of_allocates allocates stepped).2 with ⟨bytes, after, given⟩ | ⟨error, failed⟩
  · rw [given] at fresh
    cases fresh
  · rw [failed] at fresh
    cases fresh

include issues allocates in
/-- A call that is given a token had none. -/
theorem Issues.once_allocate {j : CallId} {first second : Token}
    (isFirst : (j, first) ∈ (pipe.note transport label next).issued)
    (isSecond : (j, second) ∈ (pipe.note transport label next).issued) : first = second := by
  have wasFresh : (transport.calls i).isFresh = true := by
    rcases allocates with ⟨_, request, after, isTested⟩
    rw [isTested]
    rfl
  rw [issued_of_allocates pipe next allocates, List.mem_append, List.mem_singleton]
    at isFirst isSecond
  rcases isFirst with firstOld | firstNew
  · rcases isSecond with secondOld | secondNew
    · exact issues.once j first second firstOld secondOld
    · cases secondNew
      exact absurd firstOld (issues.fresh _ wasFresh first)
  · cases firstNew
    rcases isSecond with secondOld | secondNew
    · exact absurd secondOld (issues.fresh _ wasFresh second)
    · cases secondNew
      rfl

end Allocate

theorem Issues.allocate (issues : pipe.Issues transport) {i : CallId}
    (allocates : transport.Allocates label i) (few : pipe.IssuesFew transport label)
    (stepped : transport.step label = some next) :
    (pipe.note transport label next).Issues next where
  next := issues.next_allocate allocates stepped few
  numbered _ _ _ found := issues.numbered_allocate allocates found
  own _ _ holds := issues.own_allocate allocates stepped holds
  fresh _ fresh token := issues.fresh_allocate allocates stepped fresh token
  once _ _ _ isFirst isSecond := issues.once_allocate allocates isFirst isSecond

theorem Issues.step (issues : pipe.Issues transport) (few : pipe.IssuesFew transport label)
    (stepped : transport.step label = some next) :
    (pipe.note transport label next).Issues next := by
  by_cases allocates : ∃ i, transport.Allocates label i
  · rcases allocates with ⟨i, allocates⟩
    exact issues.allocate allocates few stepped
  · have none : ∀ i, ¬ transport.Allocates label i := not_exists.mp allocates
    have issued := issued_of_not_allocates pipe next none
    refine ⟨?_, ?_, ?_, ?_, ?_⟩
    · rw [Transport.tokens_of_step stepped none, issued]
      exact issues.next
    · rw [issued]
      exact issues.numbered
    · intro i token holds
      rw [issued]
      exact issues.own i token ((Transport.token?_of_step stepped holds).resolve_right (none i))
    · intro i fresh
      rw [issued]
      exact issues.fresh i (Transport.isFresh_of_step stepped fresh)
    · rw [issued]
      exact issues.once

/-- What was issued stays issued. -/
theorem mem_issued_note {entry : CallId × Token} (member : entry ∈ pipe.issued) :
    entry ∈ (pipe.note transport label next).issued := by
  rcases pipe.issued_note transport next label with same | ⟨_, _, _, _, _, grown⟩
  · rw [same]
    exact member
  · rw [grown]
    exact List.mem_append_left _ member

end CommandPipe

end Framewalk
