import Framewalk.OwnReplies

/-!
# A trigger and its wait as two calls

A call that submits a command and awaits its stop reads the cursor, and then does
what a submit does; after a running command it goes on as a wait from that cursor.
A transport whose callers make these two calls themselves can follow it step by
step.  There the calls of number `i` are the calls `2 * i` and `2 * i + 1`.
-/

namespace Framewalk

def WaitOrigin.forget : WaitOrigin → WaitOrigin
  | .afterCommand _ _ _ => .direct
  | origin => origin

def Waiter.forget (waiter : Waiter) : Waiter :=
  { waiter with origin := waiter.origin.forget }

def CallResult.forget : CallResult → CallResult
  | .stop entry (.search origin) => .stop entry (.search origin.forget)
  | result => result

namespace CallState

/-- Where a call stands that knows nothing of a stop to wait for, or of a command
that it waits for. -/
def forget : CallState → CallState
  | .submitting request _ => .submitting request none
  | .tested request _ => .tested request none
  | .allocated token bytes _ => .allocated token bytes none
  | .registered token bytes _ => .registered token bytes none
  | .awaiting token _ => .awaiting token none
  | .lookingUp waiter => .lookingUp waiter.forget
  | .testingAlive waiter => .testingAlive waiter.forget
  | .creating waiter => .creating waiter.forget
  | .lookingUpAgain waiter woken => .lookingUpAgain waiter.forget woken
  | .testingAliveAgain waiter woken => .testingAliveAgain waiter.forget woken
  | .parked waiter woken => .parked waiter.forget woken
  | .done result => .done result.forget
  | state => state

theorem forget_wake (state : CallState) : state.wake.forget = state.forget.wake := by
  cases state <;> rfl

theorem isSuspended_forget (state : CallState) :
    state.forget.isSuspended = state.isSuspended := by
  cases state <;> rfl

/-- A call in a wait, or at its end. -/
def IsLate (state : CallState) : Prop :=
  (∃ waiter, state.waiter? = some waiter) ∨ ∃ result, state = .done result

theorem IsLate.wake {state : CallState} (late : state.IsLate) : state.wake.IsLate := by
  rcases late with ⟨waiter, waits⟩ | ⟨result, rfl⟩
  · exact Or.inl ⟨waiter, (Transport.waiter?_wake state).trans waits⟩
  · exact Or.inr ⟨result, rfl⟩

end CallState

namespace Call

/-- The first call of a trigger and wait. -/
def trigger (raw : String) : Call :=
  .submit (.raw raw)

/-- Its second call, once the first has returned. -/
def await? (cursor : Nat) : CallResult → Option Call
  | .outcome .running => some (.nextStopAfter cursor)
  | _ => none

end Call

/-- A call is in front of its two parts, in the first, or in the second. -/
inductive Parts : CallState → CallState → CallState → Prop
  | before (raw : String) : Parts (.triggering raw) .idle .idle
  | first {state : CallState} : (∀ raw, state ≠ .triggering raw) → Parts state state.forget .idle
  | second {state : CallState} :
      state.IsLate → Parts state (.done (.outcome .running)) state.forget

theorem Parts.wake {state first second : CallState} (parts : Parts state first second) :
    Parts state.wake first.wake second.wake := by
  cases parts with
  | before raw => exact .before raw
  | first notTrigger =>
      rw [← CallState.forget_wake]
      apply Parts.first
      intro raw woken
      exact notTrigger raw (Transport.eq_of_wake woken rfl)
  | second late =>
      rw [← CallState.forget_wake]
      exact .second late.wake

def ReaderPhase.double : ReaderPhase → ReaderPhase
  | .firing receiver handle outcome rest => .firing (2 * receiver) handle outcome rest
  | phase => phase

namespace Transport

open TransitionSystem

/-- The same transport under other calls. -/
def splitInto (combined : Transport) (pending : Std.ExtTreeMap Token CallId)
    (replies : CallId → Option Reply) (calls : CallId → CallState) : Transport :=
  { combined with pending, replies, calls, reader := combined.reader.double }

theorem splitInto_writer (combined : Transport) (pending : Std.ExtTreeMap Token CallId)
    (replies : CallId → Option Reply) (calls : CallId → CallState) :
    (combined.splitInto pending replies calls).writer = combined.writer :=
  rfl

theorem splitInto_queue (combined : Transport) (pending : Std.ExtTreeMap Token CallId)
    (replies : CallId → Option Reply) (calls : CallId → CallState) :
    (combined.splitInto pending replies calls).queue = combined.queue :=
  rfl

/-- Senders and replies of a call are those of its first part. -/
structure SplitsInto (combined : Transport) (pending : Std.ExtTreeMap Token CallId)
    (replies : CallId → Option Reply) (calls : CallId → CallState) : Prop where
  pending : ∀ token : Token, pending[token]? = combined.pending[token]?.map (2 * ·)
  replies : ∀ i, replies (2 * i) = combined.replies i
  calls : ∀ i, Parts (combined.calls i) (calls (2 * i)) (calls (2 * i + 1))

/-- The steps that the parts of the calls take for one step. -/
inductive Follows (combined : Transport) : Label → List Label → Prop
  | begin (i : CallId) (raw : String) : Follows combined (.start i (.submitAndAwaitStop raw)) []
  | trigger {i : CallId} {raw : String} :
      combined.calls i = .triggering raw →
        Follows combined (.call i) [.start (2 * i) (.trigger raw)]
  | await {i : CallId} {token : Token} {cursor : Nat} {reply : Reply} {call : Call} :
      combined.calls i = .awaiting token (some cursor) → combined.replies i = some reply →
        Call.await? cursor (.outcome reply.outcome) = some call →
          Follows combined (.call i) [.call (2 * i), .start (2 * i + 1) call]
  | start (i : CallId) {call : Call} :
      (∀ raw, call ≠ .submitAndAwaitStop raw) →
        Follows combined (.start i call) [.start (2 * i) call]
  | part {i part : CallId} (own : CallId → Label) :
      own ∈ [Label.call, Label.cancel, Label.timeout] → part ∈ [2 * i, 2 * i + 1] →
        Follows combined (own i) [own part]
  | shared {label : Label} : label.caller? = none → Follows combined label [label]

section Steps

variable {combined next : Transport} {pending : Std.ExtTreeMap Token CallId}
  {replies : CallId → Option Reply} {calls : CallId → CallState}

theorem parts_update_first {whole : CallId → CallState}
    (parts : ∀ j, Parts (whole j) (calls (2 * j)) (calls (2 * j + 1)))
    {i : CallId} {state first : CallState} (own : Parts state first (calls (2 * i + 1)))
    (j : CallId) :
    Parts (Function.update whole i state j)
      (Function.update calls (2 * i) first (2 * j))
      (Function.update calls (2 * i) first (2 * j + 1)) := by
  have odd : 2 * j + 1 ≠ 2 * i := Nat.two_mul_ne_two_mul_add_one.symm
  rw [Function.update_of_ne odd]
  by_cases same : j = i
  · subst same
    rw [Function.update_self, Function.update_self]
    exact own
  · have other : 2 * j ≠ 2 * i := fun twice => same (Nat.mul_left_cancel Nat.two_pos twice)
    rw [Function.update_of_ne same, Function.update_of_ne other]
    exact parts j

theorem parts_update_second {whole : CallId → CallState}
    (parts : ∀ j, Parts (whole j) (calls (2 * j)) (calls (2 * j + 1)))
    {i : CallId} {state second : CallState} (own : Parts state (calls (2 * i)) second)
    (j : CallId) :
    Parts (Function.update whole i state j)
      (Function.update calls (2 * i + 1) second (2 * j))
      (Function.update calls (2 * i + 1) second (2 * j + 1)) := by
  have even : 2 * j ≠ 2 * i + 1 := Nat.two_mul_ne_two_mul_add_one
  rw [Function.update_of_ne even]
  by_cases same : j = i
  · subst same
    rw [Function.update_self, Function.update_self]
    exact own
  · have other : 2 * j + 1 ≠ 2 * i + 1 :=
      fun twice => same (Nat.mul_left_cancel Nat.two_pos (Nat.succ.inj twice))
    rw [Function.update_of_ne same, Function.update_of_ne other]
    exact parts j

theorem run_one {split after : Transport} {label : Label}
    (stepped : split.step label = some after) : run step split [label] = some after := by
  simp [run, stepped]

theorem stepCall_of_advance {i : CallId} {state after : CallState}
    (isState : combined.calls i = state) (advances : combined.advance i state = some after) :
    combined.step (.call i) = some (combined.setCall i after) := by
  cases state with
  | tested | allocated | registered | rollingBack | logging | logged => cases advances
  | _ => simp only [step, stepCall, isState, advances, Option.map_some]

theorem ne_triggering_of_advance {i : CallId} {state after : CallState}
    (advances : combined.advance i state = some after) (raw : String) :
    after ≠ .triggering raw := by
  rintro rfl
  cases callStep_of_advance advances

/-- A step that changes only where its call stands does the same to the part that
stands there. -/
theorem advance_forget {i part : CallId} {state : CallState}
    (notTrigger : ∀ raw, state ≠ .triggering raw)
    (notAwaiting : ∀ token after, state ≠ .awaiting token after) :
    (combined.splitInto pending replies calls).advance part state.forget =
      (combined.advance i state).map CallState.forget := by
  cases state with
  | awaiting token after => exact absurd rfl (notAwaiting token after)
  | triggering raw => exact absurd rfl (notTrigger raw)
  | submitting | testingAlive | testingAliveAgain =>
      cases alive : combined.readerAlive <;>
        simp [CallState.forget, CallResult.forget, advance, splitInto, alive]
  | snapshotting =>
      cases stopped : combined.connection.target.isStopped <;>
        simp [CallState.forget, advance, splitInto, stopped]
  | parked waiter woken => cases woken <;> rfl
  | readingLatest | lookingUp | lookingUpAgain =>
      simp only [CallState.forget, advance, splitInto, Waiter.forget]
      split <;> rfl
  | _ => rfl

theorem holdsSender_splitInto (splits : combined.SplitsInto pending replies calls) (i : CallId)
    (token : Token) :
    (combined.splitInto pending replies calls).holdsSender (2 * i) token =
      combined.holdsSender i token := by
  have twice : ∀ receiver : CallId, (2 * receiver == 2 * i) = (receiver == i) := by
    intro receiver
    rw [Bool.eq_iff_iff, beq_iff_eq, beq_iff_eq]
    exact ⟨Nat.mul_left_cancel Nat.two_pos, congrArg (2 * ·)⟩
  have inMap : (pending[token]? == some (2 * i)) = (combined.pending[token]? == some i) := by
    rw [splits.pending]
    cases combined.pending[token]? with
    | none => rfl
    | some receiver => exact twice receiver
  simp only [holdsSender, splitInto, inMap]
  cases combined.reader with
  | firing receiver handle outcome rest => simp only [ReaderPhase.double, twice]
  | _ => rfl

/-- Allocation changes the connection, and its call as the request says. -/
theorem allocate_eq (connection : Connection) (request : SubmitRequest) :
    ∃ (allocated : Connection) (state : Option Nat → CallState),
      (∀ after, (state after).forget = state none ∧ ∀ raw, state after ≠ .triggering raw) ∧
      ∀ transport : Transport, transport.connection = connection → ∀ i after,
        transport.allocate i request after =
          { transport with connection := allocated }.setCall i (state after) := by
  cases drained : drainOutbound (submitRequest connection request).2 with
  | ok result =>
      refine ⟨result.2, .allocated (submitRequest connection request).1 result.1, ?_, ?_⟩
      · exact fun after => ⟨rfl, by simp⟩
      · rintro transport rfl i after
        simp only [allocate, drained]
  | error error =>
      refine ⟨(submitRequest connection request).2, fun _ => .done (.failed (.protocol error)),
        ?_, ?_⟩
      · exact fun after => ⟨rfl, by simp⟩
      · rintro transport rfl i after
        simp only [allocate, drained]

/-- The parts of the calls follow the step, and split what it leads to. -/
def IsFollowed (combined : Transport) (pending : Std.ExtTreeMap Token CallId)
    (replies : CallId → Option Reply) (calls : CallId → CallState) (label : Label)
    (next : Transport) : Prop :=
  ∃ labels pending' replies' calls', Follows combined label labels ∧
    run step (combined.splitInto pending replies calls) labels =
      some (next.splitInto pending' replies' calls') ∧
    next.SplitsInto pending' replies' calls'

/-- The first part of a call takes one step. -/
theorem isFollowed_first (pending' : Std.ExtTreeMap Token CallId)
    (calls' : CallId → CallState) {shared : Transport} {i : CallId} {state : CallState}
    {label own : Label}
    (splits : combined.SplitsInto pending replies calls) (follows : Follows combined label [own])
    (notTrigger : ∀ raw, state ≠ .triggering raw)
    (parts : ∀ j, Parts (shared.calls j) (calls' (2 * j)) (calls' (2 * j + 1)))
    (idle : calls' (2 * i + 1) = .idle) (sameReplies : shared.replies = combined.replies)
    (inMap : ∀ token : Token, pending'[token]? = shared.pending[token]?.map (2 * ·))
    (stepped : (combined.splitInto pending replies calls).step own =
      some ((shared.splitInto pending' replies calls').setCall (2 * i) state.forget)) :
    combined.IsFollowed pending replies calls label (shared.setCall i state) := by
  refine ⟨[own], pending', replies, Function.update calls' (2 * i) state.forget, follows,
    run_one stepped, inMap, ?_, ?_⟩
  · intro j
    exact (splits.replies j).trans (congrFun sameReplies j).symm
  · apply parts_update_first parts
    rw [idle]
    exact .first notTrigger

/-- After a running command the second part begins. -/
theorem isFollowed_call_await {i : CallId} {token : Token} {cursor : Nat} {reply : Reply}
    (splits : combined.SplitsInto pending replies calls)
    (isState : combined.calls i = .awaiting token (some cursor))
    (stands : calls (2 * i) = .awaiting token none) (idle : calls (2 * i + 1) = .idle)
    (replied : combined.replies i = some reply) (isRunning : reply.outcome = .running) :
    combined.IsFollowed pending replies calls (.call i)
      (combined.setCall i
        (.lookingUp ⟨cursor, .afterCommand token reply.running reply.journaled⟩)) := by
  have returns : (combined.splitInto pending replies calls).step (.call (2 * i)) =
      some ((combined.splitInto pending replies calls).setCall (2 * i)
        (.done (.outcome .running))) := by
    apply stepCall_of_advance stands
    have partReplied : (combined.splitInto pending replies calls).replies (2 * i) = some reply :=
      (splits.replies i).trans replied
    simp only [advance, partReplied, Reply.resume, isRunning]
  have notBegun : ((combined.splitInto pending replies calls).setCall (2 * i)
      (.done (.outcome .running))).calls (2 * i + 1) = .idle := by
    rw [setCall_calls_of_ne Nat.two_mul_ne_two_mul_add_one.symm]
    exact idle
  refine ⟨[.call (2 * i), .start (2 * i + 1) (.nextStopAfter cursor)], pending, replies,
    Function.update (Function.update calls (2 * i) (.done (.outcome .running))) (2 * i + 1)
      (.lookingUp ⟨cursor, .direct⟩), ?_, ?_, splits.pending, splits.replies, ?_⟩
  · apply Follows.await isState replied
    rw [isRunning, Call.await?]
  · rw [run, List.foldlM_cons, returns]
    simp only [Option.bind_eq_bind, Option.bind_some, List.foldlM_cons, List.foldlM_nil]
    simp only [step, notBegun]
    rfl
  · have returned : Parts (.done (.outcome .running)) (.done (.outcome .running))
        (calls (2 * i + 1)) := by
      rw [idle]
      exact .first (by simp)
    have begun : Parts (.lookingUp ⟨cursor, .afterCommand token reply.running reply.journaled⟩)
        (Function.update calls (2 * i) (.done (.outcome .running)) (2 * i))
        (.lookingUp ⟨cursor, .direct⟩) := by
      rw [Function.update_self]
      exact .second (Or.inl ⟨_, rfl⟩)
    have parts := parts_update_second (parts_update_first splits.calls returned) begun
    rw [Function.update_idem] at parts
    exact parts

theorem isFollowed_call_awaiting {i : CallId} {token : Token} {after : Option Nat}
    (splits : combined.SplitsInto pending replies calls)
    (isState : combined.calls i = .awaiting token after)
    (stands : calls (2 * i) = .awaiting token none) (idle : calls (2 * i + 1) = .idle)
    (stepped : combined.stepCall i = some next) :
    combined.IsFollowed pending replies calls (.call i) next := by
  have follows : Follows combined (.call i) [.call (2 * i)] :=
    .part Label.call (by simp) (by simp)
  simp only [stepCall, isState, advance] at stepped
  cases replied : combined.replies i with
  | some reply =>
      have partReplied : (combined.splitInto pending replies calls).replies (2 * i) = some reply :=
        (splits.replies i).trans replied
      simp only [replied] at stepped
      obtain rfl := Option.some.inj stepped
      unfold Reply.resume
      split
      · next cursor isRunning =>
          exact isFollowed_call_await splits isState stands idle replied isRunning
      · refine isFollowed_first pending calls splits follows (by simp) splits.calls idle rfl
          splits.pending ?_
        apply stepCall_of_advance stands
        simp only [advance, partReplied, Reply.resume]
        rfl
  | none =>
      have partNotReplied : (combined.splitInto pending replies calls).replies (2 * i) = none :=
        (splits.replies i).trans replied
      simp only [replied] at stepped
      split_ifs at stepped with holds
      · cases stepped
      · obtain rfl := Option.some.inj stepped
        refine isFollowed_first pending calls splits follows (by simp) splits.calls idle rfl
          splits.pending ?_
        apply stepCall_of_advance stands
        rw [← holdsSender_splitInto splits] at holds
        simp only [advance, partNotReplied, if_neg holds]
        rfl

theorem isFollowed_call_first {i : CallId} {state : CallState}
    (splits : combined.SplitsInto pending replies calls) (isState : combined.calls i = state)
    (notTrigger : ∀ raw, state ≠ .triggering raw) (stands : calls (2 * i) = state.forget)
    (idle : calls (2 * i + 1) = .idle) (stepped : combined.stepCall i = some next) :
    combined.IsFollowed pending replies calls (.call i) next := by
  have follows : Follows combined (.call i) [.call (2 * i)] :=
    .part Label.call (by simp) (by simp)
  have isPart : (combined.splitInto pending replies calls).calls (2 * i) = state.forget := stands
  cases state with
  | tested request after =>
      obtain ⟨connection, state, forgets, allocates⟩ := allocate_eq combined.connection request
      simp only [stepCall, isState, allocates combined rfl] at stepped
      obtain rfl := Option.some.inj stepped
      refine isFollowed_first pending calls splits follows (forgets after).2 splits.calls idle rfl
        splits.pending ?_
      rw [(forgets after).1, step, stepCall, isPart, CallState.forget]
      exact congrArg some (allocates (combined.splitInto pending replies calls) rfl _ none)
  | allocated token bytes after =>
      simp only [stepCall, isState] at stepped
      obtain rfl := Option.some.inj stepped
      refine isFollowed_first (pending.insert token (2 * i)) calls splits follows (by simp)
        splits.calls idle rfl ?_ ?_
      · intro other
        simp only [Std.ExtTreeMap.getElem?_insert, splits.pending]
        split_ifs <;> rfl
      · simp only [step, stepCall, isPart, CallState.forget]
        rfl
  | registered token bytes after =>
      cases writer : combined.writer with
      | ended =>
          simp only [stepCall, isState, send, writer] at stepped
          obtain rfl := Option.some.inj stepped
          refine isFollowed_first pending calls splits follows (by simp) splits.calls idle rfl
            splits.pending ?_
          have sameWriter : (combined.splitInto pending replies calls).writer = .ended := writer
          simp only [step, stepCall, isPart, CallState.forget, send, sameWriter]
      | waiting | writing =>
          simp only [stepCall, isState, send, writer] at stepped
          split_ifs at stepped with hasRoom
          obtain rfl := Option.some.inj stepped
          refine isFollowed_first pending calls splits follows (by simp) splits.calls idle rfl
            splits.pending ?_
          have sameWriter := writer
          have sameRoom := hasRoom
          rw [← combined.splitInto_writer pending replies calls] at sameWriter
          rw [← combined.splitInto_queue pending replies calls] at sameRoom
          simp only [step, stepCall, isPart, CallState.forget, send, sameWriter, if_pos sameRoom]
          rfl
  | rollingBack token =>
      simp only [stepCall, isState] at stepped
      obtain rfl := Option.some.inj stepped
      refine isFollowed_first (pending.erase token) calls splits follows (by simp)
        splits.calls idle rfl ?_ ?_
      · intro other
        simp only [Std.ExtTreeMap.getElem?_erase, splits.pending]
        split_ifs <;> rfl
      · simp only [step, stepCall, isPart, CallState.forget]
        rfl
  | logging text =>
      simp only [stepCall, isState] at stepped
      obtain rfl := Option.some.inj stepped
      refine isFollowed_first pending calls splits follows (by simp) splits.calls idle rfl
        splits.pending ?_
      simp only [step, stepCall, isPart, CallState.forget]
      rfl
  | logged seq =>
      simp only [stepCall, isState] at stepped
      obtain rfl := Option.some.inj stepped
      refine isFollowed_first pending (fun j => (calls j).wake) splits follows (by simp)
        (fun j => (splits.calls j).wake) (congrArg CallState.wake idle) rfl splits.pending ?_
      simp only [step, stepCall, isPart, CallState.forget]
      rfl
  | triggering raw => exact absurd rfl (notTrigger raw)
  | awaiting token after => exact isFollowed_call_awaiting splits isState stands idle stepped
  | _ =>
      simp only [stepCall, isState] at stepped
      obtain ⟨state, advances, rfl⟩ := Option.map_eq_some_iff.mp stepped
      refine isFollowed_first pending calls splits follows
        (ne_triggering_of_advance advances) splits.calls idle rfl
        splits.pending ?_
      apply stepCall_of_advance isPart
      rw [advance_forget notTrigger (by simp), advances]
      rfl

/-- The second part of a call takes one step. -/
theorem isFollowed_second {i : CallId} {state : CallState} {label own : Label}
    (splits : combined.SplitsInto pending replies calls) (follows : Follows combined label [own])
    (late : state.IsLate) (began : calls (2 * i) = .done (.outcome .running))
    (stepped : (combined.splitInto pending replies calls).step own =
      some ((combined.splitInto pending replies calls).setCall (2 * i + 1) state.forget)) :
    combined.IsFollowed pending replies calls label (combined.setCall i state) := by
  refine ⟨[own], pending, replies, Function.update calls (2 * i + 1) state.forget, follows,
    run_one stepped, splits.pending, splits.replies, ?_⟩
  apply parts_update_second splits.calls
  rw [began]
  exact .second late

theorem isLate_of_advance {i : CallId} {state after : CallState} (late : state.IsLate)
    (advances : combined.advance i state = some after) : after.IsLate := by
  rcases late with ⟨waiter, waits⟩ | ⟨result, rfl⟩
  · cases callStep_of_advance advances with
    | find | findAgain | finish => exact Or.inr ⟨_, rfl⟩
    | findNone | testWait | create | findNoneAgain | park | resume => exact Or.inl ⟨_, rfl⟩
    | _ => cases waits
  · cases advances

theorem isFollowed_call_second {i : CallId} {state : CallState}
    (splits : combined.SplitsInto pending replies calls) (isState : combined.calls i = state)
    (late : state.IsLate) (began : calls (2 * i) = .done (.outcome .running))
    (stands : calls (2 * i + 1) = state.forget) (stepped : combined.stepCall i = some next) :
    combined.IsFollowed pending replies calls (.call i) next := by
  have follows : Follows combined (.call i) [.call (2 * i + 1)] :=
    .part Label.call (by simp) (by simp)
  have notAwaiting : ∀ token after, state ≠ .awaiting token after := by
    rintro token after rfl
    rcases late with ⟨waiter, waits⟩ | ⟨result, isDone⟩
    · cases waits
    · cases isDone
  have notTrigger : ∀ raw, state ≠ .triggering raw := by
    rintro raw rfl
    rcases late with ⟨waiter, waits⟩ | ⟨result, isDone⟩
    · cases waits
    · cases isDone
  have advances : ∃ after, combined.advance i state = some after ∧
      combined.setCall i after = next := by
    rcases late with ⟨waiter, waits⟩ | ⟨result, rfl⟩
    · cases state with
      | lookingUp | testingAlive | creating | lookingUpAgain | testingAliveAgain | parked =>
          simp only [stepCall, isState] at stepped
          exact Option.map_eq_some_iff.mp stepped
      | _ => cases waits
    · simp [stepCall, isState, advance] at stepped
  obtain ⟨after, advances, rfl⟩ := advances
  apply isFollowed_second splits follows (isLate_of_advance late advances) began
  apply stepCall_of_advance stands
  rw [advance_forget notTrigger notAwaiting, advances]
  rfl

/-- A call is dropped, or its time runs out, where its part is. -/
theorem isFollowed_end {i : CallId} {result : CallResult} {own : CallId → Label}
    (splits : combined.SplitsInto pending replies calls)
    (ends : own ∈ [Label.call, Label.cancel, Label.timeout])
    (plain : ∀ stop origin, result ≠ .stop stop origin)
    (notTrigger : ∀ raw, combined.calls i ≠ .triggering raw)
    (stepped : ∀ part, calls part = (combined.calls i).forget →
      (combined.splitInto pending replies calls).step (own part) =
        some ((combined.splitInto pending replies calls).setCall part (.done result))) :
    combined.IsFollowed pending replies calls (own i) (combined.setCall i (.done result)) := by
  have forgets : result.forget = result := by
    cases result with
    | stop stop origin => exact absurd rfl (plain stop origin)
    | _ => rfl
  have isDone : (CallState.done result).forget = .done result := congrArg CallState.done forgets
  have parts := splits.calls i
  generalize isState : combined.calls i = state at *
  generalize isFirst : calls (2 * i) = first at *
  generalize isSecond : calls (2 * i + 1) = second at *
  cases parts with
  | before raw => exact absurd rfl (notTrigger raw)
  | first =>
      have follows : Follows combined (own i) [own (2 * i)] := .part own ends (by simp)
      refine isFollowed_first pending calls splits follows (by simp) splits.calls isSecond rfl
        splits.pending ?_
      rw [isDone]
      exact stepped (2 * i) isFirst
  | second =>
      have follows : Follows combined (own i) [own (2 * i + 1)] := .part own ends (by simp)
      apply isFollowed_second splits follows (Or.inr ⟨result, rfl⟩) isFirst
      rw [isDone]
      exact stepped (2 * i + 1) isSecond

theorem isFollowed_call {i : CallId} (splits : combined.SplitsInto pending replies calls)
    (stepped : combined.stepCall i = some next) :
    combined.IsFollowed pending replies calls (.call i) next := by
  have parts := splits.calls i
  generalize isState : combined.calls i = state at parts
  generalize isFirst : calls (2 * i) = first at parts
  generalize isSecond : calls (2 * i + 1) = second at parts
  cases parts with
  | before raw =>
      simp only [stepCall, isState, advance] at stepped
      obtain rfl := Option.some.inj stepped
      refine isFollowed_first pending calls splits (.trigger isState) (by simp) splits.calls
        isSecond rfl splits.pending ?_
      have notBegun : (combined.splitInto pending replies calls).calls (2 * i) = .idle := isFirst
      simp only [step, notBegun]
      rfl
  | first notTrigger =>
      exact isFollowed_call_first splits isState notTrigger isFirst isSecond stepped
  | second late => exact isFollowed_call_second splits isState late isFirst isSecond stepped

theorem isFollowed_start {i : CallId} (splits : combined.SplitsInto pending replies calls)
    (isIdle : combined.calls i = .idle) (call : Call) :
    combined.IsFollowed pending replies calls (.start i call) (combined.setCall i call.entry) := by
  have idle : calls (2 * i) = .idle ∧ calls (2 * i + 1) = .idle := by
    have parts := splits.calls i
    rw [isIdle] at parts
    generalize calls (2 * i) = first at *
    generalize calls (2 * i + 1) = second at *
    cases parts with
    | first => exact ⟨rfl, rfl⟩
    | second late =>
        rcases late with ⟨waiter, waits⟩ | ⟨result, isDone⟩
        · cases waits
        · cases isDone
  have partIdle : (combined.splitInto pending replies calls).calls (2 * i) = .idle := idle.1
  cases call with
  | submitAndAwaitStop raw =>
      refine ⟨[], pending, replies, calls, .begin i raw, rfl, splits.pending, splits.replies, ?_⟩
      have begun : Parts (.triggering raw) (calls (2 * i)) (calls (2 * i + 1)) := by
        rw [idle.1, idle.2]
        exact .before raw
      have parts := parts_update_first splits.calls begun
      rw [Function.update_eq_self] at parts
      exact parts
  | submit | nextStopAfter | currentOrNextStop | recordSyntheticLog =>
      refine isFollowed_first pending calls splits (.start i (by simp)) (by simp [Call.entry])
        splits.calls idle.2 rfl splits.pending ?_
      simp only [step, partIdle]
      rfl

theorem isFollowed_shared {pending' : Std.ExtTreeMap Token CallId}
    {replies' : CallId → Option Reply} {calls' : CallId → CallState} {label : Label}
    (notCall : label.caller? = none)
    (stepped : (combined.splitInto pending replies calls).step label =
      some (next.splitInto pending' replies' calls'))
    (splits : next.SplitsInto pending' replies' calls') :
    combined.IsFollowed pending replies calls label next :=
  ⟨[label], pending', replies', calls', .shared notCall, run_one stepped, splits⟩

theorem isFollowed_dispatch (splits : combined.SplitsInto pending replies calls)
    {events : List Event} (dispatches : combined.reader = .dispatching events) :
    combined.IsFollowed pending replies calls .reader (combined.dispatchEvent events) := by
  have partDispatches : (combined.splitInto pending replies calls).reader =
      .dispatching events := by
    rw [splitInto, dispatches]
    rfl
  have kept : ∀ reader, { combined with reader }.SplitsInto pending replies calls :=
    fun reader => ⟨splits.pending, splits.replies, splits.calls⟩
  cases events with
  | nil =>
      refine isFollowed_shared rfl ?_ (kept .reading)
      simp only [step, stepReader, partDispatches]
      rfl
  | cons event rest =>
      cases event with
      | commandCompleted handle outcome =>
          cases registered : combined.pending[handle]? with
          | some receiver =>
              have partRegistered : (combined.splitInto pending replies calls).pending[handle]? =
                  some (2 * receiver) := by
                change pending[handle]? = _
                rw [splits.pending, registered]
                rfl
              simp only [dispatchEvent, registered]
              have inMap : ∀ token : Token, (pending.erase handle)[token]? =
                  (combined.pending.erase handle)[token]?.map (2 * ·) := by
                intro token
                simp only [Std.ExtTreeMap.getElem?_erase, splits.pending]
                split_ifs <;> rfl
              refine isFollowed_shared rfl ?_ ⟨inMap, splits.replies, splits.calls⟩
              simp only [step, stepReader, partDispatches, dispatchEvent, partRegistered]
              rfl
          | none =>
              have partRegistered :
                  (combined.splitInto pending replies calls).pending[handle]? = none := by
                change pending[handle]? = _
                rw [splits.pending, registered]
                rfl
              simp only [dispatchEvent, registered]
              refine isFollowed_shared rfl ?_ (kept _)
              simp only [step, stepReader, partDispatches, dispatchEvent, partRegistered]
              rfl
      | _ =>
          refine isFollowed_shared rfl ?_ (kept _)
          simp only [step, stepReader, partDispatches]
          rfl

theorem isFollowed_reader (splits : combined.SplitsInto pending replies calls)
    (stepped : combined.stepReader = some next) :
    combined.IsFollowed pending replies calls .reader next := by
  have woken : ∀ reader, { combined.notifyWaiters with reader }.SplitsInto pending replies
      fun i => (calls i).wake :=
    fun reader => ⟨splits.pending, splits.replies, fun i => (splits.calls i).wake⟩
  have partReader : ∀ {phase}, combined.reader = phase →
      (combined.splitInto pending replies calls).reader = phase.double := by
    rintro phase rfl
    rfl
  cases phase : combined.reader with
  | reading | exited => simp only [stepReader, phase, reduceCtorEq] at stepped
  | dispatching events =>
      simp only [stepReader, phase] at stepped
      obtain rfl := Option.some.inj stepped
      exact isFollowed_dispatch splits phase
  | firing receiver handle outcome rest =>
      simp only [stepReader, phase] at stepped
      obtain rfl := Option.some.inj stepped
      have fired : ∀ i, Function.update replies (2 * receiver)
            (some ⟨handle, outcome, combined.recorded, combined.history.length⟩) (2 * i) =
          (combined.fire receiver handle outcome rest).replies i := by
        intro i
        simp only [fire]
        by_cases same : i = receiver
        · subst same
          rw [Function.update_self, Function.update_self]
        · have other : 2 * i ≠ 2 * receiver :=
            fun twice => same (Nat.mul_left_cancel Nat.two_pos twice)
          rw [Function.update_of_ne same, Function.update_of_ne other]
          exact splits.replies i
      refine isFollowed_shared rfl ?_ ⟨splits.pending, fired, splits.calls⟩
      simp only [step, stepReader, partReader phase, ReaderPhase.double]
      rfl
  | journaling | exiting =>
      simp only [stepReader, phase] at stepped
      obtain rfl := Option.some.inj stepped
      refine isFollowed_shared rfl ?_ ⟨splits.pending, splits.replies, splits.calls⟩
      simp only [step, stepReader, partReader phase, ReaderPhase.double]
      rfl
  | notifying | exitStored =>
      simp only [stepReader, phase] at stepped
      obtain rfl := Option.some.inj stepped
      refine isFollowed_shared rfl ?_ (woken _)
      simp only [step, stepReader, partReader phase, ReaderPhase.double]
      rfl
  | exitNotified =>
      simp only [stepReader, phase] at stepped
      obtain rfl := Option.some.inj stepped
      have cleared : ∀ token : Token, (∅ : Std.ExtTreeMap Token CallId)[token]? =
          (∅ : Std.ExtTreeMap Token CallId)[token]?.map (2 * ·) := by
        intro token
        rw [Std.ExtTreeMap.getElem?_empty, Option.map_none]
      refine isFollowed_shared rfl ?_ ⟨cleared, splits.replies, splits.calls⟩
      simp only [step, stepReader, partReader phase, ReaderPhase.double]
      rfl

theorem receive_splitInto (chunk : List UInt8) :
    (combined.splitInto pending replies calls).receive chunk =
      (combined.receive chunk).splitInto pending replies calls := by
  unfold receive splitInto
  simp only
  split_ifs <;> rfl

theorem SplitsInto.receive (splits : combined.SplitsInto pending replies calls)
    (chunk : List UInt8) : (combined.receive chunk).SplitsInto pending replies calls := by
  rcases combined.receive_eq chunk with ⟨_, _, _, received⟩
  rw [received]
  exact ⟨splits.pending, splits.replies, splits.calls⟩

/-- The calls of a transport can be split at every step. -/
theorem isFollowed_of_step (splits : combined.SplitsInto pending replies calls) {label : Label}
    (stepped : combined.step label = some next) :
    combined.IsFollowed pending replies calls label next := by
  cases label with
  | start i call =>
      obtain ⟨isIdle, rfl⟩ := step_cases stepped
      exact isFollowed_start splits isIdle call
  | call i => exact isFollowed_call splits stepped
  | cancel i =>
      obtain ⟨suspended, rfl⟩ := step_cases stepped
      apply isFollowed_end splits (by simp) (by simp)
      · intro raw isTrigger
        rw [isTrigger] at suspended
        cases suspended
      · intro part stands
        have partStands : ((combined.splitInto pending replies calls).calls part).isSuspended =
            true := (congrArg CallState.isSuspended stands).trans
              ((CallState.isSuspended_forget _).trans suspended)
        simp only [step, if_pos partStands]
  | timeout i =>
      obtain ⟨waiter, isParked, rfl⟩ := step_cases stepped
      apply isFollowed_end splits (by simp) (by simp)
      · simp [isParked]
      · intro part stands
        have partStands : (combined.splitInto pending replies calls).calls part =
            .parked waiter.forget false := stands.trans (congrArg CallState.forget isParked)
        simp only [step, partStands]
  | receive chunk =>
      obtain ⟨reading, _⟩ := step_cases stepped
      have partReader : (combined.splitInto pending replies calls).reader = .reading := by
        rw [splitInto, reading]
        rfl
      simp only [step, reading] at stepped
      split_ifs at stepped with fits
      obtain rfl := Option.some.inj stepped
      refine isFollowed_shared rfl ?_ (splits.receive chunk)
      simp only [step, partReader, if_pos fits, receive_splitInto]
  | endOfInput =>
      obtain ⟨reading, rfl⟩ := step_cases stepped
      have partReader : (combined.splitInto pending replies calls).reader = .reading := by
        rw [splitInto, reading]
        rfl
      refine isFollowed_shared rfl ?_ ⟨splits.pending, splits.replies, splits.calls⟩
      simp only [step, partReader]
      rfl
  | reader => exact isFollowed_reader splits stepped
  | writerTake =>
      obtain ⟨bytes, queue, waiting, queued, rfl⟩ := step_cases stepped
      have partQueue : (combined.splitInto pending replies calls).queue = bytes :: queue := queued
      have partWriter : (combined.splitInto pending replies calls).writer = .waiting := waiting
      refine isFollowed_shared rfl ?_ ⟨splits.pending, splits.replies, splits.calls⟩
      simp only [step, partWriter, partQueue]
      rfl
  | writerFinish | writerFail =>
      obtain ⟨bytes, writing, rfl⟩ := step_cases stepped
      have partWriter : (combined.splitInto pending replies calls).writer = .writing bytes :=
        writing
      refine isFollowed_shared rfl ?_ ⟨splits.pending, splits.replies, splits.calls⟩
      simp only [step, partWriter]
      rfl

theorem Follows.plain {label : Label} {labels : List Label}
    (follows : Follows combined label labels) {i : CallId} {raw : String} :
    .start i (.submitAndAwaitStop raw) ∉ labels := by
  intro started
  cases follows with
  | begin => cases started
  | trigger =>
      rw [List.mem_singleton] at started
      cases started
  | await _ _ isSecond =>
      rw [List.mem_cons, List.mem_singleton] at started
      rcases started with started | started
      · cases started
      · obtain ⟨_, rfl⟩ := Label.start.inj started
        unfold Call.await? at isSecond
        split at isSecond <;> cases isSecond
  | start _ notTrigger =>
      rw [List.mem_singleton] at started
      obtain ⟨_, rfl⟩ := Label.start.inj started
      exact notTrigger raw rfl
  | part own isOwn =>
      rw [List.mem_singleton] at started
      simp only [List.mem_cons, List.not_mem_nil, or_false] at isOwn
      rcases isOwn with rfl | rfl | rfl <;> cases started
  | shared notCall =>
      rw [List.mem_singleton] at started
      obtain rfl := started
      cases notCall

/-- A call that has returned did so in the part that returned what it returned. -/
theorem SplitsInto.returned (splits : combined.SplitsInto pending replies calls) {i : CallId}
    {result : CallResult} (returned : combined.calls i = .done result) :
    calls (2 * i) = .done result.forget ∨
      calls (2 * i) = .done (.outcome .running) ∧ calls (2 * i + 1) = .done result.forget := by
  have parts := splits.calls i
  rw [returned] at parts
  generalize calls (2 * i) = first at *
  generalize calls (2 * i + 1) = second at *
  cases parts with
  | first => exact Or.inl rfl
  | second => exact Or.inr ⟨rfl, rfl⟩

end Steps

theorem splitsInto_new : new.SplitsInto ∅ (fun _ => none) fun _ => .idle := by
  refine ⟨?_, fun _ => rfl, fun _ => .first (by simp [new])⟩
  intro token
  rw [Std.ExtTreeMap.getElem?_empty, new, Std.ExtTreeMap.getElem?_empty, Option.map_none]

/-- Every run of the transport is followed by one in which no caller leaves the
trigger and wait to the transport, with the same results. -/
theorem exists_split_of_run {labels : List Label} {combined : Transport}
    (ran : run step new labels = some combined) :
    ∃ splitLabels pending replies calls,
      run step new splitLabels = some (combined.splitInto pending replies calls) ∧
      combined.SplitsInto pending replies calls ∧
      ∀ i raw, .start i (.submitAndAwaitStop raw) ∉ splitLabels := by
  induction labels using List.reverseRecOn generalizing combined with
  | nil =>
      obtain rfl : new = combined := Option.some.inj ran
      exact ⟨[], ∅, fun _ => none, fun _ => .idle, rfl, splitsInto_new, by simp⟩
  | append_singleton labels label ih =>
      obtain ⟨earlier, ran, stepped⟩ := run_append_singleton ran
      obtain ⟨splitLabels, pending, replies, calls, splitRan, splits, plain⟩ := ih ran
      obtain ⟨more, pending', replies', calls', follows, moreRan, splits⟩ :=
        isFollowed_of_step splits stepped
      refine ⟨splitLabels ++ more, pending', replies', calls', ?_, splits, ?_⟩
      · rw [run, List.foldlM_append, ← run, splitRan]
        exact moreRan
      · intro i raw started
        exact (List.mem_append.mp started).elim (plain i raw) follows.plain

end Transport

/-- What has been asked is a beginning of the two parts, from this cursor. -/
inductive AsksParts (raw : String) (cursor : Nat) : List (Call × CallResult) → Prop
  | nothing : AsksParts raw cursor []
  | first (result : CallResult) : AsksParts raw cursor [(.trigger raw, result)]
  | second {result : CallResult} {call : Call} (last : CallResult) :
      Call.await? cursor result = some call →
        AsksParts raw cursor [(.trigger raw, result), (call, last)]

namespace Handlers

open SharedPrograms

/-- The handler of the same name reads the cursor, and then asks for the parts
itself. -/
theorem submitAndAwaitStop_asksParts (raw : String) (timeout : Duration)
    (deadline : EvalDeadline) :
    ∃ rest : Nat → Handler Response,
      submitAndAwaitStop raw timeout deadline = eventCursor >>= rest ∧
      ∀ cursor, (rest cursor).Returns (fun dialogue _ => AsksParts raw cursor dialogue) [] := by
  refine ⟨_, rfl, ?_⟩
  intro cursor
  rw [returns_orRaise_iff]
  refine (clampToEvalBudget_quiet timeout deadline).returns fun result _ => ?_
  cases result with
  | error message => exact .nothing
  | ok submitTimeout =>
      simp only [returns_orRaise_iff, submitRawWithTimeout, submitRequestWithTimeout,
        Program.returns_do_iff, Program.returns_askingWithin_iff, Program.returns_pure_iff]
      refine ⟨fun lapse => .nothing, ?_⟩
      intro reply
      cases submitted : submitResult reply with
      | error error => exact .first reply
      | ok outcome =>
          obtain rfl := submitResult_eq_ok submitted
          cases outcome with
          | running =>
              simp only [Except.mapError, returns_orRaise_iff]
              refine (clampToEvalBudget_quiet timeout deadline).returns fun result _ => ?_
              cases result with
              | error message => exact .first _
              | ok waitTimeout =>
                  simp only [awaitStop, Program.returns_do_iff, Program.returns_asking_iff]
                  intro last
                  have asked : AsksParts raw cursor
                      [(.trigger raw, .outcome .running), (.nextStopAfter cursor, last)] :=
                    .second last rfl
                  split
                  · exact asked
                  · exact asked
                  · exact (timeoutErrorWithWarnings_quiet _ _ _).returns fun _ _ => asked
          | done | connected | error | exit => exact .first _

end Handlers

end Framewalk
