import Framewalk.TransportTransitions

/-!
# Commands on their way to GDB

Beside the transport this memory keeps which token each call was given, which
lines were accepted by the writer's channel, and how many of them the writer has
taken and completely written.
-/

namespace Framewalk

open TransitionSystem

/-- A line in the writer's channel, and the call that sent it. -/
structure SentLine where
  call : CallId
  token : Token
  bytes : List UInt8

structure CommandPipe where
  issued : List (CallId × Token)
  sent : List SentLine
  taken : Nat
  written : Nat

namespace CommandPipe

def empty : CommandPipe :=
  ⟨[], [], 0, 0⟩

/-- A call's own steps: it is given a token, or its line is accepted. -/
def noteCall (pipe : CommandPipe) (transport : Transport) (i : CallId) (next : CallState) :
    CommandPipe :=
  match transport.calls i, next with
  | .tested _ _, _ =>
      { pipe with issued := pipe.issued ++ [(i, transport.connection.tokens.next)] }
  | .registered token bytes _, .awaiting _ _ =>
      { pipe with sent := pipe.sent ++ [⟨i, token, bytes⟩] }
  | _, _ => pipe

def note (pipe : CommandPipe) (transport : Transport) (label : Transport.Label)
    (next : Transport) : CommandPipe :=
  match label with
  | .call i => pipe.noteCall transport i (next.calls i)
  | .writerTake => { pipe with taken := pipe.taken + 1 }
  | .writerFinish => { pipe with written := pipe.written + 1 }
  | _ => pipe

/-- The lines that have not been completely written. -/
def unwritten (pipe : CommandPipe) : List SentLine :=
  pipe.sent.drop pipe.written

/-- The tokens that may have reached GDB: the writer has begun to write their
lines. -/
def received (pipe : CommandPipe) : List Token :=
  (pipe.sent.take pipe.taken).map SentLine.token

section Note

variable (pipe : CommandPipe) (transport next : Transport) (label : Transport.Label)

theorem issued_note :
    (pipe.note transport label next).issued = pipe.issued ∨ ∃ i request after,
      label = .call i ∧ transport.calls i = .tested request after ∧
        (pipe.note transport label next).issued =
          pipe.issued ++ [(i, transport.connection.tokens.next)] := by
  cases label with
  | call i =>
      simp only [note, noteCall]
      split
      · next request after isTested => exact Or.inr ⟨i, request, after, rfl, isTested, rfl⟩
      · exact Or.inl rfl
      · exact Or.inl rfl
  | _ => exact Or.inl rfl

theorem sent_note :
    (pipe.note transport label next).sent = pipe.sent ∨ ∃ i token bytes after own cursor,
      label = .call i ∧ transport.calls i = .registered token bytes after ∧
        next.calls i = .awaiting own cursor ∧
        (pipe.note transport label next).sent = pipe.sent ++ [⟨i, token, bytes⟩] := by
  cases label with
  | call i =>
      simp only [note, noteCall]
      split
      · exact Or.inl rfl
      · next token bytes after own cursor isRegistered isAwaiting =>
          exact Or.inr ⟨i, token, bytes, after, own, cursor, rfl, isRegistered, isAwaiting, rfl⟩
      · exact Or.inl rfl
  | _ => exact Or.inl rfl

/-- What was sent stays sent. -/
theorem sent_isPrefix_note : pipe.sent <+: (pipe.note transport label next).sent := by
  rcases sent_note pipe transport next label with same | ⟨_, _, _, _, _, _, _, _, _, grown⟩
  · rw [same]
  · rw [grown]
    exact List.prefix_append _ _

theorem taken_note_call (i : CallId) :
    (pipe.note transport (.call i) next).taken = pipe.taken ∧
      (pipe.note transport (.call i) next).written = pipe.written := by
  simp only [note, noteCall]
  split <;> exact ⟨rfl, rfl⟩

theorem written_note :
    (pipe.note transport label next).written = pipe.written ∨ label = .writerFinish := by
  cases label with
  | call i =>
      left
      simp only [note, noteCall]
      split <;> rfl
  | writerFinish => exact Or.inr rfl
  | _ => exact Or.inl rfl

end Note

end CommandPipe

namespace Transport

variable {transport next : Transport}

/-- Allocation moves the token allocator and the outbound bytes only, and gives
the call the token that was next. -/
theorem allocate_cases (transport : Transport) (i : CallId) (request : SubmitRequest)
    (after : Option Nat) :
    (transport.allocate i request after).writer = transport.writer ∧
      (transport.allocate i request after).connection.tokens =
        transport.connection.tokens.allocate.2 ∧
      ((∃ bytes, (transport.allocate i request after).calls i =
          .allocated transport.connection.tokens.next bytes after) ∨
        ∃ error, (transport.allocate i request after).calls i =
          .done (.failed (.protocol error))) := by
  have submission : submitRequest transport.connection request =
      (transport.connection.tokens.next, (submitRequest transport.connection request).2) := by
    cases request <;> rfl
  have tokens : (submitRequest transport.connection request).2.tokens =
      transport.connection.tokens.allocate.2 := by
    cases request <;> rfl
  unfold allocate
  rw [submission]
  simp only
  split
  · next bytes drained isDrained =>
      refine ⟨rfl, ?_, Or.inl ⟨bytes, Function.update_self _ _ _⟩⟩
      rcases exists_of_drainOutbound isDrained with ⟨outbound, rfl⟩
      exact tokens
  · next error _ => exact ⟨rfl, tokens, Or.inr ⟨error, Function.update_self _ _ _⟩⟩

theorem stepCall_keeps {i : CallId} (stepped : transport.stepCall i = some next) :
    next.writer = transport.writer ∧
      (next.connection = transport.connection ∨ ∃ request after,
        transport.calls i = .tested request after ∧
          next = transport.allocate i request after) := by
  unfold stepCall at stepped
  split at stepped
  · next request after isTested =>
      obtain rfl := Option.some.inj stepped
      exact ⟨(transport.allocate_cases i request after).1,
        Or.inr ⟨request, after, isTested, rfl⟩⟩
  · obtain rfl := Option.some.inj stepped
    exact ⟨rfl, Or.inl rfl⟩
  · unfold send at stepped
    split at stepped
    · obtain rfl := Option.some.inj stepped
      exact ⟨rfl, Or.inl rfl⟩
    · split_ifs at stepped
      obtain rfl := Option.some.inj stepped
      exact ⟨rfl, Or.inl rfl⟩
  · obtain rfl := Option.some.inj stepped
    exact ⟨rfl, Or.inl rfl⟩
  · obtain rfl := Option.some.inj stepped
    exact ⟨rfl, Or.inl rfl⟩
  · obtain rfl := Option.some.inj stepped
    exact ⟨rfl, Or.inl rfl⟩
  · rw [Option.map_eq_some_iff] at stepped
    rcases stepped with ⟨state, _, rfl⟩
    exact ⟨rfl, Or.inl rfl⟩

theorem stepReader_keeps (stepped : transport.stepReader = some next) :
    next.writer = transport.writer ∧ next.connection = transport.connection ∧
      next.queue = transport.queue := by
  unfold stepReader at stepped
  split at stepped
  · cases stepped
  · obtain rfl := Option.some.inj stepped
    unfold dispatchEvent
    split
    · exact ⟨rfl, rfl, rfl⟩
    · split <;> exact ⟨rfl, rfl, rfl⟩
    · exact ⟨rfl, rfl, rfl⟩
  all_goals cases stepped
  all_goals exact ⟨rfl, rfl, rfl⟩

end Transport

/-- The lines in the channel and the line being written are the unwritten ones,
until the writer ends and the channel with it. -/
structure CommandPipe.Follows (pipe : CommandPipe) (transport : Transport) : Prop where
  inBounds : pipe.taken ≤ pipe.sent.length
  waiting : transport.writer = .waiting →
    pipe.taken = pipe.written ∧ pipe.unwritten.map SentLine.bytes = transport.queue
  writing : ∀ bytes, transport.writer = .writing bytes →
    pipe.taken = pipe.written + 1 ∧
      pipe.unwritten.map SentLine.bytes = bytes :: transport.queue
  ended : transport.writer = .ended → transport.queue = []

theorem CommandPipe.follows_new : empty.Follows .new where
  inBounds := Nat.le_refl 0
  waiting _ := ⟨rfl, rfl⟩
  writing bytes isWriting := by cases isWriting
  ended _ := rfl

namespace Transport

/-- A call's own step sends nothing, or the line that the pipe notes. -/
theorem queue_of_stepCall {transport next : Transport} {i : CallId} (pipe : CommandPipe)
    (stepped : transport.stepCall i = some next) :
    (next.queue = transport.queue ∧
        (pipe.note transport (.call i) next).sent = pipe.sent) ∨
      ∃ token bytes, transport.writer ≠ .ended ∧ next.queue = transport.queue ++ [bytes] ∧
        (pipe.note transport (.call i) next).sent = pipe.sent ++ [⟨i, token, bytes⟩] := by
  have unsent : (∀ token bytes after, transport.calls i ≠ .registered token bytes after) →
      (pipe.note transport (.call i) next).sent = pipe.sent := by
    intro notRegistered
    rcases pipe.sent_note transport next (.call i) with
      same | ⟨j, token, bytes, after, _, _, isCall, isRegistered, _, _⟩
    · exact same
    · cases isCall
      exact absurd isRegistered (notRegistered token bytes after)
  unfold stepCall at stepped
  split at stepped
  · next request after isTested =>
      obtain rfl := Option.some.inj stepped
      refine Or.inl ⟨?_, unsent (by simp [isTested])⟩
      unfold allocate
      simp only
      split <;> rfl
  · next isAllocated =>
      obtain rfl := Option.some.inj stepped
      exact Or.inl ⟨rfl, unsent (by simp [isAllocated])⟩
  · next token bytes after isRegistered =>
      unfold send at stepped
      split at stepped
      · obtain rfl := Option.some.inj stepped
        refine Or.inl ⟨rfl, ?_⟩
        simp only [CommandPipe.note, CommandPipe.noteCall, isRegistered, setCall,
          Function.update_self]
      · next notEnded =>
          split_ifs at stepped
          obtain rfl := Option.some.inj stepped
          refine Or.inr ⟨token, bytes, notEnded, rfl, ?_⟩
          simp only [CommandPipe.note, CommandPipe.noteCall, isRegistered, setCall,
            Function.update_self]
  · next isRollingBack =>
      obtain rfl := Option.some.inj stepped
      exact Or.inl ⟨rfl, unsent (by simp [isRollingBack])⟩
  · next isLogging =>
      obtain rfl := Option.some.inj stepped
      exact Or.inl ⟨rfl, unsent (by simp [isLogging])⟩
  · next isLogged =>
      obtain rfl := Option.some.inj stepped
      exact Or.inl ⟨rfl, unsent (by simp [isLogged])⟩
  · rw [Option.map_eq_some_iff] at stepped
    rcases stepped with ⟨state, _, rfl⟩
    exact Or.inl ⟨rfl, unsent (by assumption)⟩

end Transport

section Follows

variable {pipe : CommandPipe} {transport next : Transport} {label : Transport.Label}

theorem CommandPipe.unwritten_append {line : SentLine} (inBounds : pipe.written ≤ pipe.sent.length)
    {grown : CommandPipe} (sent : grown.sent = pipe.sent ++ [line])
    (written : grown.written = pipe.written) : grown.unwritten = pipe.unwritten ++ [line] := by
  rw [unwritten, unwritten, sent, written, List.drop_append_of_le_length inBounds]

theorem CommandPipe.Follows.written_le (follows : pipe.Follows transport)
    (notEnded : transport.writer ≠ .ended) : pipe.written ≤ pipe.sent.length := by
  have inBounds := follows.inBounds
  cases phase : transport.writer with
  | waiting =>
      have taken := (follows.waiting phase).1
      omega
  | writing bytes =>
      have taken := (follows.writing bytes phase).1
      omega
  | ended => exact absurd phase notEnded

theorem CommandPipe.Follows.call (follows : pipe.Follows transport) {i : CallId}
    (stepped : transport.stepCall i = some next) :
    (pipe.note transport (.call i) next).Follows next := by
  have sameWriter := (Transport.stepCall_keeps stepped).1
  rcases pipe.taken_note_call transport next i with ⟨taken, written⟩
  rcases Transport.queue_of_stepCall pipe stepped with
    ⟨sameQueue, sent⟩ | ⟨token, bytes, notEnded, queued, sent⟩
  · have unwritten : (pipe.note transport (.call i) next).unwritten = pipe.unwritten := by
      rw [CommandPipe.unwritten, CommandPipe.unwritten, sent, written]
    refine ⟨?_, ?_, ?_, ?_⟩
    · rw [taken, sent]
      exact follows.inBounds
    · rw [sameWriter, taken, written, unwritten, sameQueue]
      exact follows.waiting
    · rw [sameWriter, taken, written, unwritten, sameQueue]
      exact follows.writing
    · rw [sameWriter, sameQueue]
      exact follows.ended
  · have unwritten := unwritten_append (follows.written_le notEnded) sent written
    refine ⟨?_, ?_, ?_, ?_⟩
    · rw [taken, sent, List.length_append]
      exact Nat.le_add_right_of_le follows.inBounds
    · intro phase
      have before := follows.waiting (sameWriter ▸ phase)
      rw [taken, written, unwritten, queued, List.map_append, before.2]
      exact ⟨before.1, rfl⟩
    · intro own phase
      have before := follows.writing own (sameWriter ▸ phase)
      rw [taken, written, unwritten, queued, List.map_append, before.2]
      exact ⟨before.1, rfl⟩
    · intro phase
      exact absurd (sameWriter ▸ phase) notEnded

theorem CommandPipe.follows_step (follows : pipe.Follows transport)
    (stepped : transport.step label = some next) :
    (pipe.note transport label next).Follows next := by
  cases label with
  | call i => exact follows.call stepped
  | reader =>
      rcases Transport.stepReader_keeps stepped with ⟨sameWriter, _, sameQueue⟩
      refine ⟨follows.inBounds, ?_, ?_, ?_⟩
      · rw [sameWriter, sameQueue]
        exact follows.waiting
      · rw [sameWriter, sameQueue]
        exact follows.writing
      · rw [sameWriter, sameQueue]
        exact follows.ended
  | receive chunk =>
      obtain ⟨_, rfl⟩ := Transport.step_cases stepped
      rcases transport.receive_eq chunk with ⟨_, _, _, received⟩
      rw [received]
      exact ⟨follows.inBounds, follows.waiting, follows.writing, follows.ended⟩
  | start | cancel | endOfInput =>
      obtain ⟨_, rfl⟩ := Transport.step_cases stepped
      exact ⟨follows.inBounds, follows.waiting, follows.writing, follows.ended⟩
  | timeout =>
      obtain ⟨_, _, rfl⟩ := Transport.step_cases stepped
      exact ⟨follows.inBounds, follows.waiting, follows.writing, follows.ended⟩
  | writerTake =>
      obtain ⟨bytes, queue, phase, queued, rfl⟩ := Transport.step_cases stepped
      have before := follows.waiting phase
      refine ⟨?_, ?_, ?_, ?_⟩
      · have lengths := congrArg List.length before.2
        rw [queued, List.length_map, unwritten, List.length_drop, List.length_cons] at lengths
        change pipe.taken + 1 ≤ pipe.sent.length
        omega
      · intro isWaiting
        cases isWaiting
      · intro own isWriting
        cases isWriting
        exact ⟨congrArg (· + 1) before.1, before.2.trans queued⟩
      · intro isEnded
        cases isEnded
  | writerFinish =>
      obtain ⟨bytes, phase, rfl⟩ := Transport.step_cases stepped
      have before := follows.writing bytes phase
      refine ⟨follows.inBounds, ?_, ?_, ?_⟩
      · intro _
        refine ⟨before.1, ?_⟩
        change (pipe.sent.drop (pipe.written + 1)).map SentLine.bytes = transport.queue
        rw [← List.drop_drop, List.map_drop]
        exact congrArg (List.drop 1) before.2
      · intro own isWriting
        cases isWriting
      · intro isEnded
        cases isEnded
  | writerFail =>
      obtain ⟨_, _, rfl⟩ := Transport.step_cases stepped
      refine ⟨follows.inBounds, ?_, ?_, ?_⟩
      · intro isWaiting
        cases isWaiting
      · intro own isWriting
        cases isWriting
      · intro _
        rfl

end Follows

/-- In every run, the unwritten lines are those in the channel and the one being
written. -/
theorem CommandPipe.follows_of_reachable {current : Remembering Transport CommandPipe}
    (reachable : Reachable (remember Transport.step note) ⟨.new, .empty⟩ current) :
    current.memory.Follows current.state := by
  apply reachable.invariant
  · exact follows_new
  · intro current next label follows _ stepped
    rcases remember_eq_some stepped with ⟨stepped, noted⟩
    rw [noted]
    exact follows_step follows stepped

end Framewalk
