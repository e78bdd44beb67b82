import Framewalk.CommandPipe
import Framewalk.ReaderExit

/-!
# Failed writes

The writer ends at the first write that fails, and takes the queued lines with
it.  Only a send that finds the channel closed is rolled back: the calls whose
lines had been accepted are told nothing.
-/

namespace Framewalk

open TransitionSystem Transport

theorem Transport.writer_of_step {transport next : Transport} {label : Label}
    (stepped : transport.step label = some next) (ended : next.writer = .ended) :
    transport.writer = .ended ∨ label = .writerFail := by
  cases label with
  | call i => exact Or.inl ((stepCall_keeps stepped).1.symm.trans ended)
  | reader => exact Or.inl ((stepReader_keeps stepped).1.symm.trans ended)
  | start | cancel | endOfInput =>
      obtain ⟨_, rfl⟩ := step_cases stepped
      exact Or.inl ended
  | timeout =>
      obtain ⟨_, _, rfl⟩ := step_cases stepped
      exact Or.inl ended
  | receive chunk =>
      obtain ⟨_, rfl⟩ := step_cases stepped
      rcases transport.receive_eq chunk with ⟨_, _, _, received⟩
      rw [received] at ended
      exact Or.inl ended
  | writerTake =>
      obtain ⟨_, _, _, _, rfl⟩ := step_cases stepped
      cases ended
  | writerFinish =>
      obtain ⟨_, _, rfl⟩ := step_cases stepped
      cases ended
  | writerFail => exact Or.inr rfl

theorem CommandPipe.unwritten_note {pipe : CommandPipe} {transport next : Transport}
    {label : Label} (stepped : transport.step label = some next)
    (ended : transport.writer = .ended) :
    (pipe.note transport label next).unwritten = pipe.unwritten := by
  have sent : (pipe.note transport label next).sent = pipe.sent := by
    rcases pipe.sent_note transport next label with
      same | ⟨i, token, bytes, after, own, cursor, rfl, isRegistered, isAwaiting, _⟩
    · exact same
    · simp only [step, stepCall, isRegistered, send, ended] at stepped
      obtain rfl := Option.some.inj stepped
      rw [setCall_calls_self] at isAwaiting
      cases isAwaiting
  have written : (pipe.note transport label next).written = pipe.written := by
    rcases pipe.written_note transport next label with same | rfl
    · exact same
    · simp only [step, ended] at stepped
      cases stepped
  rw [unwritten, unwritten, sent, written]

/-- A call that sent this line awaits its reply with its sender in the pending
map. -/
def SentLine.IsParked (line : SentLine) (transport : Transport) : Prop :=
  (∃ after, transport.calls line.call = .awaiting line.token after) ∧
    transport.pending[line.token]? = some line.call

/-- A line whose call awaits its reply without a sender, and that nothing has
replied to or is about to, makes its call return an error at its next step. -/
def SentLine.FailsNext (line : SentLine) (transport : Transport) : Prop :=
  (∃ after, transport.calls line.call = .awaiting line.token after) →
    transport.replies line.call = none →
      (∀ token outcome rest, transport.reader ≠ .firing line.call token outcome rest) →
        transport.step (.call line.call) =
          some (transport.setCall line.call (.done (.failed .exited)))

/-- Once the writer has ended, no call whose line was not completely written is
parked: each of them is answered, or is told so at its next step. -/
def ReportsFailedWrites (current : Remembering Transport CommandPipe) : Prop :=
  current.state.writer = .ended → ∀ line ∈ current.memory.unwritten,
    ¬ line.IsParked current.state ∧ line.FailsNext current.state

/-- When a write fails, no call is parked whose line is being written or
queued. -/
def FailsWithoutParked (current : Remembering Transport CommandPipe) : Label → Prop
  | .writerFail => ∀ line ∈ current.memory.unwritten, ¬ line.IsParked current.state
  | _ => True

theorem SentLine.isParked_of_step {line : SentLine} {transport next : Transport} {label : Label}
    (stepped : transport.step label = some next) (ended : transport.writer = .ended)
    (parked : line.IsParked next) : line.IsParked transport := by
  have transition := transition_of_step stepped
  rcases parked with ⟨⟨after, isAwaiting⟩, holds⟩
  refine ⟨⟨after, ?_⟩, ?_⟩
  · rcases transition.calls line.call with stays | notified | takes
    · exact stays ▸ isAwaiting
    · exact eq_of_wake (notified.symm.trans isAwaiting) rfl
    · exact absurd ended (takes.send_of_awaiting isAwaiting).2.1
  · rcases transition.pending holds with before | ⟨bytes, cursor, _, isRegistered⟩
    · exact before
    · rw [isAwaiting] at isRegistered
      cases isRegistered

theorem SentLine.failsNext_of_not_isParked {line : SentLine} {transport : Transport}
    (notParked : ¬ line.IsParked transport) : line.FailsNext transport := by
  rintro ⟨after, isAwaiting⟩ noReply notFiring
  have notHeld : transport.pending[line.token]? ≠ some line.call := by
    intro held
    exact notParked ⟨⟨after, isAwaiting⟩, held⟩
  have noSender : transport.holdsSender line.call line.token = false := by
    rw [holdsSender, Bool.or_eq_false_iff]
    refine ⟨beq_eq_false_iff_ne.mpr notHeld, ?_⟩
    split
    · next receiver token outcome rest firing =>
        rw [beq_eq_false_iff_ne]
        rintro rfl
        exact notFiring token outcome rest firing
    · rfl
  simp [step, stepCall, isAwaiting, advance, noReply, noSender]

theorem noneParked_step {current next : Remembering Transport CommandPipe} {label : Label}
    (noneParked : current.state.writer = .ended →
      ∀ line ∈ current.memory.unwritten, ¬ line.IsParked current.state)
    (fails : FailsWithoutParked current label)
    (stepped : remember step CommandPipe.note current label = some next)
    (ended : next.state.writer = .ended) :
    ∀ line ∈ next.memory.unwritten, ¬ line.IsParked next.state := by
  rcases remember_eq_some stepped with ⟨stepped, noted⟩
  intro line member parked
  rw [noted] at member
  rcases writer_of_step stepped ended with wasEnded | rfl
  · rw [CommandPipe.unwritten_note stepped wasEnded] at member
    exact noneParked wasEnded line member (line.isParked_of_step stepped wasEnded parked)
  · rcases next with ⟨state, memory⟩
    obtain ⟨_, _, rfl⟩ := step_cases stepped
    exact fails line member parked

/-- Failed writes are reported throughout a run exactly when no write of the run
fails while a call is parked whose line is being written or queued. -/
theorem reportsFailedWrites_iff (labels : List Label) :
    Always (remember step CommandPipe.note) ⟨new, .empty⟩ ReportsFailedWrites labels ↔
      EachStep (remember step CommandPipe.note) ⟨new, .empty⟩ FailsWithoutParked labels := by
  apply always_iff_eachStep
  · intro current reaches ended line member
    have noneParked : current.state.writer = .ended →
        ∀ line ∈ current.memory.unwritten, ¬ line.IsParked current.state := by
      apply reaches.invariant
      · intro ended
        cases ended
      · intro current next label noneParked fails stepped
        exact noneParked_step noneParked fails stepped
    have notParked := noneParked ended line member
    exact ⟨notParked, line.failsNext_of_not_isParked notParked⟩
  · intro current next label _ stepped fails reports
    cases label with
    | writerFail =>
        apply fails
        intro line member parked
        rcases remember_eq_some stepped with ⟨stepped, noted⟩
        rcases next with ⟨state, memory⟩
        obtain rfl : memory = current.memory := noted
        obtain ⟨_, _, rfl⟩ := step_cases stepped
        exact (reports rfl line member).1 parked
    | _ => exact fails trivial

/-- One submit is parked, the writer takes its line, and the write fails while
the reader lives. -/
def failedWrite : List Label :=
  [.start 0 (.submit (.structured ⟨"gdb-version", [], []⟩)), .call 0, .call 0, .call 0, .call 0,
    .writerTake, .writerFail]

theorem failedWrite_leaves_parked :
    ∃ final, run (remember step CommandPipe.note) ⟨new, .empty⟩ failedWrite = some final ∧
      final.state.readerAlive = true ∧ ¬ ReportsFailedWrites final := by
  have ran : ∃ final bytes,
      run (remember step CommandPipe.note) ⟨new, .empty⟩ failedWrite = some final ∧
        final.state.readerAlive = true ∧ final.state.writer = .ended ∧
        final.memory.unwritten = [⟨0, 1, bytes⟩] ∧ final.state.calls 0 = .awaiting 1 none ∧
        final.state.pending[(1 : Token)]? = some 0 :=
    ⟨_, _, rfl, rfl, rfl, rfl, rfl, rfl⟩
  rcases ran with ⟨final, bytes, ran, alive, ended, unwritten, isAwaiting, held⟩
  refine ⟨final, ran, alive, ?_⟩
  intro reports
  have member : (⟨0, 1, bytes⟩ : SentLine) ∈ final.memory.unwritten := by
    rw [unwritten]
    exact List.mem_singleton_self _
  exact (reports ended _ member).1 ⟨⟨none, isAwaiting⟩, held⟩

end Framewalk
