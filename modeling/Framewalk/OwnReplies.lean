import Framewalk.ProgramAnswers
import Framewalk.ServerRuns

/-!
# Replies from own answers

The dialogue of a handler is what it asked of the transport and what it was
answered, in order.  Each reply is related to its dialogue by cases; in a run of
the server the dialogues are those that GDB's results have brought about, each
result answering the line of its own command.
-/

namespace Framewalk

open SharedPrograms TransitionSystem Transport
open RawGuard (RawMiRejection validateRawMiCommand)
open SubmitRequest (structured raw)

abbrev Dialogue :=
  List (Call × CallResult)

/-- These commands were submitted one after the other, and each of them succeeded. -/
structure Dialogue.Acknowledges (dialogue : Dialogue) (commands : List String) : Prop where
  calls : dialogue.map Prod.fst = commands.map (.submit <| .raw ·)
  succeeds : ∀ answer ∈ dialogue, ∃ outcome, answer.2 = .outcome outcome ∧ outcome.isSuccess = true

/-- The raw command of a tool. -/
def ToolCall.line? : ToolCall → Option String
  | .interrupt | .interruptTarget => some "-exec-interrupt --all"
  | .miRawCommand command => some command
  | _ => none

namespace SchemePrimitive

end SchemePrimitive

namespace Handlers

variable {config : Config} {formatters : Formatters} {dialogue : Dialogue}

theorem submitResult_eq_ok {reply : CallResult} {outcome : CommandOutcome}
    (isOk : submitResult reply = .ok outcome) : reply = .outcome outcome := by
  cases reply <;> cases isOk
  rfl

@[simp]
theorem returns_orRaise_iff {α : Type} {first : Handler (Except String α)}
    {next : α → Handler Response} {post : Dialogue → Response → Prop} :
    (orRaise first next).Returns post dialogue ↔
      first.Returns (fun dialogue result =>
        match result with
        | .ok value => (next value).Returns post dialogue
        | .error message => post dialogue (.raised message)) dialogue := by
  rw [orRaise, Program.returns_do_iff]
  apply iff_of_eq
  congr
  funext dialogue result
  cases result <;> rfl

section Primitives

variable {deadline : EvalDeadline} {primitive : SchemePrimitive}

end Primitives

/-- Every command is acknowledged, or the last one is not, or one comes too late. -/
def Bootstraps (commands : List String) (before dialogue : Dialogue) :
    Except TransportError Unit → Prop
  | .ok () => ∃ answers : Dialogue, dialogue = before ++ answers ∧ answers.Acknowledges commands
  | .error err =>
      (∃ earlier request reply, dialogue = earlier ++ [(.submit request, reply)] ∧
        ∀ outcome, reply = .outcome outcome → outcome.isSuccess = false) ∨
      ∃ (answers : Dialogue) (done : List String) (command : String) (rest : List String),
        dialogue = before ++ answers ∧ answers.Acknowledges done ∧
          commands = done ++ command :: rest ∧ err = bootstrapTimedOut command

theorem acknowledges_cons {command : String} {commands : List String} {answers : Dialogue}
    {outcome : CommandOutcome} (succeeds : outcome.isSuccess = true)
    (acknowledges : answers.Acknowledges commands) :
    Dialogue.Acknowledges ((.submit (raw command), .outcome outcome) :: answers)
      (command :: commands) where
  calls := by simp [acknowledges.calls]
  succeeds := List.forall_mem_cons.mpr ⟨⟨outcome, rfl, succeeds⟩, acknowledges.succeeds⟩

theorem Bootstraps.cons {command : String} {commands : List String} {before dialogue : Dialogue}
    {outcome : CommandOutcome} {result : Except TransportError Unit}
    (succeeds : outcome.isSuccess = true)
    (bootstraps : Bootstraps commands (before ++ [(.submit (raw command), .outcome outcome)])
      dialogue result) :
    Bootstraps (command :: commands) before dialogue result := by
  cases result with
  | ok =>
      obtain ⟨answers, rfl, acknowledges⟩ := bootstraps
      exact ⟨_, List.append_assoc _ _ _, acknowledges_cons succeeds acknowledges⟩
  | error =>
      refine bootstraps.imp_right ?_
      rintro ⟨answers, done, late, rest, rfl, acknowledges, rfl, rfl⟩
      exact ⟨_, command :: done, late, rest, List.append_assoc _ _ _,
        acknowledges_cons succeeds acknowledges, rfl, rfl⟩

end Handlers

section Runs

variable {config : Config} {formatters : Formatters} {current : ServerRun}

end Runs

end Framewalk
