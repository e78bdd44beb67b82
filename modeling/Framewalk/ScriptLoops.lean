import Framewalk.JournaledRuns
import Framewalk.OwnReplies
import Framewalk.PreludeCommands
import Framewalk.ProgramSightings

/-!
# Loops of the prelude

`step-n` and `next-n` submit a command and wait for a stop, round after round.  Each
wait starts from a cursor that was read after the stop of the round before, so the
stops that a loop collects are different ones, in the order of the journal, whatever
else runs in between.
-/

namespace Framewalk

open SharedPrograms TransitionSystem Transport
open SubmitRequest (raw)

/-- A script goes on with the value of a reply, unless it raises. -/
def Response.value? : Response → Except String Response
  | .raised message => .error message
  | response => .ok response

namespace Handlers

section Scripts

variable (config : Config) (deadline : EvalDeadline)

/-- The accumulator holds the latest value first; so many rounds are left, each with
the default time-out. -/
def collectStops (trigger : FixedTrigger) :
    Nat → List Response → Handler (Except String (List Response))
  | 0, results => return .ok results.reverse
  | left + 1, results => do
      match (← scheme config deadline (.triggerAndWait trigger .default)).value? with
      | .ok value => collectStops trigger left (value :: results)
      | .error message => return .error message

-- The source counts up from zero to `n`.
def stepN (n : Int) : Handler (Except String (List Response)) :=
  collectStops config deadline .step n.toNat []

def nextN (n : Int) : Handler (Except String (List Response)) :=
  collectStops config deadline .next n.toNat []

/-- A temporary breakpoint, and then one run up to a stop. -/
def runTo (location : String) : Handler (Except String (List Response)) := do
  match (← scheme config deadline (.mi (Prelude.setTempBreakpoint location))).value? with
  | .error message => return .error message
  | .ok _ => collectStops config deadline .run 1 []

end Scripts

end Handlers

/-- A script is one thread with all its rounds, which share the deadline of its
evaluation; any other job runs beside it. -/
inductive ScriptJob where
  | plain (job : Job)
  | stepN (deadline : EvalDeadline) (n : Int)
  | nextN (deadline : EvalDeadline) (n : Int)
  | runTo (deadline : EvalDeadline) (location : String)

section Server

variable (config : Config) (formatters : Formatters)

def ScriptJob.code : ScriptJob → Handler (Except String (List Response))
  | .plain job => do return (← Handlers.code config formatters job).value?.map ([·])
  | .stepN deadline n => Handlers.stepN config deadline n
  | .nextN deadline n => Handlers.nextN config deadline n
  | .runTo deadline location => Handlers.runTo config deadline location

end Server

/-- The stop has been numbered below the cursor, or the numbers are used up, and it is
above the cursor that it was asked for. -/
def Call.Promises (call : Call) (reply : CallResult) (transport : Transport) : Prop :=
  ∀ entry origin, reply = .stop entry origin →
    (entry.seq ≤ transport.journal.cursor ∨ transport.journal.cursor + 1 = maxEventSeq) ∧
      entry.seq ≤ maxEventSeq ∧ ∀ after, call = .nextStopAfter after → after < entry.seq

/-- A wait keeps the cursor that it was asked for, until it is done. -/
structure Call.Fits (call : Call) (transport : Transport) (i : CallId) : Prop where
  promises : ∀ entry origin, transport.calls i = .done (.stop entry origin) →
    call.Promises (.stop entry origin) transport
  waits : ∀ after, call = .nextStopAfter after →
    (∃ result, transport.calls i = .done result) ∨
      ∃ waiter, (transport.calls i).waiter? = some waiter ∧ waiter.cursor = after

theorem EventJournal.seq_le_cursor {recordings : List Recording} {capacity : Nat}
    {entry : SequencedEvent} (member : entry ∈ numbered recordings) :
    (entry.seq ≤ (ofRecordings capacity recordings).cursor ∨
      (ofRecordings capacity recordings).cursor + 1 = maxEventSeq) ∧
        entry.seq ≤ maxEventSeq := by
  obtain ⟨index, inBounds, rfl⟩ := List.mem_mapIdx.mp member
  have positive : 1 ≤ maxEventSeq := by decide
  rw [cursor_ofRecordings]
  simp only [seqAt]
  omega

theorem stop_le_cursor {transport : Transport} (reachable : Reachable step new transport)
    {stop : StopEntry}
    (shown : transport.journal.Retains stop ∨ transport.journal.latestStopped = some stop) :
    (stop.seq ≤ transport.journal.cursor ∨ transport.journal.cursor + 1 = maxEventSeq) ∧
      stop.seq ≤ maxEventSeq := by
  rw [(isJournaled_of_reachable reachable).journal] at shown ⊢
  obtain ⟨entry, member, isStop⟩ : ∃ entry ∈ numbered transport.recordings,
      entry.stop? = some stop := by
    rcases shown with ⟨entry, member, isStop⟩ | isLatest
    · rw [EventJournal.entries_ofRecordings] at member
      exact ⟨entry, List.mem_of_mem_drop member, isStop⟩
    · rw [EventJournal.latestStopped_ofRecordings] at isLatest
      exact List.mem_filterMap.mp (List.mem_of_getLast? isLatest)
  rw [(SequencedEvent.stop?_eq_some isStop).2.1]
  exact EventJournal.seq_le_cursor member

theorem Call.Promises.evolves {call : Call} {reply : CallResult} {transport next : Transport}
    (promises : call.Promises reply transport) (evolves : transport.Evolves next) :
    call.Promises reply next := by
  intro entry origin isStop
  obtain ⟨below, inRange, above⟩ := promises entry origin isStop
  refine ⟨?_, inRange, above⟩
  have grows := evolves.nextSeq
  have positive := transport.journal.positive
  have bound := next.journal.inRange
  simp only [EventJournal.cursor] at below ⊢
  omega

theorem Call.Fits.taken {call : Call} {transport next : Transport} {i : CallId} {label : Label}
    (reachable : Reachable step new transport) (evolves : transport.Evolves next)
    (fits : call.Fits transport i)
    (takes : CallStep transport i label (transport.calls i) (next.calls i)) :
    call.Fits next i := by
  have waits := fits.waits
  constructor
  · intro entry origin returned
    apply Call.Promises.evolves _ evolves
    rintro _ _ ⟨⟩
    rcases takes.stop returned with ⟨_, ⟨seen, journaled, own, isLatest, _⟩ |
      ⟨waiter, looksUp, _, found⟩⟩
    · obtain ⟨below, inRange⟩ := stop_le_cursor reachable (.inr isLatest)
      refine ⟨below, inRange, ?_⟩
      intro after isWait
      rcases waits after isWait with ⟨result, isDone⟩ | ⟨waiter, waited, _⟩
      · rw [own] at isDone
        cases isDone
      · rw [own] at waited
        cases waited
    · obtain ⟨retained, above, _⟩ := EventJournal.findStopAfter_eq_some found
      obtain ⟨below, inRange⟩ := stop_le_cursor reachable (.inl retained)
      refine ⟨below, inRange, ?_⟩
      intro after isWait
      rcases waits after isWait with ⟨result, isDone⟩ | ⟨own, waited, isCursor⟩
      · rw [isDone] at looksUp
        cases looksUp
      · rw [waiter?_of_lookup? looksUp] at waited
        cases waited
        exact isCursor ▸ above
  · intro after isWait
    have before := waits after isWait
    generalize transport.calls i = state at takes before
    generalize next.calls i = later at takes
    rcases before with ⟨result, rfl⟩ | ⟨waiter, waited, isCursor⟩
    · cases takes with
      | finish => exact .inl ⟨_, rfl⟩
    · cases takes with
      | find | findAgain | finish => exact .inl ⟨_, rfl⟩
      | findNone | testWait | create | findNoneAgain | park | resume =>
          exact .inr ⟨waiter, waited, isCursor⟩
      | _ => cases waited

theorem Call.Fits.step {call : Call} {transport next : Transport} {i : CallId} {label : Label}
    (reachable : Reachable Transport.step new transport)
    (stepped : transport.step label = some next) (fits : call.Fits transport i) :
    call.Fits next i := by
  have transition := transition_of_step stepped
  have evolves := transition.evolves
  rcases transition.calls i with stays | notified | takes
  · constructor
    · intro entry origin returned
      exact (fits.promises entry origin (stays ▸ returned)).evolves evolves
    · exact stays ▸ fits.waits
  · constructor
    · intro entry origin returned
      exact (fits.promises entry origin (eq_of_wake (notified ▸ returned) rfl)).evolves evolves
    · intro after isWait
      rw [notified, waiter?_wake]
      refine (fits.waits after isWait).imp_left ?_
      rintro ⟨result, isDone⟩
      exact ⟨result, by rw [isDone]; rfl⟩
  · exact fits.taken reachable evolves takes

/-- The numbers of the stops among the values of a script. -/
def stopNumbers (values : List Response) : List Nat :=
  values.filterMap fun value =>
    match value with
    | .stopped entry => some entry.seq
    | _ => none

theorem stopNumbers_append (values more : List Response) :
    stopNumbers (values ++ more) = stopNumbers values ++ stopNumbers more :=
  List.filterMap_append

/-- Each round submits the line.  If the target runs then, the round waits for a stop
above a cursor that no earlier stop is above; otherwise its value is the answer. -/
inductive Rounds (line : String) (start : Dialogue) : Dialogue → List Response → Prop
  | nil : Rounds line start start []
  | stopped {dialogue : Dialogue} {values : List Response} {after : Nat} {entry : StopEntry}
      {origin : StopOrigin} : Rounds line start dialogue values →
      (∀ number ∈ stopNumbers values, number ≤ after ∨ after + 1 = maxEventSeq) →
      after < entry.seq → entry.seq ≤ maxEventSeq →
      Rounds line start
        (dialogue ++ [(.submit (raw line), .outcome .running),
          (.nextStopAfter after, .stop entry origin)])
        (values ++ [.stopped entry])
  | answered {dialogue : Dialogue} {values : List Response} {outcome : CommandOutcome} :
      Rounds line start dialogue values → outcome ≠ .running →
      Rounds line start (dialogue ++ [(.submit (raw line), .outcome outcome)])
        (values ++ [.outcome outcome])

/-- What the calls of a round that raised an error have been answered, before which it
may have been out of time: nothing, its line, or its line and its wait. -/
inductive Interrupted (line : String) : Dialogue → Prop
  | unanswered : Interrupted line []
  | answered {reply : CallResult} : Interrupted line [(.submit (raw line), reply)]
  | waited {after : Nat} {reply : CallResult} : (∀ entry origin, reply ≠ .stop entry origin) →
      Interrupted line [(.submit (raw line), .outcome .running), (.nextStopAfter after, reply)]

/-- Some of the rounds are done, and the next one has raised an error. -/
def RaisesInRound (line : String) (start : Dialogue) (count : Nat) (dialogue : Dialogue) : Prop :=
  ∃ done values last, dialogue = done ++ last ∧ Rounds line start done values ∧
    values.length < count ∧ Interrupted line last

/-- A loop that returns has done all its rounds, and its stops come in the order of
their numbers, each once, up to the largest number. -/
def Collects (line : String) (start : Dialogue) (count : Nat) (dialogue : Dialogue) :
    Except String (List Response) → Prop
  | .ok values =>
      Rounds line start dialogue values ∧ values.length = count ∧
        (stopNumbers values).Pairwise fun first second => first < second ∨ second = maxEventSeq
  | .error _ => RaisesInRound line start count dialogue

/-- The breakpoint has been accepted and the target run once; or the script has raised
an error at the breakpoint already. -/
def RunsTo (location : String) (dialogue : Dialogue) (result : Except String (List Response)) :
    Prop :=
  (∃ outcome : CommandOutcome, (∀ message, Handlers.outcomeResponse outcome ≠ .raised message) ∧
    Collects "-exec-run" [(.submit (raw (Prelude.setTempBreakpoint location)), .outcome outcome)] 1
      dialogue result) ∨
    (∃ message, result = .error message) ∧
      (dialogue = [] ∨ ∃ reply, dialogue =
        [(.submit (raw (Prelude.setTempBreakpoint location)), reply)])

/-- What each script makes of its own dialogue. -/
def ScriptJob.Concludes : ScriptJob → Dialogue → Except String (List Response) → Prop
  | .plain _, _, _ => True
  | .stepN _ n, dialogue, result => Collects "-exec-step" [] n.toNat dialogue result
  | .nextN _ n, dialogue, result => Collects "-exec-next" [] n.toNat dialogue result
  | .runTo _ location, dialogue, result => RunsTo location dialogue result

namespace Rounds

variable {line : String} {start dialogue : Dialogue} {values : List Response}

theorem pairwise (rounds : Rounds line start dialogue values) :
    (stopNumbers values).Pairwise fun first second => first < second ∨ second = maxEventSeq := by
  induction rounds with
  | nil => exact .nil
  | @stopped dialogue values after entry origin _ below above inRange ih =>
      rw [stopNumbers_append, List.pairwise_append]
      refine ⟨ih, List.pairwise_singleton _ _, ?_⟩
      intro first isFirst second isSecond
      have isStop : second = entry.seq := List.mem_singleton.mp isSecond
      have := below first isFirst
      omega
  | answered _ _ ih =>
      rw [stopNumbers_append]
      exact (List.append_nil _).symm ▸ ih

end Rounds

namespace Handlers

variable {config : Config} {deadline : EvalDeadline} {start dialogue : Dialogue}
  {values : List Response}

end Handlers

/-- The scripts and the other jobs, beside the answers that each has got. -/
abbrev ScriptRun :=
  Remembering (HostState Transport Call CallResult (Option String) ScriptJob
    (Except String (List Response))) (HostLog Call CallResult ScriptJob Unit)

section Runs

variable {config : Config} {formatters : Formatters}

def ScriptRun.start : ScriptRun :=
  ⟨.start .new none, [], [], ()⟩

end Runs

end Framewalk
