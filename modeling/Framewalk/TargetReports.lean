import Framewalk.RawGuard
import Framewalk.ObservedEvents
import Framewalk.SnapshotFold

/-!
# Reports of the observed target state

A report is put together from four reads: the snapshot, the cursor, whether the
reader is alive, and the journal.
-/

namespace Framewalk

structure ObservedTargetState where
  state : String
  readerAlive : Bool
  cursor : Nat
  thread : Option String
  reason : Option String
  exitCode : Option Int32
  lastAsync : Option ObservedEvent

/-- What a client is shown of an asynchronous event. -/
def summarizeAsyncEvent (entry : SequencedEvent) : Option ObservedEvent :=
  match entry.event with
  | .running _ | .stopped _ | .notify _ | .status _ => entry.summary?
  | _ => none

/-- The report that the four reads make. -/
def observeTargetState (snapshot : StateSnapshot) (cursor : Nat) (readerAlive : Bool)
    (journal : EventJournal) : ObservedTargetState :=
  let lastAsync := ((journal.eventsAfter 0).filterMap summarizeAsyncEvent).getLast?
  match readerAlive, snapshot.target with
  | _, .exited exitCode => ⟨"exited", readerAlive, cursor, none, none, exitCode, lastAsync⟩
  | false, _ => ⟨"disconnected", false, cursor, none, none, none, lastAsync⟩
  | true, .running thread => ⟨"running", true, cursor, thread, none, none, lastAsync⟩
  | true, .stopped thread reason =>
      ⟨"stopped", true, cursor, thread, reason.map formatStoppedReason,
        stoppedReasonExitCode reason, lastAsync⟩
  | true, .unknown => ⟨"unknown", true, cursor, none, none, none, lastAsync⟩

def timeoutContextMessage (observed : ObservedTargetState) : String :=
  let asyncDesc (event : ObservedEvent) : String :=
    event.kind ++ "@" ++ toString event.seq ++
      (event.eventClass.map (" class=" ++ ·)).getD "" ++
      (event.reason.map (" reason=" ++ ·)).getD "" ++
      (event.thread.map (" thread=" ++ ·)).getD ""
  ", ".intercalate <|
    ["target_state=" ++ observed.state, "reader_alive=" ++ toString observed.readerAlive,
      "cursor=" ++ toString observed.cursor] ++
    observed.thread.toList.map ("thread=" ++ ·) ++
    observed.reason.toList.map ("reason=" ++ ·) ++
    observed.exitCode.toList.map (fun exitCode => "exit_code=" ++ toString exitCode.toInt) ++
    observed.lastAsync.toList.map ("last_async=" ++ asyncDesc ·)

/-- The first warnings that GDB logged above the cursor. -/
def collectRecentWarnings (journal : EventJournal) (afterSeq : Nat) : List String :=
  let warning? (entry : SequencedEvent) : Option String :=
    match entry.event with
    | .log text =>
        let trimmed := RawGuard.trim text.toList
        if "warning:".toList.isPrefixOf trimmed || "Warning:".toList.isPrefixOf trimmed then
          some (String.ofList trimmed)
        else none
    | _ => none
  ((journal.eventsAfter afterSeq).filterMap warning?).take 5

end Framewalk
