import Framewalk.Connection
import Framewalk.EventJournal
import Framewalk.TransitionSystem
import Mathlib.Logic.Function.Basic

/-!
# The transport: one reader, one writer, any number of callers

Every lock acquisition, atomic access, channel operation and wake-up of the
transport is one step.  The calls in progress are told apart by number, and each
carries the place in its function where it stands.

Beside what the program stores, the state remembers its past: every event that
reached the connection, how many of them the reader has recorded, and every
journal entry ever made.  Calls remember what they saw at their own earlier
steps.  No step depends on this memory.
-/

namespace Framewalk

abbrev CallId := Nat

/-- An I/O error is given by its text. -/
inductive TransportError where
  | spawn (error : String)
  | pipeMissing (pipe : String)
  | io (error : String)
  | protocol (error : ProtocolError)
  | exited
  | bootstrap (command message : String)
  | bufferOverflow (pendingBytes limit : Nat)
  deriving DecidableEq

/-- Why a call waits for a stop, and what it knew when it began. -/
inductive WaitOrigin where
  /-- A plain wait. -/
  | direct
  /-- The target was tested after this many journal entries. -/
  | afterTest (journaled : Nat)
  /-- The command under this token was reported running by the wire event with
  this index, after this many journal entries. -/
  | afterCommand (token : Token) (running journaled : Nat)
  deriving DecidableEq

/-- Where a returned stop was read: as the latest one, on a snapshot taken when
this much of the wire had been received, or in a search of the journal. -/
inductive StopOrigin where
  | snapshot (seen : Nat)
  | search (origin : WaitOrigin)
  deriving DecidableEq

/-- A wait for the first stop above a cursor. -/
structure Waiter where
  cursor : Nat
  origin : WaitOrigin
  deriving DecidableEq

inductive CallResult where
  | outcome (outcome : CommandOutcome)
  | stop (entry : StopEntry) (origin : StopOrigin)
  | timedOut
  | failed (error : TransportError)
  | logged (seq : Nat)
  | cancelled

/-- What a caller can ask of the transport; the last but one is the trigger and
wait helper of the Scheme layer. -/
inductive Call where
  | submit (request : SubmitRequest)
  | nextStopAfter (after : Nat)
  | currentOrNextStop
  | submitAndAwaitStop (raw : String)
  | recordSyntheticLog (text : String)

/-- Where a call stands.  A submit that will await a stop carries the cursor it
read first; a wait past the creation of its notification carries whether it has
been notified. -/
inductive CallState where
  | idle
  | submitting (request : SubmitRequest) (after : Option Nat)
  | tested (request : SubmitRequest) (after : Option Nat)
  | allocated (token : Token) (bytes : List UInt8) (after : Option Nat)
  | registered (token : Token) (bytes : List UInt8) (after : Option Nat)
  | rollingBack (token : Token)
  | awaiting (token : Token) (after : Option Nat)
  | triggering (raw : String)
  | snapshotting
  | readingLatest (seen journaled : Nat)
  | readingCursor (journaled : Nat)
  | lookingUp (waiter : Waiter)
  | testingAlive (waiter : Waiter)
  | creating (waiter : Waiter)
  | lookingUpAgain (waiter : Waiter) (woken : Bool)
  | testingAliveAgain (waiter : Waiter) (woken : Bool)
  | parked (waiter : Waiter) (woken : Bool)
  | logging (text : String)
  | logged (seq : Nat)
  | done (result : CallResult)

def Call.entry : Call → CallState
  | .submit request => .submitting request none
  | .nextStopAfter after => .lookingUp ⟨after, .direct⟩
  | .currentOrNextStop => .snapshotting
  | .submitAndAwaitStop raw => .triggering raw
  | .recordSyntheticLog text => .logging text

/-- What sits in the channel of a submit once the reader has fired it. -/
structure Reply where
  handle : Token
  outcome : CommandOutcome
  running : Nat
  journaled : Nat

namespace CallState

/-- A notification reaches every one that has been created. -/
def wake : CallState → CallState
  | .lookingUpAgain waiter _ => .lookingUpAgain waiter true
  | .testingAliveAgain waiter _ => .testingAliveAgain waiter true
  | .parked waiter _ => .parked waiter true
  | state => state

/-- The wait that a call is in. -/
def waiter? : CallState → Option Waiter
  | .lookingUp waiter | .testingAlive waiter | .creating waiter | .lookingUpAgain waiter _
  | .testingAliveAgain waiter _ | .parked waiter _ => some waiter
  | _ => none

/-- The wait of a call whose next step searches the journal. -/
def lookup? : CallState → Option Waiter
  | .lookingUp waiter | .lookingUpAgain waiter _ => some waiter
  | _ => none

/-- A call can be dropped where it awaits something. -/
def isSuspended : CallState → Bool
  | .registered _ _ _ | .awaiting _ _ | .parked _ _ => true
  | _ => false

end CallState

/-- A running command of a trigger and wait goes on to look for its stop; any
other outcome is returned. -/
def Reply.resume (reply : Reply) (token : Token) (after : Option Nat) : CallState :=
  match after, reply.outcome with
  | some cursor, .running =>
      .lookingUp ⟨cursor, .afterCommand token reply.running reply.journaled⟩
  | _, outcome => .done (.outcome outcome)

/-- Where the reader stands; a notification and an exit are two steps each. -/
inductive ReaderPhase where
  | reading
  | dispatching (events : List Event)
  | firing (receiver : CallId) (handle : Token) (outcome : CommandOutcome) (rest : List Event)
  | journaling (event : Event) (rest : List Event)
  | notifying (rest : List Event)
  | exiting
  | exitStored
  | exitNotified
  | exited

inductive WriterPhase where
  | waiting
  | writing (bytes : List UInt8)
  | ended

structure Transport where
  connection : Connection
  pending : Std.ExtTreeMap Token CallId
  journal : EventJournal
  readerAlive : Bool
  reader : ReaderPhase
  queue : List (List UInt8)
  writer : WriterPhase
  replies : CallId → Option Reply
  calls : CallId → CallState
  wire : List Event
  recorded : Nat
  history : List SequencedEvent

def writeChannelCapacity : Nat := 64

def stdoutReadBufSize : Nat := 8 * 1024

def maxPendingBytes : Nat := 16 * 1024 * 1024

namespace Transport

def new : Transport where
  connection := .new
  pending := ∅
  journal := .new
  readerAlive := true
  reader := .reading
  queue := []
  writer := .waiting
  replies _ := none
  calls _ := .idle
  wire := []
  recorded := 0
  history := []

def setCall (transport : Transport) (i : CallId) (state : CallState) : Transport :=
  { transport with calls := Function.update transport.calls i state }

def recordEvent (transport : Transport) (event : Event) (source : EventSource) : Transport :=
  { transport with
    journal := transport.journal.push event source eventJournalCapacity
    history := transport.history ++ [transport.journal.nextEntry event source] }

def notifyWaiters (transport : Transport) : Transport :=
  { transport with calls := fun i => (transport.calls i).wake }

def submitRequest (connection : Connection) : SubmitRequest → Token × Connection
  | .structured command => connection.submit command
  | .raw line => connection.submitRaw line

/-- Take every outbound byte. -/
def drainOutbound (connection : Connection) : Except ProtocolError (List UInt8 × Connection) :=
  match connection.consumeOutbound connection.outbound.length with
  | .ok drained => .ok (connection.outbound.available, drained)
  | .error error => .error error

/-- Allocate, encode and drain under the connection lock. -/
def allocate (transport : Transport) (i : CallId) (request : SubmitRequest)
    (after : Option Nat) : Transport :=
  let (token, submitted) := submitRequest transport.connection request
  match drainOutbound submitted with
  | .ok (bytes, drained) =>
      { transport with connection := drained }.setCall i (.allocated token bytes after)
  | .error error =>
      { transport with connection := submitted }.setCall i (.done (.failed (.protocol error)))

def registerPending (transport : Transport) (i : CallId) (token : Token) (bytes : List UInt8)
    (after : Option Nat) : Transport :=
  { transport with pending := transport.pending.insert token i }.setCall i
    (.registered token bytes after)

/-- A closed channel refuses the bytes; a full one makes the call wait. -/
def send (transport : Transport) (i : CallId) (token : Token) (bytes : List UInt8)
    (after : Option Nat) : Option Transport :=
  match transport.writer with
  | .ended => some (transport.setCall i (.rollingBack token))
  | _ =>
      if transport.queue.length < writeChannelCapacity then
        some ({ transport with queue := transport.queue ++ [bytes] }.setCall i
          (.awaiting token after))
      else none

def rollBack (transport : Transport) (i : CallId) (token : Token) : Transport :=
  { transport with pending := transport.pending.erase token }.setCall i (.done (.failed .exited))

/-- The sender of this call's reply still exists: it is in the pending map, or
the reader is about to fire it. -/
def holdsSender (transport : Transport) (i : CallId) (token : Token) : Bool :=
  transport.pending[token]? == some i ||
    match transport.reader with
    | .firing receiver _ _ _ => receiver == i
    | _ => false

/-- The steps that change nothing but where their own call stands. -/
def advance (transport : Transport) (i : CallId) : CallState → Option CallState
  | .submitting request after =>
      some (if transport.readerAlive then .tested request after else .done (.failed .exited))
  | .awaiting token after =>
      match transport.replies i with
      | some reply => some (reply.resume token after)
      | none =>
          if transport.holdsSender i token then none else some (.done (.failed .exited))
  | .triggering raw => some (.submitting (.raw raw) (some transport.journal.cursor))
  | .snapshotting =>
      some (if transport.connection.target.isStopped then
        .readingLatest transport.wire.length transport.history.length
      else .readingCursor transport.history.length)
  | .readingLatest seen journaled =>
      match transport.journal.latestStopped with
      | some stop => some (.done (.stop stop (.snapshot seen)))
      | none => some (.readingCursor journaled)
  | .readingCursor journaled =>
      some (.lookingUp ⟨transport.journal.cursor, .afterTest journaled⟩)
  | .lookingUp waiter =>
      match transport.journal.findStopAfter waiter.cursor with
      | some stop => some (.done (.stop stop (.search waiter.origin)))
      | none => some (.testingAlive waiter)
  | .testingAlive waiter =>
      some (if transport.readerAlive then .creating waiter else .done (.failed .exited))
  | .creating waiter => some (.lookingUpAgain waiter false)
  | .lookingUpAgain waiter woken =>
      match transport.journal.findStopAfter waiter.cursor with
      | some stop => some (.done (.stop stop (.search waiter.origin)))
      | none => some (.testingAliveAgain waiter woken)
  | .testingAliveAgain waiter woken =>
      some (if transport.readerAlive then .parked waiter woken else .done (.failed .exited))
  | .parked waiter woken => if woken then some (.lookingUp waiter) else none
  | _ => none

def stepCall (transport : Transport) (i : CallId) : Option Transport :=
  match transport.calls i with
  | .tested request after => some (transport.allocate i request after)
  | .allocated token bytes after => some (transport.registerPending i token bytes after)
  | .registered token bytes after => transport.send i token bytes after
  | .rollingBack token => some (transport.rollBack i token)
  | .logging text =>
      some ((transport.recordEvent (.log text) .synthetic).setCall i
        (.logged transport.journal.nextSeq))
  | .logged seq => some (transport.notifyWaiters.setCall i (.done (.logged seq)))
  | state => (transport.advance i state).map (transport.setCall i)

/-- Feed one chunk under the connection lock; a framer that holds too much ends
the reader with the events still queued. -/
def receive (transport : Transport) (chunk : List UInt8) : Transport :=
  let received := transport.connection.receiveBytes chunk
  let wire := transport.wire ++ received.events.drop transport.connection.events.length
  if received.pendingBytes > maxPendingBytes then
    { transport with connection := received, wire, reader := .exiting }
  else
    let (events, drained) := received.drainEvents
    { transport with connection := drained, wire, reader := .dispatching events }

/-- Take the next event; a completion takes its sender out of the pending map. -/
def dispatchEvent (transport : Transport) : List Event → Transport
  | [] => { transport with reader := .reading }
  | .commandCompleted handle outcome :: rest =>
      match transport.pending[handle]? with
      | some receiver =>
          { transport with
            pending := transport.pending.erase handle
            reader := .firing receiver handle outcome rest }
      | none => { transport with reader := .journaling (.commandCompleted handle outcome) rest }
  | event :: rest => { transport with reader := .journaling event rest }

def fire (transport : Transport) (receiver : CallId) (handle : Token) (outcome : CommandOutcome)
    (rest : List Event) : Transport :=
  { transport with
    replies := Function.update transport.replies receiver
      (some ⟨handle, outcome, transport.recorded, transport.history.length⟩)
    reader := .journaling (.commandCompleted handle outcome) rest }

def stepReader (transport : Transport) : Option Transport :=
  match transport.reader with
  | .reading => none
  | .dispatching events => some (transport.dispatchEvent events)
  | .firing receiver handle outcome rest => some (transport.fire receiver handle outcome rest)
  | .journaling event rest =>
      some { transport.recordEvent event (.wire transport.recorded) with
        recorded := transport.recorded + 1
        reader := .notifying rest }
  | .notifying rest => some { transport.notifyWaiters with reader := .dispatching rest }
  | .exiting => some { transport with readerAlive := false, reader := .exitStored }
  | .exitStored => some { transport.notifyWaiters with reader := .exitNotified }
  | .exitNotified => some { transport with pending := ∅, reader := .exited }
  | .exited => none

inductive Label where
  | start (i : CallId) (call : Call)
  | call (i : CallId)
  | cancel (i : CallId)
  | timeout (i : CallId)
  | receive (chunk : List UInt8)
  | endOfInput
  | reader
  | writerTake
  | writerFinish
  | writerFail

def step (transport : Transport) : Label → Option Transport
  | .start i call =>
      match transport.calls i with
      | .idle => some (transport.setCall i call.entry)
      | _ => none
  | .call i => transport.stepCall i
  | .cancel i =>
      if (transport.calls i).isSuspended then some (transport.setCall i (.done .cancelled))
      else none
  | .timeout i =>
      match transport.calls i with
      | .parked _ false => some (transport.setCall i (.done .timedOut))
      | _ => none
  | .receive chunk =>
      match transport.reader with
      | .reading =>
          if 0 < chunk.length ∧ chunk.length ≤ stdoutReadBufSize then
            some (transport.receive chunk)
          else none
      | _ => none
  | .endOfInput =>
      -- A read of no bytes and a failed read leave the loop the same way.
      match transport.reader with
      | .reading => some { transport with reader := .exiting }
      | _ => none
  | .reader => transport.stepReader
  | .writerTake =>
      match transport.writer, transport.queue with
      | .waiting, bytes :: queue => some { transport with writer := .writing bytes, queue }
      | _, _ => none
  | .writerFinish =>
      match transport.writer with
      | .writing _ => some { transport with writer := .waiting }
      | _ => none
  | .writerFail =>
      -- A failed write ends the writer, which closes the channel.
      match transport.writer with
      | .writing _ => some { transport with writer := .ended, queue := [] }
      | _ => none

end Transport

end Framewalk
