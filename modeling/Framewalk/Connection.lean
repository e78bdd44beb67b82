import Framewalk.CommandEncoder
import Framewalk.ExecutionState
import Framewalk.Framer
import Framewalk.ObjectRegistries
import Framewalk.PendingCommands
import Framewalk.RecordParser

/-!
# The sans-IO connection

A connection reassembles lines, parses each one, classifies the record into an
event and routes its payload into the state registries.  Everything behind the
framer is kept in a session, so classification cannot touch the framer.
-/

namespace Framewalk

open LineSplitting ResultsView

/-- How a submitted command completed. -/
inductive CommandOutcome where
  | done (results : Results)
  | running
  | connected (results : Results)
  | error (msg : String) (code : Option String)
  | exit

structure StoppedEvent where
  reason : Option StoppedReason
  thread : Option ThreadId
  frame : Option StackFrame
  raw : Results

structure RunningEvent where
  thread : Option ThreadId

structure NotifyEvent where
  asyncClass : String
  results : Results

/-- A codec failure and the line that caused it. -/
structure ParseFailure where
  error : CodecError
  rawLine : List UInt8

inductive Event where
  | commandCompleted (handle : Token) (outcome : CommandOutcome)
  | stopped (event : StoppedEvent)
  | running (event : RunningEvent)
  | notify (event : NotifyEvent)
  | status (event : NotifyEvent)
  | console (text : String)
  | targetOutput (text : String)
  | log (text : String)
  | groupClosed
  | unknown (record : Record)
  | parseError (failure : ParseFailure)

/-- Bytes for GDB and how many of them the transport has taken. -/
structure OutboundBuffer where
  bytes : List UInt8
  consumed : Nat
  inBounds : consumed ≤ bytes.length

inductive ProtocolError where
  | invalidCommand (reason : String)
  | bufferOverflow
  | invariantViolation (reason : String)
  deriving DecidableEq

namespace OutboundBuffer

def empty : OutboundBuffer :=
  ⟨[], 0, Nat.zero_le _⟩

def append (buffer : OutboundBuffer) (bytes : List UInt8) : OutboundBuffer :=
  ⟨buffer.bytes ++ bytes, buffer.consumed, by
    have := buffer.inBounds
    rw [List.length_append]
    omega⟩

def available (buffer : OutboundBuffer) : List UInt8 :=
  buffer.bytes.drop buffer.consumed

def length (buffer : OutboundBuffer) : Nat :=
  buffer.bytes.length - buffer.consumed

/-- Advance the cursor; the sum is a machine addition. -/
def consume (buffer : OutboundBuffer) (n : Nat) : Except ProtocolError OutboundBuffer :=
  if fits : (buffer.consumed + n) % 2 ^ 64 ≤ buffer.bytes.length then
    if (buffer.consumed + n) % 2 ^ 64 ≠ 0 ∧
        (buffer.consumed + n) % 2 ^ 64 ≥ buffer.bytes.length / 2 then
      .ok ⟨buffer.bytes.drop ((buffer.consumed + n) % 2 ^ 64), 0, Nat.zero_le _⟩
    else .ok ⟨buffer.bytes, (buffer.consumed + n) % 2 ^ 64, fits⟩
  else .error (.invariantViolation "consume_outbound: n exceeds available outbound bytes")

end OutboundBuffer

inductive MiVersion where
  | unknown
  | mi2
  | mi3
  deriving DecidableEq

structure Session where
  outbound : OutboundBuffer
  tokens : TokenAllocator
  pending : PendingCommands
  events : List Event
  target : TargetState
  threads : ThreadRegistry
  frames : FrameRegistry
  breakpoints : BreakpointRegistry
  varobjs : VarObjRegistry
  features : FeatureSet
  miVersion : MiVersion

namespace Session

def withVersionHint (miVersion : MiVersion) : Session where
  outbound := .empty
  tokens := .new
  pending := .empty
  events := []
  target := .unknown
  threads := .empty
  frames := .empty
  breakpoints := .empty
  varobjs := .empty
  features := .empty
  miVersion := miVersion

def pushEvent (session : Session) (event : Event) : Session :=
  { session with events := session.events ++ [event] }

/-- Dispatch a successful payload on the operation that produced it. -/
def routeDone (session : Session) (info : PendingInfo) (results : Results) : Session :=
  match info.operation with
  | .breakInsert | .breakInfo =>
      match getTuple results "bkpt" with
      | some tuple => { session with breakpoints := session.breakpoints.upsertFromBkptTuple tuple }
      | none => session
  | .varCreate expression =>
      { session with varobjs := session.varobjs.onVarCreate results expression }
  | .varUpdate => { session with varobjs := session.varobjs.onVarUpdate results }
  | .varDelete name => { session with varobjs := session.varobjs.onVarDelete name }
  | .listFeatures => { session with features := session.features.onListFeatures results }
  | .listTargetFeatures =>
      { session with features := session.features.onListTargetFeatures results }
  | .targetSelect | .execRun =>
      { session with features := session.features.invalidateTargetFeatures }
  | .other | .raw => session

/-- The registry updates of a result record, given what its token stood for. -/
def routeResult (session : Session) (pendingInfo : Option PendingInfo) (record : ResultRecord) :
    Session :=
  match record.resultClass, pendingInfo with
  | .done, some info | .connected, some info => session.routeDone info record.results
  | .error, some info =>
      if info.isExecCommand then
        { session with target := .unknown, frames := session.frames.clear }
      else session
  | _, _ => session

end Session

def CommandOutcome.ofRecord (record : ResultRecord) : CommandOutcome :=
  match record.resultClass with
  | .done => .done record.results
  | .running => .running
  | .connected => .connected record.results
  | .error => .error ((getStr record.results "msg").getD "") (getStr record.results "code")
  | .exit => .exit

namespace Session

def classifyResult (session : Session) (record : ResultRecord) : Session :=
  match record.token with
  | none => session.pushEvent (.unknown (.result record))
  | some token =>
      let (pendingInfo, pending) := session.pending.remove token
      let session := { session with pending }.routeResult pendingInfo record
      session.pushEvent (.commandCompleted token (.ofRecord record))

/-- The target state and frames after a stop for this reason. -/
def enterStopped (session : Session) (thread : Option ThreadId) (reason : Option StoppedReason) :
    Session :=
  match reason with
  | some .exitedNormally =>
      { session with target := .exited (some 0), frames := session.frames.clear }
  | some (.exited exitCode) =>
      { session with target := .exited exitCode, frames := session.frames.clear }
  | some (.exitedSignalled _) =>
      { session with target := .exited none, frames := session.frames.clear }
  | _ => { session with target := .stopped thread reason }

def classifyRunning (session : Session) (results : Results) : Session :=
  let thread := getStr results "thread-id"
  let frames :=
    match thread with
    | some thread =>
        if ThreadId.isAll thread then session.frames.clear else session.frames.invalidate thread
    | none => session.frames.clear
  let session := { session with
    target := .running thread
    threads := session.threads.onRunning thread
    frames }
  session.pushEvent (.running ⟨thread⟩)

def classifyStopped (session : Session) (results : Results) : Session :=
  let thread := getStr results "thread-id"
  let reason := StoppedReason.fromResults results
  let session := session.enterStopped thread reason
  let session := { session with
    threads := session.threads.onStopped thread
    frames :=
      match thread with
      | some thread => session.frames.onStoppedFrame thread results
      | none => session.frames }
  session.pushEvent (.stopped ⟨reason, thread, extractFrame results, results⟩)

def classifyExec (session : Session) (record : AsyncRecord) : Session :=
  match record.asyncClass with
  | "running" => session.classifyRunning record.results
  | "stopped" => session.classifyStopped record.results
  | _ => session.pushEvent (.unknown (.exec record))

/-- Notifications reach their registry before the event is queued. -/
def classifyNotify (session : Session) (record : AsyncRecord) : Session :=
  let results := record.results
  let session :=
    match record.asyncClass with
    | "thread-created" => { session with threads := session.threads.onThreadCreated results }
    | "thread-exited" => { session with threads := session.threads.onThreadExited results }
    | "breakpoint-created" =>
        { session with breakpoints := session.breakpoints.onBreakpointCreated results }
    | "breakpoint-modified" =>
        { session with breakpoints := session.breakpoints.onBreakpointModified results }
    | "breakpoint-deleted" =>
        { session with breakpoints := session.breakpoints.onBreakpointDeleted results }
    | _ => session
  session.pushEvent (.notify ⟨record.asyncClass, results⟩)

def classifyStatus (session : Session) (record : AsyncRecord) : Session :=
  session.pushEvent (.status ⟨record.asyncClass, record.results⟩)

def classifyRecord (session : Session) : Record → Session
  | .result record => session.classifyResult record
  | .exec record => session.classifyExec record
  | .status record => session.classifyStatus record
  | .notify record => session.classifyNotify record
  | .console record => session.pushEvent (.console record.text)
  | .target record => session.pushEvent (.targetOutput record.text)
  | .log record => session.pushEvent (.log record.text)

end Session

/-- The two ways to submit a command. -/
inductive SubmitRequest where
  | structured (command : MiCommand)
  | raw (line : String)

/-- What the first phase of a receive leaves for the second. -/
inductive ParsedFrame where
  | record (record : Record)
  | error (failure : ParseFailure)
  | groupTerminator

def Frame.parse : Frame → ParsedFrame
  | .line rawLine =>
      match parseRecord rawLine with
      | .ok record => .record record
      | .error error => .error ⟨error, rawLine⟩
  | .groupTerminator => .groupTerminator

def Session.classifyFrame (session : Session) : ParsedFrame → Session
  | .record record => session.classifyRecord record
  | .error failure => session.pushEvent (.parseError failure)
  | .groupTerminator => session.pushEvent .groupClosed

/-- Between calls the framer holds no complete line. -/
structure Connection extends Session where
  framer : Framer
  drained : Ascii.newline ∉ framer.unread

namespace Connection

def withVersionHint (miVersion : MiVersion) : Connection :=
  ⟨.withVersionHint miVersion, .new, List.not_mem_nil⟩

def new : Connection :=
  withVersionHint .unknown

/-- Feed raw bytes: parse every complete line, then classify them in order. -/
def receiveBytes (connection : Connection) (bytes : List UInt8) : Connection :=
  let popped := (connection.framer.push bytes).popAll
  let parsed := popped.1.map Frame.parse
  ⟨parsed.foldl Session.classifyFrame connection.toSession, popped.2, by
    rw [Framer.popAll_unread]
    exact delimiter_not_mem_unfinishedLine _⟩

def pollEvent (connection : Connection) : Option Event × Connection :=
  (connection.events.head?, { connection with events := connection.events.tail })

/-- Poll until no event is queued. -/
def drainEvents (connection : Connection) : List Event × Connection :=
  (connection.events, { connection with events := [] })

/-- One round of the polling loop. -/
theorem drainEvents_eq (connection : Connection) :
    connection.drainEvents =
      match connection.pollEvent with
      | (some event, rest) => (event :: rest.drainEvents.1, rest.drainEvents.2)
      | (none, rest) => ([], rest) := by
  rcases connection with ⟨session, framer, drained⟩
  rcases session with ⟨outbound, tokens, pending, events, target, threads, frames, breakpoints,
    varobjs, features, miVersion⟩
  cases events <;> rfl

/-- Submit a structured command under a fresh token. -/
def submit (connection : Connection) (command : MiCommand) : Token × Connection :=
  let (token, tokens) := connection.tokens.allocate
  (token, { connection with
    tokens
    pending := connection.pending.insert token
      ⟨.fromName command.operation command.parameters, command.operation⟩
    outbound := connection.outbound.append (encodeCommand (some token) command) })

/-- Submit a raw line verbatim between a fresh token and a newline. -/
def submitRaw (connection : Connection) (rawLine : String) : Token × Connection :=
  let (token, tokens) := connection.tokens.allocate
  (token, { connection with
    tokens
    pending := connection.pending.insert token ⟨.raw, "_raw"⟩
    outbound := connection.outbound.append
      (Utf8Text.asBytes (toString token.toNat) ++ Utf8Text.asBytes rawLine ++ [Ascii.newline]) })

def consumeOutbound (connection : Connection) (n : Nat) : Except ProtocolError Connection :=
  match connection.outbound.consume n with
  | .ok outbound => .ok { connection with outbound }
  | .error error => .error error

def pendingBytes (connection : Connection) : Nat :=
  connection.framer.pendingBytes

end Connection

end Framewalk
