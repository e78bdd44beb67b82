import Framewalk.ResultsView
import Std.Data.ExtTreeMap

/-!
# Target, threads and frames

The state that execution records drive: what the target is doing, what is known
of each thread, and the innermost frame of each stopped thread.
-/

namespace Framewalk

open ResultsView

/-- A thread id; GDB uses `all` for an event that applies to every thread. -/
abbrev ThreadId := String

def ThreadId.isAll (thread : ThreadId) : Bool :=
  thread == "all"

/-- The parsed `reason` of a `*stopped` record. -/
inductive StoppedReason where
  | breakpointHit (bkptno : Option String)
  | watchpointTrigger
  | functionFinished
  | locationReached
  | endSteppingRange
  | exitedNormally
  | exited (exitCode : Option Int32)
  | exitedSignalled (signalName : Option String)
  | signalReceived (signalName : Option String)
  | fork
  | vfork
  | exec
  | syscallEntry (syscallName : Option String)
  | syscallReturn (syscallName : Option String)
  | other (name : String)
  deriving DecidableEq

def StoppedReason.fromResults (results : Results) : Option StoppedReason :=
  (getStr results "reason").map fun name =>
    match name with
    | "breakpoint-hit" => .breakpointHit (getStr results "bkptno")
    | "watchpoint-trigger" => .watchpointTrigger
    | "function-finished" => .functionFinished
    | "location-reached" => .locationReached
    | "end-stepping-range" => .endSteppingRange
    | "exited-normally" => .exitedNormally
    | "exited" => .exited (getI32 results "exit-code")
    | "exited-signalled" => .exitedSignalled (getStr results "signal-name")
    | "signal-received" => .signalReceived (getStr results "signal-name")
    | "fork" => .fork
    | "vfork" => .vfork
    | "exec" => .exec
    | "syscall-entry" => .syscallEntry (getStr results "syscall-name")
    | "syscall-return" => .syscallReturn (getStr results "syscall-name")
    | unlisted => .other unlisted

inductive TargetState where
  | unknown
  | running (thread : Option ThreadId)
  | stopped (thread : Option ThreadId) (reason : Option StoppedReason)
  | exited (exitCode : Option Int32)
  deriving DecidableEq

def TargetState.isStopped : TargetState → Bool
  | .stopped _ _ => true
  | _ => false

inductive ThreadState where
  | running
  | stopped
  deriving DecidableEq

structure ThreadInfo where
  id : ThreadId
  groupId : Option String
  state : Option ThreadState
  name : Option String
  deriving DecidableEq

def ThreadInfo.new (id : ThreadId) : ThreadInfo :=
  ⟨id, none, none, none⟩

structure ThreadRegistry where
  byId : Std.ExtTreeMap ThreadId ThreadInfo

namespace ThreadRegistry

def empty : ThreadRegistry :=
  ⟨∅⟩

/-- A known thread keeps its group, or takes the first one it is given. -/
def onThreadCreated (registry : ThreadRegistry) (results : Results) : ThreadRegistry :=
  match getStr results "id" with
  | none => registry
  | some id =>
      let groupId := getStr results "group-id"
      ⟨registry.byId.alter id fun
        | some info => some { info with groupId := info.groupId.or groupId }
        | none => some ⟨id, groupId, none, none⟩⟩

def onThreadExited (registry : ThreadRegistry) (results : Results) : ThreadRegistry :=
  match getStr results "id" with
  | none => registry
  | some id => ⟨registry.byId.erase id⟩

/-- Every known thread, or the named one, which becomes known, takes the state. -/
def setState (registry : ThreadRegistry) (state : ThreadState) : Option ThreadId → ThreadRegistry
  | none => ⟨registry.byId.map fun _ info => { info with state := some state }⟩
  | some id =>
      if id = "all" then ⟨registry.byId.map fun _ info => { info with state := some state }⟩
      else
        ⟨registry.byId.alter id fun found =>
          some { found.getD (.new id) with state := some state }⟩

def onRunning (registry : ThreadRegistry) (thread : Option ThreadId) : ThreadRegistry :=
  registry.setState .running thread

def onStopped (registry : ThreadRegistry) (thread : Option ThreadId) : ThreadRegistry :=
  registry.setState .stopped thread

end ThreadRegistry

structure StackFrame where
  level : Option UInt32
  func : Option String
  file : Option String
  fullname : Option String
  line : Option UInt32
  addr : Option String
  deriving DecidableEq

def StackFrame.fromResults (results : Results) : StackFrame where
  level := getU32 results "level"
  func := getStr results "func"
  file := getStr results "file"
  fullname := getStr results "fullname"
  line := getU32 results "line"
  addr := getStr results "addr"

/-- The frame tuple of a stop record, if GDB included one. -/
def extractFrame (results : Results) : Option StackFrame :=
  (getTuple results "frame").map StackFrame.fromResults

structure FrameRegistry where
  byThread : Std.ExtTreeMap ThreadId StackFrame

namespace FrameRegistry

def empty : FrameRegistry :=
  ⟨∅⟩

def onStoppedFrame (registry : FrameRegistry) (thread : ThreadId) (results : Results) :
    FrameRegistry :=
  match getTuple results "frame" with
  | none => registry
  | some frameResults => ⟨registry.byThread.insert thread (.fromResults frameResults)⟩

def invalidate (registry : FrameRegistry) (thread : ThreadId) : FrameRegistry :=
  ⟨registry.byThread.erase thread⟩

def clear (_ : FrameRegistry) : FrameRegistry :=
  empty

end FrameRegistry

end Framewalk
