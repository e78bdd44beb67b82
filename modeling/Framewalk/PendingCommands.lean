import Framewalk.CommandEncoder
import Mathlib.Algebra.Group.Nat.Defs
import Std.Data.ExtTreeMap

/-!
# Tokens and pending commands

Each submitted command gets a token; the pending table remembers what kind of
command a token stands for until its result record arrives.
-/

namespace Framewalk

/-- The next token; zero is reserved. -/
structure TokenAllocator where
  next : UInt64

namespace TokenAllocator

def new : TokenAllocator :=
  ⟨1⟩

/-- The allocator wraps around to one. -/
def allocate (allocator : TokenAllocator) : Token × TokenAllocator :=
  (allocator.next,
    ⟨if allocator.next.toNat + 1 < 2 ^ 64 then allocator.next + 1 else 1⟩)

end TokenAllocator

inductive Operation where
  | breakInsert
  | breakInfo
  | varCreate (expression : Option String)
  | varUpdate
  | varDelete (name : String)
  | listFeatures
  | listTargetFeatures
  | targetSelect
  | execRun
  | other
  | raw
  deriving DecidableEq

def Operation.fromName (name : String) (parameters : List String) : Operation :=
  match name with
  | "break-insert" => .breakInsert
  | "break-info" => .breakInfo
  | "var-create" => .varCreate parameters.getLast?
  | "var-update" => .varUpdate
  | "var-delete" => .varDelete (parameters.head?.getD "")
  | "list-features" => .listFeatures
  | "list-target-features" => .listTargetFeatures
  | "target-select" => .targetSelect
  | "exec-run" => .execRun
  | _ => .other

structure PendingInfo where
  operation : Operation
  operationName : String
  deriving DecidableEq

/-- Whether an error reply leaves the target in an unknown state. -/
def PendingInfo.isExecCommand (info : PendingInfo) : Bool :=
  "exec-".toList.isPrefixOf info.operationName.toList

structure PendingCommands where
  byToken : Std.ExtTreeMap Token PendingInfo

namespace PendingCommands

def empty : PendingCommands :=
  ⟨∅⟩

def insert (pending : PendingCommands) (token : Token) (info : PendingInfo) : PendingCommands :=
  ⟨pending.byToken.insert token info⟩

def remove (pending : PendingCommands) (token : Token) : Option PendingInfo × PendingCommands :=
  (pending.byToken[token]?, ⟨pending.byToken.erase token⟩)

end PendingCommands

end Framewalk
