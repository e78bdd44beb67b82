import Framewalk.BreakCommands
import Framewalk.Disassembly

/-!
# Arguments of the tools

The domain enumerations of the MI commands with the words that stand for their
values, and the arguments of each structured tool.
-/

namespace Framewalk

inductive PrintValues where
  | noValues
  | allValues
  | simpleValues
  deriving DecidableEq

def PrintValues.asMiArg : PrintValues → String
  | .noValues => "--no-values"
  | .allValues => "--all-values"
  | .simpleValues => "--simple-values"

inductive RegisterFormat where
  | hex
  | octal
  | binary
  | decimal
  | raw
  | natural
  deriving DecidableEq

def RegisterFormat.asMiArg : RegisterFormat → String
  | .hex => "x"
  | .octal => "o"
  | .binary => "t"
  | .decimal => "d"
  | .raw => "r"
  | .natural => "N"

inductive WatchType where
  | write
  | read
  | access
  deriving DecidableEq

inductive VarFormat where
  | binary
  | decimal
  | hexadecimal
  | octal
  | natural
  | zeroHexadecimal
  deriving DecidableEq

def VarFormat.asMiArg : VarFormat → String
  | .binary => "binary"
  | .decimal => "decimal"
  | .hexadecimal => "hexadecimal"
  | .octal => "octal"
  | .natural => "natural"
  | .zeroHexadecimal => "zero-hexadecimal"

inductive MemoryWordFormat where
  | hex
  | decimal
  | octal
  | binary
  | float
  | character
  | string
  | address
  deriving DecidableEq

def MemoryWordFormat.asMiArg : MemoryWordFormat → String
  | .hex => "x"
  | .decimal => "d"
  | .octal => "o"
  | .binary => "t"
  | .float => "f"
  | .character => "c"
  | .string => "s"
  | .address => "a"

inductive TraceFindMode where
  | none
  | frameNumber (number : UInt32)
  | tracepointNumber (number : UInt32)
  | pc (address : String)
  | pcInsideRange (start stop : String)
  | pcOutsideRange (start stop : String)
  | line (location : String)
  deriving DecidableEq

structure SetBreakpointArgs where
  location : String
  condition : Option String
  temporary : Bool

structure SetWatchpointArgs where
  expression : String
  watchType : WatchType

structure BreakConditionArgs where
  id : String
  condition : String

structure BreakAfterArgs where
  id : String
  count : UInt32

structure BreakPasscountArgs where
  id : String
  passcount : UInt32

structure DprintfInsertArgs where
  location : String
  format : String
  args : List String
  temporary : Bool
  condition : Option String
  ignoreCount : Option UInt32
  threadId : Option String

structure CatchLoadUnloadArgs where
  regexp : String
  temporary : Bool
  disabled : Bool

structure CatchAdaExceptionArgs where
  condition : Option String
  disabled : Bool
  temporary : Bool
  exceptionName : Option String
  unhandled : Bool

structure CatchCppExceptionArgs where
  temporary : Bool
  regexp : Option String

/-- The arguments of both search paths: directories to add, after a reset if
asked for. -/
structure EnvironmentPathArgs where
  directories : List String
  reset : Bool

structure ReadMemoryArgs where
  address : String
  count : UInt64
  offset : Option Int64

structure WriteMemoryArgs where
  address : String
  contents : String
  count : Option UInt64

structure RegisterValuesArgs where
  format : RegisterFormat
  registers : List UInt32

structure ReadMemoryDeprecatedArgs where
  address : String
  wordFormat : MemoryWordFormat
  wordSize : UInt32
  nrRows : UInt32
  nrCols : UInt32
  columnOffset : Option Int64
  aschar : Option String

structure ListSourceFilesArgs where
  groupByObjfile : Bool
  regexp : Option String

structure ListThreadGroupsArgs where
  available : Bool
  recurse : Bool
  groups : List String

structure StackListArgs where
  printValues : PrintValues
  skipUnavailable : Bool

structure StackListArgumentsArgs where
  printValues : PrintValues
  skipUnavailable : Bool
  lowFrame : Option UInt32
  highFrame : Option UInt32

structure SymbolInfoArgs where
  name : Option String
  typeRegexp : Option String
  includeNondebug : Bool
  maxResults : Option UInt32

structure SymbolModuleArgs where
  moduleRegexp : Option String
  name : Option String
  typeRegexp : Option String

structure TraceDefineVariableArgs where
  name : String
  value : Option String

structure TraceSaveArgs where
  filename : String
  ctf : Bool
  remote : Bool

structure TraceFrameCollectedArgs where
  varPrintValues : Option PrintValues
  compPrintValues : Option PrintValues
  registersFormat : Option RegisterFormat
  memoryContents : Bool

structure VarListChildrenArgs where
  name : String
  printValues : Option PrintValues
  start : Option UInt32
  stop : Option UInt32

structure VarSetUpdateRangeArgs where
  name : String
  start : UInt32
  stop : UInt32

end Framewalk
