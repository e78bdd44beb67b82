import Framewalk.TargetSelection
import Framewalk.ToolArguments

/-!
# Commands of the structured tools

Every structured tool builds one command from its arguments.  The tools are
declared in groups, and each group belongs to the full profile or to the core
profile as well.
-/

namespace Framewalk

namespace MiCommand

variable (command : MiCommand)

def optionIf (asked : Bool) (name : String) : MiCommand :=
  if asked then command.option name else command

def optionSome (name : String) : Option String → MiCommand
  | some value => command.optionWith name value
  | none => command

def parameterSome : Option String → MiCommand
  | some value => command.parameter value
  | none => command

def parameterEach (values : List String) : MiCommand :=
  values.foldl parameter command

@[simp]
theorem operation_new (operation : String) : (new operation).operation = operation :=
  rfl

@[simp]
theorem operation_option (name : String) : (command.option name).operation = command.operation :=
  rfl

@[simp]
theorem operation_optionWith (name value : String) :
    (command.optionWith name value).operation = command.operation :=
  rfl

@[simp]
theorem operation_parameter (value : String) :
    (command.parameter value).operation = command.operation :=
  rfl

@[simp]
theorem operation_optionIf (asked : Bool) (name : String) :
    (command.optionIf asked name).operation = command.operation := by
  cases asked <;> rfl

@[simp]
theorem operation_optionSome (name : String) (value : Option String) :
    (command.optionSome name value).operation = command.operation := by
  cases value <;> rfl

@[simp]
theorem operation_parameterSome (value : Option String) :
    (command.parameterSome value).operation = command.operation := by
  cases value <;> rfl

@[simp]
theorem operation_parameterEach (values : List String) :
    (command.parameterEach values).operation = command.operation := by
  induction values generalizing command with
  | nil => rfl
  | cons value values ih => exact ih (command.parameter value)

end MiCommand

/-- The decimal digits of a number, as `to_string` writes them. -/
def decimal (n : UInt32) : String :=
  toString n.toNat

def decimalU64 (n : UInt64) : String :=
  toString n.toNat

def decimalI64 (n : Int64) : String :=
  toString n.toInt

namespace Tools

open MiCommand (new)

abbrev loadFile (path : String) : MiCommand :=
  (new "file-exec-and-symbols").parameter path

abbrev attach (pid : String) : MiCommand :=
  (new "target-attach").parameter pid

abbrev detach : MiCommand :=
  new "target-detach"

abbrev run : MiCommand :=
  new "exec-run"

abbrev cont : MiCommand :=
  new "exec-continue"

abbrev step : MiCommand :=
  new "exec-step"

abbrev next : MiCommand :=
  new "exec-next"

abbrev finish : MiCommand :=
  new "exec-finish"

abbrev untilLocation (location : Option String) : MiCommand :=
  (new "exec-until").parameterSome location

abbrev stepInstruction : MiCommand :=
  new "exec-step-instruction"

abbrev nextInstruction : MiCommand :=
  new "exec-next-instruction"

abbrev returnFromFunction (expression : Option String) : MiCommand :=
  (new "exec-return").parameterSome expression

abbrev jump (location : String) : MiCommand :=
  (new "exec-jump").parameter location

abbrev reverseStep (reverse : Bool) : MiCommand :=
  (new "exec-step").optionIf reverse "reverse"

abbrev reverseNext (reverse : Bool) : MiCommand :=
  (new "exec-next").optionIf reverse "reverse"

abbrev reverseContinue (reverse : Bool) : MiCommand :=
  (new "exec-continue").optionIf reverse "reverse"

abbrev reverseFinish (reverse : Bool) : MiCommand :=
  (new "exec-finish").optionIf reverse "reverse"

abbrev setBreakpoint (args : SetBreakpointArgs) : MiCommand :=
  (((new "break-insert").optionIf args.temporary "t").optionSome "c" args.condition).parameter
    args.location

abbrev listBreakpoints : MiCommand :=
  new "break-list"

abbrev deleteBreakpoint (id : String) : MiCommand :=
  (new "break-delete").parameter id

abbrev enableBreakpoint (id : String) : MiCommand :=
  (new "break-enable").parameter id

abbrev disableBreakpoint (id : String) : MiCommand :=
  (new "break-disable").parameter id

abbrev breakCondition (args : BreakConditionArgs) : MiCommand :=
  ((new "break-condition").parameter args.id).parameter args.condition

abbrev breakAfter (args : BreakAfterArgs) : MiCommand :=
  ((new "break-after").parameter args.id).parameter (decimal args.count)

abbrev breakInfo (id : String) : MiCommand :=
  (new "break-info").parameter id

abbrev setWatchpoint (args : SetWatchpointArgs) : MiCommand :=
  let command := new "break-watch"
  let command :=
    match args.watchType with
    | .read => command.option "r"
    | .access => command.option "a"
    | .write => command
  command.parameter args.expression

abbrev breakPasscount (args : BreakPasscountArgs) : MiCommand :=
  ((new "break-passcount").parameter args.id).parameter (decimal args.passcount)

abbrev dprintfInsert (args : DprintfInsertArgs) : MiCommand :=
  let command := (new "dprintf-insert").optionIf args.temporary "t"
  let command := command.optionSome "c" args.condition
  let command := command.optionSome "i" (args.ignoreCount.map decimal)
  let command := command.optionSome "p" args.threadId
  ((command.parameter args.location).parameter args.format).parameterEach args.args

/-- The frames up to the limit, counted from the innermost. -/
abbrev backtrace (limit : Option UInt32) : MiCommand :=
  match limit with
  | some limit => ((new "stack-list-frames").parameter "0").parameter (decimal (max limit 1 - 1))
  | none => new "stack-list-frames"

abbrev listThreads (threadId : Option String) : MiCommand :=
  (new "thread-info").parameterSome threadId

abbrev selectFrame (level : UInt32) : MiCommand :=
  (new "stack-select-frame").parameter (decimal level)

abbrev selectThread (threadId : String) : MiCommand :=
  (new "thread-select").parameter threadId

abbrev frameInfo : MiCommand :=
  new "stack-info-frame"

abbrev stackDepth (maxDepth : Option UInt32) : MiCommand :=
  (new "stack-info-depth").parameterSome (maxDepth.map decimal)

/-- Locals and variables are listed alike. -/
abbrev stackList (operation : String) (args : StackListArgs) : MiCommand :=
  ((new operation).optionIf args.skipUnavailable "skip-unavailable").parameter
    args.printValues.asMiArg

abbrev listLocals : StackListArgs → MiCommand :=
  stackList "stack-list-locals"

abbrev listVariables : StackListArgs → MiCommand :=
  stackList "stack-list-variables"

abbrev listArguments (args : StackListArgumentsArgs) : MiCommand :=
  let command := (new "stack-list-arguments").optionIf args.skipUnavailable "skip-unavailable"
  let command := command.parameter args.printValues.asMiArg
  match args.lowFrame, args.highFrame with
  | some low, some high => (command.parameter (decimal low)).parameter (decimal high)
  | _, _ => command

abbrev enableFrameFilters : MiCommand :=
  new "enable-frame-filters"

abbrev inspect (expression : String) : MiCommand :=
  (new "data-evaluate-expression").parameter expression

abbrev watchCreate (expression : String) : MiCommand :=
  (((new "var-create").parameter "-").parameter "*").parameter expression

abbrev watchList : MiCommand :=
  (new "var-update").parameter "*"

abbrev watchDelete (name : String) : MiCommand :=
  (new "var-delete").parameter name

abbrev varListChildren (args : VarListChildrenArgs) : MiCommand :=
  let command := (new "var-list-children").parameterSome
    (args.printValues.map PrintValues.asMiArg)
  let command := command.parameter args.name
  match args.start, args.stop with
  | some start, some stop => (command.parameter (decimal start)).parameter (decimal stop)
  | _, _ => command

/-- A command about one variable object. -/
abbrev ofVariable (operation name : String) : MiCommand :=
  (new operation).parameter name

abbrev varEvaluateExpression : String → MiCommand :=
  ofVariable "var-evaluate-expression"

abbrev varAssign (name expression : String) : MiCommand :=
  ((new "var-assign").parameter name).parameter expression

abbrev varSetFormat (name : String) (format : VarFormat) : MiCommand :=
  ((new "var-set-format").parameter name).parameter format.asMiArg

abbrev varShowFormat : String → MiCommand :=
  ofVariable "var-show-format"

abbrev varInfoNumChildren : String → MiCommand :=
  ofVariable "var-info-num-children"

abbrev varInfoType : String → MiCommand :=
  ofVariable "var-info-type"

abbrev varInfoExpression : String → MiCommand :=
  ofVariable "var-info-expression"

abbrev varInfoPathExpression : String → MiCommand :=
  ofVariable "var-info-path-expression"

abbrev varShowAttributes : String → MiCommand :=
  ofVariable "var-show-attributes"

abbrev varSetFrozen (name : String) (frozen : Bool) : MiCommand :=
  ((new "var-set-frozen").parameter name).parameter (if frozen then "1" else "0")

abbrev varSetUpdateRange (args : VarSetUpdateRangeArgs) : MiCommand :=
  (((new "var-set-update-range").parameter args.name).parameter (decimal args.start)).parameter
    (decimal args.stop)

abbrev varSetVisualizer (name visualizer : String) : MiCommand :=
  ((new "var-set-visualizer").parameter name).parameter visualizer

abbrev enablePrettyPrinting : MiCommand :=
  new "enable-pretty-printing"

abbrev readMemory (args : ReadMemoryArgs) : MiCommand :=
  let command := (new "data-read-memory-bytes").optionSome "o" (args.offset.map decimalI64)
  (command.parameter args.address).parameter (decimalU64 args.count)

abbrev listRegisterNames (registers : List UInt32) : MiCommand :=
  (new "data-list-register-names").parameterEach (registers.map decimal)

abbrev readRegisters (args : RegisterValuesArgs) : MiCommand :=
  ((new "data-list-register-values").parameter args.format.asMiArg).parameterEach
    (args.registers.map decimal)

abbrev listChangedRegisters : MiCommand :=
  new "data-list-changed-registers"

abbrev writeMemory (args : WriteMemoryArgs) : MiCommand :=
  (((new "data-write-memory-bytes").parameter args.address).parameter args.contents).parameterSome
    (args.count.map decimalU64)

abbrev readMemoryDeprecated (args : ReadMemoryDeprecatedArgs) : MiCommand :=
  let command := (new "data-read-memory").optionSome "o" (args.columnOffset.map decimalI64)
  let command := (command.parameter args.address).parameter args.wordFormat.asMiArg
  let command := (command.parameter (decimal args.wordSize)).parameter (decimal args.nrRows)
  (command.parameter (decimal args.nrCols)).parameterSome args.aschar

abbrev setArgs (args : String) : MiCommand :=
  (new "exec-arguments").parameter args

abbrev setCwd (directory : String) : MiCommand :=
  (new "environment-cd").parameter directory

abbrev showCwd : MiCommand :=
  new "environment-pwd"

abbrev setInferiorTty (tty : String) : MiCommand :=
  (new "inferior-tty-set").parameter tty

abbrev showInferiorTty : MiCommand :=
  new "inferior-tty-show"

/-- The two search paths are extended alike. -/
abbrev extendPath (operation : String) (args : EnvironmentPathArgs) : MiCommand :=
  ((new operation).optionIf args.reset "r").parameterEach args.directories

abbrev environmentDirectory : EnvironmentPathArgs → MiCommand :=
  extendPath "environment-directory"

abbrev environmentPath : EnvironmentPathArgs → MiCommand :=
  extendPath "environment-path"

abbrev execFile (path : String) : MiCommand :=
  (new "file-exec-file").parameter path

abbrev symbolFile (path : String) : MiCommand :=
  (new "file-symbol-file").parameter path

abbrev listSourceFiles (args : ListSourceFilesArgs) : MiCommand :=
  ((new "file-list-exec-source-files").optionIf args.groupByObjfile
    "group-by-objfile").parameterSome args.regexp

abbrev listSharedLibraries (regexp : Option String) : MiCommand :=
  (new "file-list-shared-libraries").parameterSome regexp

abbrev listExecSourceFile : MiCommand :=
  new "file-list-exec-source-file"

abbrev targetDownload : MiCommand :=
  new "target-download"

abbrev targetDisconnect : MiCommand :=
  new "target-disconnect"

abbrev targetFlashErase : MiCommand :=
  new "target-flash-erase"

abbrev targetFilePut (hostFile targetFile : String) : MiCommand :=
  ((new "target-file-put").parameter hostFile).parameter targetFile

abbrev targetFileGet (targetFile hostFile : String) : MiCommand :=
  ((new "target-file-get").parameter targetFile).parameter hostFile

abbrev targetFileDelete (targetFile : String) : MiCommand :=
  (new "target-file-delete").parameter targetFile

abbrev listFeatures : MiCommand :=
  new "list-features"

abbrev listTargetFeatures : MiCommand :=
  new "list-target-features"

abbrev infoMiCommand (command : String) : MiCommand :=
  (new "info-gdb-mi-command").parameter command

abbrev gdbSet (variableText : String) : MiCommand :=
  (new "gdb-set").parameter variableText

abbrev gdbShow (variableText : String) : MiCommand :=
  (new "gdb-show").parameter variableText

abbrev listThreadGroups (args : ListThreadGroupsArgs) : MiCommand :=
  let command := (new "list-thread-groups").optionIf args.available "available"
  let command := if args.recurse then command.optionWith "recurse" "1" else command
  command.parameterEach args.groups

abbrev infoOs (infoType : Option String) : MiCommand :=
  (new "info-os").parameterSome infoType

abbrev addInferior : MiCommand :=
  new "add-inferior"

abbrev removeInferior (inferiorId : String) : MiCommand :=
  (new "remove-inferior").parameter inferiorId

abbrev threadListIds : MiCommand :=
  new "thread-list-ids"

abbrev adaTaskInfo : MiCommand :=
  new "ada-task-info"

abbrev infoAdaExceptions (regexp : Option String) : MiCommand :=
  (new "info-ada-exceptions").parameterSome regexp

abbrev enableTimings (enable : Bool) : MiCommand :=
  (new "enable-timings").parameter (if enable then "yes" else "no")

abbrev complete (command : String) : MiCommand :=
  (new "complete").parameter command

abbrev buildSymbolInfoCmd (operation : String) (args : SymbolInfoArgs) : MiCommand :=
  let command := (new operation).optionIf args.includeNondebug "include-nondebug"
  let command := command.optionSome "name" args.name
  let command := command.optionSome "type" args.typeRegexp
  command.optionSome "max-results" (args.maxResults.map decimal)

abbrev buildSymbolModuleCmd (operation : String) (args : SymbolModuleArgs) : MiCommand :=
  let command := (new operation).optionSome "module" args.moduleRegexp
  let command := command.optionSome "name" args.name
  command.optionSome "type" args.typeRegexp

abbrev symbolInfoFunctions : SymbolInfoArgs → MiCommand :=
  buildSymbolInfoCmd "symbol-info-functions"

abbrev symbolInfoTypes : SymbolInfoArgs → MiCommand :=
  buildSymbolInfoCmd "symbol-info-types"

abbrev symbolInfoVariables : SymbolInfoArgs → MiCommand :=
  buildSymbolInfoCmd "symbol-info-variables"

abbrev symbolInfoModules : SymbolInfoArgs → MiCommand :=
  buildSymbolInfoCmd "symbol-info-modules"

abbrev symbolInfoModuleFunctions : SymbolModuleArgs → MiCommand :=
  buildSymbolModuleCmd "symbol-info-module-functions"

abbrev symbolInfoModuleVariables : SymbolModuleArgs → MiCommand :=
  buildSymbolModuleCmd "symbol-info-module-variables"

abbrev symbolListLines (filename : String) : MiCommand :=
  (new "symbol-list-lines").parameter filename

/-- Loads and unloads are caught alike. -/
abbrev catchLibrary (operation : String) (args : CatchLoadUnloadArgs) : MiCommand :=
  (((new operation).optionIf args.temporary "t").optionIf args.disabled "d").parameter args.regexp

abbrev catchLoad : CatchLoadUnloadArgs → MiCommand :=
  catchLibrary "catch-load"

abbrev catchUnload : CatchLoadUnloadArgs → MiCommand :=
  catchLibrary "catch-unload"

/-- What the catchpoints for Ada have in common. -/
abbrev catchAda (operation : String) (args : CatchAdaExceptionArgs) : MiCommand :=
  (((new operation).optionSome "c" args.condition).optionIf args.disabled "d").optionIf
    args.temporary "t"

abbrev catchAssert : CatchAdaExceptionArgs → MiCommand :=
  catchAda "catch-assert"

abbrev catchException (args : CatchAdaExceptionArgs) : MiCommand :=
  ((catchAda "catch-exception" args).optionSome "e" args.exceptionName).optionIf
    args.unhandled "u"

abbrev catchHandlers (args : CatchAdaExceptionArgs) : MiCommand :=
  (catchAda "catch-handlers" args).optionSome "e" args.exceptionName

/-- The catchpoints for C++ exceptions. -/
abbrev catchCpp (operation : String) (args : CatchCppExceptionArgs) : MiCommand :=
  ((new operation).optionIf args.temporary "t").optionSome "r" args.regexp

abbrev catchThrow : CatchCppExceptionArgs → MiCommand :=
  catchCpp "catch-throw"

abbrev catchRethrow : CatchCppExceptionArgs → MiCommand :=
  catchCpp "catch-rethrow"

abbrev catchCatch : CatchCppExceptionArgs → MiCommand :=
  catchCpp "catch-catch"

abbrev traceInsert (location : String) : MiCommand :=
  ((new "break-insert").option "a").parameter location

abbrev traceStart : MiCommand :=
  new "trace-start"

abbrev traceStop : MiCommand :=
  new "trace-stop"

abbrev traceStatus : MiCommand :=
  new "trace-status"

abbrev traceSave (args : TraceSaveArgs) : MiCommand :=
  (((new "trace-save").optionIf args.remote "r").optionIf args.ctf "ctf").parameter args.filename

abbrev traceListVariables : MiCommand :=
  new "trace-list-variables"

abbrev traceDefineVariable (args : TraceDefineVariableArgs) : MiCommand :=
  ((new "trace-define-variable").parameter args.name).parameterSome args.value

abbrev traceFind (mode : TraceFindMode) : MiCommand :=
  let command := new "trace-find"
  match mode with
  | .none => command.parameter "none"
  | .frameNumber number => (command.parameter "frame-number").parameter (decimal number)
  | .tracepointNumber number => (command.parameter "tracepoint-number").parameter (decimal number)
  | .pc address => (command.parameter "pc").parameter address
  | .pcInsideRange start stop =>
      ((command.parameter "pc-inside-range").parameter start).parameter stop
  | .pcOutsideRange start stop =>
      ((command.parameter "pc-outside-range").parameter start).parameter stop
  | .line location => (command.parameter "line").parameter location

abbrev traceFrameCollected (args : TraceFrameCollectedArgs) : MiCommand :=
  let command := (new "trace-frame-collected").optionSome "var-print-values"
    (args.varPrintValues.map PrintValues.asMiArg)
  let command := command.optionSome "comp-print-values"
    (args.compPrintValues.map PrintValues.asMiArg)
  let command := command.optionSome "registers-format"
    (args.registersFormat.map RegisterFormat.asMiArg)
  command.optionIf args.memoryContents "memory-contents"

end Tools

/-- The groups in which the tools are declared. -/
inductive ToolBlock where
  | session | operator | executionCore | executionExtended | executionReverse
  | breakpointsCore | breakpointsExtended | inspection | stackCore | stackExtended
  | variablesCore | variablesExtended | dataCore | dataExtended | raw | contextCore
  | contextExtended | file | target | fileTransfer | supportCore | supportExtended | misc
  | symbolCore | symbolExtended | catchpoint | tracepoint
  deriving DecidableEq

namespace ToolBlock

/-- The groups that the core profile advertises besides the full one. -/
def inCore : ToolBlock → Bool
  | .session | .operator | .executionCore | .breakpointsCore | .inspection | .stackCore
  | .variablesCore | .dataCore | .raw | .contextCore | .supportCore | .symbolCore => true
  | .executionExtended | .executionReverse | .breakpointsExtended | .stackExtended
  | .variablesExtended | .dataExtended | .contextExtended | .file | .target | .fileTransfer
  | .supportExtended | .misc | .symbolExtended | .catchpoint | .tracepoint => false

def names : ToolBlock → List String
  | .session => ["gdb_version", "load_file", "attach", "detach"]
  | .operator =>
      ["interrupt_target", "target_state", "drain_events", "target_select", "reconnect_target"]
  | .executionCore => ["run", "cont", "step", "next", "finish", "interrupt", "until"]
  | .executionExtended => ["step_instruction", "next_instruction", "return_from_function", "jump"]
  | .executionReverse => ["reverse_step", "reverse_next", "reverse_continue", "reverse_finish"]
  | .breakpointsCore =>
      ["set_breakpoint", "list_breakpoints", "delete_breakpoint", "enable_breakpoint",
        "disable_breakpoint", "break_condition", "break_after", "break_info", "set_watchpoint"]
  | .breakpointsExtended => ["break_commands", "break_passcount", "dprintf_insert"]
  | .inspection => ["backtrace", "list_threads", "select_frame", "select_thread"]
  | .stackCore => ["frame_info", "stack_depth", "list_locals", "list_arguments", "list_variables"]
  | .stackExtended => ["enable_frame_filters"]
  | .variablesCore =>
      ["inspect", "watch_create", "watch_list", "watch_delete", "var_list_children",
        "var_evaluate_expression"]
  | .variablesExtended =>
      ["var_assign", "var_set_format", "var_show_format", "var_info_num_children",
        "var_info_type", "var_info_expression", "var_info_path_expression",
        "var_show_attributes", "var_set_frozen", "var_set_update_range", "var_set_visualizer",
        "enable_pretty_printing"]
  | .dataCore =>
      ["read_memory", "disassemble", "list_register_names", "read_registers",
        "list_changed_registers"]
  | .dataExtended => ["write_memory", "read_memory_deprecated"]
  | .raw => ["mi_raw_command"]
  | .contextCore => ["set_args", "set_cwd", "show_cwd"]
  | .contextExtended =>
      ["set_inferior_tty", "show_inferior_tty", "environment_directory", "environment_path"]
  | .file =>
      ["exec_file", "symbol_file", "list_source_files", "list_shared_libraries",
        "list_exec_source_file"]
  | .target => ["target_download", "target_disconnect", "target_flash_erase"]
  | .fileTransfer => ["target_file_put", "target_file_get", "target_file_delete"]
  | .supportCore => ["list_features", "list_target_features"]
  | .supportExtended => ["info_mi_command", "gdb_set", "gdb_show"]
  | .misc =>
      ["list_thread_groups", "info_os", "add_inferior", "remove_inferior", "thread_list_ids",
        "ada_task_info", "info_ada_exceptions", "enable_timings", "complete"]
  | .symbolCore => ["symbol_info_functions", "symbol_info_types", "symbol_info_variables"]
  | .symbolExtended =>
      ["symbol_info_modules", "symbol_info_module_functions", "symbol_info_module_variables",
        "symbol_list_lines"]
  | .catchpoint =>
      ["catch_load", "catch_unload", "catch_assert", "catch_exception", "catch_handlers",
        "catch_throw", "catch_rethrow", "catch_catch"]
  | .tracepoint =>
      ["trace_insert", "trace_start", "trace_stop", "trace_status", "trace_save",
        "trace_list_variables", "trace_define_variable", "trace_find", "trace_frame_collected"]

/-- All groups, in the order in which their specifications are listed. -/
def all : List ToolBlock :=
  [.session, .operator, .executionCore, .executionExtended, .executionReverse,
    .breakpointsCore, .breakpointsExtended, .inspection, .stackCore, .stackExtended,
    .variablesCore, .variablesExtended, .dataCore, .dataExtended, .raw, .contextCore,
    .contextExtended, .file, .target, .fileTransfer, .supportCore, .supportExtended, .misc,
    .symbolCore, .symbolExtended, .catchpoint, .tracepoint]

end ToolBlock

/-- The tools that submit a structured command and return its outcome: the group
and the name of each, and the commands that it submits for its arguments. -/
inductive Submits : ToolBlock → String → MiCommand → Prop
  | loadFile path : Submits .session "load_file" (Tools.loadFile path)
  | attach pid : Submits .session "attach" (Tools.attach pid)
  | detach : Submits .session "detach" Tools.detach
  | run : Submits .executionCore "run" Tools.run
  | cont : Submits .executionCore "cont" Tools.cont
  | step : Submits .executionCore "step" Tools.step
  | next : Submits .executionCore "next" Tools.next
  | finish : Submits .executionCore "finish" Tools.finish
  | untilLocation location : Submits .executionCore "until" (Tools.untilLocation location)
  | stepInstruction : Submits .executionExtended "step_instruction" Tools.stepInstruction
  | nextInstruction : Submits .executionExtended "next_instruction" Tools.nextInstruction
  | returnFromFunction expression :
      Submits .executionExtended "return_from_function" (Tools.returnFromFunction expression)
  | jump location : Submits .executionExtended "jump" (Tools.jump location)
  | reverseStep back : Submits .executionReverse "reverse_step" (Tools.reverseStep back)
  | reverseNext back : Submits .executionReverse "reverse_next" (Tools.reverseNext back)
  | reverseContinue back : Submits .executionReverse "reverse_continue" (Tools.reverseContinue back)
  | reverseFinish back : Submits .executionReverse "reverse_finish" (Tools.reverseFinish back)
  | setBreakpoint args : Submits .breakpointsCore "set_breakpoint" (Tools.setBreakpoint args)
  | listBreakpoints : Submits .breakpointsCore "list_breakpoints" Tools.listBreakpoints
  | deleteBreakpoint id : Submits .breakpointsCore "delete_breakpoint" (Tools.deleteBreakpoint id)
  | enableBreakpoint id : Submits .breakpointsCore "enable_breakpoint" (Tools.enableBreakpoint id)
  | disableBreakpoint id :
      Submits .breakpointsCore "disable_breakpoint" (Tools.disableBreakpoint id)
  | breakCondition args : Submits .breakpointsCore "break_condition" (Tools.breakCondition args)
  | breakAfter args : Submits .breakpointsCore "break_after" (Tools.breakAfter args)
  | breakInfo id : Submits .breakpointsCore "break_info" (Tools.breakInfo id)
  | setWatchpoint args : Submits .breakpointsCore "set_watchpoint" (Tools.setWatchpoint args)
  | breakCommands args : Submits .breakpointsExtended "break_commands" (breakCommands args)
  | breakPasscount args :
      Submits .breakpointsExtended "break_passcount" (Tools.breakPasscount args)
  | dprintfInsert args : Submits .breakpointsExtended "dprintf_insert" (Tools.dprintfInsert args)
  | backtrace limit : Submits .inspection "backtrace" (Tools.backtrace limit)
  | listThreads thread : Submits .inspection "list_threads" (Tools.listThreads thread)
  | selectFrame level : Submits .inspection "select_frame" (Tools.selectFrame level)
  | selectThread thread : Submits .inspection "select_thread" (Tools.selectThread thread)
  | frameInfo : Submits .stackCore "frame_info" Tools.frameInfo
  | stackDepth depth : Submits .stackCore "stack_depth" (Tools.stackDepth depth)
  | listLocals args : Submits .stackCore "list_locals" (Tools.listLocals args)
  | listArguments args : Submits .stackCore "list_arguments" (Tools.listArguments args)
  | listVariables args : Submits .stackCore "list_variables" (Tools.listVariables args)
  | enableFrameFilters : Submits .stackExtended "enable_frame_filters" Tools.enableFrameFilters
  | inspect expression : Submits .variablesCore "inspect" (Tools.inspect expression)
  | watchCreate expression : Submits .variablesCore "watch_create" (Tools.watchCreate expression)
  | watchList : Submits .variablesCore "watch_list" Tools.watchList
  | watchDelete name : Submits .variablesCore "watch_delete" (Tools.watchDelete name)
  | varListChildren args :
      Submits .variablesCore "var_list_children" (Tools.varListChildren args)
  | varEvaluateExpression name :
      Submits .variablesCore "var_evaluate_expression" (Tools.varEvaluateExpression name)
  | varAssign name expression :
      Submits .variablesExtended "var_assign" (Tools.varAssign name expression)
  | varSetFormat name format :
      Submits .variablesExtended "var_set_format" (Tools.varSetFormat name format)
  | varShowFormat name : Submits .variablesExtended "var_show_format" (Tools.varShowFormat name)
  | varInfoNumChildren name :
      Submits .variablesExtended "var_info_num_children" (Tools.varInfoNumChildren name)
  | varInfoType name : Submits .variablesExtended "var_info_type" (Tools.varInfoType name)
  | varInfoExpression name :
      Submits .variablesExtended "var_info_expression" (Tools.varInfoExpression name)
  | varInfoPathExpression name :
      Submits .variablesExtended "var_info_path_expression" (Tools.varInfoPathExpression name)
  | varShowAttributes name :
      Submits .variablesExtended "var_show_attributes" (Tools.varShowAttributes name)
  | varSetFrozen name frozen :
      Submits .variablesExtended "var_set_frozen" (Tools.varSetFrozen name frozen)
  | varSetUpdateRange args :
      Submits .variablesExtended "var_set_update_range" (Tools.varSetUpdateRange args)
  | varSetVisualizer name visualizer :
      Submits .variablesExtended "var_set_visualizer" (Tools.varSetVisualizer name visualizer)
  | enablePrettyPrinting :
      Submits .variablesExtended "enable_pretty_printing" Tools.enablePrettyPrinting
  | readMemory args : Submits .dataCore "read_memory" (Tools.readMemory args)
  | disassemble args : Submits .dataCore "disassemble" (disassemble args)
  | listRegisterNames registers :
      Submits .dataCore "list_register_names" (Tools.listRegisterNames registers)
  | readRegisters args : Submits .dataCore "read_registers" (Tools.readRegisters args)
  | listChangedRegisters : Submits .dataCore "list_changed_registers" Tools.listChangedRegisters
  | writeMemory args : Submits .dataExtended "write_memory" (Tools.writeMemory args)
  | readMemoryDeprecated args :
      Submits .dataExtended "read_memory_deprecated" (Tools.readMemoryDeprecated args)
  | setArgs args : Submits .contextCore "set_args" (Tools.setArgs args)
  | setCwd directory : Submits .contextCore "set_cwd" (Tools.setCwd directory)
  | showCwd : Submits .contextCore "show_cwd" Tools.showCwd
  | setInferiorTty tty : Submits .contextExtended "set_inferior_tty" (Tools.setInferiorTty tty)
  | showInferiorTty : Submits .contextExtended "show_inferior_tty" Tools.showInferiorTty
  | environmentDirectory args :
      Submits .contextExtended "environment_directory" (Tools.environmentDirectory args)
  | environmentPath args :
      Submits .contextExtended "environment_path" (Tools.environmentPath args)
  | execFile path : Submits .file "exec_file" (Tools.execFile path)
  | symbolFile path : Submits .file "symbol_file" (Tools.symbolFile path)
  | listSourceFiles args : Submits .file "list_source_files" (Tools.listSourceFiles args)
  | listSharedLibraries regexp :
      Submits .file "list_shared_libraries" (Tools.listSharedLibraries regexp)
  | listExecSourceFile : Submits .file "list_exec_source_file" Tools.listExecSourceFile
  | targetDownload : Submits .target "target_download" Tools.targetDownload
  | targetDisconnect : Submits .target "target_disconnect" Tools.targetDisconnect
  | targetFlashErase : Submits .target "target_flash_erase" Tools.targetFlashErase
  | targetFilePut hostFile targetFile :
      Submits .fileTransfer "target_file_put" (Tools.targetFilePut hostFile targetFile)
  | targetFileGet targetFile hostFile :
      Submits .fileTransfer "target_file_get" (Tools.targetFileGet targetFile hostFile)
  | targetFileDelete targetFile :
      Submits .fileTransfer "target_file_delete" (Tools.targetFileDelete targetFile)
  | listFeatures : Submits .supportCore "list_features" Tools.listFeatures
  | listTargetFeatures : Submits .supportCore "list_target_features" Tools.listTargetFeatures
  | infoMiCommand command : Submits .supportExtended "info_mi_command" (Tools.infoMiCommand command)
  | gdbSet text : Submits .supportExtended "gdb_set" (Tools.gdbSet text)
  | gdbShow text : Submits .supportExtended "gdb_show" (Tools.gdbShow text)
  | listThreadGroups args : Submits .misc "list_thread_groups" (Tools.listThreadGroups args)
  | infoOs infoType : Submits .misc "info_os" (Tools.infoOs infoType)
  | addInferior : Submits .misc "add_inferior" Tools.addInferior
  | removeInferior inferior : Submits .misc "remove_inferior" (Tools.removeInferior inferior)
  | threadListIds : Submits .misc "thread_list_ids" Tools.threadListIds
  | adaTaskInfo : Submits .misc "ada_task_info" Tools.adaTaskInfo
  | infoAdaExceptions regexp :
      Submits .misc "info_ada_exceptions" (Tools.infoAdaExceptions regexp)
  | enableTimings enable : Submits .misc "enable_timings" (Tools.enableTimings enable)
  | complete command : Submits .misc "complete" (Tools.complete command)
  | symbolInfoFunctions args :
      Submits .symbolCore "symbol_info_functions" (Tools.symbolInfoFunctions args)
  | symbolInfoTypes args : Submits .symbolCore "symbol_info_types" (Tools.symbolInfoTypes args)
  | symbolInfoVariables args :
      Submits .symbolCore "symbol_info_variables" (Tools.symbolInfoVariables args)
  | symbolInfoModules args :
      Submits .symbolExtended "symbol_info_modules" (Tools.symbolInfoModules args)
  | symbolInfoModuleFunctions args :
      Submits .symbolExtended "symbol_info_module_functions" (Tools.symbolInfoModuleFunctions args)
  | symbolInfoModuleVariables args :
      Submits .symbolExtended "symbol_info_module_variables" (Tools.symbolInfoModuleVariables args)
  | symbolListLines filename :
      Submits .symbolExtended "symbol_list_lines" (Tools.symbolListLines filename)
  | catchLoad args : Submits .catchpoint "catch_load" (Tools.catchLoad args)
  | catchUnload args : Submits .catchpoint "catch_unload" (Tools.catchUnload args)
  | catchAssert args : Submits .catchpoint "catch_assert" (Tools.catchAssert args)
  | catchException args : Submits .catchpoint "catch_exception" (Tools.catchException args)
  | catchHandlers args : Submits .catchpoint "catch_handlers" (Tools.catchHandlers args)
  | catchThrow args : Submits .catchpoint "catch_throw" (Tools.catchThrow args)
  | catchRethrow args : Submits .catchpoint "catch_rethrow" (Tools.catchRethrow args)
  | catchCatch args : Submits .catchpoint "catch_catch" (Tools.catchCatch args)
  | traceInsert location : Submits .tracepoint "trace_insert" (Tools.traceInsert location)
  | traceStart : Submits .tracepoint "trace_start" Tools.traceStart
  | traceStop : Submits .tracepoint "trace_stop" Tools.traceStop
  | traceStatus : Submits .tracepoint "trace_status" Tools.traceStatus
  | traceSave args : Submits .tracepoint "trace_save" (Tools.traceSave args)
  | traceListVariables : Submits .tracepoint "trace_list_variables" Tools.traceListVariables
  | traceDefineVariable args :
      Submits .tracepoint "trace_define_variable" (Tools.traceDefineVariable args)
  | traceFind mode : Submits .tracepoint "trace_find" (Tools.traceFind mode)
  | traceFrameCollected args :
      Submits .tracepoint "trace_frame_collected" (Tools.traceFrameCollected args)

end Framewalk
