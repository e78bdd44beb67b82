import Framewalk.GuardedLines
import Framewalk.ServerHandlers
import Framewalk.ToolLines

/-!
# Commands that the configuration permits

A structured command is permitted if its operation is in the table of raw command
families; the three operations that transfer files are not, and only the full mode
has tools for them.  A raw command is permitted if it has passed the guard.
-/

namespace Framewalk

open RawGuard (AllowlistEntry validateRawMiCommand toAsciiLowercase allowedCommands)

/-- The operation is in the table of raw command families. -/
def listed (operation : String) : Bool :=
  allowedCommands.any fun entry => entry.matches (operation.toList.map toAsciiLowercase)

def transfersFiles (operation : String) : Bool :=
  ["target-file-put", "target-file-get", "target-file-delete"].contains operation

/-- A structured command has a listed operation, or transfers files in full mode; a
raw one has passed the guard. -/
inductive Config.Permits (config : Config) : SubmitRequest → Prop
  | structured {command : MiCommand} : command.Fits command.operation →
      listed command.operation = true ∨
        config.mode = .full ∧ transfersFiles command.operation = true →
      Permits config (.structured command)
  | raw {line : String} : validateRawMiCommand line config.allowShell = .ok () →
      Permits config (.raw line)

theorem Submits.transfer_name_mem {name : String} {command : MiCommand}
    (submits : Submits .fileTransfer name command) : name ∈ ToolBlock.fileTransfer.names := by
  cases submits <;> simp [ToolBlock.names]

/-- A structured tool runs a listed operation, unless it transfers files. -/
theorem Submits.listed_or {block : ToolBlock} {name : String} {command : MiCommand}
    (submits : Submits block name command) :
    listed command.operation = true ∨
      block = .fileTransfer ∧ transfersFiles command.operation = true := by
  cases submits with
  | targetFilePut | targetFileGet | targetFileDelete =>
      right
      simp +decide
  | setWatchpoint args =>
      left
      simp only [Tools.setWatchpoint]
      split <;> simp +decide
  | breakCommands args =>
      left
      rw [breakCommands_eq]
      exact show listed "break-commands" = true by decide +kernel
  | backtrace limit =>
      left
      cases limit <;> simp +decide [Tools.backtrace]
  | listArguments args =>
      left
      simp only [Tools.listArguments]
      split <;> simp +decide
  | varListChildren args =>
      left
      simp only [Tools.varListChildren]
      split <;> simp +decide
  | disassemble args =>
      left
      rw [disassemble_eq]
      exact show listed "data-disassemble" = true by decide +kernel
  | listThreadGroups args =>
      left
      simp only [Tools.listThreadGroups]
      split <;> simp +decide
  | traceFind mode =>
      left
      cases mode <;> simp +decide [Tools.traceFind]
  | _ =>
      left
      simp only [MiCommand.operation_new, MiCommand.operation_parameter,
        MiCommand.operation_option, MiCommand.operation_optionIf, MiCommand.operation_optionSome,
        MiCommand.operation_parameterSome, MiCommand.operation_parameterEach]
      decide +kernel

theorem Mode.eq_full_of_routes {mode : Mode} {tool : StructuredTool}
    (routes : mode.routes (.structured tool) = true) (transfers : tool.block = .fileTransfer) :
    mode = .full := by
  have isName := (transfers ▸ tool.submits).transfer_name_mem
  have elsewhere : ∀ name ∈ ToolBlock.fileTransfer.names,
      coreToolNames.contains name = false ∧ ToolBlock.operator.names.contains name = false := by
    decide +kernel
  obtain ⟨notCore, notOperator⟩ := elsewhere _ isName
  cases mode with
  | full => rfl
  | core =>
      simp only [Mode.routes, ToolCall.name, notCore, Bool.false_eq_true] at routes
  | scheme =>
      simp only [Mode.routes, ToolCall.name, notOperator, Bool.false_eq_true] at routes

theorem StructuredTool.permitted {config : Config} (tool : StructuredTool)
    (routes : config.mode.routes (.structured tool) = true) :
    config.Permits (.structured tool.command) := by
  refine .structured tool.submits.fits (tool.submits.listed_or.imp_right ?_)
  rintro ⟨transfers, isTransfer⟩
  exact ⟨Mode.eq_full_of_routes routes transfers, isTransfer⟩

variable {config : Config}

/-- Commands of the server's own, which no argument changes. -/
theorem permits_new {operation : String} (bare : IsBareName operation)
    (isListed : listed operation = true) : config.Permits (.structured (.new operation)) :=
  .structured (MiCommand.fits_new_iff.mpr bare) (Or.inl isListed)

theorem permits_gdbVersion : config.Permits (.structured (.new "gdb-version")) :=
  permits_new (by decide +kernel) (by decide +kernel)

theorem permits_targetSelect (transportName parameters : String) :
    config.Permits (.structured (targetSelect transportName parameters)) := by
  apply Config.Permits.structured
  · simp +decide [targetSelect]
  · exact Or.inl (show listed "target-select" = true by decide +kernel)

theorem permits_gdbSetNonStopOff : config.Permits (.structured gdbSetNonStopOff) := by
  apply Config.Permits.structured
  · simp +decide [gdbSetNonStopOff]
  · exact Or.inl (show listed "gdb-set" = true by decide +kernel)

end Framewalk
