import Framewalk.ToolCommands

/-!
# Command lines of the tools read back

A command line is read with a table of the options that take a value: options
come first, a lone pair of dashes ends them, and what follows is positional.  The
operation and the option names of a tool's command are the tool's own, so whatever
its arguments say, the line that it sends reads back as the command that it built.
-/

namespace Framewalk

/-- The options that stand before a value of their own. -/
def takesValue (operation : String) : String → Bool
  | "c" | "i" | "p" | "s" | "e" | "o" | "opcodes" | "recurse" | "name" | "type" | "max-results"
  | "module" | "var-print-values" | "comp-print-values" | "registers-format" => true
  | "r" => ["catch-throw", "catch-rethrow", "catch-catch"].contains operation
  | _ => false

def optionName? (field : String) : Option String :=
  match field.toList with
  | '-' :: name => some (String.ofList name)
  | _ => none

/-- The options in front, and the parameters behind them. -/
def readOptions (takes : String → Bool) : List String → List CommandOption × List String
  | [] => ([], [])
  | field :: fields =>
      if field = "--" then ([], fields)
      else
        match optionName? field with
        | none => ([], field :: fields)
        | some name =>
            if takes name then
              match fields with
              | [] => ([⟨name, none⟩], [])
              | value :: fields =>
                  let (options, parameters) := readOptions takes fields
                  (⟨name, some value⟩ :: options, parameters)
            else
              let (options, parameters) := readOptions takes fields
              (⟨name, none⟩ :: options, parameters)

/-- The token and the command of a line. -/
def readCommand (line : List UInt8) : Except CodecError (Option Token × MiCommand) := do
  let (token, afterToken) ← parseOptionalToken (.new line)
  let fields ← readFields afterToken
  let operation := (fields.head?.bind optionName?).getD ""
  let (options, parameters) := readOptions (takesValue operation) fields.tail
  .ok (token, ⟨operation, options, parameters⟩)

@[simp]
theorem optionName?_dash (name : String) : optionName? ("-" ++ name) = some name := by
  simp [optionName?]

/-- The option needs no quoting, does not look like the separator, and has a value
exactly if the table says so. -/
structure CommandOption.Fits (operation : String) (option : CommandOption) : Prop where
  bare : IsBareName option.name
  name_ne : option.name ≠ "-"
  value : option.value.isSome = takesValue operation option.name

instance (operation : String) : DecidablePred (CommandOption.Fits operation) := fun option =>
  decidable_of_iff (IsBareName option.name ∧ option.name ≠ "-" ∧
      option.value.isSome = takesValue operation option.name)
    ⟨fun fits => ⟨fits.1, fits.2.1, fits.2.2⟩, fun fits => ⟨fits.1, fits.2, fits.3⟩⟩

/-- The command runs this operation, and its options fit. -/
structure MiCommand.Fits (operation : String) (command : MiCommand) : Prop where
  runs : command.operation = operation
  bare : IsBareName operation
  options : ∀ option ∈ command.options, option.Fits operation

theorem readOptions_fields {operation : String} {options : List CommandOption}
    (fits : ∀ option ∈ options, option.Fits operation) (fields : List String) :
    readOptions (takesValue operation) (options.flatMap CommandOption.fields ++ fields) =
      (options ++ (readOptions (takesValue operation) fields).1,
        (readOptions (takesValue operation) fields).2) := by
  induction options with
  | nil => rfl
  | cons option options ih =>
      have own := fits option List.mem_cons_self
      have rest := ih fun other member => fits other (List.mem_cons_of_mem option member)
      obtain ⟨name, value⟩ := option
      have notSeparator : ¬ "-" ++ name = "--" := by
        intro isSeparator
        apply own.name_ne
        rw [← String.toList_inj] at isSeparator ⊢
        simpa using isSeparator
      have valued : value.isSome = takesValue operation name := own.value
      rw [List.flatMap_cons, CommandOption.fields, List.cons_append, List.cons_append, readOptions,
        if_neg notSeparator, optionName?_dash]
      cases value with
      | none => simp [← valued, rest]
      | some value => simp [← valued, rest]

theorem readOptions_parameters (takes : String → Bool) (parameters : List String) :
    readOptions takes
        ((if ∃ first ∈ parameters.head?, first.toList.head? = some '-' then ["--"] else []) ++
          parameters) = ([], parameters) := by
  cases parameters with
  | nil => simp [readOptions]
  | cons first rest =>
      by_cases dashed : first.toList.head? = some '-'
      · simp [dashed, readOptions]
      · have notSeparator : first ≠ "--" := by
          rintro rfl
          exact dashed rfl
        have notOption : optionName? first = none := by
          unfold optionName?
          split
          · next name isDashed => exact absurd (by rw [isDashed]; rfl) dashed
          · rfl
        simp [dashed, readOptions, notSeparator, notOption]

/-- The line of a command that fits the table reads back as the command. -/
theorem MiCommand.Fits.reads_back {operation : String} {command : MiCommand}
    (fits : command.Fits operation) (token : Token) :
    ∃ line, SubmitRequest.encode token (.structured command) = line ++ [Ascii.newline] ∧
      Ascii.newline ∉ line ∧ readCommand line = .ok (some token, command) := by
  have bare : IsBareName command.operation := by
    rw [fits.runs]
    exact fits.bare
  obtain ⟨line, afterToken, encoded, noNewline, tokenRead, fieldsRead⟩ :=
    exists_line_of_encodeCommand (some token) bare fun option member =>
      (fits.options option member).bare
  refine ⟨line, encoded, noNewline, ?_⟩
  have operationRead : (command.fields.head?.bind optionName?).getD "" = operation := by
    rw [MiCommand.fields, List.cons_append, List.cons_append, List.head?_cons, Option.bind_some,
      optionName?_dash, Option.getD_some, fits.runs]
  have optionsRead : readOptions (takesValue operation) command.fields.tail =
      (command.options, command.parameters) := by
    rw [MiCommand.fields, List.cons_append, List.cons_append, List.tail_cons, List.append_assoc,
      readOptions_fields fits.options, readOptions_parameters, List.append_nil]
  simp only [readCommand, tokenRead, fieldsRead, bind, Except.bind, operationRead, optionsRead]
  rw [← fits.runs]

namespace MiCommand

variable {command : MiCommand} {operation : String}

@[simp]
theorem fits_new_iff : (new operation).Fits operation ↔ IsBareName operation :=
  ⟨Fits.bare, fun bare => ⟨rfl, bare, nofun⟩⟩

@[simp]
theorem fits_parameter_iff {value : String} :
    (command.parameter value).Fits operation ↔ command.Fits operation :=
  ⟨fun fits => ⟨fits.1, fits.2, fits.3⟩, fun fits => ⟨fits.1, fits.2, fits.3⟩⟩

theorem fits_append_iff {added : CommandOption} :
    ({ command with options := command.options ++ [added] } : MiCommand).Fits operation ↔
      command.Fits operation ∧ added.Fits operation := by
  constructor
  · intro fits
    obtain ⟨earlier, last⟩ := List.forall_mem_append.mp fits.options
    exact ⟨⟨fits.runs, fits.bare, earlier⟩, last added (List.mem_singleton.mpr rfl)⟩
  · rintro ⟨fits, last⟩
    refine ⟨fits.runs, fits.bare, List.forall_mem_append.mpr ⟨fits.options, ?_⟩⟩
    intro option member
    rw [List.mem_singleton.mp member]
    exact last

@[simp]
theorem fits_option_iff {name : String} :
    (command.option name).Fits operation ↔
      command.Fits operation ∧ CommandOption.Fits operation ⟨name, none⟩ :=
  fits_append_iff

@[simp]
theorem fits_optionWith_iff {name value : String} :
    (command.optionWith name value).Fits operation ↔
      command.Fits operation ∧ CommandOption.Fits operation ⟨name, some ""⟩ := by
  rw [optionWith, fits_append_iff]
  exact and_congr_right'
    ⟨fun fits => ⟨fits.1, fits.2, fits.3⟩, fun fits => ⟨fits.1, fits.2, fits.3⟩⟩

@[simp]
theorem fits_optionIf_iff {asked : Bool} {name : String} :
    (command.optionIf asked name).Fits operation ↔
      command.Fits operation ∧ (asked = true → CommandOption.Fits operation ⟨name, none⟩) := by
  cases asked with
  | false => simp [optionIf]
  | true => simp [optionIf]

@[simp]
theorem fits_optionSome_iff {name : String} {value : Option String} :
    (command.optionSome name value).Fits operation ↔
      command.Fits operation ∧
        (value.isSome = true → CommandOption.Fits operation ⟨name, some ""⟩) := by
  cases value with
  | none => simp [optionSome]
  | some value => simp [optionSome]

@[simp]
theorem fits_parameterSome_iff {value : Option String} :
    (command.parameterSome value).Fits operation ↔ command.Fits operation := by
  cases value with
  | none => exact Iff.rfl
  | some value => exact fits_parameter_iff

@[simp]
theorem fits_parameterEach_iff {values : List String} :
    (command.parameterEach values).Fits operation ↔ command.Fits operation := by
  induction values generalizing command with
  | nil => exact Iff.rfl
  | cons value values ih => exact ih.trans fits_parameter_iff

end MiCommand

/-- Whatever its arguments, a tool names its operation and its options itself. -/
theorem Submits.fits {block : ToolBlock} {name : String} {command : MiCommand}
    (submits : Submits block name command) : command.Fits command.operation := by
  cases submits with
  | setWatchpoint args =>
      simp only [Tools.setWatchpoint]
      split <;> simp +decide
  | breakCommands args =>
      rw [breakCommands_eq]
      exact ⟨rfl, show IsBareName "break-commands" by decide, nofun⟩
  | backtrace limit =>
      cases limit with
      | none => simp +decide
      | some limit => simp +decide [Tools.backtrace]
  | listArguments args =>
      simp only [Tools.listArguments]
      split <;> simp +decide
  | varListChildren args =>
      simp only [Tools.varListChildren]
      split <;> simp +decide
  | disassemble args =>
      simp only [Framewalk.disassemble]
      split <;> split <;> simp +decide
  | listThreadGroups args =>
      simp only [Tools.listThreadGroups]
      split <;> simp +decide
  | traceFind mode => cases mode <;> simp +decide [Tools.traceFind]
  | _ =>
      simp only [MiCommand.operation_new, MiCommand.operation_parameter,
        MiCommand.operation_option, MiCommand.operation_optionIf, MiCommand.operation_optionSome,
        MiCommand.operation_parameterSome, MiCommand.operation_parameterEach,
        MiCommand.fits_new_iff, MiCommand.fits_parameter_iff, MiCommand.fits_option_iff,
        MiCommand.fits_optionIf_iff, MiCommand.fits_optionSome_iff,
        MiCommand.fits_parameterSome_iff,
        MiCommand.fits_parameterEach_iff]
      -- What is left are names, against the table.
      split_ands <;> intros <;> decide +kernel

/-- A tool's arguments cannot change what is run: the tool sends one line, which
reads back as the command that it built, with each argument in its place. -/
theorem tool_command_reads_back {block : ToolBlock} {name : String} {command : MiCommand}
    (submits : Submits block name command) (token : Token) :
    ∃ line, SubmitRequest.encode token (.structured command) = line ++ [Ascii.newline] ∧
      Ascii.newline ∉ line ∧ readCommand line = .ok (some token, command) :=
  submits.fits.reads_back token

/-- A location that looks like an option, and a condition with quotes and a line
break, stay what they are. -/
theorem tool_command_reads_back_break_insert :
    ∃ line, SubmitRequest.encode 5 (.structured
          ⟨"break-insert", [⟨"t", none⟩, ⟨"c", some "s == \"a\n-exec-run\""⟩], ["-t main"]⟩) =
        line ++ [Ascii.newline] ∧ Ascii.newline ∉ line ∧
      readCommand line = .ok (some 5,
        ⟨"break-insert", [⟨"t", none⟩, ⟨"c", some "s == \"a\n-exec-run\""⟩], ["-t main"]⟩) :=
  tool_command_reads_back
    (.setBreakpoint ⟨"-t main", some "s == \"a\n-exec-run\"", true⟩) 5

end Framewalk
