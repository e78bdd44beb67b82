import Framewalk.CommandFields

/-!
# Disassembly commands have two separators

The tool separates its options from its parameter itself.  To the encoder that
separator is a first parameter with a leading dash, which it separates once
more, so one of the two is always read as a parameter.
-/

namespace Framewalk

inductive OpcodeMode where
  | none
  | bytes
  | display
  deriving DecidableEq

def OpcodeMode.asMiArg : OpcodeMode → String
  | .none => "none"
  | .bytes => "bytes"
  | .display => "display"

structure DisassembleArgs where
  startAddr : String
  endAddr : String
  opcodes : Option OpcodeMode
  source : Bool

/-- The command that the tool submits. -/
def disassemble (args : DisassembleArgs) : MiCommand :=
  let command := ((MiCommand.new "data-disassemble").optionWith "s" args.startAddr).optionWith "e"
    args.endAddr
  let command :=
    match args.opcodes with
    | some opcodes => command.optionWith "opcodes" opcodes.asMiArg
    | none => command
  let command := if args.source then command.option "source" else command
  (command.parameter "--").parameter "0"

/-- The fields of a command line are its operation, the options with their values,
at most one separator, and the parameters. -/
def ReadsAs (fields : List String) (command : MiCommand) : Prop :=
  ∃ separator, (separator = [] ∨ separator = ["--"]) ∧
    fields = ("-" ++ command.operation) :: command.options.flatMap CommandOption.fields ++
      separator ++ command.parameters

/-- The options that are asked for, in the order of the tool. -/
def DisassembleArgs.options (args : DisassembleArgs) : List CommandOption :=
  [⟨"s", some args.startAddr⟩, ⟨"e", some args.endAddr⟩] ++
    args.opcodes.toList.map (fun opcodes => ⟨"opcodes", some opcodes.asMiArg⟩) ++
    if args.source then [⟨"source", none⟩] else []

/-- The line that the tool sends reads as the requested options and the one
parameter. -/
def DisassemblesAsRequested (token : Token) (args : DisassembleArgs) : Prop :=
  ∃ line fields, encodeCommand (some token) (disassemble args) = line ++ [Ascii.newline] ∧
    Ascii.newline ∉ line ∧
    (∃ afterToken, parseOptionalToken (.new line) = .ok (some token, afterToken) ∧
      readFields afterToken = .ok fields) ∧
    ReadsAs fields ⟨"data-disassemble", args.options, ["0"]⟩

theorem disassemble_eq (args : DisassembleArgs) :
    disassemble args = ⟨"data-disassemble", args.options, ["--", "0"]⟩ := by
  rcases args with ⟨startAddr, endAddr, opcodes, source⟩
  cases opcodes <;> cases source <;> rfl

theorem options_bare (args : DisassembleArgs) :
    ∀ option ∈ args.options, IsBareName option.name := by
  have names : ∀ name ∈ ["s", "e", "opcodes", "source"], IsBareName name := by decide
  intro option member
  apply names
  simp only [DisassembleArgs.options, List.mem_append, List.mem_cons, List.not_mem_nil, or_false,
    List.mem_map] at member
  rcases member with ((rfl | rfl) | ⟨opcodes, _, rfl⟩) | isSource
  · simp
  · simp
  · simp
  · split_ifs at isSource
    · rw [List.mem_singleton.mp isSource]
      simp
    · cases isSource

theorem disassemble_fields (args : DisassembleArgs) :
    (disassemble args).fields =
      "-data-disassemble" :: args.options.flatMap CommandOption.fields ++ ["--", "--", "0"] := by
  have dashed : ∃ first ∈ ["--", "0"].head?, first.toList.head? = some '-' := ⟨"--", rfl, rfl⟩
  rw [disassemble_eq, MiCommand.fields, if_pos dashed]
  simp

theorem disassemble_reads (token : Token) (args : DisassembleArgs) :
    ∃ line afterToken, encodeCommand (some token) (disassemble args) = line ++ [Ascii.newline] ∧
      parseOptionalToken (.new line) = .ok (some token, afterToken) ∧
      readFields afterToken = .ok (disassemble args).fields ∧
      ReadsAs (disassemble args).fields ⟨"data-disassemble", args.options, ["--", "0"]⟩ := by
  have nameBare : IsBareName "data-disassemble" := by decide
  have operationBare : IsBareName (disassemble args).operation := by
    rw [disassemble_eq]
    exact nameBare
  have optionsBare : ∀ option ∈ (disassemble args).options, IsBareName option.name := by
    rw [disassemble_eq]
    exact options_bare args
  obtain ⟨line, afterToken, encoded, _, tokenRead, fieldsRead⟩ :=
    exists_line_of_encodeCommand (some token) operationBare optionsBare
  refine ⟨line, afterToken, encoded, tokenRead, fieldsRead, ["--"], Or.inr rfl, ?_⟩
  rw [disassemble_fields]
  simp

theorem not_readsAs_requested (args : DisassembleArgs) :
    ¬ ReadsAs (disassemble args).fields ⟨"data-disassemble", args.options, ["0"]⟩ := by
  rintro ⟨separator, isSeparator, fieldsEq⟩
  have lengths := congrArg List.length fieldsEq
  rw [disassemble_fields] at lengths
  simp only [List.length_append, List.length_cons, List.length_nil] at lengths
  rcases isSeparator with rfl | rfl
  · rw [List.length_nil] at lengths
    omega
  · rw [List.length_singleton] at lengths
    omega

theorem fields_of_encoded {token : Token} {args : DisassembleArgs} {line : List UInt8}
    {afterToken : Cursor} {fields : List String}
    (encoded : encodeCommand (some token) (disassemble args) = line ++ [Ascii.newline])
    (tokenRead : parseOptionalToken (.new line) = .ok (some token, afterToken))
    (fieldsRead : readFields afterToken = .ok fields) : fields = (disassemble args).fields := by
  obtain ⟨other, otherAfter, otherEncoded, otherToken, otherFields, _⟩ :=
    disassemble_reads token args
  obtain rfl : other = line := List.append_cancel_right (otherEncoded.symm.trans encoded)
  rw [tokenRead] at otherToken
  cases otherToken
  rw [fieldsRead] at otherFields
  exact Except.ok.inj otherFields

/-- No arguments make a line that reads as requested. -/
theorem disassemble_never_as_requested (token : Token) (args : DisassembleArgs) :
    ¬ DisassemblesAsRequested token args := by
  rintro ⟨line, fields, encoded, _, ⟨afterToken, tokenRead, fieldsRead⟩, readsAs⟩
  rw [fields_of_encoded encoded tokenRead fieldsRead] at readsAs
  exact not_readsAs_requested args readsAs

/-- Plain arguments send two separators. -/
theorem disassembleMain_sends_two_separators :
    encodeCommand (some 7) (disassemble ⟨"main", "main+20", none, false⟩) =
        Utf8Text.asBytes "7-data-disassemble -s main -e main+20 -- -- 0\n" ∧
      ¬ DisassemblesAsRequested 7 ⟨"main", "main+20", none, false⟩ := by
  constructor
  · decide
  · rintro ⟨line, fields, encoded, _, ⟨afterToken, tokenRead, fieldsRead⟩, readsAs⟩
    rw [fields_of_encoded encoded tokenRead fieldsRead] at readsAs
    exact not_readsAs_requested _ readsAs

end Framewalk
