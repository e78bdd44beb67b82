import Framewalk.CommandFields

/-!
# Breakpoint commands are quoted twice

The tool wraps each command in double quotes before it hands the command line
to the encoder, which quotes such a parameter once more.  The command that GDB
reads back still carries the quotes of the tool.
-/

namespace Framewalk

structure BreakCommandsArgs where
  id : String
  commands : List String

/-- The command that the tool submits. -/
def breakCommands (args : BreakCommandsArgs) : MiCommand :=
  args.commands.foldl (fun command text => command.parameter ("\"" ++ text ++ "\""))
    ((MiCommand.new "break-commands").parameter args.id)

/-- A separator in front of the parameters is not one of them. -/
def skipSeparator : List String → List String
  | [] => []
  | first :: rest => if first = "--" then rest else first :: rest

/-- The parameters of a command line without options. -/
def readParameters (line : List UInt8) : Except CodecError (List String) := do
  let (_, afterToken) ← parseOptionalToken (.new line)
  let fields ← readFields afterToken
  .ok (skipSeparator fields.tail)

/-- The line that the tool sends reads back as the breakpoint and its
commands. -/
def DeliversCommands (token : Token) (args : BreakCommandsArgs) : Prop :=
  ∃ line, encodeCommand (some token) (breakCommands args) = line ++ [Ascii.newline] ∧
    Ascii.newline ∉ line ∧ readParameters line = .ok (args.id :: args.commands)

theorem foldl_parameter (spell : String → String) (texts : List String) (command : MiCommand) :
    texts.foldl (fun command text => command.parameter (spell text)) command =
      { command with parameters := command.parameters ++ texts.map spell } := by
  induction texts generalizing command with
  | nil =>
      rw [List.map_nil, List.append_nil]
      rfl
  | cons text texts ih =>
      rw [List.foldl_cons, ih]
      simp only [MiCommand.parameter, List.append_assoc, List.singleton_append, List.map_cons]

theorem breakCommands_eq (args : BreakCommandsArgs) :
    breakCommands args = ⟨"break-commands", [],
      args.id :: args.commands.map fun text => "\"" ++ text ++ "\""⟩ :=
  foldl_parameter (fun text => "\"" ++ text ++ "\"") args.commands _

theorem skipSeparator_fields (command : MiCommand) (noOptions : command.options = []) :
    skipSeparator command.fields.tail = command.parameters := by
  rw [MiCommand.fields, noOptions]
  cases command.parameters with
  | nil => rfl
  | cons first rest =>
      by_cases dash : first.toList.head? = some '-'
      · simp [skipSeparator, dash]
      · have notSeparator : first ≠ "--" := by
          rintro rfl
          exact dash rfl
        simp [skipSeparator, dash, notSeparator]

theorem readParameters_breakCommands (token : Token) (args : BreakCommandsArgs) :
    ∃ line, encodeCommand (some token) (breakCommands args) = line ++ [Ascii.newline] ∧
      Ascii.newline ∉ line ∧
      readParameters line =
        .ok (args.id :: args.commands.map fun text => "\"" ++ text ++ "\"") := by
  have nameBare : IsBareName "break-commands" := by decide
  have operationBare : IsBareName (breakCommands args).operation := by
    rw [breakCommands_eq]
    exact nameBare
  have noOptions : (breakCommands args).options = [] := by rw [breakCommands_eq]
  obtain ⟨line, afterToken, encoded, noNewline, tokenRead, fieldsRead⟩ :=
    exists_line_of_encodeCommand (some token) operationBare (by simp [noOptions])
  refine ⟨line, encoded, noNewline, ?_⟩
  simp only [readParameters, tokenRead, bind, Except.bind, fieldsRead]
  rw [skipSeparator_fields _ noOptions, breakCommands_eq]

theorem quoted_ne (text : String) : "\"" ++ text ++ "\"" ≠ text := by
  intro same
  have lengths := congrArg String.length same
  rw [String.length_append, String.length_append] at lengths
  have oneQuote : "\"".length = 1 := rfl
  omega

theorem map_quoted_of_delivers {token : Token} {args : BreakCommandsArgs}
    (delivers : DeliversCommands token args) :
    args.commands.map (fun text => "\"" ++ text ++ "\"") = args.commands := by
  rcases readParameters_breakCommands token args with ⟨line, encoded, _, isRead⟩
  rcases delivers with ⟨other, otherEncoded, _, otherRead⟩
  obtain rfl : line = other := List.append_cancel_right (encoded.symm.trans otherEncoded)
  exact (List.cons.inj (Except.ok.inj (isRead.symm.trans otherRead))).2

/-- Only a breakpoint without commands is delivered as it was given. -/
theorem deliversCommands_iff (token : Token) (args : BreakCommandsArgs) :
    DeliversCommands token args ↔ args.commands = [] := by
  constructor
  · intro delivers
    have sameCommands := map_quoted_of_delivers delivers
    cases isCommands : args.commands with
    | nil => rfl
    | cons text texts =>
        rw [isCommands, List.map_cons] at sameCommands
        exact absurd (List.cons.inj sameCommands).1 (quoted_ne text)
  · intro noCommands
    rcases readParameters_breakCommands token args with ⟨line, encoded, noNewline, isRead⟩
    refine ⟨line, encoded, noNewline, ?_⟩
    rw [isRead, noCommands]
    rfl

/-- The quotes of the tool arrive as part of the commands. -/
theorem printAndContinue_keeps_quotes :
    (∃ line, encodeCommand (some 7) (breakCommands ⟨"2", ["print x", "continue"]⟩) =
        line ++ [Ascii.newline] ∧
      readParameters line = .ok ["2", "\"print x\"", "\"continue\""]) ∧
      ¬ DeliversCommands 7 ⟨"2", ["print x", "continue"]⟩ := by
  constructor
  · rcases readParameters_breakCommands 7 ⟨"2", ["print x", "continue"]⟩ with
      ⟨line, encoded, _, isRead⟩
    exact ⟨line, encoded, isRead⟩
  · intro delivers
    have kept := (List.cons.inj (map_quoted_of_delivers delivers)).1
    exact quoted_ne "print x" kept

end Framewalk
