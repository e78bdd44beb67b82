import Framewalk.GuardedLines
import Framewalk.SchemeCommands
import Framewalk.SteelValues

/-!
# Commands of the prelude

A function of the prelude writes its own operation and flags, and quotes what it is
given.  Whatever that is, the line passes the guard, stays one line, and is read as
this operation with one field for each argument.
-/

namespace Framewalk

open Utf8Text OutputGrammar
open RawGuard (validateRawMiCommand validateRawMiCommand_of_name
  validateRawMiCommand_of_name_alone appendedBytes appendedBytes_eq IsOperationName
  allowedCommands toAsciiLowercase)

namespace Prelude

section Ids

-- How the engine writes a number; nothing for what is none.
variable (numberToString : SteelVal → Option String)

def idToString (who : String) : SteelVal → Except String String
  | .stringV text => .ok text
  | value =>
      match numberToString value with
      | some text => .ok text
      | none => .error (who ++ " expects an id as a string or number")

/-- The line of a function whose argument is an id. -/
def ofId (who operation : String) (value : SteelVal) : Except String String :=
  (fun id => miCmd operation [id]) <$> idToString numberToString who value

def attach (pid : SteelVal) : Except String String :=
  ofId numberToString "attach" "target-attach" pid

def deleteBreakpoint (id : SteelVal) : Except String String :=
  ofId numberToString "delete-breakpoint" "break-delete" id

def enableBreakpoint (id : SteelVal) : Except String String :=
  ofId numberToString "enable-breakpoint" "break-enable" id

def disableBreakpoint (id : SteelVal) : Except String String :=
  ofId numberToString "disable-breakpoint" "break-disable" id

def selectFrame (level : SteelVal) : Except String String :=
  ofId numberToString "select-frame" "stack-select-frame" level

def selectThread (id : SteelVal) : Except String String :=
  ofId numberToString "select-thread" "thread-select" id

end Ids

def loadFile (path : String) : String :=
  miCmd "file-exec-and-symbols" [path]

def detach : String :=
  miCmd "target-detach" []

def targetRemote (place : String) : String :=
  miCmd "target-select" ["remote", place]

def targetExtendedRemote (place : String) : String :=
  miCmd "target-select" ["extended-remote", place]

def targetDisconnect : String :=
  miCmd "target-disconnect" []

def run : String :=
  miCmd "exec-run" []

def cont : String :=
  miCmd "exec-continue" []

def step : String :=
  miCmd "exec-step" []

def next : String :=
  miCmd "exec-next" []

def finish : String :=
  miCmd "exec-finish" []

def interrupt : String :=
  "-exec-interrupt --all"

def untilLocation (location : String) : String :=
  miCmd "exec-until" [location]

def stepInstruction : String :=
  miCmd "exec-step-instruction" []

def nextInstruction : String :=
  miCmd "exec-next-instruction" []

def reverseStep : String :=
  "-exec-step --reverse"

def reverseNext : String :=
  "-exec-next --reverse"

def reverseContinue : String :=
  "-exec-continue --reverse"

def reverseFinish : String :=
  "-exec-finish --reverse"

def setBreakpoint (location : String) : String :=
  miCmd "break-insert" [location]

-- A flag is no argument, so these are not built by `miCmd`.
def setTempBreakpoint (location : String) : String :=
  "-break-insert -t " ++ miQuoteParam location

def setHwBreakpoint (location : String) : String :=
  "-break-insert -h " ++ miQuoteParam location

def setTempHwBreakpoint (location : String) : String :=
  "-break-insert -t -h " ++ miQuoteParam location

def listBreakpoints : String :=
  miCmd "break-list" []

def backtraceAll : String :=
  miCmd "stack-list-frames" []

/-- Both bounds are inclusive. -/
def backtraceLimit (limit : Int) : String :=
  miCmd "stack-list-frames" ["0", toString (limit - 1)]

def listLocals : String :=
  "-stack-list-locals 1"

def listArguments : String :=
  "-stack-list-arguments 1"

def stackDepth : String :=
  miCmd "stack-info-depth" []

def listThreads : String :=
  miCmd "thread-info" []

def inspect (expression : String) : String :=
  miCmd "data-evaluate-expression" [expression]

end Prelude

/-- A call of such a function. -/
inductive PreludeCall where
  | loadFile (path : String)
  | attach (pid : SteelVal)
  | detach
  | targetRemote (place : String)
  | targetExtendedRemote (place : String)
  | targetDisconnect
  | run
  | cont
  | step
  | next
  | finish
  | interrupt
  | untilLocation (location : String)
  | stepInstruction
  | nextInstruction
  | reverseStep
  | reverseNext
  | reverseContinue
  | reverseFinish
  | setBreakpoint (location : String)
  | setTempBreakpoint (location : String)
  | setHwBreakpoint (location : String)
  | setTempHwBreakpoint (location : String)
  | deleteBreakpoint (id : SteelVal)
  | enableBreakpoint (id : SteelVal)
  | disableBreakpoint (id : SteelVal)
  | listBreakpoints
  | backtraceAll
  | backtraceLimit (limit : Int)
  | listLocals
  | listArguments
  | stackDepth
  | selectFrame (level : SteelVal)
  | listThreads
  | selectThread (id : SteelVal)
  | inspect (expression : String)

namespace PreludeCall

variable (numberToString : SteelVal → Option String)

/-- What the call submits, or the error that it raises. -/
def line : PreludeCall → Except String String
  | .loadFile path => .ok (Prelude.loadFile path)
  | .attach pid => Prelude.attach numberToString pid
  | .detach => .ok Prelude.detach
  | .targetRemote place => .ok (Prelude.targetRemote place)
  | .targetExtendedRemote place => .ok (Prelude.targetExtendedRemote place)
  | .targetDisconnect => .ok Prelude.targetDisconnect
  | .run => .ok Prelude.run
  | .cont => .ok Prelude.cont
  | .step => .ok Prelude.step
  | .next => .ok Prelude.next
  | .finish => .ok Prelude.finish
  | .interrupt => .ok Prelude.interrupt
  | .untilLocation location => .ok (Prelude.untilLocation location)
  | .stepInstruction => .ok Prelude.stepInstruction
  | .nextInstruction => .ok Prelude.nextInstruction
  | .reverseStep => .ok Prelude.reverseStep
  | .reverseNext => .ok Prelude.reverseNext
  | .reverseContinue => .ok Prelude.reverseContinue
  | .reverseFinish => .ok Prelude.reverseFinish
  | .setBreakpoint location => .ok (Prelude.setBreakpoint location)
  | .setTempBreakpoint location => .ok (Prelude.setTempBreakpoint location)
  | .setHwBreakpoint location => .ok (Prelude.setHwBreakpoint location)
  | .setTempHwBreakpoint location => .ok (Prelude.setTempHwBreakpoint location)
  | .deleteBreakpoint id => Prelude.deleteBreakpoint numberToString id
  | .enableBreakpoint id => Prelude.enableBreakpoint numberToString id
  | .disableBreakpoint id => Prelude.disableBreakpoint numberToString id
  | .listBreakpoints => .ok Prelude.listBreakpoints
  | .backtraceAll => .ok Prelude.backtraceAll
  | .backtraceLimit limit => .ok (Prelude.backtraceLimit limit)
  | .listLocals => .ok Prelude.listLocals
  | .listArguments => .ok Prelude.listArguments
  | .stackDepth => .ok Prelude.stackDepth
  | .selectFrame level => Prelude.selectFrame numberToString level
  | .listThreads => .ok Prelude.listThreads
  | .selectThread id => Prelude.selectThread numberToString id
  | .inspect expression => .ok (Prelude.inspect expression)

/-- An id is its own text, or a number's. -/
def ofId (who operation : String) (value : SteelVal) :
    Except String (String × List String × List String) :=
  match value, numberToString value with
  | .stringV text, _ | _, some text => .ok (operation, [], [text])
  | _, none => .error (who ++ " expects an id as a string or number")

/-- The operation, the flags and the arguments that the call is for. -/
def intent : PreludeCall → Except String (String × List String × List String)
  | .loadFile path => .ok ("file-exec-and-symbols", [], [path])
  | .attach pid => ofId numberToString "attach" "target-attach" pid
  | .detach => .ok ("target-detach", [], [])
  | .targetRemote place => .ok ("target-select", [], ["remote", place])
  | .targetExtendedRemote place => .ok ("target-select", [], ["extended-remote", place])
  | .targetDisconnect => .ok ("target-disconnect", [], [])
  | .run => .ok ("exec-run", [], [])
  | .cont => .ok ("exec-continue", [], [])
  | .step => .ok ("exec-step", [], [])
  | .next => .ok ("exec-next", [], [])
  | .finish => .ok ("exec-finish", [], [])
  | .interrupt => .ok ("exec-interrupt", ["--all"], [])
  | .untilLocation location => .ok ("exec-until", [], [location])
  | .stepInstruction => .ok ("exec-step-instruction", [], [])
  | .nextInstruction => .ok ("exec-next-instruction", [], [])
  | .reverseStep => .ok ("exec-step", ["--reverse"], [])
  | .reverseNext => .ok ("exec-next", ["--reverse"], [])
  | .reverseContinue => .ok ("exec-continue", ["--reverse"], [])
  | .reverseFinish => .ok ("exec-finish", ["--reverse"], [])
  | .setBreakpoint location => .ok ("break-insert", [], [location])
  | .setTempBreakpoint location => .ok ("break-insert", ["-t"], [location])
  | .setHwBreakpoint location => .ok ("break-insert", ["-h"], [location])
  | .setTempHwBreakpoint location => .ok ("break-insert", ["-t", "-h"], [location])
  | .deleteBreakpoint id => ofId numberToString "delete-breakpoint" "break-delete" id
  | .enableBreakpoint id => ofId numberToString "enable-breakpoint" "break-enable" id
  | .disableBreakpoint id => ofId numberToString "disable-breakpoint" "break-disable" id
  | .listBreakpoints => .ok ("break-list", [], [])
  | .backtraceAll => .ok ("stack-list-frames", [], [])
  | .backtraceLimit limit => .ok ("stack-list-frames", [], ["0", toString (limit - 1)])
  | .listLocals => .ok ("stack-list-locals", ["1"], [])
  | .listArguments => .ok ("stack-list-arguments", ["1"], [])
  | .stackDepth => .ok ("stack-info-depth", [], [])
  | .selectFrame level => ofId numberToString "select-frame" "stack-select-frame" level
  | .listThreads => .ok ("thread-info", [], [])
  | .selectThread id => ofId numberToString "select-thread" "thread-select" id
  | .inspect expression => .ok ("data-evaluate-expression", [], [expression])

end PreludeCall

/-- What an argument is read as: itself if it is a plain word, and otherwise the text
with a character for every byte. -/
def readArgument (argument : String) : String :=
  if IsPlainWord argument then argument else bytesAsChars argument

theorem readArgument_eq_iff (argument : String) :
    readArgument argument = argument ↔ IsPlainWord argument ∨ IsAscii argument := by
  unfold readArgument
  split_ifs with plain
  · simp [plain]
  · simp [plain, bytesAsChars_eq_iff]

theorem IsPlainWord.isField {word : String} (plain : IsPlainWord word) :
    IsField (asBytes word) word := by
  refine .bare rfl ?_ ?_ ?_
  · exact fun member => (plain.2 Ascii.space member).1 rfl
  · exact fun member => (plain.2 Ascii.quote member).2.1 rfl
  · intro member
    have high := (plain.2 Ascii.newline member).2.2.2.1
    exact absurd high (by decide)

theorem scriptParameter_isField (argument : String) :
    IsField (scriptParameter argument) (readArgument argument) := by
  unfold scriptParameter readArgument
  split_ifs with plain
  · rw [miQuoteParam_of_plain plain]
    exact plain.isField
  · rw [asBytes_miQuoteParam plain]
    exact .quoted (encodeCstring_isCString _) (newline_not_mem_encodeCstring _)

/-- Words, each behind a space. -/
def spaced : List String → String
  | [] => ""
  | word :: words => " " ++ word ++ spaced words

/-- An operation, its flags, and quoted arguments. -/
def flaggedLine (operation : String) (flags arguments : List String) : String :=
  "-" ++ operation ++ spaced (flags ++ arguments.map miQuoteParam)

theorem miArgs_eq_spaced (arguments : List String) :
    miArgs arguments = spaced (arguments.map miQuoteParam) := by
  induction arguments with
  | nil => rfl
  | cons argument rest ih =>
      cases rest with
      | nil => simp [miArgs, spaced]
      | cons second rest =>
          rw [miArgs, ih, List.map_cons, spaced]
          · rfl
          · simp

theorem miCmd_eq_flaggedLine (operation : String) (arguments : List String) :
    miCmd operation arguments = flaggedLine operation [] arguments := by
  cases arguments with
  | nil => simp [miCmd, flaggedLine, spaced]
  | cons argument rest =>
      rw [miCmd, miArgs_eq_spaced, flaggedLine, List.nil_append]
      simp

theorem spaced_append (words more : List String) :
    spaced (words ++ more) = spaced words ++ spaced more := by
  induction words with
  | nil => simp [spaced]
  | cons word words ih => simp only [List.cons_append, spaced, ih, String.append_assoc]

/-- Quoting behind a text that ends in a space. -/
theorem append_miQuoteParam_eq {opening operation : String} {flags : List String}
    (isOpening : opening = "-" ++ operation ++ spaced flags ++ " ") (argument : String) :
    opening ++ miQuoteParam argument = flaggedLine operation flags [argument] := by
  rw [isOpening, flaggedLine, spaced_append, List.map_cons, List.map_nil, spaced, spaced,
    String.append_empty]
  simp only [String.append_assoc]

theorem spaced_isFields {flags : List String} (plain : ∀ flag ∈ flags, IsPlainWord flag)
    (arguments : List String) :
    IsFields (asBytes (spaced (flags ++ arguments.map miQuoteParam)))
      (flags ++ arguments.map readArgument) := by
  have cons : ∀ {word field : String} {words fields : List String},
      IsField (asBytes word) field → IsFields (asBytes (spaced words)) fields →
        IsFields (asBytes (spaced (word :: words))) (field :: fields) := by
    intro word field words fields isField more
    rw [spaced, asBytes_append, asBytes_append, asBytes_space]
    exact .cons isField more
  induction flags with
  | nil =>
      induction arguments with
      | nil => exact .nil
      | cons argument rest ih => exact cons (scriptParameter_isField argument) ih
  | cons flag flags ih =>
      have more := ih fun other member => plain other (List.mem_cons_of_mem flag member)
      exact cons (plain flag List.mem_cons_self).isField more

/-- A name that the guard knows and the reader takes bare. -/
def IsListedOperation (operation : String) : Prop :=
  IsOperationName operation ∧ IsBareName operation ∧
    allowedCommands.any fun entry => entry.matches (operation.toList.map toAsciiLowercase)

instance : DecidablePred IsListedOperation :=
  fun _ => inferInstanceAs (Decidable (_ ∧ _ ∧ _))

/-- The call raises the error that it is to raise.  Or else its line passes the guard,
and what is sent for it is one line, of the token, the operation, the flags and one
field for each argument. -/
inductive RunsAsIntended :
    Except String String → Except String (String × List String × List String) → Prop
  | raised {message : String} : RunsAsIntended (.error message) (.error message)
  | sent {line operation : String} {flags arguments : List String} :
      (∀ allowShell, validateRawMiCommand line allowShell = .ok ()) →
      (∀ connection : Connection, ∃ bytes afterToken,
        appendedBytes connection line = bytes ++ [Ascii.newline] ∧ Ascii.newline ∉ bytes ∧
          parseOptionalToken (.new bytes) = .ok (some connection.tokens.next, afterToken) ∧
          readFields afterToken =
            .ok (("-" ++ operation) :: (flags ++ arguments.map readArgument))) →
      RunsAsIntended (.ok line) (.ok (operation, flags, arguments))

/-- A line of plain flags and quoted arguments does what it is for. -/
theorem flaggedLine_runsAsIntended {operation : String} {flags : List String}
    (isListed : IsListedOperation operation) (plain : ∀ flag ∈ flags, IsPlainWord flag)
    (arguments : List String) :
    RunsAsIntended (.ok (flaggedLine operation flags arguments))
      (.ok (operation, flags, arguments)) := by
  obtain ⟨isName, isBare, listed⟩ := isListed
  have isFields := spaced_isFields plain arguments
  constructor
  · intro allowShell
    unfold flaggedLine
    cases flags ++ arguments.map miQuoteParam with
    | nil =>
        rw [spaced, String.append_empty]
        exact validateRawMiCommand_of_name_alone isName listed allowShell
    | cons word words =>
        have accepted :=
          validateRawMiCommand_of_name isName listed (word ++ spaced words) allowShell
        rw [spaced]
        simpa [String.append_assoc] using accepted
  · intro connection
    obtain ⟨noNewline, afterToken, tokenRead, fieldsRead⟩ :=
      line_reads_back (toString_isToken connection.tokens.next) isBare isFields
    have dash : asBytes "-" = [Ascii.minus] := by decide
    refine ⟨_, afterToken, ?_, noNewline, tokenRead, fieldsRead⟩
    rw [appendedBytes_eq, flaggedLine, asBytes_append, asBytes_append, dash]
    simp only [List.append_assoc, List.cons_append, List.nil_append]

theorem miCmd_runsAsIntended {operation : String} (isListed : IsListedOperation operation)
    (arguments : List String) :
    RunsAsIntended (.ok (miCmd operation arguments)) (.ok (operation, [], arguments)) := by
  rw [miCmd_eq_flaggedLine]
  exact flaggedLine_runsAsIntended isListed (by simp) arguments

/-- However the line is written, it is enough that it is such a line. -/
theorem runsAsIntended_of_eq {line : String} (operation : String) (flags arguments : List String)
    (isLine : line = flaggedLine operation flags arguments)
    (isListed : IsListedOperation operation) (plain : ∀ flag ∈ flags, IsPlainWord flag) :
    RunsAsIntended (.ok line) (.ok (operation, flags, arguments)) := by
  rw [isLine]
  exact flaggedLine_runsAsIntended isListed plain arguments

theorem ofId_runsAsIntended (numberToString : SteelVal → Option String) (who : String)
    {operation : String} (isListed : IsListedOperation operation) (value : SteelVal) :
    RunsAsIntended (Prelude.ofId numberToString who operation value)
      (PreludeCall.ofId numberToString who operation value) := by
  unfold Prelude.ofId Prelude.idToString PreludeCall.ofId
  cases value with
  | stringV text => exact miCmd_runsAsIntended isListed [text]
  | boolV | numV | intV | charV | void | symbolV | listV | vectorV | hashMapV | other =>
      simp only
      generalize numberToString _ = number
      cases number with
      | none => exact .raised
      | some text => exact miCmd_runsAsIntended isListed [text]

/-- Every function of the prelude does what it is for, whatever it is given. -/
theorem prelude_call_runs_as_intended (numberToString : SteelVal → Option String)
    (call : PreludeCall) :
    RunsAsIntended (call.line numberToString) (call.intent numberToString) := by
  cases call with
  | attach value | deleteBreakpoint value | enableBreakpoint value | disableBreakpoint value
  | selectFrame value | selectThread value =>
      exact ofId_runsAsIntended numberToString _ (by decide +kernel) value
  | interrupt =>
      exact runsAsIntended_of_eq "exec-interrupt" ["--all"] [] (by decide) (by decide +kernel)
        (by decide +kernel)
  | reverseStep =>
      exact runsAsIntended_of_eq "exec-step" ["--reverse"] [] (by decide) (by decide +kernel)
        (by decide +kernel)
  | reverseNext =>
      exact runsAsIntended_of_eq "exec-next" ["--reverse"] [] (by decide) (by decide +kernel)
        (by decide +kernel)
  | reverseContinue =>
      exact runsAsIntended_of_eq "exec-continue" ["--reverse"] [] (by decide) (by decide +kernel)
        (by decide +kernel)
  | reverseFinish =>
      exact runsAsIntended_of_eq "exec-finish" ["--reverse"] [] (by decide) (by decide +kernel)
        (by decide +kernel)
  | listLocals =>
      exact runsAsIntended_of_eq "stack-list-locals" ["1"] [] (by decide) (by decide +kernel)
        (by decide +kernel)
  | listArguments =>
      exact runsAsIntended_of_eq "stack-list-arguments" ["1"] [] (by decide) (by decide +kernel)
        (by decide +kernel)
  | setTempBreakpoint location =>
      exact runsAsIntended_of_eq "break-insert" ["-t"] [location]
        (append_miQuoteParam_eq (by decide +kernel) location) (by decide +kernel)
        (by decide +kernel)
  | setHwBreakpoint location =>
      exact runsAsIntended_of_eq "break-insert" ["-h"] [location]
        (append_miQuoteParam_eq (by decide +kernel) location) (by decide +kernel)
        (by decide +kernel)
  | setTempHwBreakpoint location =>
      exact runsAsIntended_of_eq "break-insert" ["-t", "-h"] [location]
        (append_miQuoteParam_eq (by decide +kernel) location) (by decide +kernel)
        (by decide +kernel)
  | loadFile | detach | targetRemote | targetExtendedRemote | targetDisconnect | run | cont | step
  | next | finish | untilLocation | stepInstruction | nextInstruction | setBreakpoint
  | listBreakpoints | backtraceAll | backtraceLimit | stackDepth | listThreads | inspect =>
      exact miCmd_runsAsIntended (by decide +kernel) _

example : Prelude.attach (fun _ => none) (.boolV true) =
    .error "attach expects an id as a string or number" := by
  rfl

end Framewalk
