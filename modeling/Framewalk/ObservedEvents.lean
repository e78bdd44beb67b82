import Framewalk.EventJournal

/-!
# Events as a client is shown them

A drain summarises each event that a client may care about: what the target did,
what it printed, and what could not be parsed.  Completed commands and the ends
of groups are not shown.
-/

namespace Framewalk

/-- Printable ASCII is shown in quotes, everything else in hexadecimal. -/
def byteRepr (byte : UInt8) : String :=
  if 0x20 ≤ byte ∧ byte ≤ 0x7e then "\x27" ++ String.singleton (Char.ofNat byte.toNat) ++ "\x27"
  else "0x" ++ String.ofList [Nat.digitChar (byte.toNat / 16), Nat.digitChar (byte.toNat % 16)]

def Expected.display : Expected → String
  | .byte expected => byteRepr expected
  | .oneOf bytes => "one of [" ++ ", ".intercalate (bytes.map byteRepr) ++ "]"
  | .description text => text

def CStringError.display : CStringError → String
  | .missingOpenQuote => "missing opening \x60\"\x60"
  | .missingCloseQuote => "unterminated c-string (missing closing \x60\"\x60)"
  | .invalidEscape found => "invalid escape sequence \\" ++ byteRepr found
  | .truncatedEscape => "truncated escape sequence"
  | .invalidHexDigit found => "invalid hex digit in \\x escape: " ++ byteRepr found

def CodecErrorKind.display : CodecErrorKind → String
  | .unexpectedEnd => "unexpected end of input"
  | .unexpectedByte expected found =>
      "unexpected byte " ++ byteRepr found ++ ": expected " ++ expected.display
  | .invalidRecordPrefix found => "invalid record prefix byte " ++ byteRepr found
  -- The name is an identifier, so quoting it for debugging escapes nothing.
  | .unknownResultClass name => "unknown result class \"" ++ name ++ "\""
  | .streamRecordHasToken =>
      "stream record carries a leading token, which the MI BNF forbids"
  | .tokenOverflow => "token value does not fit in u64"
  | .invalidIdentifier => "invalid or empty identifier"
  | .expectedEquals => "expected \x27=\x27 after result name"
  | .mixedList => "list mixes bare values and named results, which the MI BNF forbids"
  | .invalidCString reason => "invalid c-string: " ++ reason.display
  | .invalidUtf8 => "c-string contents are not valid UTF-8"
  | .trailingGarbage => "unexpected trailing bytes after record"

def CodecError.display (error : CodecError) : String :=
  "codec error at byte " ++ toString error.offset ++ ": " ++ error.kind.display

/-- A number is an integer or a finite float, the latter by its bits. -/
inductive Json where
  | null
  | bool (flag : Bool)
  | integer (value : Int)
  | float (bits : UInt64)
  | string (text : String)
  | array (items : List Json)
  | object (entries : List (String × Json))

def Json.number (value : UInt32) : Json :=
  .integer value.toNat

mutual

def valueToJson : Value → Json
  | .const text => .string text
  | .tuple entries => .array (entriesToJson entries)
  | .list .empty => .array []
  | .list (.values items) => .array (valuesToJson items)
  | .list (.results entries) => .array (entriesToJson entries)

def entriesToJson : List (String × Value) → List Json
  | [] => []
  | (name, value) :: rest =>
      .object [("name", .string name), ("value", valueToJson value)] :: entriesToJson rest

def valuesToJson : List Value → List Json
  | [] => []
  | value :: rest => valueToJson value :: valuesToJson rest

end

def resultsToJson (results : Results) : Json :=
  .array (entriesToJson results)

def StackFrame.toJson (frame : StackFrame) : Json :=
  let number (value : Option UInt32) := (value.map Json.number).getD .null
  let string (text : Option String) := (text.map Json.string).getD .null
  .object [("level", number frame.level), ("func", string frame.func),
    ("file", string frame.file), ("fullname", string frame.fullname),
    ("line", number frame.line), ("addr", string frame.addr)]

structure ObservedEvent where
  seq : Nat
  kind : String
  eventClass : Option String
  thread : Option String
  reason : Option String
  exitCode : Option Int32
  text : Option String
  results : Option Json
  frame : Option Json

def formatStoppedReason : StoppedReason → String
  | .breakpointHit _ => "breakpoint-hit"
  | .watchpointTrigger => "watchpoint-trigger"
  | .functionFinished => "function-finished"
  | .locationReached => "location-reached"
  | .endSteppingRange => "end-stepping-range"
  | .exitedNormally => "exited-normally"
  | .exited _ => "exited"
  | .exitedSignalled _ => "exited-signalled"
  | .signalReceived _ => "signal-received"
  | .fork => "fork"
  | .vfork => "vfork"
  | .exec => "exec"
  | .syscallEntry _ => "syscall-entry"
  | .syscallReturn _ => "syscall-return"
  | .other name => name

def stoppedReasonExitCode : Option StoppedReason → Option Int32
  | some (.exited exitCode) => exitCode
  | some .exitedNormally => some 0
  | _ => none

/-- A summary of this kind with every optional field left out. -/
def ObservedEvent.bare (seq : Nat) (kind : String) : ObservedEvent :=
  ⟨seq, kind, none, none, none, none, none, none, none⟩

def streamEvent (seq : Nat) (kind text : String) : ObservedEvent :=
  { ObservedEvent.bare seq kind with text := some text }

def summarizeEvent (seq : Nat) : Event → Option ObservedEvent
  | .running event => some { ObservedEvent.bare seq "running" with thread := event.thread }
  | .stopped event =>
      some { ObservedEvent.bare seq "stopped" with
        thread := event.thread
        reason := event.reason.map formatStoppedReason
        exitCode := stoppedReasonExitCode event.reason
        results := if event.raw.isEmpty then none else some (resultsToJson event.raw)
        frame := event.frame.map StackFrame.toJson }
  | .notify event =>
      some { ObservedEvent.bare seq "notify" with
        eventClass := some event.asyncClass
        results := some (resultsToJson event.results) }
  | .status event =>
      some { ObservedEvent.bare seq "status" with
        eventClass := some event.asyncClass
        results := some (resultsToJson event.results) }
  | .console text => some (streamEvent seq "console" text)
  | .targetOutput text => some (streamEvent seq "target-output" text)
  | .log text => some (streamEvent seq "log" text)
  | .parseError failure => some (streamEvent seq "parse-error" failure.error.display)
  | .commandCompleted _ _ | .groupClosed | .unknown _ => none

/-- What a client is shown of a journal entry. -/
def SequencedEvent.summary? (entry : SequencedEvent) : Option ObservedEvent :=
  summarizeEvent entry.seq entry.event

/-- A summary keeps the number of its event. -/
theorem SequencedEvent.seq_of_summary? {entry : SequencedEvent} {observed : ObservedEvent}
    (isSummary : entry.summary? = some observed) : observed.seq = entry.seq := by
  unfold summary? summarizeEvent at isSummary
  split at isSummary
  all_goals cases isSummary
  all_goals rfl

end Framewalk
