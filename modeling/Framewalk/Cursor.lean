import Framewalk.MiAst

/-!
# The byte cursor and codec errors

The recursive-descent parser reads one line through a cursor that offers peek,
advance and positional errors.  A cursor is kept as its offset and the bytes
still ahead of it, so that advancing is taking a tail.
-/

namespace Framewalk

/-- What the parser was looking for when it saw an unexpected byte. -/
inductive Expected where
  | byte (expected : UInt8)
  | oneOf (bytes : List UInt8)
  | description (text : String)
  deriving DecidableEq

/-- Sub-reasons for a c-string decode failure. -/
inductive CStringError where
  | missingOpenQuote
  | missingCloseQuote
  | invalidEscape (found : UInt8)
  | truncatedEscape
  | invalidHexDigit (found : UInt8)
  deriving DecidableEq

/-- The specific kind of parser failure. -/
inductive CodecErrorKind where
  | unexpectedEnd
  | unexpectedByte (expected : Expected) (found : UInt8)
  | invalidRecordPrefix (found : UInt8)
  | unknownResultClass (name : String)
  | streamRecordHasToken
  | tokenOverflow
  | invalidIdentifier
  | expectedEquals
  | mixedList
  | invalidCString (reason : CStringError)
  | invalidUtf8
  | trailingGarbage
  deriving DecidableEq

/-- A codec failure and the byte offset at which it was detected. -/
structure CodecError where
  kind : CodecErrorKind
  offset : Nat
  deriving DecidableEq

/-- A sequenced parse succeeds only through a successful first part. -/
theorem exists_of_bind_eq_ok {ε α β : Type} {first : Except ε α} {next : α → Except ε β}
    {result : β} (succeeds : (first >>= next) = .ok result) :
    ∃ value, first = .ok value ∧ next value = .ok result := by
  cases first with
  | error error => cases succeeds
  | ok value => exact ⟨value, rfl, succeeds⟩

namespace Ascii

abbrev tab : UInt8 := 9
abbrev newline : UInt8 := 10
abbrev carriageReturn : UInt8 := 13
abbrev space : UInt8 := 32
abbrev quote : UInt8 := 34
abbrev ampersand : UInt8 := 38
abbrev star : UInt8 := 42
abbrev plus : UInt8 := 43
abbrev comma : UInt8 := 44
abbrev minus : UInt8 := 45
abbrev zero : UInt8 := 48
abbrev equals : UInt8 := 61
abbrev atSign : UInt8 := 64
abbrev openBracket : UInt8 := 91
abbrev backslash : UInt8 := 92
abbrev closeBracket : UInt8 := 93
abbrev caret : UInt8 := 94
abbrev underscore : UInt8 := 95
abbrev lowerX : UInt8 := 120
abbrev openBrace : UInt8 := 123
abbrev closeBrace : UInt8 := 125
abbrev tilde : UInt8 := 126

/-- `is_ascii_digit`. -/
def isDigit (byte : UInt8) : Bool :=
  48 ≤ byte && byte ≤ 57

/-- `is_ascii_lowercase`. -/
def isLowercase (byte : UInt8) : Bool :=
  97 ≤ byte && byte ≤ 122

/-- `is_ascii_alphanumeric`. -/
def isAlphanumeric (byte : UInt8) : Bool :=
  isDigit byte || isLowercase byte || (65 ≤ byte && byte ≤ 90)

/-- A run of bytes pushed one by one as characters, each `b as char`. -/
def toText (bytes : List UInt8) : String :=
  String.ofList (bytes.map Char.ofUInt8)

end Ascii

/-- A position in a line: the offset and the bytes from there on. -/
structure Cursor where
  pos : Nat
  rest : List UInt8
  deriving DecidableEq

namespace Cursor

def new (input : List UInt8) : Cursor :=
  ⟨0, input⟩

def atEnd (cursor : Cursor) : Bool :=
  cursor.rest.isEmpty

/-- The next byte without advancing. -/
def peek (cursor : Cursor) : Option UInt8 :=
  cursor.rest.head?

/-- Move past the next byte; a cursor at the end stays there. -/
def advance (cursor : Cursor) : Cursor :=
  match cursor.rest with
  | [] => cursor
  | _ :: tail => ⟨cursor.pos + 1, tail⟩

/-- Consume the next byte if it is the expected one. -/
def expectByte (cursor : Cursor) (expected : UInt8) : Except CodecError Cursor :=
  match cursor.peek with
  | some found =>
      if found = expected then .ok cursor.advance
      else .error ⟨.unexpectedByte (.byte expected) found, cursor.pos⟩
  | none => .error ⟨.unexpectedEnd, cursor.pos⟩

/-- The loop shared by every run of accepted bytes: while the next byte is
accepted, push it and advance. -/
def takeRun (accepts : UInt8 → Bool) (cursor : Cursor) : List UInt8 × Cursor :=
  (cursor.rest.takeWhile accepts,
    ⟨cursor.pos + (cursor.rest.takeWhile accepts).length,
      cursor.rest.dropWhile accepts⟩)

@[simp]
theorem peek_cons (pos : Nat) (byte : UInt8) (tail : List UInt8) :
    peek ⟨pos, byte :: tail⟩ = some byte :=
  rfl

@[simp]
theorem peek_nil (pos : Nat) : peek ⟨pos, []⟩ = none :=
  rfl

@[simp]
theorem advance_cons (pos : Nat) (byte : UInt8) (tail : List UInt8) :
    advance ⟨pos, byte :: tail⟩ = ⟨pos + 1, tail⟩ :=
  rfl

@[simp]
theorem expectByte_cons_self (pos : Nat) (byte : UInt8) (tail : List UInt8) :
    expectByte ⟨pos, byte :: tail⟩ byte = .ok ⟨pos + 1, tail⟩ := by
  simp [expectByte]

/-- A cursor that can be peeked is followed by the byte and its tail. -/
theorem rest_eq_of_peek {cursor : Cursor} {byte : UInt8}
    (peeked : cursor.peek = some byte) :
    cursor.rest = byte :: cursor.advance.rest := by
  obtain ⟨pos, rest⟩ := cursor
  cases rest with
  | nil => simp at peeked
  | cons head tail =>
      obtain rfl : head = byte := by simpa using peeked
      rfl

theorem rest_eq_of_expectByte {cursor next : Cursor} {byte : UInt8}
    (consumed : cursor.expectByte byte = .ok next) :
    cursor.rest = byte :: next.rest := by
  unfold expectByte at consumed
  split at consumed
  · next found peeked =>
      split at consumed
      · next same =>
          cases consumed
          rw [← same]
          exact rest_eq_of_peek peeked
      · cases consumed
  · cases consumed

theorem rest_eq_of_takeRun (accepts : UInt8 → Bool) (cursor : Cursor) :
    cursor.rest = (cursor.takeRun accepts).1 ++ (cursor.takeRun accepts).2.rest :=
  (List.takeWhile_append_dropWhile).symm

/-- A run followed by a byte that is not accepted is read exactly. -/
theorem takeRun_append {accepts : UInt8 → Bool} {run rest : List UInt8}
    (pos : Nat) (accepted : ∀ byte ∈ run, accepts byte = true)
    (stops : ∀ byte ∈ rest.head?, accepts byte = false) :
    takeRun accepts ⟨pos, run ++ rest⟩ = (run, ⟨pos + run.length, rest⟩) := by
  have restTake : rest.takeWhile accepts = [] := by
    cases rest with
    | nil => rfl
    | cons head tail => simp [stops head (by simp)]
  have restDrop : rest.dropWhile accepts = rest := by
    cases rest with
    | nil => rfl
    | cons head tail => simp [stops head (by simp)]
  have runTake : (run ++ rest).takeWhile accepts = run := by
    rw [List.takeWhile_append_of_pos accepted, restTake, List.append_nil]
  have runDrop : (run ++ rest).dropWhile accepts = rest := by
    rw [List.dropWhile_append_of_pos accepted, restDrop]
  simp only [takeRun, runTake, runDrop]

end Cursor

end Framewalk
