import Framewalk.CStringParser
import Mathlib.Algebra.Group.Nat.Defs

/-!
# The recursive-descent record parser

Values nest without bound.  The parser is written over a bound on the unread
bytes: a nested value starts after at least one consumed byte, and so does
each further item of a loop.  At bound zero nothing is left to read, and each
function returns what the source returns at the end of the line.
-/

namespace Framewalk

/-- A parser reads from a cursor and returns its value and the cursor after
it. -/
abbrev Parser (α : Type) := Cursor → Except CodecError (α × Cursor)

def isIdentifierByte (byte : UInt8) : Bool :=
  Ascii.isAlphanumeric byte || byte == Ascii.underscore || byte == Ascii.minus

/-- A non-empty run of accepted bytes, as text. -/
def parseName (accepts : UInt8 → Bool) : Parser String := fun cursor =>
  let (name, next) := cursor.takeRun accepts
  if name = [] then .error ⟨.invalidIdentifier, cursor.pos⟩
  else .ok (Ascii.toText name, next)

def parseVariable : Parser String :=
  parseName isIdentifierByte

/-- `expect_byte(b'=')`, with a byte mismatch reported as a missing equals
sign. -/
def expectEquals (cursor : Cursor) : Except CodecError Cursor :=
  match cursor.expectByte Ascii.equals with
  | .ok next => .ok next
  | .error ⟨.unexpectedByte _ _, offset⟩ => .error ⟨.expectedEquals, offset⟩
  | .error error => .error error

/-- A result is `variable "=" value`, over any value parser. -/
def parseResult (parseValue : Parser Value) : Parser (String × Value) := fun cursor => do
  let (name, cursor) ← parseVariable cursor
  let cursor ← expectEquals cursor
  let (value, cursor) ← parseValue cursor
  .ok ((name, value), cursor)

/-- Scan over identifier bytes for an equals sign. -/
def scansToEquals : List UInt8 → Bool
  | [] => false
  | byte :: bytes =>
      if isIdentifierByte byte then scansToEquals bytes else byte == Ascii.equals

/-- Whether the cursor looks like the start of a result. -/
def looksLikeResult (cursor : Cursor) : Bool :=
  match cursor.rest with
  | [] => false
  | first :: tail => isIdentifierByte first && scansToEquals tail

def parseTupleLoop (parseValue : Parser Value) :
    Nat → List (String × Value) → Parser (List (String × Value))
  | 0, _, cursor => .error ⟨.invalidIdentifier, cursor.pos⟩
  | unread + 1, out, cursor => do
      let (entry, cursor) ← parseResult parseValue cursor
      let out := out ++ [entry]
      match cursor.peek with
      | some found =>
          if found = Ascii.comma then
            parseTupleLoop parseValue unread out cursor.advance
          else if found = Ascii.closeBrace then .ok (out, cursor.advance)
          else .error ⟨.unexpectedByte (.oneOf [Ascii.comma, Ascii.closeBrace]) found, cursor.pos⟩
      | none => .error ⟨.unexpectedEnd, cursor.pos⟩

def parseTuple (parseValue : Parser Value) : Parser (List (String × Value)) := fun cursor => do
  let cursor ← cursor.expectByte Ascii.openBrace
  if cursor.peek = some Ascii.closeBrace then .ok ([], cursor.advance)
  else parseTupleLoop parseValue cursor.rest.length [] cursor

/-- The loop over a list of results: every item after a comma must look like
a result. -/
def parseResultsLoop (parseValue : Parser Value) :
    Nat → List (String × Value) → Parser (List (String × Value))
  | 0, _, cursor => .error ⟨.invalidIdentifier, cursor.pos⟩
  | unread + 1, out, cursor => do
      let (entry, cursor) ← parseResult parseValue cursor
      let out := out ++ [entry]
      match cursor.peek with
      | some found =>
          if found = Ascii.comma then
            if looksLikeResult cursor.advance then
              parseResultsLoop parseValue unread out cursor.advance
            else .error ⟨.mixedList, cursor.advance.pos⟩
          else if found = Ascii.closeBracket then .ok (out, cursor.advance)
          else .error ⟨.unexpectedByte (.oneOf [Ascii.comma, Ascii.closeBracket]) found, cursor.pos⟩
      | none => .error ⟨.unexpectedEnd, cursor.pos⟩

/-- The loop over a list of bare values: no item may look like a result. -/
def parseValuesLoop (parseValue : Parser Value) :
    Nat → List Value → Parser (List Value)
  | 0, _, cursor => .error ⟨.unexpectedEnd, cursor.pos⟩
  | unread + 1, out, cursor => do
      let (value, cursor) ← parseValue cursor
      let out := out ++ [value]
      match cursor.peek with
      | some found =>
          if found = Ascii.comma then
            if looksLikeResult cursor.advance then .error ⟨.mixedList, cursor.advance.pos⟩
            else parseValuesLoop parseValue unread out cursor.advance
          else if found = Ascii.closeBracket then .ok (out, cursor.advance)
          else .error ⟨.unexpectedByte (.oneOf [Ascii.comma, Ascii.closeBracket]) found, cursor.pos⟩
      | none => .error ⟨.unexpectedEnd, cursor.pos⟩

def parseList (parseValue : Parser Value) : Parser ListValue := fun cursor => do
  let cursor ← cursor.expectByte Ascii.openBracket
  if cursor.peek = some Ascii.closeBracket then .ok (.empty, cursor.advance)
  else if looksLikeResult cursor then do
    let (entries, cursor) ← parseResultsLoop parseValue cursor.rest.length [] cursor
    .ok (.results entries, cursor)
  else do
    let (items, cursor) ← parseValuesLoop parseValue cursor.rest.length [] cursor
    .ok (.values items, cursor)

/-- Parse a value of at most the given number of unread bytes. -/
def parseValueWithin : Nat → Parser Value
  | 0, cursor => .error ⟨.unexpectedEnd, cursor.pos⟩
  | unread + 1, cursor =>
      match cursor.peek with
      | some found =>
          if found = Ascii.quote then do
            let (text, cursor) ← parseCstring cursor
            .ok (.const text, cursor)
          else if found = Ascii.openBrace then do
            let (entries, cursor) ← parseTuple (parseValueWithin unread) cursor
            .ok (.tuple entries, cursor)
          else if found = Ascii.openBracket then do
            let (items, cursor) ← parseList (parseValueWithin unread) cursor
            .ok (.list items, cursor)
          else
            .error ⟨.unexpectedByte
              (.oneOf [Ascii.quote, Ascii.openBrace, Ascii.openBracket]) found,
              cursor.pos⟩
      | none => .error ⟨.unexpectedEnd, cursor.pos⟩

def parseValue : Parser Value := fun cursor =>
  parseValueWithin cursor.rest.length cursor

/-- The decimal digits of a token, accumulated with checked arithmetic. -/
def parseTokenLoop (start : Nat) :
    List UInt8 → Nat → UInt64 → Bool → Except CodecError (Option Token × Cursor)
  | byte :: rest, pos, value, any =>
      if Ascii.isDigit byte then
        if value.toNat * 10 + (byte - 48).toNat < 2 ^ 64 then
          parseTokenLoop start rest (pos + 1) (value * 10 + (byte - 48).toUInt64) true
        else .error ⟨.tokenOverflow, start⟩
      else .ok (if any then some value else none, ⟨pos, byte :: rest⟩)
  | [], pos, value, any => .ok (if any then some value else none, ⟨pos, []⟩)

def parseOptionalToken : Parser (Option Token) := fun cursor =>
  parseTokenLoop cursor.pos cursor.rest cursor.pos 0 false

/-- The results up to the end of the line. -/
def parseTrailingResultsLoop :
    Nat → List (String × Value) → Parser (List (String × Value))
  | unread, out, cursor =>
      match cursor.peek with
      | none => .ok (out, cursor)
      | some found =>
          if found = Ascii.comma then
            match unread with
            | 0 => .error ⟨.invalidIdentifier, cursor.pos⟩
            | unread + 1 => do
                let (entry, cursor) ← parseResult parseValue cursor.advance
                parseTrailingResultsLoop unread (out ++ [entry]) cursor
          else
            .error ⟨.unexpectedByte (.description "',' or end of record") found, cursor.pos⟩

def parseTrailingResults : Parser (List (String × Value)) := fun cursor =>
  parseTrailingResultsLoop cursor.rest.length [] cursor

def parseResultClass : Parser ResultClass := fun cursor =>
  let (name, next) := cursor.takeRun Ascii.isLowercase
  if name = [] then .error ⟨.invalidIdentifier, cursor.pos⟩
  else
    match ResultClass.fromBytes name with
    | some resultClass => .ok (resultClass, next)
    | none => .error ⟨.unknownResultClass (Ascii.toText name), cursor.pos⟩

def parseResultRecord (token : Option Token) : Parser ResultRecord := fun cursor => do
  let (resultClass, cursor) ← parseResultClass cursor
  let (results, cursor) ← parseTrailingResults cursor
  .ok (⟨token, resultClass, results⟩, cursor)

def isAsyncClassByte (byte : UInt8) : Bool :=
  Ascii.isAlphanumeric byte || byte == Ascii.minus || byte == Ascii.underscore

def parseAsyncClass : Parser String :=
  parseName isAsyncClassByte

def parseAsyncRecord (token : Option Token) : Parser AsyncRecord := fun cursor => do
  let (asyncClass, cursor) ← parseAsyncClass cursor
  let (results, cursor) ← parseTrailingResults cursor
  .ok (⟨token, asyncClass, results⟩, cursor)

def parseStreamRecord : Parser StreamRecord := fun cursor => do
  let (text, cursor) ← parseCstring cursor
  .ok (⟨text⟩, cursor)

/-- The record after its token, dispatched on the prefix byte. -/
def parseRecordBody (token : Option Token) : Parser Record := fun cursor =>
  match cursor.peek with
  | none => .error ⟨.unexpectedEnd, cursor.pos⟩
  | some prefixByte =>
      if prefixByte = Ascii.caret then do
        let (record, cursor) ← parseResultRecord token cursor.advance
        .ok (.result record, cursor)
      else if prefixByte = Ascii.star then do
        let (record, cursor) ← parseAsyncRecord token cursor.advance
        .ok (.exec record, cursor)
      else if prefixByte = Ascii.plus then do
        let (record, cursor) ← parseAsyncRecord token cursor.advance
        .ok (.status record, cursor)
      else if prefixByte = Ascii.equals then do
        let (record, cursor) ← parseAsyncRecord token cursor.advance
        .ok (.notify record, cursor)
      else if prefixByte = Ascii.tilde ∨ prefixByte = Ascii.atSign ∨
          prefixByte = Ascii.ampersand then
        if token.isSome then .error ⟨.streamRecordHasToken, 0⟩
        else do
          let (record, cursor) ← parseStreamRecord cursor.advance
          .ok (if prefixByte = Ascii.tilde then .console record
            else if prefixByte = Ascii.atSign then .target record
            else .log record, cursor)
      else .error ⟨.invalidRecordPrefix prefixByte, cursor.pos⟩

/-- Parse a single MI output record from one complete line. -/
def parseRecord (line : List UInt8) : Except CodecError Record := do
  let (token, cursor) ← parseOptionalToken (.new line)
  let (record, cursor) ← parseRecordBody token cursor
  if cursor.atEnd then .ok record
  else .error ⟨.trailingGarbage, cursor.pos⟩

end Framewalk
