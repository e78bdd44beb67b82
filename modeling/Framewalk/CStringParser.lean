import Framewalk.Cursor

/-!
# C-string parsing with escape-sequence decoding

Unknown escape letters are hard errors, `\x` takes exactly two hex digits, and
an octal escape greedily takes one to three digits and wraps to one byte.  The
loop is bounded by the number of unread bytes: at bound zero nothing is left
to read, which is the unterminated case of the source.
-/

namespace Framewalk

/-- The value of one hex digit. -/
def hexDigitValue (byte : UInt8) : Option UInt8 :=
  if 48 ≤ byte ∧ byte ≤ 57 then some (byte - 48)
  else if 97 ≤ byte ∧ byte ≤ 102 then some (byte - 97 + 10)
  else if 65 ≤ byte ∧ byte ≤ 70 then some (byte - 65 + 10)
  else none

def readHexDigit (cursor : Cursor) (escapePos : Nat) :
    Except CodecError (UInt8 × Cursor) :=
  match cursor.peek with
  | none => .error ⟨.invalidCString .truncatedEscape, escapePos⟩
  | some byte =>
      match hexDigitValue byte with
      | some nibble => .ok (nibble, cursor.advance)
      | none => .error ⟨.invalidCString (.invalidHexDigit byte), cursor.pos⟩

def isOctalDigit (byte : UInt8) : Bool :=
  48 ≤ byte && byte ≤ 55

/-- Accumulate up to the given number of octal digits. -/
def readOctalDigits : Nat → UInt16 → Cursor → UInt16 × Cursor
  | 0, value, cursor => (value, cursor)
  | remaining + 1, value, cursor =>
      match cursor.peek with
      | some byte =>
          if isOctalDigit byte then
            readOctalDigits remaining (value * 8 + (byte - 48).toUInt16) cursor.advance
          else (value, cursor)
      | none => (value, cursor)

/-- The escapes whose letter stands for one fixed byte. -/
def namedEscape (letter : UInt8) : Option UInt8 :=
  if letter = Ascii.quote then some 0x22
  else if letter = Ascii.backslash then some 0x5c
  else if letter = 0x27 then some 0x27
  else if letter = 0x3f then some 0x3f
  else if letter = 0x61 then some 0x07
  else if letter = 0x62 then some 0x08
  else if letter = 0x66 then some 0x0c
  else if letter = 0x6e then some 0x0a
  else if letter = 0x72 then some 0x0d
  else if letter = 0x74 then some 0x09
  else if letter = 0x76 then some 0x0b
  else none

/-- Decode one escape at a cursor pointing at its backslash: the decoded byte
and the cursor past the whole sequence. -/
def decodeEscape (cursor : Cursor) : Except CodecError (UInt8 × Cursor) :=
  let escapePos := cursor.pos
  let cursor := cursor.advance
  match cursor.peek with
  | none => .error ⟨.invalidCString .truncatedEscape, escapePos⟩
  | some next =>
      match namedEscape next with
      | some byte => .ok (byte, cursor.advance)
      | none =>
          if next = Ascii.lowerX then do
            let (hi, cursor) ← readHexDigit cursor.advance escapePos
            let (lo, cursor) ← readHexDigit cursor escapePos
            .ok (hi <<< 4 ||| lo, cursor)
          else if isOctalDigit next then
            -- Overlarge octal escapes are truncated to one byte on purpose.
            .ok ((readOctalDigits 3 0 cursor).1.toUInt8, (readOctalDigits 3 0 cursor).2)
          else .error ⟨.invalidCString (.invalidEscape next), escapePos⟩

/-- The body loop: bytes up to the closing quote, escapes decoded. -/
def parseCstringLoop (openPos : Nat) :
    Nat → Cursor → List UInt8 → Except CodecError (List UInt8 × Cursor)
  | 0, _, _ => .error ⟨.invalidCString .missingCloseQuote, openPos⟩
  | unread + 1, cursor, out =>
      match cursor.peek with
      | none => .error ⟨.invalidCString .missingCloseQuote, openPos⟩
      | some byte =>
          if byte = Ascii.quote then .ok (out, cursor.advance)
          else if byte = Ascii.backslash then do
            let (decoded, cursor) ← decodeEscape cursor
            parseCstringLoop openPos unread cursor (out ++ [decoded])
          else parseCstringLoop openPos unread cursor.advance (out ++ [byte])

def parseCstring (cursor : Cursor) : Except CodecError (String × Cursor) :=
  let openPos := cursor.pos
  if cursor.peek = some Ascii.quote then do
    let cursor := cursor.advance
    let (out, cursor) ← parseCstringLoop openPos cursor.rest.length cursor []
    match Utf8Text.fromUtf8 out with
    | some text => .ok (text, cursor)
    | none => .error ⟨.invalidUtf8, openPos⟩
  else .error ⟨.invalidCString .missingOpenQuote, openPos⟩

example :
    parseCstring (.new (Utf8Text.asBytes "\"a\\x41\\101\\n\",")) =
      .ok ("aAA\n", ⟨13, [44]⟩) := by
  decide

end Framewalk
