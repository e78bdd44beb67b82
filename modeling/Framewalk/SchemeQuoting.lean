import Framewalk.CommandFields
import Mathlib.Data.List.Basic

/-!
# Quoting parameters for scripts

`mi-quote` reads a text as bytes but writes characters.  A quoted text is
therefore the c-string literal of another text: the one that has a character
for every byte.  The two are the same exactly for ASCII text.
-/

namespace Framewalk

open Utf8Text OutputGrammar

/-- The bytes that make a text need a c-string literal. -/
def needsQuoting (byte : UInt8) : Bool :=
  byte == Ascii.space || byte == Ascii.tab || byte == Ascii.newline ||
    byte == Ascii.carriageReturn || byte == Ascii.quote || byte == Ascii.backslash ||
    byte ≤ 0x1f || byte == 0x7f

/-- A byte as a character with the same code. -/
def byteAsChar (byte : UInt8) : Char :=
  Char.ofNat byte.toNat

/-- What is pushed for one byte of a quoted text. -/
def quotedByte (byte : UInt8) : List Char :=
  if byte = Ascii.quote then ['\\', '"']
  else if byte = Ascii.backslash then ['\\', '\\']
  else if byte = Ascii.newline then ['\\', 'n']
  else if byte = Ascii.carriageReturn then ['\\', 'r']
  else if byte = Ascii.tab then ['\\', 't']
  else if byte = 0x07 then ['\\', 'a']
  else if byte = 0x08 then ['\\', 'b']
  else if byte = 0x0b then ['\\', 'v']
  else if byte = 0x0c then ['\\', 'f']
  else if byte ≤ 0x1f ∨ byte = 0x7f then
    ['\\', 'x', Nat.digitChar (byte.toNat / 16), Nat.digitChar (byte.toNat % 16)]
  else [byteAsChar byte]

/-- Quote a parameter unless it is a plain word. -/
def miQuoteParam (text : String) : String :=
  let bytes := asBytes text
  if !bytes.isEmpty && !bytes.any needsQuoting then text
  else .ofList ('"' :: (bytes.flatMap quotedByte ++ ['"']))

/-- No blank, quote, backslash or control character. -/
def IsPlainByte (byte : UInt8) : Prop :=
  byte ≠ Ascii.space ∧ byte ≠ Ascii.quote ∧ byte ≠ Ascii.backslash ∧ 0x1f < byte ∧ byte ≠ 0x7f

instance (byte : UInt8) : Decidable (IsPlainByte byte) :=
  inferInstanceAs (Decidable (_ ∧ _))

/-- A word that needs no quoting. -/
def IsPlainWord (text : String) : Prop :=
  text ≠ "" ∧ ∀ byte ∈ asBytes text, IsPlainByte byte

def IsAscii (text : String) : Prop :=
  ∀ byte ∈ asBytes text, byte < 0x80

instance (text : String) : Decidable (IsPlainWord text) :=
  inferInstanceAs (Decidable (_ ∧ _))

instance (text : String) : Decidable (IsAscii text) :=
  inferInstanceAs (Decidable (∀ byte ∈ asBytes text, byte < 0x80))

/-- The bytes are exactly one parameter for this text: the plain word itself, or
a c-string literal that is read back whole. -/
def DenotesParameter (bytes : List UInt8) (text : String) : Prop :=
  (bytes = asBytes text ∧ IsPlainWord text) ∨
    ∃ cursor, parseCstring (.new bytes) = .ok (text, cursor) ∧ cursor.rest = []

theorem needsQuoting_iff (byte : UInt8) : needsQuoting byte = true ↔ ¬ IsPlainByte byte := by
  revert byte
  apply forall_byte
  decide +kernel

theorem isPlainWord_iff (text : String) :
    (!(asBytes text).isEmpty && !(asBytes text).any needsQuoting) = true ↔ IsPlainWord text := by
  simp only [Bool.and_eq_true, Bool.not_eq_true', List.isEmpty_eq_false_iff, ne_eq,
    asBytes_eq_nil_iff, List.any_eq_false, needsQuoting_iff, not_not, IsPlainWord]

theorem miQuoteParam_of_plain {text : String} (plain : IsPlainWord text) :
    miQuoteParam text = text :=
  if_pos ((isPlainWord_iff text).mpr plain)

section Lengths

variable {α β : Type} {short long : α → List β} {values : List α}

theorem length_flatMap_le
    (eachLe : ∀ value ∈ values, (short value).length ≤ (long value).length) :
    (values.flatMap short).length ≤ (values.flatMap long).length := by
  induction values with
  | nil => exact Nat.le_refl _
  | cons value values ih =>
      have first := eachLe value List.mem_cons_self
      have others := ih fun other member => eachLe other (List.mem_cons_of_mem value member)
      simp only [List.flatMap_cons, List.length_append]
      omega

theorem length_eq_of_flatMap
    (eachLe : ∀ value ∈ values, (short value).length ≤ (long value).length)
    (total : (values.flatMap long).length ≤ (values.flatMap short).length) :
    ∀ value ∈ values, (short value).length = (long value).length := by
  induction values with
  | nil => simp
  | cons value values ih =>
      have first := eachLe value List.mem_cons_self
      have others : ∀ other ∈ values, (short other).length ≤ (long other).length := by
        intro other member
        exact eachLe other (List.mem_cons_of_mem value member)
      have tailLe := length_flatMap_le others
      simp only [List.flatMap_cons, List.length_append] at total
      intro other member
      rcases List.mem_cons.mp member with rfl | inTail
      · omega
      · exact ih others (by omega) other inTail

end Lengths

/-- The text with a character for every byte. -/
def bytesAsChars (text : String) : String :=
  .ofList ((asBytes text).map byteAsChar)

theorem flatMap_quotedByte (byte : UInt8) :
    (quotedByte byte).flatMap String.utf8EncodeChar =
      (String.utf8EncodeChar (byteAsChar byte)).flatMap encodeCstringByte := by
  revert byte
  apply forall_byte
  decide +kernel

theorem utf8EncodeChar_byteAsChar {byte : UInt8} (ascii : byte < 0x80) :
    String.utf8EncodeChar (byteAsChar byte) = [byte] := by
  revert byte
  apply forall_byte
  decide +kernel

theorem length_utf8EncodeChar_byteAsChar (byte : UInt8) :
    (String.utf8EncodeChar (byteAsChar byte)).length = if byte < 0x80 then 1 else 2 := by
  revert byte
  apply forall_byte
  decide +kernel

theorem asBytes_bytesAsChars (text : String) :
    asBytes (bytesAsChars text) =
      (asBytes text).flatMap fun byte => String.utf8EncodeChar (byteAsChar byte) := by
  rw [bytesAsChars, asBytes_ofList, List.flatMap_map]

theorem asBytes_miQuoteParam {text : String} (notPlain : ¬ IsPlainWord text) :
    asBytes (miQuoteParam text) = encodeCstring (bytesAsChars text) := by
  have quoted : miQuoteParam text =
      .ofList ('"' :: ((asBytes text).flatMap quotedByte ++ ['"'])) :=
    if_neg (mt (isPlainWord_iff text).mp notPlain)
  have quoteBytes : String.utf8EncodeChar '"' = [Ascii.quote] := by decide
  rw [quoted, asBytes_ofList, encodeCstring, asBytes_bytesAsChars, List.flatMap_cons,
    List.flatMap_append, List.flatMap_assoc, List.flatMap_assoc, List.flatMap_singleton, quoteBytes]
  simp only [flatMap_quotedByte, List.singleton_append]

theorem bytesAsChars_of_ascii {text : String} (ascii : IsAscii text) :
    bytesAsChars text = text := by
  apply asBytes_injective
  have each : ∀ byte ∈ asBytes text, String.utf8EncodeChar (byteAsChar byte) = [byte] := by
    intro byte member
    exact utf8EncodeChar_byteAsChar (ascii byte member)
  rw [asBytes_bytesAsChars, List.flatMap_congr each, List.flatMap_singleton']

theorem bytesAsChars_eq_iff (text : String) : bytesAsChars text = text ↔ IsAscii text := by
  constructor
  · intro same byte member
    have eachLe : ∀ byte ∈ asBytes text,
        [byte].length ≤ (String.utf8EncodeChar (byteAsChar byte)).length := by
      intro byte _
      rw [length_utf8EncodeChar_byteAsChar, List.length_singleton]
      split_ifs
      · omega
      · omega
    have total : ((asBytes text).flatMap fun byte =>
        String.utf8EncodeChar (byteAsChar byte)).length ≤
          ((asBytes text).flatMap fun byte => [byte]).length := by
      rw [← asBytes_bytesAsChars, same, List.flatMap_singleton']
    have lengthEq := length_eq_of_flatMap eachLe total byte member
    rw [length_utf8EncodeChar_byteAsChar, List.length_singleton] at lengthEq
    split_ifs at lengthEq with ascii
    · exact ascii
    · cases lengthEq
  · exact bytesAsChars_of_ascii

theorem parseCstring_miQuoteParam {text : String} (notPlain : ¬ IsPlainWord text) :
    parseCstring (.new (asBytes (miQuoteParam text))) =
      .ok (bytesAsChars text, ⟨(asBytes (miQuoteParam text)).length, []⟩) := by
  have parsed := parseCstring_append (encodeCstring_isCString (bytesAsChars text)) 0 []
  rw [List.append_nil, Nat.zero_add, ← asBytes_miQuoteParam notPlain] at parsed
  exact parsed

/-- Quoting denotes a text exactly when it is a plain word or all ASCII. -/
theorem miQuoteParam_denotes_iff (text : String) :
    DenotesParameter (asBytes (miQuoteParam text)) text ↔ IsPlainWord text ∨ IsAscii text := by
  by_cases plain : IsPlainWord text
  · rw [miQuoteParam_of_plain plain]
    exact iff_of_true (Or.inl ⟨rfl, plain⟩) (Or.inl plain)
  · have parsed := parseCstring_miQuoteParam plain
    constructor
    · rintro (⟨_, isPlain⟩ | ⟨cursor, isText, _⟩)
      · exact absurd isPlain plain
      · rw [parsed, Except.ok.injEq, Prod.mk.injEq] at isText
        exact Or.inr ((bytesAsChars_eq_iff text).mp isText.1)
    · rintro (isPlain | ascii)
      · exact absurd isPlain plain
      · rw [bytesAsChars_of_ascii ascii] at parsed
        exact Or.inr ⟨_, parsed, rfl⟩

/-- An accented letter and a blank: the letter comes back as two. -/
theorem miQuoteParam_not_faithful :
    miQuoteParam "é " = "\"Ã© \"" ∧
      ¬ DenotesParameter (asBytes (miQuoteParam "é ")) "é " := by
  have quoted : miQuoteParam "é " = "\"Ã© \"" := by decide +kernel
  constructor
  · exact quoted
  · rintro (⟨_, isPlain⟩ | ⟨cursor, isText, _⟩)
    · revert isPlain
      decide +kernel
    · rw [parseCstring_miQuoteParam (by decide +kernel), Except.ok.injEq, Prod.mk.injEq] at isText
      have notAscii : ¬ IsAscii "é " := by decide +kernel
      exact notAscii ((bytesAsChars_eq_iff _).mp isText.1)

end Framewalk
