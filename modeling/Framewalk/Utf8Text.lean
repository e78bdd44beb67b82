import Mathlib.Data.List.TakeWhile
import Mathlib.Tactic.Common

/-!
# Text and its UTF-8 bytes

A `String` is a byte array together with a proof that the bytes are valid
UTF-8.  This file presents both directions on plain byte lists and relates
questions about ASCII bytes to the same questions about characters: every byte
of a non-ASCII character is at least `128`, so an ASCII byte in the encoding
can only come from the ASCII character with the same code.
-/

namespace Utf8Text

/-- The UTF-8 encoding of a text. -/
def asBytes (text : String) : List UInt8 :=
  text.toByteArray.data.toList

/-- Decode a byte list, failing unless it is valid UTF-8. -/
def fromUtf8 (bytes : List UInt8) : Option String :=
  String.fromUTF8? ⟨bytes.toArray⟩

theorem fromUtf8_eq_some_iff {bytes : List UInt8} {text : String} :
    fromUtf8 bytes = some text ↔ asBytes text = bytes := by
  constructor
  · intro decoded
    simp only [fromUtf8, String.fromUTF8?] at decoded
    split at decoded
    · next valid =>
        cases decoded
        simp [asBytes, String.fromUTF8]
    · cases decoded
  · rintro rfl
    have valid : (⟨(asBytes text).toArray⟩ : ByteArray).IsValidUTF8 := by
      simpa [asBytes] using text.isValidUTF8
    rw [fromUtf8, String.fromUTF8?, dif_pos valid]
    rfl

@[simp]
theorem fromUtf8_asBytes (text : String) :
    fromUtf8 (asBytes text) = some text :=
  fromUtf8_eq_some_iff.mpr rfl

theorem asBytes_injective : Function.Injective asBytes := by
  intro first second equal
  have decoded := fromUtf8_asBytes first
  rw [equal, fromUtf8_asBytes] at decoded
  exact (Option.some.inj decoded).symm

@[simp]
theorem asBytes_ofList (characters : List Char) :
    asBytes (String.ofList characters) =
      characters.flatMap String.utf8EncodeChar := by
  simp [asBytes, List.utf8Encode]

theorem asBytes_eq_flatMap (text : String) :
    asBytes text = text.toList.flatMap String.utf8EncodeChar := by
  rw [← asBytes_ofList, String.ofList_toList]

@[simp]
theorem asBytes_append (first second : String) :
    asBytes (first ++ second) = asBytes first ++ asBytes second := by
  simp [asBytes_eq_flatMap]

@[simp]
theorem asBytes_eq_nil_iff (text : String) :
    asBytes text = [] ↔ text = "" := by
  constructor
  · intro empty
    apply asBytes_injective
    rw [empty]
    rfl
  · rintro rfl
    rfl

/-- The byte of an ASCII character; other characters have no such byte. -/
def asciiByte (character : Char) : UInt8 :=
  UInt8.ofNat character.toNat

theorem utf8EncodeChar_of_ascii {character : Char}
    (ascii : character.toNat < 128) :
    String.utf8EncodeChar character = [asciiByte character] := by
  have bound : character.val.toNat ≤ 127 := by
    change character.val.toNat < 128 at ascii
    omega
  simp only [String.utf8EncodeChar, if_pos bound]
  rfl

theorem flatMap_utf8EncodeChar_of_ascii {characters : List Char}
    (ascii : ∀ character ∈ characters, character.toNat < 128) :
    characters.flatMap String.utf8EncodeChar = characters.map asciiByte := by
  induction characters with
  | nil => rfl
  | cons character characters ih =>
      rw [List.flatMap_cons, utf8EncodeChar_of_ascii (ascii character (by simp)),
        List.map_cons, ih (fun other member => ascii other (by simp [member]))]
      rfl

theorem byte_ge_of_not_ascii {character : Char} {byte : UInt8}
    (notAscii : 128 ≤ character.toNat)
    (member : byte ∈ String.utf8EncodeChar character) :
    128 ≤ byte.toNat := by
  have notSmall : ¬ character.val.toNat ≤ 127 := by
    change 128 ≤ character.val.toNat at notAscii
    omega
  simp only [String.utf8EncodeChar, if_neg notSmall] at member
  split at member
  · simp only [List.mem_cons, List.not_mem_nil, or_false] at member
    rcases member with rfl | rfl <;> rw [UInt8.toNat_ofNat'] <;> omega
  split at member <;>
    simp only [List.mem_cons, List.not_mem_nil, or_false] at member
  · rcases member with rfl | rfl | rfl <;> rw [UInt8.toNat_ofNat'] <;> omega
  · rcases member with rfl | rfl | rfl | rfl <;>
      rw [UInt8.toNat_ofNat'] <;> omega

theorem asciiByte_toNat {character : Char} (ascii : character.toNat < 128) :
    (asciiByte character).toNat = character.toNat := by
  rw [asciiByte, UInt8.toNat_ofNat']
  omega

/-- An ASCII byte occurs in the encoding of exactly one character. -/
theorem ascii_mem_utf8EncodeChar_iff {character : Char} {byte : UInt8}
    (ascii : byte.toNat < 128) :
    byte ∈ String.utf8EncodeChar character ↔
      character.toNat = byte.toNat := by
  by_cases characterAscii : character.toNat < 128
  · rw [utf8EncodeChar_of_ascii characterAscii, List.mem_singleton,
      ← UInt8.toNat_inj, asciiByte_toNat characterAscii, eq_comm]
  · constructor
    · intro member
      have := byte_ge_of_not_ascii (by omega) member
      omega
    · omega

/-- Whether an ASCII byte occurs in a text is decided by its characters. -/
theorem ascii_mem_asBytes_iff {text : String} {byte : UInt8}
    (ascii : byte.toNat < 128) :
    byte ∈ asBytes text ↔
      ∃ character ∈ text.toList, character.toNat = byte.toNat := by
  rw [asBytes_eq_flatMap, List.mem_flatMap]
  exact exists_congr fun character =>
    and_congr_right fun _ => ascii_mem_utf8EncodeChar_iff ascii

/-- Cutting an encoding at an ASCII delimiter cuts between characters. -/
theorem takeWhile_flatMap_utf8EncodeChar {stop : UInt8 → Bool}
    {charStop : Char → Bool}
    (onAscii : ∀ character : Char, character.toNat < 128 →
      stop (asciiByte character) = charStop character)
    (offAscii : ∀ byte : UInt8, 128 ≤ byte.toNat → stop byte = false)
    (charOffAscii : ∀ character : Char, 128 ≤ character.toNat →
      charStop character = false)
    (characters : List Char) :
    (characters.flatMap String.utf8EncodeChar).takeWhile (fun byte => !stop byte) =
      (characters.takeWhile fun character => !charStop character).flatMap
        String.utf8EncodeChar := by
  induction characters with
  | nil => rfl
  | cons character characters ih =>
      rw [List.flatMap_cons]
      by_cases ascii : character.toNat < 128
      · rw [utf8EncodeChar_of_ascii ascii, List.singleton_append,
          List.takeWhile_cons, List.takeWhile_cons, onAscii character ascii, ih]
        cases charStop character with
        | true => rfl
        | false => simp [utf8EncodeChar_of_ascii ascii]
      · have passes : ∀ byte ∈ String.utf8EncodeChar character,
            (!stop byte) = true := by
          intro byte member
          rw [offAscii byte (byte_ge_of_not_ascii (by omega) member)]
          rfl
        rw [List.takeWhile_append_of_pos passes, List.takeWhile_cons, ih,
          charOffAscii character (by omega)]
        simp

end Utf8Text
