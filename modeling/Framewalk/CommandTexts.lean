import Framewalk.CommandFields
import Framewalk.SchemeQuoting
import Framewalk.SessionRuns

/-!
# Commands as text

The bytes of a command are text, whatever its parameters hold, so the command
can be kept as a line and sent again later.  Submitting that line as a raw
command sends the same bytes as submitting the command.
-/

namespace Framewalk

open Utf8Text OutputGrammar

theorem asciiByte_digitChar {digit : Nat} (small : digit < 10) :
    asciiByte digit.digitChar = Ascii.zero + UInt8.ofNat digit := by
  have code := Nat.toNat_digitChar_of_lt_ten small
  have ascii : digit.digitChar.toNat < 128 := by omega
  apply UInt8.toNat_inj.mp
  rw [asciiByte_toNat ascii, code, UInt8.toNat_add, UInt8.toNat_ofNat']
  have zeroCode : Ascii.zero.toNat = 48 := rfl
  omega

/-- The digit that the loop writes. -/
theorem asciiByte_lastDigit (n : UInt64) :
    asciiByte (n.toNat % 10).digitChar = Ascii.zero + (n % 10).toUInt8 := by
  have digit : UInt8.ofNat (n.toNat % 10) = (n % 10).toUInt8 := by
    apply UInt8.toNat_inj.mp
    simp
  rw [asciiByte_digitChar (Nat.mod_lt _ (by omega)), digit]

/-- The loop writes the decimal digits from the last one. -/
theorem writeU64Loop_eq {space : Nat} {n : UInt64} {buffer written : List UInt8}
    (positive : n ≠ 0) (loop : writeU64Loop space n buffer = some written) :
    written = buffer ++ ((Nat.toDigits 10 n.toNat).map asciiByte).reverse := by
  induction space generalizing n buffer with
  | zero =>
      rw [writeU64Loop, if_neg positive] at loop
      cases loop
  | succ space ih =>
      rw [writeU64Loop, if_neg positive] at loop
      have quotient : (n / 10).toNat = n.toNat / 10 := by simp
      by_cases last : n / 10 = 0
      · have small : n.toNat < 10 := by
          rw [last] at quotient
          change 0 = _ at quotient
          omega
        rw [last] at loop
        unfold writeU64Loop at loop
        rw [if_pos rfl] at loop
        obtain rfl := Option.some.inj loop
        rw [Nat.toDigits_of_lt_base small, ← asciiByte_lastDigit, Nat.mod_eq_of_lt small]
        rfl
      · have large : 10 ≤ n.toNat := by
          have : (n / 10).toNat ≠ 0 := fun isZero => last (UInt64.toNat_inj.mp isZero)
          omega
        rw [ih last loop, quotient, Nat.toDigits_of_base_le (by omega) large,
          ← asciiByte_lastDigit]
        simp

/-- A token is written as its decimal text. -/
theorem writeU64_eq_toString (token : Token) : writeU64 token = asBytes (toString token.toNat) := by
  rw [asBytes_toString]
  unfold writeU64
  split_ifs with isZero
  · rw [isZero]
    rfl
  · have loop := (Option.some_get (writeU64Loop_isSome token [])).symm
    rw [writeU64Loop_eq isZero loop]
    simp

/-- Bytes that are valid UTF-8. -/
def IsText (bytes : List UInt8) : Prop :=
  ∃ text, asBytes text = bytes

theorem IsText.asBytes (text : String) : IsText (asBytes text) :=
  ⟨text, rfl⟩

theorem IsText.append {first second : List UInt8} (isFirst : IsText first)
    (isSecond : IsText second) : IsText (first ++ second) := by
  obtain ⟨text, rfl⟩ := isFirst
  obtain ⟨more, rfl⟩ := isSecond
  exact ⟨text ++ more, asBytes_append text more⟩

theorem IsText.flatMap {α : Type} {items : List α} {spell : α → List UInt8}
    (each : ∀ item ∈ items, IsText (spell item)) : IsText (items.flatMap spell) := by
  induction items with
  | nil => exact ⟨"", rfl⟩
  | cons item rest ih =>
      rw [List.flatMap_cons]
      apply IsText.append
      · exact each item (by simp)
      · exact ih fun other member => each other (by simp [member])

theorem IsText.of_ascii {bytes : List UInt8} (ascii : ∀ byte ∈ bytes, byte < 0x80) :
    IsText bytes := by
  have spelled : bytes = bytes.flatMap fun byte => [byte] := by simp
  rw [spelled]
  apply IsText.flatMap
  intro byte member
  refine ⟨String.ofList [byteAsChar byte], ?_⟩
  rw [asBytes_ofList, List.flatMap_singleton, utf8EncodeChar_byteAsChar (ascii byte member)]

theorem encodeCstringByte_ascii {byte : UInt8} (ascii : byte < 0x80) :
    ∀ written ∈ encodeCstringByte byte, written < 0x80 := by
  have everyByte : ∀ byte : UInt8, byte < 0x80 →
      (encodeCstringByte byte).all (fun written => decide (written < 0x80)) = true := by
    apply forall_byte
    decide +kernel
  simpa using everyByte byte ascii

theorem encodeCstringByte_of_not_ascii {byte : UInt8} (notAscii : 0x80 ≤ byte) :
    encodeCstringByte byte = [byte] := by
  revert byte
  apply forall_byte
  decide +kernel

/-- Only ASCII characters are escaped, so every other one stays whole. -/
theorem encodeCstring_isText (text : String) : IsText (encodeCstring text) := by
  have quote : IsText [Ascii.quote] := ⟨"\"", rfl⟩
  have body : IsText ((asBytes text).flatMap encodeCstringByte) := by
    rw [asBytes_eq_flatMap, List.flatMap_assoc]
    apply IsText.flatMap
    intro character _
    by_cases ascii : character.toNat < 128
    · apply IsText.of_ascii
      rw [utf8EncodeChar_of_ascii ascii, List.flatMap_singleton]
      apply encodeCstringByte_ascii
      rw [UInt8.lt_iff_toNat_lt, asciiByte_toNat ascii]
      exact ascii
    · have whole : (String.utf8EncodeChar character).flatMap encodeCstringByte =
          (String.utf8EncodeChar character).flatMap fun byte => [byte] := by
        apply List.flatMap_congr
        intro byte member
        apply encodeCstringByte_of_not_ascii
        rw [UInt8.le_iff_toNat_le]
        exact byte_ge_of_not_ascii (Nat.le_of_not_lt ascii) member
      refine ⟨String.ofList [character], ?_⟩
      rw [whole, asBytes_ofList]
      simp
  exact (quote.append body).append quote

theorem encodeParameter_isText (parameter : String) : IsText (encodeParameter parameter) := by
  unfold encodeParameter
  split
  · exact .asBytes parameter
  · exact encodeCstring_isText parameter

theorem encodeOption_isText (option : CommandOption) : IsText (encodeOption option) := by
  have dash : IsText [Ascii.minus] := ⟨"-", rfl⟩
  have space : IsText [Ascii.space] := ⟨" ", rfl⟩
  unfold encodeOption
  apply @IsText.append (Ascii.minus :: asBytes option.name)
  · exact dash.append (.asBytes option.name)
  · split
    · next value _ => exact space.append (encodeParameter_isText value)
    · exact ⟨"", rfl⟩

/-- A command line without its token and its newline. -/
def commandBody (command : MiCommand) : List UInt8 :=
  Ascii.minus :: asBytes command.operation ++
    command.options.flatMap (fun option => Ascii.space :: encodeOption option) ++
    (if shouldEmitDoubleDash command then asBytes " --" else []) ++
    command.parameters.flatMap fun parameter => Ascii.space :: encodeParameter parameter

theorem encodeCommand_commandBody (token : Option Token) (command : MiCommand) :
    encodeCommand token command =
      encodeToken token ++ commandBody command ++ [Ascii.newline] := by
  simp [encodeCommand, commandBody]

theorem commandBody_isText (command : MiCommand) : IsText (commandBody command) := by
  have dash : IsText [Ascii.minus] := ⟨"-", rfl⟩
  have space : IsText [Ascii.space] := ⟨" ", rfl⟩
  have options : IsText (command.options.flatMap fun option =>
      Ascii.space :: encodeOption option) :=
    IsText.flatMap fun option _ => space.append (encodeOption_isText option)
  have doubleDash : IsText (if shouldEmitDoubleDash command then asBytes " --" else []) := by
    split
    · exact .asBytes " --"
    · exact ⟨"", rfl⟩
  have parameters : IsText (command.parameters.flatMap fun parameter =>
      Ascii.space :: encodeParameter parameter) :=
    IsText.flatMap fun parameter _ => space.append (encodeParameter_isText parameter)
  exact (((dash.append (.asBytes command.operation)).append options).append doubleDash).append
    parameters

/-- The text of a command without a token; `none` is a failed assertion. -/
def encodeMiCommand? (command : MiCommand) : Option String :=
  let encoded := encodeCommand none command
  if encoded.getLast? = some Ascii.newline then fromUtf8 encoded.dropLast else none

theorem encodeMiCommand?_eq_some_iff {command : MiCommand} {text : String} :
    encodeMiCommand? command = some text ↔ asBytes text = commandBody command := by
  have encoded : encodeCommand none command = commandBody command ++ [Ascii.newline] := by
    rw [encodeCommand_commandBody]
    rfl
  rw [encodeMiCommand?, encoded, if_pos List.getLast?_concat, List.dropLast_concat,
    fromUtf8_eq_some_iff]

/-- The assertions hold for every command. -/
theorem encodeMiCommand?_isSome (command : MiCommand) : (encodeMiCommand? command).isSome := by
  obtain ⟨text, isText⟩ := commandBody_isText command
  rw [encodeMiCommand?_eq_some_iff.mpr isText]
  rfl

def encodeMiCommand (command : MiCommand) : String :=
  (encodeMiCommand? command).get (encodeMiCommand?_isSome command)

theorem asBytes_encodeMiCommand (command : MiCommand) :
    asBytes (encodeMiCommand command) = commandBody command :=
  encodeMiCommand?_eq_some_iff.mp (Option.some_get _).symm

/-- The remembered line is sent as the command itself, its token apart. -/
theorem encode_raw_encodeMiCommand (token : Token) (command : MiCommand) :
    SubmitRequest.encode token (.raw (encodeMiCommand command)) =
      SubmitRequest.encode token (.structured command) := by
  rw [SubmitRequest.encode, SubmitRequest.encode, asBytes_encodeMiCommand,
    encodeCommand_commandBody, encodeToken, writeU64_eq_toString]

end Framewalk
