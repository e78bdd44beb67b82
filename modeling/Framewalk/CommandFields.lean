import Framewalk.CommandEncoder
import Framewalk.RecordGrammar

/-!
# Encoded commands read back field by field

A command line is cut into its space-separated fields: a field that starts
with a double quote is one c-string, any other field runs bare up to the next
space.  The encoder's quoting decision, its escape table and its separators
fit this reader for every command whose names are bare.
-/

namespace Framewalk

open Utf8Text OutputGrammar

/-- One field: a c-string literal, or the bytes up to the next space. -/
def readField : Parser String := fun cursor =>
  if cursor.peek = some Ascii.quote then parseCstring cursor
  else
    let (bytes, next) := cursor.takeRun (· != Ascii.space)
    match fromUtf8 bytes with
    | some text => .ok (text, next)
    | none => .error ⟨.invalidUtf8, cursor.pos⟩

def readFieldsLoop : Nat → List String → Cursor → Except CodecError (List String)
  | unread, out, cursor => do
      let (field, cursor) ← readField cursor
      match cursor.peek with
      | none => .ok (out ++ [field])
      | some found =>
          if found = Ascii.space then
            match unread with
            | 0 => .error ⟨.unexpectedEnd, cursor.pos⟩
            | unread + 1 => readFieldsLoop unread (out ++ [field]) cursor.advance
          else .error ⟨.unexpectedByte (.byte Ascii.space) found, cursor.pos⟩

/-- The fields of the rest of a line, each separated by one space. -/
def readFields (cursor : Cursor) : Except CodecError (List String) :=
  readFieldsLoop cursor.rest.length [] cursor

/-- A name that needs no quoting. -/
structure IsBareName (name : String) : Prop where
  nonempty : name ≠ ""
  bare : ∀ character ∈ name.toList, character ∉ [' ', '\t', '\r', '\n', '"', '\\']

instance : DecidablePred IsBareName := fun name =>
  decidable_of_iff (name ≠ "" ∧ name.toList.all (fun character =>
      !([' ', '\t', '\r', '\n', '"', '\\'].contains character)) = true) <| by
    simp only [List.all_eq_true, Bool.not_eq_true', List.contains_eq_mem, decide_eq_false_iff_not]
    exact ⟨fun isBare => ⟨isBare.1, isBare.2⟩, fun isBare => ⟨isBare.1, isBare.2⟩⟩

/-- The fields a command stands for. -/
def CommandOption.fields (option : CommandOption) : List String :=
  ("-" ++ option.name) :: option.value.toList

def MiCommand.fields (command : MiCommand) : List String :=
  ("-" ++ command.operation) :: command.options.flatMap CommandOption.fields ++
    (if ∃ first ∈ command.parameters.head?, first.toList.head? = some '-' then ["--"] else []) ++
    command.parameters

/-- How a field may stand on a line: quoted, or bare without anything that
ends or quotes it. -/
inductive IsField : List UInt8 → String → Prop
  | quoted {bytes : List UInt8} {text : String} :
      IsCString bytes text → Ascii.newline ∉ bytes → IsField bytes text
  | bare {bytes : List UInt8} {text : String} :
      bytes = asBytes text → Ascii.space ∉ bytes → Ascii.quote ∉ bytes →
        Ascii.newline ∉ bytes → IsField bytes text

/-- A run of fields, each after its space. -/
inductive IsFields : List UInt8 → List String → Prop
  | nil : IsFields [] []
  | cons {bytes moreBytes : List UInt8} {text : String} {texts : List String} :
      IsField bytes text → IsFields moreBytes texts →
        IsFields (Ascii.space :: (bytes ++ moreBytes)) (text :: texts)

theorem IsField.newline_not_mem {bytes : List UInt8} {text : String}
    (isField : IsField bytes text) : Ascii.newline ∉ bytes := by
  cases isField with
  | quoted _ noNewline => exact noNewline
  | bare _ _ _ noNewline => exact noNewline

theorem IsFields.newline_not_mem {bytes : List UInt8} {texts : List String}
    (isFields : IsFields bytes texts) : Ascii.newline ∉ bytes := by
  induction isFields with
  | nil => exact List.not_mem_nil
  | cons isField _ ih =>
      have notSpace : Ascii.newline ≠ Ascii.space := by decide
      simp only [List.mem_cons, List.mem_append, not_or]
      exact ⟨notSpace, isField.newline_not_mem, ih⟩

theorem IsFields.singleton {bytes : List UInt8} {text : String} (isField : IsField bytes text) :
    IsFields (Ascii.space :: bytes) [text] := by
  have single := IsFields.cons isField .nil
  rwa [List.append_nil] at single

theorem IsFields.append {bytes moreBytes : List UInt8} {texts moreTexts : List String}
    (first : IsFields bytes texts) (second : IsFields moreBytes moreTexts) :
    IsFields (bytes ++ moreBytes) (texts ++ moreTexts) := by
  induction first with
  | nil => exact second
  | cons isField _ ih =>
      rw [List.cons_append, List.append_assoc]
      exact .cons isField ih

theorem IsFields.flatMap {α : Type} {spell : α → List UInt8} {fields : α → List String}
    {items : List α} (each : ∀ item ∈ items, IsFields (spell item) (fields item)) :
    IsFields (items.flatMap spell) (items.flatMap fields) := by
  induction items with
  | nil => exact .nil
  | cons item items ih =>
      have first := each item (by simp)
      exact first.append (ih fun other member => each other (by simp [member]))

theorem IsFields.head_eq_space {bytes : List UInt8} {texts : List String}
    (isFields : IsFields bytes texts) : ∀ byte ∈ bytes.head?, byte = Ascii.space := by
  intro byte first
  cases isFields with
  | nil => cases first
  | cons => exact (Option.some.inj first).symm

theorem readField_append {bytes rest : List UInt8} {text : String}
    (isField : IsField bytes text) (stops : ∀ byte ∈ rest.head?, byte = Ascii.space) (pos : Nat) :
    readField ⟨pos, bytes ++ rest⟩ = .ok (text, ⟨pos + bytes.length, rest⟩) := by
  cases isField with
  | quoted isCString _ =>
      have opens : Cursor.peek ⟨pos, bytes ++ rest⟩ = some Ascii.quote := by
        obtain ⟨body, rfl, _⟩ := isCString
        rfl
      rw [readField, if_pos opens]
      exact parseCstring_append isCString pos rest
  | bare bytesEq noSpace noQuote _ =>
      have notQuoted : Cursor.peek ⟨pos, bytes ++ rest⟩ ≠ some Ascii.quote := by
        intro opens
        cases bytes with
        | nil =>
            have spaceQuote := stops Ascii.quote opens
            exact absurd spaceQuote (by decide)
        | cons first bytes =>
            obtain rfl : first = Ascii.quote := Option.some.inj opens
            exact noQuote List.mem_cons_self
      have accepted : ∀ byte ∈ bytes, (byte != Ascii.space) = true := by
        intro byte member
        have notSpace : byte ≠ Ascii.space := by
          rintro rfl
          exact noSpace member
        simpa using notSpace
      have stopsRun : ∀ byte ∈ rest.head?, (byte != Ascii.space) = false := by
        intro byte first
        simp [stops byte first]
      have decoded : fromUtf8 bytes = some text := fromUtf8_eq_some_iff.mpr bytesEq.symm
      simp only [readField, if_neg notQuoted, Cursor.takeRun_append pos accepted stopsRun, decoded]

theorem readFieldsLoop_append {bytes moreBytes : List UInt8} {text : String}
    {texts : List String} (isField : IsField bytes text) (isFields : IsFields moreBytes texts) :
    ∀ (unread : Nat) (out : List String) (pos : Nat), moreBytes.length ≤ unread →
      readFieldsLoop unread out ⟨pos, bytes ++ moreBytes⟩ = .ok (out ++ text :: texts) := by
  induction isFields generalizing bytes text with
  | nil =>
      intro unread out pos _
      unfold readFieldsLoop
      simp only [readField_append isField IsFields.nil.head_eq_space pos, bind, Except.bind,
        Cursor.peek_nil]
  | @cons nextBytes moreBytes nextText texts nextField more ih =>
      intro unread out pos bound
      simp only [List.length_cons, List.length_append] at bound
      obtain ⟨spare, rfl⟩ : ∃ spare, unread = spare + 1 := ⟨unread - 1, by omega⟩
      have fieldRead := readField_append isField (more.cons nextField).head_eq_space pos
      unfold readFieldsLoop
      simp only [fieldRead, bind, Except.bind, Cursor.peek_cons, if_true, Cursor.advance_cons]
      rw [ih nextField spare _ _ (by omega)]
      simp

theorem encodeCstringByte_body (byte : UInt8) {source decoded : List UInt8}
    (body : CStringBody source decoded) :
    CStringBody (encodeCstringByte byte ++ source) (byte :: decoded) := by
  have nibbles : ∀ byte : UInt8, byte ≤ 0x1f ∨ byte = 0x7f →
      ∃ hi ∈ hexDigits, ∃ lo ∈ hexDigits, hexNibble (byte >>> 4) = asciiByte hi.1 ∧
        hexNibble (byte &&& 0x0f) = asciiByte lo.1 ∧
        byte = UInt8.ofNat (16 * hi.2 + lo.2) := by
    apply forall_byte
    decide +kernel
  fun_cases encodeCstringByte byte
  case case1 isQuote =>
    rw [isQuote]
    exact .named '"' 0x22 (by decide) body
  case case2 isBackslash =>
    rw [isBackslash]
    exact .named '\\' 0x5c (by decide) body
  case case3 isNewline => exact isNewline ▸ .named 'n' 0x0a (by decide) body
  case case4 isReturn => exact isReturn ▸ .named 'r' 0x0d (by decide) body
  case case5 isTab => exact isTab ▸ .named 't' 0x09 (by decide) body
  case case6 isBell => exact isBell ▸ .named 'a' 0x07 (by decide) body
  case case7 isBackspace => exact isBackspace ▸ .named 'b' 0x08 (by decide) body
  case case8 isVertical => exact isVertical ▸ .named 'v' 0x0b (by decide) body
  case case9 isFeed => exact isFeed ▸ .named 'f' 0x0c (by decide) body
  case case10 isControl =>
    obtain ⟨hi, hiListed, lo, loListed, hiEq, loEq, byteEq⟩ := nibbles byte isControl
    rw [hiEq, loEq]
    have escaped := CStringBody.hex hi.1 lo.1 hi.2 lo.2 hiListed loListed body
    rwa [← byteEq] at escaped
  case case11 isQuote isBackslash _ _ _ _ _ _ _ _ => exact .plain byte isQuote isBackslash body

theorem flatMap_encodeCstringByte_body (bytes : List UInt8) :
    CStringBody (bytes.flatMap encodeCstringByte) bytes := by
  induction bytes with
  | nil => exact .nil
  | cons byte bytes ih => exact encodeCstringByte_body byte ih

theorem newline_not_mem_encodeCstring (text : String) :
    Ascii.newline ∉ encodeCstring text := by
  have everyByte : ∀ byte : UInt8, Ascii.newline ∉ encodeCstringByte byte := by
    apply forall_byte
    decide +kernel
  have notQuote : Ascii.newline ≠ Ascii.quote := by decide
  simp only [encodeCstring, List.mem_cons, List.mem_append, List.mem_flatMap, List.not_mem_nil,
    or_false, not_or, notQuote, not_false_eq_true, true_and]
  rintro ⟨byte, _, member⟩
  exact everyByte byte member

theorem encodeCstring_isCString (text : String) : IsCString (encodeCstring text) text :=
  ⟨(asBytes text).flatMap encodeCstringByte, rfl, flatMap_encodeCstringByte_body _⟩

/-- The quoting decision is right for every text. -/
theorem encodeParameter_isField (parameter : String) :
    IsField (encodeParameter parameter) parameter := by
  unfold encodeParameter
  split_ifs with nonBlank
  · simp only [isNonBlankSequence, Bool.and_eq_true, Bool.not_eq_true', List.any_eq_false,
      Bool.or_eq_true, beq_iff_eq, not_or] at nonBlank
    obtain ⟨_, everyByte⟩ := nonBlank
    refine .bare rfl ?_ ?_ ?_
    · exact fun member => (everyByte Ascii.space member).1.1.1.1.1 rfl
    · exact fun member => (everyByte Ascii.quote member).1.2 rfl
    · exact fun member => (everyByte Ascii.newline member).1.1.1.2 rfl
  · exact .quoted (encodeCstring_isCString parameter) (newline_not_mem_encodeCstring parameter)

theorem encodeParameter_isFields (parameter : String) :
    IsFields (Ascii.space :: encodeParameter parameter) [parameter] :=
  .singleton (encodeParameter_isField parameter)

/-- A bare name behind its dash. -/
theorem IsBareName.isField {name : String} (isBareName : IsBareName name) :
    IsField (Ascii.minus :: asBytes name) ("-" ++ name) := by
  have excludes : ∀ byte : UInt8, byte.toNat < 128 → byte ≠ Ascii.minus →
      Char.ofNat byte.toNat ∈ [' ', '\t', '\r', '\n', '"', '\\'] →
        byte ∉ Ascii.minus :: asBytes name := by
    intro byte ascii notMinus excluded member
    have inName := (List.mem_cons.mp member).resolve_left notMinus
    obtain ⟨character, characterMember, code⟩ := (ascii_mem_asBytes_iff ascii).mp inName
    rw [← code, Char.ofNat_toNat] at excluded
    exact isBareName.bare character characterMember excluded
  refine .bare (asBytes_append "-" name).symm ?_ ?_ ?_
  · exact excludes Ascii.space (by decide) (by decide) (by decide)
  · exact excludes Ascii.quote (by decide) (by decide) (by decide)
  · exact excludes Ascii.newline (by decide) (by decide) (by decide)

theorem encodeOption_isFields {option : CommandOption} (isBareName : IsBareName option.name) :
    IsFields (Ascii.space :: encodeOption option) option.fields := by
  have nameField := IsFields.singleton isBareName.isField
  unfold encodeOption CommandOption.fields
  cases option.value with
  | none =>
      rw [List.append_nil]
      exact nameField
  | some value => exact nameField.append (encodeParameter_isFields value)

theorem decimalValue_append_singleton (digits : List UInt8) (digit : UInt8) :
    decimalValue (digits ++ [digit]) = decimalValue digits * 10 + (digit.toNat - 48) := by
  simp [decimalValue]

theorem writeU64_digit (n : UInt64) :
    IsDecimalDigit (Ascii.zero + (n % 10).toUInt8) ∧
      (Ascii.zero + (n % 10).toUInt8).toNat - 48 = n.toNat % 10 := by
  have digit : (Ascii.zero + (n % 10).toUInt8).toNat = 48 + n.toNat % 10 := by
    have zeroCode : Ascii.zero.toNat = 48 := rfl
    simp only [UInt8.toNat_add, UInt64.toNat_toUInt8, UInt64.toNat_mod, UInt64.reduceToNat,
      zeroCode]
    omega
  rw [IsDecimalDigit, digit]
  omega

/-- The digits the loop adds, read from the last one back, are the number. -/
theorem exists_of_writeU64Loop {space : Nat} {n : UInt64} {buffer written : List UInt8}
    (loop : writeU64Loop space n buffer = some written) :
    ∃ digits, written = buffer ++ digits ∧ (∀ byte ∈ digits, IsDecimalDigit byte) ∧
      decimalValue digits.reverse = n.toNat := by
  induction space generalizing n buffer with
  | zero =>
      unfold writeU64Loop at loop
      split_ifs at loop with isZero
      cases loop
      exact ⟨[], by simp, by simp, by simp [isZero, decimalValue]⟩
  | succ space ih =>
      unfold writeU64Loop at loop
      split_ifs at loop with isZero
      · cases loop
        exact ⟨[], by simp, by simp, by simp [isZero, decimalValue]⟩
      · obtain ⟨digits, writtenEq, decimal, value⟩ := ih loop
        obtain ⟨digitDecimal, digitValue⟩ := writeU64_digit n
        refine ⟨(Ascii.zero + (n % 10).toUInt8) :: digits, by simp [writtenEq], ?_, ?_⟩
        · simpa [digitDecimal] using decimal
        · have quotient : (n / 10).toNat = n.toNat / 10 := by simp
          rw [List.reverse_cons, decimalValue_append_singleton, value, digitValue, quotient]
          omega

theorem writeU64_isToken (token : Token) : IsToken (writeU64 token) (some token) := by
  unfold writeU64
  split_ifs with isZero
  · rw [isZero]
    have decimal : IsDecimalDigit Ascii.zero := by decide
    exact .digits [Ascii.zero] 0 (by decide) (List.forall_mem_singleton.mpr decimal) (by decide)
  · obtain ⟨digits, writtenEq, decimal, value⟩ :=
      exists_of_writeU64Loop (Option.some_get (writeU64Loop_isSome token [])).symm
    rw [List.nil_append] at writtenEq
    rw [writtenEq]
    refine .digits _ token ?_ (by simpa using decimal) value
    intro empty
    rw [empty] at value
    exact isZero (UInt64.toNat_inj.mp value.symm)

theorem decimalValue_map_asciiByte {characters : List Char}
    (ascii : ∀ character ∈ characters, character.toNat < 128) :
    decimalValue (characters.map asciiByte) = Nat.ofDigitChars 10 characters 0 := by
  have general : ∀ value : Nat,
      (characters.map asciiByte).foldl (fun value digit => value * 10 + (digit.toNat - 48)) value =
        Nat.ofDigitChars 10 characters value := by
    induction characters with
    | nil => exact fun value => rfl
    | cons character characters ih =>
        intro value
        have code := asciiByte_toNat (ascii character (by simp))
        rw [List.map_cons, List.foldl_cons, ih (fun other member => ascii other (by simp [member])),
          Nat.ofDigitChars_cons, code, Nat.mul_comm]
        rfl
  exact general 0

section Digits

variable {base : Nat} (positive : 0 < base) (low : base ≤ 10) (n : Nat)

include positive low

/-- In a base up to ten, numbers are written with the ASCII digits. -/
theorem digit_of_mem_toDigits :
    ∀ character ∈ Nat.toDigits base n, 48 ≤ character.toNat ∧ character.toNat ≤ 57 := by
  intro character member
  exact Char.isDigit_iff_toNat.mp (Nat.isDigit_of_mem_toDigits positive low member)

theorem ascii_of_mem_toDigits :
    ∀ character ∈ Nat.toDigits base n, character.toNat < 128 := by
  intro character member
  have := digit_of_mem_toDigits positive low n character member
  omega

theorem flatMap_toDigits :
    (Nat.toDigits base n).flatMap String.utf8EncodeChar = (Nat.toDigits base n).map asciiByte :=
  flatMap_utf8EncodeChar_of_ascii (ascii_of_mem_toDigits positive low n)

theorem decimal_of_mem_toDigits :
    ∀ byte ∈ (Nat.toDigits base n).map asciiByte, IsDecimalDigit byte := by
  intro byte member
  obtain ⟨character, listed, rfl⟩ := List.mem_map.mp member
  rw [IsDecimalDigit, asciiByte_toNat (ascii_of_mem_toDigits positive low n character listed)]
  exact digit_of_mem_toDigits positive low n character listed

end Digits

theorem asBytes_toString (n : Nat) :
    asBytes (toString n) = (Nat.toDigits 10 n).map asciiByte := by
  rw [Nat.toString_eq_ofList_toDigits, asBytes_ofList, flatMap_toDigits (by omega) (by omega)]

/-- Decimal text is a token too. -/
theorem toString_isToken (token : Token) :
    IsToken (asBytes (toString token.toNat)) (some token) := by
  rw [asBytes_toString]
  refine .digits _ token ?_ (decimal_of_mem_toDigits (by omega) (by omega) _) ?_
  · intro empty
    exact Nat.toDigits_ne_nil (List.map_eq_nil_iff.mp empty)
  · rw [decimalValue_map_asciiByte (ascii_of_mem_toDigits (by omega) (by omega) _),
      Nat.ofDigitChars_ten_toDigits]

theorem encodeToken_isToken (token : Option Token) : IsToken (encodeToken token) token := by
  cases token with
  | none => exact .absent
  | some token => exact writeU64_isToken token

theorem newline_not_mem_of_isToken {bytes : List UInt8} {token : Option Token}
    (isToken : IsToken bytes token) : Ascii.newline ∉ bytes := by
  have notDecimal : ¬ IsDecimalDigit Ascii.newline := by decide
  cases isToken with
  | absent => exact List.not_mem_nil
  | digits _ _ nonempty decimal => exact fun member => notDecimal (decimal _ member)

/-- The encoder writes the token's digits, the dashed operation, and then the
other fields one after the other. -/
theorem exists_of_encodeCommand (token : Option Token) (command : MiCommand)
    (optionsBare : ∀ option ∈ command.options, IsBareName option.name) :
    ∃ tokenBytes moreBytes moreFields, IsToken tokenBytes token ∧
      IsFields moreBytes moreFields ∧ command.fields = ("-" ++ command.operation) :: moreFields ∧
      encodeCommand token command =
        tokenBytes ++ (Ascii.minus :: asBytes command.operation ++ moreBytes) ++
          [Ascii.newline] := by
  have options : IsFields
      (command.options.flatMap fun option => Ascii.space :: encodeOption option)
      (command.options.flatMap CommandOption.fields) :=
    .flatMap fun option member => encodeOption_isFields (optionsBare option member)
  have parameters : IsFields
      (command.parameters.flatMap fun parameter => Ascii.space :: encodeParameter parameter)
      (command.parameters.flatMap fun parameter => [parameter]) :=
    .flatMap fun parameter _ => encodeParameter_isFields parameter
  have separator : IsFields
      (if shouldEmitDoubleDash command then asBytes " --" else [])
      (if ∃ first ∈ command.parameters.head?, first.toList.head? = some '-' then ["--"]
        else []) := by
    have sameTest : shouldEmitDoubleDash command = true ↔
        ∃ first ∈ command.parameters.head?, first.toList.head? = some '-' := by
      unfold shouldEmitDoubleDash
      cases command.parameters.head? <;> simp
    simp only [sameTest]
    split_ifs
    · exact .singleton (.bare rfl (by decide) (by decide) (by decide))
    · exact .nil
  refine ⟨encodeToken token, _, _, encodeToken_isToken token,
    (options.append separator).append parameters, ?_, ?_⟩
  · simp [MiCommand.fields]
  · simp only [encodeCommand, List.append_assoc, List.cons_append]

/-- A token, a dashed bare name and fields make one line that reads back. -/
theorem line_reads_back {tokenBytes moreBytes : List UInt8} {token : Option Token}
    {operation : String} {moreFields : List String} (isToken : IsToken tokenBytes token)
    (operationBare : IsBareName operation) (more : IsFields moreBytes moreFields) :
    Ascii.newline ∉ tokenBytes ++ (Ascii.minus :: asBytes operation ++ moreBytes) ∧
      ∃ afterToken,
        parseOptionalToken
            (.new (tokenBytes ++ (Ascii.minus :: asBytes operation ++ moreBytes))) =
          .ok (token, afterToken) ∧
        readFields afterToken = .ok (("-" ++ operation) :: moreFields) := by
  have isField := operationBare.isField
  constructor
  · simp only [List.mem_append, not_or]
    exact ⟨newline_not_mem_of_isToken isToken, isField.newline_not_mem, more.newline_not_mem⟩
  · refine ⟨⟨tokenBytes.length, _⟩, parseOptionalToken_append isToken ?_, ?_⟩
    · rintro byte ⟨⟩
      decide
    · have spare : moreBytes.length ≤
          (Ascii.minus :: asBytes operation ++ moreBytes).length := by
        simp only [List.length_append]
        omega
      exact readFieldsLoop_append isField more _ [] _ spare

/-- The line of an encoded command, and where its token ends. -/
theorem exists_line_of_encodeCommand (token : Option Token) {command : MiCommand}
    (operationBare : IsBareName command.operation)
    (optionsBare : ∀ option ∈ command.options, IsBareName option.name) :
    ∃ line afterToken, encodeCommand token command = line ++ [Ascii.newline] ∧
      Ascii.newline ∉ line ∧ parseOptionalToken (.new line) = .ok (token, afterToken) ∧
      readFields afterToken = .ok command.fields := by
  obtain ⟨tokenBytes, moreBytes, moreFields, isToken, more, fieldsEq, encoded⟩ :=
    exists_of_encodeCommand token command optionsBare
  obtain ⟨noNewline, afterToken, tokenRead, fieldsRead⟩ :=
    line_reads_back isToken operationBare more
  rw [fieldsEq]
  exact ⟨_, afterToken, encoded, noNewline, tokenRead, fieldsRead⟩

/-- An encoded command is one line, and reading that line back gives the token
and exactly the command's fields. -/
theorem encodeCommand_reads_back (token : Option Token) (command : MiCommand)
    (operationBare : IsBareName command.operation)
    (optionsBare : ∀ option ∈ command.options, IsBareName option.name) :
    ∃ line, encodeCommand token command = line ++ [Ascii.newline] ∧ Ascii.newline ∉ line ∧
      ∃ afterToken, parseOptionalToken (.new line) = .ok (token, afterToken) ∧
        readFields afterToken = .ok command.fields := by
  obtain ⟨line, afterToken, encoded, noNewline, tokenRead, fieldsRead⟩ :=
    exists_line_of_encodeCommand token operationBare optionsBare
  exact ⟨line, encoded, noNewline, afterToken, tokenRead, fieldsRead⟩

/-- A breakpoint command whose parameters need every kind of care. -/
theorem encodeCommand_reads_back_break_insert :
    ∃ line, encodeCommand (some 7) ⟨"break-insert", [⟨"c", some "a \"b\""⟩], ["-x", "", "é\n"]⟩ =
        line ++ [Ascii.newline] ∧ Ascii.newline ∉ line ∧
      ∃ afterToken, parseOptionalToken (.new line) = .ok (some 7, afterToken) ∧
        readFields afterToken =
          .ok ["-break-insert", "-c", "a \"b\"", "--", "-x", "", "é\n"] :=
  encodeCommand_reads_back (some 7)
    ⟨"break-insert", [⟨"c", some "a \"b\""⟩], ["-x", "", "é\n"]⟩
    (by decide) (List.forall_mem_singleton.mpr (by decide))

end Framewalk
