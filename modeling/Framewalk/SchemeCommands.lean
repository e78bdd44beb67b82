import Framewalk.SchemeQuoting

/-!
# Commands built by scripts

`mi-cmd` lays out an operation and its quoted arguments as text.  The encoder
quotes less, never turns a byte into two, and separates options from a first
parameter with a leading dash.  Quoting in a script is never shorter, so the two
lines agree exactly when every argument is spelled alike and no separator is
needed.
-/

namespace Framewalk

open Utf8Text OutputGrammar

/-- Every argument quoted behind a space. -/
def miArgs : List String → String
  | [] => ""
  | [argument] => " " ++ miQuoteParam argument
  | argument :: rest => " " ++ miQuoteParam argument ++ miArgs rest

/-- The command text of an operation and its arguments. -/
def miCmd (operation : String) : List String → String
  | [] => "-" ++ operation
  | arguments => "-" ++ operation ++ miArgs arguments

/-- An argument as `mi-args` spells it. -/
def scriptParameter (argument : String) : List UInt8 :=
  asBytes (miQuoteParam argument)

theorem asBytes_space : asBytes " " = [Ascii.space] := by
  decide

theorem asBytes_miArgs (arguments : List String) :
    asBytes (miArgs arguments) =
      arguments.flatMap fun argument => Ascii.space :: scriptParameter argument := by
  induction arguments with
  | nil => rfl
  | cons argument rest ih =>
      cases rest with
      | nil =>
          rw [miArgs, asBytes_append, asBytes_space, List.flatMap_cons, List.flatMap_nil,
            List.append_nil]
          rfl
      | cons second rest =>
          rw [miArgs, asBytes_append, asBytes_append, asBytes_space, ih, List.flatMap_cons]
          · rfl
          · simp

theorem asBytes_miCmd (operation : String) (arguments : List String) :
    asBytes (miCmd operation arguments) =
      Ascii.minus :: asBytes operation ++
        arguments.flatMap fun argument => Ascii.space :: scriptParameter argument := by
  have dash : asBytes "-" = [Ascii.minus] := by decide
  cases arguments with
  | nil =>
      rw [miCmd, asBytes_append, dash, List.flatMap_nil, List.append_nil]
      rfl
  | cons argument rest =>
      rw [miCmd, asBytes_append, asBytes_append, asBytes_miArgs, dash]
      · rfl
      · simp

/-- Either both sides leave the argument as it is, or both quote it and it is
all ASCII. -/
def SpelledAlike (argument : String) : Prop :=
  IsPlainWord argument ∨ (isNonBlankSequence argument = false ∧ IsAscii argument)

instance (argument : String) : Decidable (SpelledAlike argument) :=
  inferInstanceAs (Decidable (_ ∨ _))

theorem isNonBlankSequence_of_plain {argument : String} (plain : IsPlainWord argument) :
    isNonBlankSequence argument = true := by
  have plainByte : ∀ byte : UInt8, IsPlainByte byte →
      (byte == Ascii.space || byte == Ascii.tab || byte == Ascii.newline ||
        byte == Ascii.carriageReturn || byte == Ascii.quote || byte == Ascii.backslash) =
          false := by
    apply forall_byte
    decide +kernel
  rcases plain with ⟨nonempty, eachByte⟩
  simp only [isNonBlankSequence, Bool.and_eq_true, Bool.not_eq_true', List.isEmpty_eq_false_iff,
    ne_eq, asBytes_eq_nil_iff, List.any_eq_false]
  constructor
  · exact nonempty
  · intro byte member
    rw [plainByte byte (eachByte byte member)]
    exact Bool.false_ne_true

theorem spelledAlike_eq {argument : String} (alike : SpelledAlike argument) :
    scriptParameter argument = encodeParameter argument := by
  by_cases plain : IsPlainWord argument
  · rw [scriptParameter, miQuoteParam_of_plain plain, encodeParameter,
      if_pos (isNonBlankSequence_of_plain plain)]
  · rcases alike with isPlain | ⟨blank, ascii⟩
    · exact absurd isPlain plain
    · rw [scriptParameter, asBytes_miQuoteParam plain, bytesAsChars_of_ascii ascii,
        encodeParameter, if_neg (by simp [blank])]

/-- A script spells one byte in at least as many bytes as the encoder, and in
more beyond ASCII. -/
theorem length_encodeCstringByte_le (byte : UInt8) :
    1 ≤ (encodeCstringByte byte).length ∧
      (encodeCstringByte byte).length ≤
        ((String.utf8EncodeChar (byteAsChar byte)).flatMap encodeCstringByte).length ∧
      ((encodeCstringByte byte).length =
        ((String.utf8EncodeChar (byteAsChar byte)).flatMap encodeCstringByte).length →
          byte < 0x80) := by
  revert byte
  apply forall_byte
  decide +kernel

theorem encodeCstring_bytesAsChars (argument : String) :
    encodeCstring (bytesAsChars argument) =
      Ascii.quote :: ((asBytes argument).flatMap (fun byte =>
        (String.utf8EncodeChar (byteAsChar byte)).flatMap encodeCstringByte) ++
          [Ascii.quote]) := by
  rw [encodeCstring, asBytes_bytesAsChars, List.flatMap_assoc]

theorem length_encodeCstring_le (argument : String) :
    (encodeCstring argument).length ≤ (encodeCstring (bytesAsChars argument)).length := by
  have bodyLe := length_flatMap_le fun byte (_ : byte ∈ asBytes argument) =>
    (length_encodeCstringByte_le byte).2.1
  rw [encodeCstring_bytesAsChars, encodeCstring]
  simp only [List.length_cons, List.length_append]
  omega

theorem length_asBytes_lt (argument : String) :
    (asBytes argument).length < (encodeCstring argument).length := by
  have eachLe : ∀ byte ∈ asBytes argument, [byte].length ≤ (encodeCstringByte byte).length := by
    intro byte _
    exact (length_encodeCstringByte_le byte).1
  have bodyLe := length_flatMap_le eachLe
  rw [List.flatMap_singleton'] at bodyLe
  rw [encodeCstring]
  simp only [List.length_cons, List.length_append]
  omega

theorem length_encodeParameter_le (argument : String) :
    (encodeParameter argument).length ≤ (scriptParameter argument).length := by
  by_cases plain : IsPlainWord argument
  · rw [spelledAlike_eq (Or.inl plain)]
  · have quotedLe := length_encodeCstring_le argument
    have bareLt := length_asBytes_lt argument
    rw [scriptParameter, asBytes_miQuoteParam plain, encodeParameter]
    split_ifs
    · omega
    · exact quotedLe

/-- It is as long only for an argument spelled alike. -/
theorem spelledAlike_of_length {argument : String}
    (sameLength : (encodeParameter argument).length = (scriptParameter argument).length) :
    SpelledAlike argument := by
  by_cases plain : IsPlainWord argument
  · exact Or.inl plain
  · have quotedLe := length_encodeCstring_le argument
    have bareLt := length_asBytes_lt argument
    rw [scriptParameter, asBytes_miQuoteParam plain, encodeParameter] at sameLength
    split_ifs at sameLength with nonBlank
    · omega
    · rw [encodeCstring_bytesAsChars, encodeCstring] at sameLength
      simp only [List.length_cons, List.length_append] at sameLength
      have sameBytes := length_eq_of_flatMap
        (fun byte (_ : byte ∈ asBytes argument) => (length_encodeCstringByte_le byte).2.1)
        (by omega)
      refine Or.inr ⟨Bool.eq_false_iff.mpr nonBlank, ?_⟩
      intro byte member
      exact (length_encodeCstringByte_le byte).2.2 (sameBytes byte member)

/-- The arguments as the encoder spells them. -/
def encodedArguments (arguments : List String) : List UInt8 :=
  arguments.flatMap fun argument => Ascii.space :: encodeParameter argument

def scriptArguments (arguments : List String) : List UInt8 :=
  arguments.flatMap fun argument => Ascii.space :: scriptParameter argument

def separator : List UInt8 :=
  asBytes " --"

theorem space_not_mem_of_plain {argument : String} (plain : IsPlainWord argument) :
    Ascii.space ∉ asBytes argument := by
  intro member
  exact (plain.2 Ascii.space member).1 rfl

theorem takeWhile_scriptArguments (arguments : List String) :
    (scriptArguments arguments).takeWhile (· != Ascii.space) = [] := by
  cases arguments with
  | nil => rfl
  | cons argument rest => rfl

/-- Arguments of a script never start with the encoder's separator and then go
on as the encoder's: the first one would have to be the separator itself, and so
would every later one. -/
theorem scriptArguments_ne_separator (arguments : List String) :
    scriptArguments arguments ≠ separator ++ encodedArguments arguments := by
  have separatorEq : separator = [Ascii.space, Ascii.minus, Ascii.minus] := by decide
  induction arguments with
  | nil => decide
  | cons argument rest ih =>
      intro same
      have tailEq : scriptParameter argument ++ scriptArguments rest =
          Ascii.minus :: Ascii.minus :: Ascii.space ::
            (encodeParameter argument ++ encodedArguments rest) := by
        rw [separatorEq] at same
        exact (List.cons.inj same).2
      by_cases plain : IsPlainWord argument
      · have encodedEq := spelledAlike_eq (Or.inl plain)
        have bare : scriptParameter argument = asBytes argument := by
          rw [scriptParameter, miQuoteParam_of_plain plain]
        -- The argument is what stands in front of the next space.
        have isSeparator : scriptParameter argument = [Ascii.minus, Ascii.minus] := by
          have passes : ∀ byte ∈ scriptParameter argument, (byte != Ascii.space) = true := by
            intro byte member
            rw [bne_iff_ne]
            rintro rfl
            exact space_not_mem_of_plain plain (bare ▸ member)
          have taken := congrArg (List.takeWhile (· != Ascii.space)) tailEq
          rw [List.takeWhile_append_of_pos passes, takeWhile_scriptArguments,
            List.append_nil] at taken
          exact taken
        rw [← encodedEq, isSeparator] at tailEq
        apply ih
        rw [separatorEq]
        exact (List.cons.inj (List.cons.inj tailEq).2).2
      · rw [scriptParameter, asBytes_miQuoteParam plain] at tailEq
        cases tailEq

theorem scriptArguments_eq_iff (arguments : List String) :
    scriptArguments arguments = encodedArguments arguments ↔
      ∀ argument ∈ arguments, SpelledAlike argument := by
  constructor
  · intro same argument member
    have eachLe : ∀ argument ∈ arguments, (Ascii.space :: encodeParameter argument).length ≤
        (Ascii.space :: scriptParameter argument).length := by
      intro argument _
      have := length_encodeParameter_le argument
      simp only [List.length_cons]
      omega
    have total : (scriptArguments arguments).length ≤ (encodedArguments arguments).length := by
      rw [same]
    have sameLength := length_eq_of_flatMap eachLe total argument member
    simp only [List.length_cons, Nat.add_right_cancel_iff] at sameLength
    exact spelledAlike_of_length sameLength
  · intro alike
    apply List.flatMap_congr
    intro argument member
    rw [spelledAlike_eq (alike argument member)]

/-- No separator is needed. -/
def NoLeadingDash (arguments : List String) : Prop :=
  ∀ first, arguments.head? = some first → first.toList.head? ≠ some '-'

theorem shouldEmitDoubleDash_iff (operation : String) (arguments : List String) :
    shouldEmitDoubleDash ⟨operation, [], arguments⟩ = false ↔ NoLeadingDash arguments := by
  cases arguments with
  | nil => simp [shouldEmitDoubleDash, NoLeadingDash]
  | cons first rest => simp [shouldEmitDoubleDash, NoLeadingDash]

theorem encodeCommand_eq (operation : String) (arguments : List String) :
    encodeCommand none ⟨operation, [], arguments⟩ =
      Ascii.minus :: asBytes operation ++
        ((if shouldEmitDoubleDash ⟨operation, [], arguments⟩ then separator else []) ++
          encodedArguments arguments) ++ [Ascii.newline] := by
  simp only [encodeCommand, encodeToken, List.nil_append, List.flatMap_nil, List.append_nil,
    encodedArguments, separator, List.append_assoc]

/-- A script's line is the encoder's line exactly when no separator is needed and
every argument is spelled alike. -/
theorem miCmd_eq_encodeCommand_iff (operation : String) (arguments : List String) :
    asBytes (miCmd operation arguments) ++ [Ascii.newline] =
        encodeCommand none ⟨operation, [], arguments⟩ ↔
      NoLeadingDash arguments ∧ ∀ argument ∈ arguments, SpelledAlike argument := by
  rw [encodeCommand_eq, asBytes_miCmd, List.append_cancel_right_eq, List.append_cancel_left_eq,
    ← shouldEmitDoubleDash_iff operation]
  change scriptArguments arguments = _ ↔ _
  cases shouldEmitDoubleDash ⟨operation, [], arguments⟩ with
  | true =>
      simp only [if_true, Bool.true_eq_false, false_and, iff_false]
      exact scriptArguments_ne_separator arguments
  | false =>
      simp only [Bool.false_eq_true, if_false, List.nil_append, true_and]
      exact scriptArguments_eq_iff arguments

/-- The lines differ for a leading dash, for a control character and for an
accented letter in a quoted argument. -/
theorem miCmd_differs :
    asBytes (miCmd "break-insert" ["-t"]) ++ [Ascii.newline] ≠
        encodeCommand none ⟨"break-insert", [], ["-t"]⟩ ∧
      asBytes (miCmd "data-evaluate-expression" ["\x01"]) ++ [Ascii.newline] ≠
        encodeCommand none ⟨"data-evaluate-expression", [], ["\x01"]⟩ ∧
      asBytes (miCmd "file-exec-file" ["é x"]) ++ [Ascii.newline] ≠
        encodeCommand none ⟨"file-exec-file", [], ["é x"]⟩ := by
  decide +kernel

end Framewalk
