import Framewalk.CommandFields
import Framewalk.Connection
import Framewalk.RawGuard

/-!
# What an accepted raw command sends

The guard looks at a trimmed view of the input up to the first ASCII
whitespace, while the connection sends the whole input.  This file says exactly
for which inputs the two readings agree: one line is sent when the input has no
newline, and the operation that was checked is the one that is sent when the
input starts at its dash and trimming does not cut into its first word.
-/

namespace Framewalk.RawGuard

open Utf8Text OutputGrammar

/-- The bytes that a raw submission appends to the outbound buffer. -/
def appendedBytes (connection : Connection) (rawLine : String) : List UInt8 :=
  (connection.submitRaw rawLine).2.outbound.bytes.drop connection.outbound.bytes.length

theorem appendedBytes_eq (connection : Connection) (rawLine : String) :
    appendedBytes connection rawLine =
      asBytes (toString connection.tokens.next.toNat) ++
        (asBytes rawLine ++ [Ascii.newline]) := by
  rw [← List.append_assoc]
  exact List.drop_left

/-- Exactly one newline, at the end. -/
def IsOneLine (bytes : List UInt8) : Prop :=
  ∃ line, bytes = line ++ [Ascii.newline] ∧ Ascii.newline ∉ line

theorem isOneLine_append_newline_iff (bytes : List UInt8) :
    IsOneLine (bytes ++ [Ascii.newline]) ↔ Ascii.newline ∉ bytes := by
  constructor
  · rintro ⟨line, lineEq, noNewline⟩
    rwa [List.append_cancel_right lineEq]
  · exact fun noNewline => ⟨bytes, rfl, noNewline⟩

theorem newline_mem_asBytes_iff (text : String) :
    Ascii.newline ∈ asBytes text ↔ '\n' ∈ text.toList := by
  rw [ascii_mem_asBytes_iff (by decide)]
  constructor
  · rintro ⟨character, member, code⟩
    have isNewline : character = '\n' := Char.toNat_inj.mp code
    rwa [← isNewline]
  · exact fun member => ⟨'\n', member, rfl⟩

theorem appendedBytes_isOneLine_iff (connection : Connection) (rawLine : String) :
    IsOneLine (appendedBytes connection rawLine) ↔ '\n' ∉ rawLine.toList := by
  have noNewline := newline_not_mem_of_isToken (toString_isToken connection.tokens.next)
  rw [appendedBytes_eq, ← List.append_assoc, isOneLine_append_newline_iff, List.mem_append,
    newline_mem_asBytes_iff rawLine, not_or]
  exact and_iff_right noNewline

/-- An accepted input is sent as one line exactly when it has no newline, which
the guard does not look for. -/
theorem accepted_isOneLine_iff (input : String) (allowShell : Bool) (connection : Connection) :
    validateRawMiCommand input allowShell = .ok () →
      (IsOneLine (appendedBytes connection input) ↔ '\n' ∉ input.toList) := by
  intro _
  exact appendedBytes_isOneLine_iff connection input

theorem accepted_isOneLine_gdb_version :
    IsOneLine (appendedBytes .new "-gdb-version") ↔ '\n' ∉ "-gdb-version".toList :=
  accepted_isOneLine_iff "-gdb-version" false .new (by decide)

/-- A second command behind a newline passes the guard. -/
theorem accepted_second_line :
    validateRawMiCommand "-gdb-version\n-interpreter-exec console \"shell ls\"" false = .ok () ∧
      ¬ IsOneLine
        (appendedBytes .new "-gdb-version\n-interpreter-exec console \"shell ls\"") := by
  refine ⟨by decide, ?_⟩
  rw [appendedBytes_isOneLine_iff]
  decide

/-- `is_ascii_whitespace` on bytes. -/
def isAsciiWhitespaceByte (byte : UInt8) : Bool :=
  byte == 0x20 || byte == 0x09 || byte == 0x0a || byte == 0x0c || byte == 0x0d

/-- The line is the token's decimal digits, a dash, and then this operation up
to the first ASCII whitespace. -/
def RunsOperation (line : List UInt8) (token : Token) (operation : String) : Prop :=
  ∃ digits rest, IsToken digits (some token) ∧ line = digits ++ Ascii.minus :: rest ∧
    rest.takeWhile (fun byte => !isAsciiWhitespaceByte byte) = asBytes operation

/-- The input starts at its dash, and its first word does not end in white
space that trimming would remove. -/
def StartsAtTrimmedWord (input : String) : Prop :=
  input.toList.head? = some '-' ∧
    ((∀ last ∈ (firstWord input.toList).getLast?, isWhitespace last = false) ∨
      ∃ character ∈ input.toList.dropWhile (fun character => !isAsciiWhitespace character),
        isWhitespace character = false)

instance : DecidablePred StartsAtTrimmedWord := fun input =>
  decidable_of_iff (input.toList.head? = some '-' ∧
      ((firstWord input.toList).getLast?.all (fun last => !isWhitespace last) = true ∨
        (input.toList.dropWhile (fun character => !isAsciiWhitespace character)).any
          (fun character => !isWhitespace character) = true)) <| by
    simp only [StartsAtTrimmedWord, Option.all_eq_true, List.any_eq_true, Bool.not_eq_true']
    rfl

theorem rdropWhile_append_of_all {α : Type} {p : α → Bool} {first second : List α}
    (all : ∀ x ∈ second, p x = true) :
    (first ++ second).rdropWhile p = first.rdropWhile p := by
  rw [List.rdropWhile, List.reverse_append, List.dropWhile_append_of_pos (by simpa using all),
    List.rdropWhile]

theorem rdropWhile_append_of_exists {α : Type} {p : α → Bool} {first second : List α}
    (some : ∃ x ∈ second, p x = false) :
    (first ++ second).rdropWhile p = first ++ second.rdropWhile p := by
  have remains : (second.reverse.dropWhile p).isEmpty = false := by
    rcases some with ⟨x, member, rejected⟩
    rw [List.isEmpty_eq_false_iff, Ne, List.dropWhile_eq_nil_iff]
    intro all
    have accepted := all x (by simpa using member)
    rw [rejected] at accepted
    cases accepted
  rw [List.rdropWhile, List.reverse_append, List.dropWhile_append, remains]
  simp [List.rdropWhile]

/-- Trimming the end leaves the first word alone unless the word itself ends in
white space with nothing but white space behind it. -/
theorem firstWord_rdropWhile_iff (characters : List Char) :
    firstWord (characters.rdropWhile isWhitespace) = firstWord characters ↔
      (∀ last ∈ (firstWord characters).getLast?, isWhitespace last = false) ∨
        ∃ character ∈ characters.dropWhile (fun character => !isAsciiWhitespace character),
          isWhitespace character = false := by
  let keep : Char → Bool := fun character => !isAsciiWhitespace character
  let word := characters.takeWhile keep
  let rest := characters.dropWhile keep
  have split : characters = word ++ rest := List.takeWhile_append_dropWhile.symm
  have wordKept : ∀ character ∈ word, keep character = true := by
    intro character member
    exact List.mem_takeWhile_imp member
  by_cases later : ∃ character ∈ rest, isWhitespace character = false
  · have stops : (rest.rdropWhile isWhitespace).takeWhile keep = [] := by
      rcases List.rdropWhile_prefix isWhitespace rest with ⟨blanks, restEq⟩
      cases trimmedRest : rest.rdropWhile isWhitespace with
      | nil => rfl
      | cons head tail =>
          have notKept := List.head?_dropWhile_not keep characters
          rw [show characters.dropWhile keep = head :: (tail ++ blanks) by
            rw [← List.cons_append, ← trimmedRest, restEq]] at notKept
          simp only [List.head?_cons] at notKept
          rw [List.takeWhile_cons, notKept]
          rfl
    have same : firstWord (characters.rdropWhile isWhitespace) = firstWord characters := by
      conv_lhs => rw [split, rdropWhile_append_of_exists later]
      rw [firstWord, List.takeWhile_append_of_pos wordKept, stops, List.append_nil]
      rfl
    exact iff_of_true same (Or.inr later)
  · have blank : ∀ character ∈ rest, isWhitespace character = true := by
      intro character member
      by_contra notBlank
      exact later ⟨character, member, by simpa using notBlank⟩
    have trimmed : firstWord (characters.rdropWhile isWhitespace) =
        word.rdropWhile isWhitespace := by
      conv_lhs => rw [split, rdropWhile_append_of_all blank]
      rw [firstWord, List.takeWhile_eq_self_iff]
      intro character member
      exact wordKept character ((List.rdropWhile_prefix isWhitespace word).subset member)
    rw [trimmed]
    change word.rdropWhile isWhitespace = word ↔
      (∀ last ∈ word.getLast?, isWhitespace last = false) ∨ _
    rw [List.rdropWhile_eq_self_iff, or_iff_left later]
    constructor
    · intro kept last isLast
      obtain ⟨nonempty, rfl⟩ := List.mem_getLast?_eq_getLast isLast
      simpa using kept nonempty
    · intro kept nonempty
      have := kept _ (List.getLast?_eq_some_getLast nonempty)
      simp [this]

theorem isAsciiWhitespaceByte_asciiByte {character : Char} (ascii : character.toNat < 128) :
    isAsciiWhitespaceByte (asciiByte character) = isAsciiWhitespace character := by
  have code := asciiByte_toNat ascii
  rw [Bool.eq_iff_iff]
  simp only [isAsciiWhitespaceByte, isAsciiWhitespace, Bool.or_eq_true, beq_iff_eq,
    ← UInt8.toNat_inj, code, UInt8.reduceToNat]

theorem firstWord_bytes (characters : List Char) :
    (characters.flatMap String.utf8EncodeChar ++ [Ascii.newline]).takeWhile
        (fun byte => !isAsciiWhitespaceByte byte) =
      (firstWord characters).flatMap String.utf8EncodeChar := by
  have offAscii : ∀ byte : UInt8, 128 ≤ byte.toNat → isAsciiWhitespaceByte byte = false := by
    apply forall_byte
    decide +kernel
  have charOffAscii : ∀ character : Char, 128 ≤ character.toNat →
      isAsciiWhitespace character = false := by
    intro character notAscii
    simp only [isAsciiWhitespace, Bool.or_eq_false_iff, beq_eq_false_iff_ne]
    omega
  have stopped := takeWhile_flatMap_utf8EncodeChar
    (fun character ascii => isAsciiWhitespaceByte_asciiByte ascii) offAscii charOffAscii characters
  rw [firstWord, ← stopped, List.takeWhile_append]
  split_ifs with whole
  · rw [(List.takeWhile_prefix _).eq_of_length whole]
    exact List.append_nil _
  · rfl

theorem rest_eq_of_isToken {first second firstRest secondRest : List UInt8}
    {token : Option Token} (firstToken : IsToken first token) (secondToken : IsToken second token)
    (firstStops : ∀ byte ∈ firstRest.head?, ¬ IsDecimalDigit byte)
    (secondStops : ∀ byte ∈ secondRest.head?, ¬ IsDecimalDigit byte)
    (same : first ++ firstRest = second ++ secondRest) : firstRest = secondRest := by
  have firstParsed := parseOptionalToken_append firstToken firstStops
  rw [same, parseOptionalToken_append secondToken secondStops] at firstParsed
  have cursors := (Prod.mk.inj (Except.ok.inj firstParsed)).2
  exact (Cursor.mk.inj cursors).2.symm

theorem head_mem_utf8EncodeChar {character : Char} {characters : List Char}
    {rest : List UInt8} :
    ∀ byte ∈ ((character :: characters).flatMap String.utf8EncodeChar ++ rest).head?,
      byte ∈ String.utf8EncodeChar character := by
  intro byte first
  have nonempty : String.utf8EncodeChar character ≠ [] := String.utf8EncodeChar_ne_nil
  cases encoded : String.utf8EncodeChar character with
  | nil => exact absurd encoded nonempty
  | cons head tail =>
      rw [List.flatMap_cons, encoded] at first
      have headEq : head = byte := Option.some.inj first
      rw [headEq]
      exact List.mem_cons_self

/-- An input that starts with a dash or white space does not extend the
token. -/
theorem head_not_decimal {character : Char} {characters : List Char} {rest : List UInt8}
    (notDigit : character = '-' ∨ isWhitespace character = true) :
    ∀ byte ∈ ((character :: characters).flatMap String.utf8EncodeChar ++ rest).head?,
      ¬ IsDecimalDigit byte := by
  intro byte first decimal
  obtain ⟨low, high⟩ := decimal
  have code := (ascii_mem_utf8EncodeChar_iff (by omega)).mp (head_mem_utf8EncodeChar byte first)
  rcases notDigit with rfl | blank
  · have dash : ('-').toNat = 45 := rfl
    omega
  · simp only [isWhitespace, Bool.or_eq_true, Bool.and_eq_true, beq_iff_eq,
      decide_eq_true_eq] at blank
    omega

/-- The sent line runs an operation exactly when the input is a dash followed
by that word. -/
theorem runsOperation_iff {connection : Connection} {input operation : String} {first : Char}
    {characters : List Char} (inputEq : input.toList = first :: characters)
    (notDigit : first = '-' ∨ isWhitespace first = true) :
    RunsOperation (appendedBytes connection input) connection.tokens.next operation ↔
      first = '-' ∧ operation = String.ofList (firstWord characters) := by
  have isToken := toString_isToken connection.tokens.next
  have appended := appendedBytes_eq connection input
  rw [asBytes_eq_flatMap input, inputEq] at appended
  have encodedDash : String.utf8EncodeChar '-' = [Ascii.minus] := by decide
  constructor
  · rintro ⟨digits, rest, digitsToken, lineEq, restWord⟩
    have dashStops : ∀ byte ∈ (Ascii.minus :: rest).head?, ¬ IsDecimalDigit byte := by
      rintro byte ⟨⟩
      decide
    have restEq := rest_eq_of_isToken digitsToken isToken dashStops
      (head_not_decimal notDigit) (lineEq.symm.trans appended)
    have isDash : first = '-' := by
      have member := head_mem_utf8EncodeChar Ascii.minus (by rw [← restEq]; rfl)
      exact Char.toNat_inj.mp ((ascii_mem_utf8EncodeChar_iff (by decide)).mp member)
    subst isDash
    rw [List.flatMap_cons, encodedDash, List.singleton_append, List.cons_append] at restEq
    obtain rfl := (List.cons.inj restEq).2
    refine ⟨rfl, asBytes_injective ?_⟩
    rw [← restWord, firstWord_bytes, asBytes_ofList]
  · rintro ⟨rfl, rfl⟩
    refine ⟨_, characters.flatMap String.utf8EncodeChar ++ [Ascii.newline], isToken, ?_, ?_⟩
    · rw [appended, List.flatMap_cons, encodedDash]
      rfl
    · rw [firstWord_bytes, asBytes_ofList]

theorem dash_or_blank_of_trim {first : Char} {characters rest : List Char}
    (trimmed : trim (first :: characters) = '-' :: rest) :
    first = '-' ∨ isWhitespace first = true := by
  by_cases blank : isWhitespace first = true
  · exact Or.inr blank
  · left
    rw [trim, List.dropWhile_cons_of_neg blank] at trimmed
    rcases List.rdropWhile_prefix isWhitespace (first :: characters) with ⟨blanks, whole⟩
    rw [trimmed] at whole
    exact (List.cons.inj whole).1.symm

/-- For an accepted input, the line that is sent runs the operation that was
checked exactly when the input starts at its trimmed first word. -/
theorem accepted_runsOperation_iff (input : String) (allowShell : Bool)
    (accepted : validateRawMiCommand input allowShell = .ok ()) (connection : Connection) :
    (∃ operation, rawMiOperation input = .ok operation ∧
        RunsOperation (appendedBytes connection input) connection.tokens.next operation) ↔
      StartsAtTrimmedWord input := by
  obtain ⟨operation, extracted⟩ := exists_operation_of_accepted accepted
  obtain ⟨rest, trimmed, operationEq⟩ := trim_of_rawMiOperation extracted
  cases inputEq : input.toList with
  | nil =>
      rw [inputEq] at trimmed
      cases trimmed
  | cons first characters =>
      rw [inputEq] at trimmed
      have notDigit := dash_or_blank_of_trim trimmed
      have runs := @runsOperation_iff connection input operation first characters inputEq notDigit
      have words : (∃ operation, rawMiOperation input = .ok operation ∧
          RunsOperation (appendedBytes connection input) connection.tokens.next operation) ↔
            first = '-' ∧ firstWord rest = firstWord characters := by
        rw [extracted]
        simp only [Except.ok.injEq, exists_eq_left']
        rw [runs, operationEq, String.ofList_inj]
      rw [words, StartsAtTrimmedWord, inputEq, ← firstWord_rdropWhile_iff, List.head?_cons,
        Option.some_inj]
      apply and_congr_right
      rintro rfl
      have atDash : trim ('-' :: characters) = ('-' :: characters).rdropWhile isWhitespace := rfl
      have dashKept : ∀ tail, firstWord ('-' :: tail) = '-' :: firstWord tail := fun tail => rfl
      rw [← atDash, trimmed, dashKept, dashKept, List.cons_inj_right]

theorem accepted_runsOperation_break_insert :
    ∃ operation, rawMiOperation "-break-insert  main " = .ok operation ∧
      RunsOperation (appendedBytes .new "-break-insert  main ") 1 operation :=
  (accepted_runsOperation_iff "-break-insert  main " false (by decide) .new).mpr (by decide)

/-- Leading blanks pass the guard and separate the token from the dash. -/
theorem accepted_leading_blanks :
    validateRawMiCommand "   -gdb-version" false = .ok () ∧
      ¬ ∃ operation, rawMiOperation "   -gdb-version" = .ok operation ∧
        RunsOperation (appendedBytes .new "   -gdb-version") 1 operation := by
  refine ⟨by decide, ?_⟩
  rintro ⟨operation, _, runs⟩
  have inputEq : "   -gdb-version".toList = ' ' :: "  -gdb-version".toList := by decide
  have isDash := ((@runsOperation_iff .new _ operation _ _ inputEq (by decide)).mp runs).1
  exact absurd isDash (by decide)

end Framewalk.RawGuard
