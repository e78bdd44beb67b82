import Framewalk.CommandTexts

/-!
# How tokens are spelled

Tokens leave as decimal digits, through the encoder's own loop or through
formatting, and come back through a checked accumulation.  Leading zeros aside,
the accumulation fails exactly for the numbers that no token has.
-/

namespace Framewalk

open Utf8Text OutputGrammar

/-- The running value never decreases, so too large a number fails at the digit
where it first does not fit. -/
theorem parseTokenLoop_overflow {digits : List UInt8} (rest : List UInt8) (start pos : Nat)
    {value : UInt64} (any : Bool) (decimal : ∀ byte ∈ digits, IsDecimalDigit byte)
    (overflows : 2 ^ 64 ≤ decimalFrom value.toNat digits) :
    parseTokenLoop start (digits ++ rest) pos value any = .error ⟨.tokenOverflow, start⟩ := by
  induction digits generalizing pos value any with
  | nil =>
      have := value.toNat_lt
      exact absurd overflows (Nat.not_le.mpr this)
  | cons byte digits ih =>
      have digit := decimal byte (by simp)
      rw [List.cons_append, parseTokenLoop, if_pos ((isDigit_iff byte).mpr digit)]
      split_ifs with fits
      · apply ih
        · exact fun other member => decimal other (by simp [member])
        · rw [tokenDigit_toNat digit fits]
          exact overflows
      · rfl

theorem parseOptionalToken_digits {digits rest : List UInt8} (pos : Nat) (nonempty : digits ≠ [])
    (decimal : ∀ byte ∈ digits, IsDecimalDigit byte)
    (stops : ∀ byte ∈ rest.head?, ¬ IsDecimalDigit byte) {token : Token}
    (value : decimalValue digits = token.toNat) :
    parseOptionalToken ⟨pos, digits ++ rest⟩ =
      .ok (some token, ⟨pos + digits.length, rest⟩) := by
  have fits : decimalFrom (0 : UInt64).toNat digits < 2 ^ 64 := by
    change decimalValue digits < 2 ^ 64
    rw [value]
    exact token.toNat_lt
  have read : UInt64.ofNat (decimalFrom (0 : UInt64).toNat digits) = token := by
    change UInt64.ofNat (decimalValue digits) = token
    rw [value, UInt64.ofNat_toNat]
  have anyDigit : (false || !digits.isEmpty) = true := by simpa using nonempty
  have loop := parseTokenLoop_append pos pos 0 false decimal stops fits
  rw [read, if_pos anyDigit] at loop
  exact loop

theorem parseOptionalToken_overflow {digits : List UInt8} (rest : List UInt8) (pos : Nat)
    (decimal : ∀ byte ∈ digits, IsDecimalDigit byte) (overflows : 2 ^ 64 ≤ decimalValue digits) :
    parseOptionalToken ⟨pos, digits ++ rest⟩ = .error ⟨.tokenOverflow, pos⟩ :=
  parseTokenLoop_overflow rest pos pos false decimal overflows

theorem parseOptionalToken_writeU64 {rest : List UInt8} (pos : Nat) (token : Token)
    (stops : ∀ byte ∈ rest.head?, ¬ IsDecimalDigit byte) :
    parseOptionalToken ⟨pos, writeU64 token ++ rest⟩ =
      .ok (some token, ⟨pos + (writeU64 token).length, rest⟩) := by
  have isToken := writeU64_isToken token
  generalize writeU64 token = bytes at isToken ⊢
  cases isToken with
  | digits _ _ nonempty decimal value =>
      exact parseOptionalToken_digits pos nonempty decimal stops value

/-- The line of a command without its token, sent raw, is the line of the
command. -/
theorem submitRaw_outbound {command : MiCommand} {text : String}
    (isText : asBytes text ++ [Ascii.newline] = encodeCommand none command)
    (connection : Connection) :
    (connection.submitRaw text).2.outbound =
      connection.outbound.append
        (encodeCommand (some (connection.submitRaw text).1) command) := by
  rw [encodeCommand_commandBody] at isText
  have body : asBytes text = commandBody command := List.append_cancel_right isText
  rw [encodeCommand_commandBody, encodeToken, writeU64_eq_toString, ← body]
  rfl

/-- Numbers are written in canonical decimal without leaving the digit buffer, a
digit string is read as its exact value or refused because no token has it, and
sending a command's text raw sends the command. -/
theorem tokens_survive_the_wire :
    (∀ n : UInt64, (writeU64Loop 20 n []).isSome ∧ writeU64 n = asBytes (toString n.toNat)) ∧
      (∀ (pos : Nat) (digits rest : List UInt8), digits ≠ [] →
        (∀ byte ∈ digits, IsDecimalDigit byte) → (∀ byte ∈ rest.head?, ¬ IsDecimalDigit byte) →
        (decimalValue digits < 2 ^ 64 → ∃ token : Token, token.toNat = decimalValue digits ∧
          parseOptionalToken ⟨pos, digits ++ rest⟩ =
            .ok (some token, ⟨pos + digits.length, rest⟩)) ∧
        (2 ^ 64 ≤ decimalValue digits →
          parseOptionalToken ⟨pos, digits ++ rest⟩ = .error ⟨.tokenOverflow, pos⟩)) ∧
      (∀ (pos : Nat) (token : Token) (rest : List UInt8),
        (∀ byte ∈ rest.head?, ¬ IsDecimalDigit byte) →
        parseOptionalToken ⟨pos, writeU64 token ++ rest⟩ =
          .ok (some token, ⟨pos + (writeU64 token).length, rest⟩)) ∧
      ∀ command : MiCommand,
        (∃ text, asBytes text ++ [Ascii.newline] = encodeCommand none command) ∧
        ∀ text, asBytes text ++ [Ascii.newline] = encodeCommand none command →
          ∀ connection : Connection,
            (connection.submitRaw text).2.outbound =
              connection.outbound.append
                (encodeCommand (some (connection.submitRaw text).1) command) := by
  refine ⟨?_, ?_, ?_, ?_⟩
  · exact fun n => ⟨writeU64Loop_isSome n [], writeU64_eq_toString n⟩
  · intro pos digits rest nonempty decimal stops
    constructor
    · intro fits
      have value : decimalValue digits = (UInt64.ofNat (decimalValue digits)).toNat :=
        (UInt64.toNat_ofNat_of_lt fits).symm
      exact ⟨_, value.symm, parseOptionalToken_digits pos nonempty decimal stops value⟩
    · exact parseOptionalToken_overflow rest pos decimal
  · exact fun pos token rest stops => parseOptionalToken_writeU64 pos token stops
  · intro command
    refine ⟨⟨encodeMiCommand command, ?_⟩, fun text isText => submitRaw_outbound isText⟩
    rw [asBytes_encodeMiCommand, encodeCommand_commandBody]
    rfl

end Framewalk
