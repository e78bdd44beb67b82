import Framewalk.OutputGrammar

/-!
# The c-string parser reads exactly the c-string grammar

Soundness follows the parser's loop and rebuilds the body relation from the
bytes it consumed.  Completeness runs the parser along a body: every production
of the body is one turn of the loop, and the greedy side condition of an octal
escape is what makes the digit loop stop where the production does.
-/

namespace Framewalk.OutputGrammar

open Utf8Text

/-- A statement about every byte is a statement about 256 numbers. -/
theorem forall_byte {motive : UInt8 → Prop}
    (every : ∀ code < 256, motive (UInt8.ofNat code)) (byte : UInt8) : motive byte := by
  have := every byte.toNat byte.toNat_lt
  rwa [UInt8.ofNat_toNat] at this

theorem isOctalDigit_iff (byte : UInt8) :
    isOctalDigit byte = true ↔ IsOctalDigit byte := by
  simp [isOctalDigit, IsOctalDigit, UInt8.le_iff_toNat_le]

theorem namedEscape_asciiByte {letter : Char} {value : Nat}
    (listed : (letter, value) ∈ escapeTable) :
    namedEscape (asciiByte letter) = some (UInt8.ofNat value) := by
  have every : ∀ entry ∈ escapeTable,
      namedEscape (asciiByte entry.1) = some (UInt8.ofNat entry.2) := by decide
  exact every (letter, value) listed

theorem exists_of_namedEscape {byte decoded : UInt8}
    (named : namedEscape byte = some decoded) :
    ∃ letter value, (letter, value) ∈ escapeTable ∧ byte = asciiByte letter ∧
      decoded = UInt8.ofNat value := by
  have every : ∀ byte : UInt8, ((namedEscape byte).all fun decoded => escapeTable.any fun entry =>
      byte == asciiByte entry.1 && decoded == UInt8.ofNat entry.2) = true := by
    apply forall_byte
    decide +kernel
  have listed := every byte
  rw [named, Option.all_some, List.any_eq_true] at listed
  obtain ⟨⟨letter, value⟩, listed, same⟩ := listed
  rw [Bool.and_eq_true, beq_iff_eq, beq_iff_eq] at same
  exact ⟨letter, value, listed, same⟩

theorem hexDigitValue_asciiByte {digit : Char} {value : Nat}
    (listed : (digit, value) ∈ hexDigits) :
    hexDigitValue (asciiByte digit) = some (UInt8.ofNat value) := by
  have every : ∀ entry ∈ hexDigits,
      hexDigitValue (asciiByte entry.1) = some (UInt8.ofNat entry.2) := by decide
  exact every (digit, value) listed

theorem exists_of_hexDigitValue {byte nibble : UInt8}
    (decoded : hexDigitValue byte = some nibble) :
    ∃ digit value, (digit, value) ∈ hexDigits ∧ byte = asciiByte digit ∧
      nibble = UInt8.ofNat value := by
  have every : ∀ byte : UInt8, ((hexDigitValue byte).all fun nibble => hexDigits.any fun entry =>
      byte == asciiByte entry.1 && nibble == UInt8.ofNat entry.2) = true := by
    apply forall_byte
    decide +kernel
  have listed := every byte
  rw [decoded, Option.all_some, List.any_eq_true] at listed
  obtain ⟨⟨digit, value⟩, listed, same⟩ := listed
  rw [Bool.and_eq_true, beq_iff_eq, beq_iff_eq] at same
  exact ⟨digit, value, listed, same⟩

/-- Joining two nibbles is the usual base-sixteen value. -/
theorem joinNibbles {hi lo : Char} {hiValue loValue : Nat}
    (hiListed : (hi, hiValue) ∈ hexDigits) (loListed : (lo, loValue) ∈ hexDigits) :
    UInt8.ofNat hiValue <<< 4 ||| UInt8.ofNat loValue =
      UInt8.ofNat (16 * hiValue + loValue) := by
  have every : ∀ first ∈ hexDigits, ∀ second ∈ hexDigits,
      UInt8.ofNat first.2 <<< 4 ||| UInt8.ofNat second.2 =
        UInt8.ofNat (16 * first.2 + second.2) := by decide
  exact every (hi, hiValue) hiListed (lo, loValue) loListed

/-- No letter of the table starts a hex or an octal escape, and none of them
is a second reading of another. -/
theorem namedEscape_eq_none_of_isOctalDigit {byte : UInt8}
    (octal : isOctalDigit byte = true) : namedEscape byte = none := by
  have every : ∀ byte : UInt8, isOctalDigit byte = true → namedEscape byte = none := by
    apply forall_byte
    decide +kernel
  exact every byte octal

/-- The machine accumulator of the octal loop. -/
def octalAccumulator (value : UInt16) (digits : List UInt8) : UInt16 :=
  digits.foldl (fun value digit => value * 8 + (digit - 48).toUInt16) value

theorem octalAccumulator_toUInt8 {digits : List UInt8}
    (octal : ∀ digit ∈ digits, IsOctalDigit digit) :
    (octalAccumulator 0 digits).toUInt8 = UInt8.ofNat (octalValue digits % 256) := by
  have general : ∀ (value : UInt16) (number : Nat),
      value.toNat % 256 = number % 256 →
        (octalAccumulator value digits).toNat % 256 =
          digits.foldl (fun value digit => value * 8 + (digit.toNat - 48)) number % 256 := by
    induction digits with
    | nil => exact fun value number same => same
    | cons digit digits ih =>
        intro value number same
        apply ih (fun other member => octal other (by simp [member]))
        obtain ⟨low, high⟩ := octal digit (by simp)
        have digitValue : (digit - 48).toNat = digit.toNat - 48 := by
          rw [UInt8.toNat_sub_of_le]
          · rfl
          · rwa [UInt8.le_iff_toNat_le]
        simp only [UInt16.toNat_add, UInt16.toNat_mul, UInt8.toNat_toUInt16, digitValue,
          UInt16.reduceToNat]
        omega
  apply UInt8.toNat_inj.mp
  rw [UInt16.toNat_toUInt8, UInt8.toNat_ofNat', general 0 0 rfl]
  exact (Nat.mod_mod _ _).symm

/-- The octal loop stops after its digits: either it has read as many as it
may, or the next byte is not octal. -/
theorem readOctalDigits_append {digits rest : List UInt8} {remaining : Nat} (pos : Nat)
    (value : UInt16) (short : digits.length ≤ remaining)
    (octal : ∀ digit ∈ digits, IsOctalDigit digit)
    (greedy : digits.length = remaining ∨ ∀ next ∈ rest.head?, ¬ IsOctalDigit next) :
    readOctalDigits remaining value ⟨pos, digits ++ rest⟩ =
      (octalAccumulator value digits, ⟨pos + digits.length, rest⟩) := by
  induction digits generalizing remaining pos value with
  | nil =>
      cases remaining with
      | zero => rfl
      | succ remaining =>
          have stops := greedy.resolve_left (by simp)
          cases rest with
          | nil => rfl
          | cons next rest =>
              have notOctal : isOctalDigit next = false := by
                rw [Bool.eq_false_iff, Ne, isOctalDigit_iff]
                exact stops next rfl
              simp [readOctalDigits, notOctal, octalAccumulator]
  | cons digit digits ih =>
      cases remaining with
      | zero => simp at short
      | succ remaining =>
          have digitOctal := (isOctalDigit_iff digit).mpr (octal digit (by simp))
          simp only [List.length_cons, Nat.add_right_cancel_iff,
            Nat.succ_le_succ_iff] at short greedy
          simp only [readOctalDigits, List.cons_append, Cursor.peek_cons, digitOctal, if_true,
            Cursor.advance_cons]
          rw [ih (pos + 1) _ short (fun other member => octal other (by simp [member])) greedy,
            List.length_cons, Nat.add_assoc, Nat.add_comm 1]
          rfl

/-- What the octal loop read: a run of at most the allowed number of octal
digits, maximal unless it is of full length. -/
theorem exists_of_readOctalDigits (remaining : Nat) (value : UInt16) (cursor : Cursor) :
    ∃ digits, cursor.rest = digits ++ (readOctalDigits remaining value cursor).2.rest ∧
      digits.length ≤ remaining ∧ (∀ digit ∈ digits, IsOctalDigit digit) ∧
      (digits.length = remaining ∨
        ∀ next ∈ (readOctalDigits remaining value cursor).2.rest.head?, ¬ IsOctalDigit next) ∧
      (readOctalDigits remaining value cursor).1 = octalAccumulator value digits := by
  induction remaining generalizing value cursor with
  | zero => exact ⟨[], rfl, Nat.le_refl 0, by simp, Or.inl rfl, rfl⟩
  | succ remaining ih =>
      obtain ⟨pos, rest⟩ := cursor
      cases rest with
      | nil => exact ⟨[], rfl, by simp, by simp, Or.inr (by simp [readOctalDigits]), rfl⟩
      | cons next rest =>
          cases octal : isOctalDigit next with
          | false =>
              have notOctal : ¬ IsOctalDigit next := by
                rw [← isOctalDigit_iff, octal]
                simp
              refine ⟨[], ?_, by simp, by simp, Or.inr ?_, ?_⟩
              · simp [readOctalDigits, octal]
              · simpa [readOctalDigits, octal] using notOctal
              · simp [readOctalDigits, octal, octalAccumulator]
          | true =>
              obtain ⟨digits, restEq, short, digitsOctal, greedy, valueEq⟩ :=
                ih (value * 8 + (next - 48).toUInt16) ⟨pos + 1, rest⟩
              have unfolded : readOctalDigits (remaining + 1) value ⟨pos, next :: rest⟩ =
                  readOctalDigits remaining (value * 8 + (next - 48).toUInt16) ⟨pos + 1, rest⟩ := by
                simp [readOctalDigits, octal]
              rw [unfolded]
              refine ⟨next :: digits, ?_, by simpa using short, ?_, ?_, ?_⟩
              · rw [List.cons_append, ← restEq]
              · simpa [(isOctalDigit_iff next).mp octal] using digitsOctal
              · simpa using greedy
              · rw [valueEq]
                rfl

theorem decodeEscape_named {letter : Char} {value : Nat}
    (listed : (letter, value) ∈ escapeTable) (pos : Nat) (rest : List UInt8) :
    decodeEscape ⟨pos, Ascii.backslash :: asciiByte letter :: rest⟩ =
      .ok (UInt8.ofNat value, ⟨pos + 2, rest⟩) := by
  simp [decodeEscape, namedEscape_asciiByte listed]

theorem readHexDigit_cons {digit : Char} {value : Nat}
    (listed : (digit, value) ∈ hexDigits) (pos escapePos : Nat) (rest : List UInt8) :
    readHexDigit ⟨pos, asciiByte digit :: rest⟩ escapePos =
      .ok (UInt8.ofNat value, ⟨pos + 1, rest⟩) := by
  simp [readHexDigit, hexDigitValue_asciiByte listed]

theorem decodeEscape_hex {hi lo : Char} {hiValue loValue : Nat}
    (hiListed : (hi, hiValue) ∈ hexDigits) (loListed : (lo, loValue) ∈ hexDigits)
    (pos : Nat) (rest : List UInt8) :
    decodeEscape ⟨pos, Ascii.backslash :: Ascii.lowerX :: asciiByte hi :: asciiByte lo :: rest⟩ =
      .ok (UInt8.ofNat (16 * hiValue + loValue), ⟨pos + 4, rest⟩) := by
  have notNamed : namedEscape Ascii.lowerX = none := by decide
  simp only [decodeEscape, Cursor.advance_cons, Cursor.peek_cons, notNamed, if_true,
    readHexDigit_cons hiListed, readHexDigit_cons loListed, bind, Except.bind]
  rw [joinNibbles hiListed loListed]

theorem decodeEscape_octal {digits rest : List UInt8} (nonempty : digits ≠ [])
    (short : digits.length ≤ 3) (octal : ∀ digit ∈ digits, IsOctalDigit digit)
    (greedy : digits.length = 3 ∨ ∀ next ∈ rest.head?, ¬ IsOctalDigit next) (pos : Nat) :
    decodeEscape ⟨pos, Ascii.backslash :: (digits ++ rest)⟩ =
      .ok (UInt8.ofNat (octalValue digits % 256), ⟨pos + 1 + digits.length, rest⟩) := by
  have digitsRead := readOctalDigits_append (pos + 1) 0 short octal greedy
  rw [← octalAccumulator_toUInt8 octal]
  cases digits with
  | nil => exact absurd rfl nonempty
  | cons digit digits =>
      have digitOctal := (isOctalDigit_iff digit).mpr (octal digit (by simp))
      have notNamed := namedEscape_eq_none_of_isOctalDigit digitOctal
      have notHex : digit ≠ Ascii.lowerX := by
        rintro rfl
        exact absurd digitOctal (by decide)
      simp only [List.cons_append] at digitsRead ⊢
      simp [decodeEscape, notNamed, notHex, digitOctal, digitsRead]

theorem exists_of_readHexDigit {cursor next : Cursor} {escapePos : Nat} {nibble : UInt8}
    (read : readHexDigit cursor escapePos = .ok (nibble, next)) :
    ∃ digit value, (digit, value) ∈ hexDigits ∧ nibble = UInt8.ofNat value ∧
      cursor.rest = asciiByte digit :: next.rest := by
  unfold readHexDigit at read
  split at read
  · cases read
  · next byte peeked =>
      split at read
      · next found nibbleEq =>
          cases read
          obtain ⟨digit, value, listed, rfl, rfl⟩ := exists_of_hexDigitValue nibbleEq
          exact ⟨digit, value, listed, rfl, Cursor.rest_eq_of_peek peeked⟩
      · cases read

/-- A decoded escape extends every body that follows it on the line.  The body
is followed by further bytes `tail`, so that the byte after an octal escape is
the next byte of the body unless the body is empty. -/
theorem exists_of_decodeEscape {cursor next : Cursor} {byte : UInt8}
    (opens : cursor.peek = some Ascii.backslash)
    (decoded : decodeEscape cursor = .ok (byte, next)) :
    ∃ escape, cursor.rest = Ascii.backslash :: (escape ++ next.rest) ∧
      ∀ {source tail output : List UInt8}, next.rest = source ++ tail →
        CStringBody source output →
          CStringBody (Ascii.backslash :: (escape ++ source)) (byte :: output) := by
  rw [Cursor.rest_eq_of_peek opens]
  simp only [decodeEscape] at decoded
  split at decoded
  · cases decoded
  · next letter peeked =>
      rw [Cursor.rest_eq_of_peek peeked]
      split at decoded
      · next value named =>
          cases decoded
          obtain ⟨character, code, listed, rfl, rfl⟩ := exists_of_namedEscape named
          exact ⟨[asciiByte character], rfl, fun _ body => .named character code listed body⟩
      · split_ifs at decoded with isHex isOctal
        · obtain ⟨⟨hi, afterHi⟩, hiRead, decoded⟩ := exists_of_bind_eq_ok decoded
          obtain ⟨⟨lo, afterLo⟩, loRead, decoded⟩ := exists_of_bind_eq_ok decoded
          cases decoded
          obtain ⟨hiDigit, hiValue, hiListed, rfl, hiRest⟩ := exists_of_readHexDigit hiRead
          obtain ⟨loDigit, loValue, loListed, rfl, loRest⟩ := exists_of_readHexDigit loRead
          refine ⟨[letter, asciiByte hiDigit, asciiByte loDigit], ?_, fun _ body => ?_⟩
          · rw [hiRest, loRest]
            rfl
          · rw [joinNibbles hiListed loListed, isHex]
            exact .hex hiDigit loDigit hiValue loValue hiListed loListed body
        · cases decoded
          obtain ⟨digits, restEq, short, octal, greedy, valueEq⟩ :=
            exists_of_readOctalDigits 3 0 cursor.advance
          have nonempty : digits ≠ [] := by
            rintro rfl
            rw [List.nil_append, Cursor.rest_eq_of_peek peeked] at restEq
            have notOctal := greedy.resolve_left (by simp) letter (by simp [← restEq])
            exact notOctal ((isOctalDigit_iff letter).mp isOctal)
          refine ⟨digits, ?_, fun {source tail output} follows body => ?_⟩
          · rw [← restEq, Cursor.rest_eq_of_peek peeked]
          · rw [valueEq, octalAccumulator_toUInt8 octal]
            refine .octal digits nonempty short octal ?_ body
            refine greedy.imp_right fun stops other first => stops other ?_
            cases source with
            | nil => simp at first
            | cons head source => simpa [follows] using first

theorem parseCstringLoop_escape {openPos unread : Nat} {cursor next : Cursor} {byte : UInt8}
    {out : List UInt8} (opens : cursor.peek = some Ascii.backslash)
    (escape : decodeEscape cursor = .ok (byte, next)) :
    parseCstringLoop openPos (unread + 1) cursor out =
      parseCstringLoop openPos unread next (out ++ [byte]) := by
  have notQuote : Ascii.backslash ≠ Ascii.quote := by decide
  simp only [parseCstringLoop, opens, if_neg notQuote, if_true, escape, bind, Except.bind]

/-- The loop reads this body in front of its closing quote, wherever it starts. -/
def ReadsBody (openPos : Nat) (rest body decoded : List UInt8) : Prop :=
  ∀ (pos : Nat) (out : List UInt8) (unread : Nat), body.length < unread →
    parseCstringLoop openPos unread ⟨pos, body ++ Ascii.quote :: rest⟩ out =
      .ok (out ++ decoded, ⟨pos + body.length + 1, rest⟩)

/-- An escape that is decoded in front of a body extends it. -/
theorem ReadsBody.escape {openPos : Nat} {rest body decoded : List UInt8} {byte : UInt8}
    (tail : List UInt8)
    (escaped : ∀ pos, decodeEscape ⟨pos, Ascii.backslash :: tail ++ (body ++ Ascii.quote :: rest)⟩ =
      .ok (byte, ⟨pos + (Ascii.backslash :: tail).length, body ++ Ascii.quote :: rest⟩))
    (readsBody : ReadsBody openPos rest body decoded) :
    ReadsBody openPos rest (Ascii.backslash :: tail ++ body) (byte :: decoded) := by
  intro pos out unread bound
  obtain ⟨spare, rfl⟩ := Nat.exists_eq_add_of_lt bound
  have position : pos + (Ascii.backslash :: tail).length + body.length + 1 =
      pos + (Ascii.backslash :: tail ++ body).length + 1 := by
    rw [List.length_append, Nat.add_assoc pos]
  have spareBound : body.length < (Ascii.backslash :: tail ++ body).length + spare := by
    rw [List.length_append, List.length_cons]
    omega
  rw [List.append_assoc, parseCstringLoop_escape rfl (escaped pos), readsBody _ _ _ spareBound,
    position, List.append_assoc, List.singleton_append]

theorem parseCstringLoop_append {body decoded : List UInt8} (grammar : CStringBody body decoded)
    (openPos : Nat) (rest : List UInt8) : ReadsBody openPos rest body decoded := by
  induction grammar with
  | nil =>
      intro pos out unread bound
      obtain ⟨unread, rfl⟩ := Nat.exists_eq_add_of_lt bound
      simp [parseCstringLoop]
  | @plain source decoded byte notQuote notBackslash _ ih =>
      intro pos out unread bound
      obtain ⟨spare, rfl⟩ := Nat.exists_eq_add_of_lt bound
      have position : pos + 1 + source.length + 1 = pos + (byte :: source).length + 1 := by
        simp only [List.length_cons]
        omega
      rw [parseCstringLoop, List.cons_append]
      simp only [Cursor.peek_cons, if_neg notQuote, if_neg notBackslash, Cursor.advance_cons]
      rw [ih _ _ _ (by simp only [List.length_cons]; omega), position]
      simp
  | @named source decoded letter value listed _ ih =>
      exact .escape [asciiByte letter] (fun pos => decodeEscape_named listed pos _) ih
  | @hex source decoded hi lo hiValue loValue hiListed loListed _ ih =>
      exact .escape [Ascii.lowerX, asciiByte hi, asciiByte lo]
        (fun pos => decodeEscape_hex hiListed loListed pos _) ih
  | @octal source decoded digits nonempty short octal greedy _ ih =>
      have stops : digits.length = 3 ∨
          ∀ next ∈ (source ++ Ascii.quote :: rest).head?, ¬ IsOctalDigit next := by
        refine greedy.imp_right fun stops next first => ?_
        cases source with
        | nil =>
            obtain rfl : Ascii.quote = next := Option.some.inj first
            exact fun octalQuote => absurd octalQuote.1 (by decide)
        | cons head source => exact stops next first
      apply ReadsBody.escape digits _ ih
      intro pos
      rw [List.length_cons, Nat.add_comm digits.length 1, ← Nat.add_assoc]
      exact decodeEscape_octal nonempty short octal stops pos

theorem exists_of_parseCstringLoop {openPos unread : Nat} {cursor next : Cursor}
    {out result : List UInt8}
    (parsed : parseCstringLoop openPos unread cursor out = .ok (result, next)) :
    ∃ body decoded, cursor.rest = body ++ Ascii.quote :: next.rest ∧
      result = out ++ decoded ∧ CStringBody body decoded := by
  induction unread generalizing cursor out with
  | zero =>
      unfold parseCstringLoop at parsed
      cases parsed
  | succ unread ih =>
      unfold parseCstringLoop at parsed
      split at parsed
      · cases parsed
      · next byte peeked =>
          split_ifs at parsed with isQuote isBackslash
          · cases parsed
            refine ⟨[], [], ?_, (List.append_nil _).symm, .nil⟩
            rw [Cursor.rest_eq_of_peek peeked, isQuote, List.nil_append]
          · obtain ⟨⟨value, afterEscape⟩, escaped, parsed⟩ := exists_of_bind_eq_ok parsed
            obtain ⟨body, decoded, restEq, resultEq, grammar⟩ := ih parsed
            obtain ⟨escape, cursorEq, extendsBody⟩ :=
              exists_of_decodeEscape (by rw [peeked, isBackslash]) escaped
            refine ⟨Ascii.backslash :: (escape ++ body), value :: decoded, ?_, ?_,
              extendsBody restEq grammar⟩
            · rw [cursorEq, restEq]
              simp
            · rw [resultEq]
              simp
          · obtain ⟨body, decoded, restEq, resultEq, grammar⟩ := ih parsed
            refine ⟨byte :: body, byte :: decoded, ?_, ?_,
              .plain byte isQuote isBackslash grammar⟩
            · rw [Cursor.rest_eq_of_peek peeked, restEq]
              rfl
            · rw [resultEq]
              simp

/-- A c-string literal is read whole, whatever follows it. -/
theorem parseCstring_append {bytes : List UInt8} {text : String}
    (grammar : IsCString bytes text) (pos : Nat) (rest : List UInt8) :
    parseCstring ⟨pos, bytes ++ rest⟩ = .ok (text, ⟨pos + bytes.length, rest⟩) := by
  obtain ⟨body, rfl, bodyGrammar⟩ := grammar
  have loop := parseCstringLoop_append bodyGrammar pos rest (pos + 1) []
    (body ++ Ascii.quote :: rest).length (by simp)
  have position : pos + 1 + body.length + 1 =
      pos + (Ascii.quote :: (body ++ [Ascii.quote])).length := by
    simp only [List.length_cons, List.length_append, List.length_nil]
    omega
  rw [List.cons_append, List.append_assoc, List.singleton_append]
  simp only [parseCstring, Cursor.peek_cons, if_true, Cursor.advance_cons, loop, bind,
    Except.bind, List.nil_append, fromUtf8_asBytes, position]

theorem exists_of_parseCstring {cursor next : Cursor} {text : String}
    (parsed : parseCstring cursor = .ok (text, next)) :
    ∃ bytes, cursor.rest = bytes ++ next.rest ∧ IsCString bytes text := by
  simp only [parseCstring] at parsed
  split_ifs at parsed with opens
  obtain ⟨⟨out, afterBody⟩, loop, parsed⟩ := exists_of_bind_eq_ok parsed
  obtain ⟨body, decoded, restEq, outEq, grammar⟩ := exists_of_parseCstringLoop loop
  dsimp only at parsed
  split at parsed
  · next found utf8 =>
      cases parsed
      refine ⟨Ascii.quote :: (body ++ [Ascii.quote]), ?_, body, rfl, ?_⟩
      · rw [Cursor.rest_eq_of_peek opens, restEq]
        simp
      · rw [fromUtf8_eq_some_iff.mp utf8, outEq]
        exact grammar
  · cases parsed

end Framewalk.OutputGrammar
