import Framewalk.FallibleOutcomes
import Framewalk.RecordGrammar

/-!
# What the offset of a codec error points at

Every function of the parser moves a cursor along the line, so the cursor's
offset is always the place of its unread bytes in the line.  From this the
offset and the payload of each error are read off the line itself: an error
that quotes a byte quotes the byte at its offset, an unexpected end is the end
of the line, and a broken string literal is located by its opening quote or by
its backslash.
-/

namespace Framewalk.OutputGrammar

open Fallible Utf8Text

/-- The cursor stands at its offset of the line. -/
structure Into (input : List UInt8) (cursor : Cursor) : Prop where
  within : cursor.pos ≤ input.length
  unread : input.drop cursor.pos = cursor.rest

variable {input : List UInt8} {cursor next : Cursor}

theorem Into.start (input : List UInt8) : Into input (.new input) :=
  ⟨Nat.zero_le _, rfl⟩

theorem Into.length_eq (into : Into input cursor) :
    cursor.pos + cursor.rest.length = input.length := by
  have within := into.within
  rw [← into.unread, List.length_drop]
  omega

theorem Into.peek_eq (into : Into input cursor) : cursor.peek = input[cursor.pos]? := by
  rw [Cursor.peek, ← into.unread, List.head?_drop]

/-- A cursor that consumed some bytes still stands at its offset. -/
theorem Into.skip (into : Into input cursor) (bytes : List UInt8)
    (consumed : cursor.rest = bytes ++ next.rest) (moved : next.pos = cursor.pos + bytes.length) :
    Into input next := by
  have length := into.length_eq
  rw [consumed, List.length_append] at length
  refine ⟨by omega, ?_⟩
  rw [moved, ← List.drop_drop, into.unread, consumed, List.drop_left]

theorem Into.advance (into : Into input cursor) {byte : UInt8} (peeked : cursor.peek = some byte) :
    Into input cursor.advance := by
  obtain ⟨pos, rest⟩ := cursor
  cases rest with
  | nil => simp at peeked
  | cons head tail => exact into.skip [head] rfl rfl

theorem Into.takeRun (into : Into input cursor) (accepts : UInt8 → Bool) :
    Into input (cursor.takeRun accepts).2 :=
  into.skip _ (Cursor.rest_eq_of_takeRun accepts cursor) rfl

/-- The bytes between two cursors into one line. -/
theorem Into.pos_eq (into : Into input cursor) (nextInto : Into input next) {bytes : List UInt8}
    (consumed : cursor.rest = bytes ++ next.rest) : next.pos = cursor.pos + bytes.length := by
  have length := into.length_eq
  have nextLength := nextInto.length_eq
  rw [consumed, List.length_append] at length
  omega

theorem Into.pos_eq_length (into : Into input cursor) (ended : cursor.peek = none) :
    cursor.pos = input.length := by
  have within := into.within
  rw [into.peek_eq, List.getElem?_eq_none_iff] at ended
  omega

theorem length_advance_lt {byte : UInt8} (peeked : cursor.peek = some byte) :
    cursor.advance.rest.length < cursor.rest.length := by
  rw [Cursor.rest_eq_of_peek peeked, List.length_cons]
  omega

/-- The byte is none of those that were expected. -/
def Rejects : Expected → UInt8 → Prop
  | .byte expected, found => found ≠ expected
  | .oneOf bytes, found => found ∉ bytes
  | .description text, found => text = "',' or end of record" ∧ found ≠ Ascii.comma

/-- The bytes start a string literal, whether or not its text is UTF-8. -/
def StartsLiteral (bytes : List UInt8) : Prop :=
  ∃ body decoded rest, CStringBody body decoded ∧
    bytes = Ascii.quote :: (body ++ Ascii.quote :: rest)

/-- The byte continues no escape of the table and starts no digit escape. -/
def UnknownEscape (found : UInt8) : Prop :=
  (∀ entry ∈ escapeTable, found ≠ asciiByte entry.1) ∧ found ≠ Ascii.lowerX ∧
    ¬ IsOctalDigit found

/-- A hex escape that opens at an offset and has its digits at the two places
behind its letter. -/
def HexEscapeAt (input : List UInt8) (offset : Nat) : Prop :=
  input[offset]? = some Ascii.backslash ∧ input[offset + 1]? = some Ascii.lowerX

/-- The bytes begin with a name and an equals sign. -/
def StartsResult (bytes : List UInt8) : Prop :=
  ∃ nameBytes name rest, IsName nameBytes name ∧ bytes = nameBytes ++ Ascii.equals :: rest

/-- The offset is behind a comma in a list whose entries are results so far, where no
result begins; or they are bare values, and a result begins. -/
def MixesListAt (input : List UInt8) (offset : Nat) : Prop :=
  ∃ opens inner, offset = opens + inner.length + 2 ∧
    input.drop opens = Ascii.openBracket :: (inner ++ Ascii.comma :: input.drop offset) ∧
      ((∃ entries, Derives (.results entries) inner) ∧ ¬ StartsResult (input.drop offset) ∨
        (∃ items, Derives (.values items) inner) ∧ StartsResult (input.drop offset))

def CStringErrorAt (input : List UInt8) (offset : Nat) : CStringError → Prop
  | .missingOpenQuote => input[offset]? ≠ some Ascii.quote
  | .missingCloseQuote =>
      input[offset]? = some Ascii.quote ∧ ¬ StartsLiteral (input.drop offset)
  | .invalidEscape found =>
      input[offset]? = some Ascii.backslash ∧ input[offset + 1]? = some found ∧
        UnknownEscape found
  | .truncatedEscape =>
      input[offset]? = some Ascii.backslash ∧
        (input.length = offset + 1 ∨ HexEscapeAt input offset ∧ input.length ≤ offset + 3)
  | .invalidHexDigit found =>
      input[offset]? = some found ∧ (∀ entry ∈ hexDigits, found ≠ asciiByte entry.1) ∧
        ∃ escape, HexEscapeAt input escape ∧ (offset = escape + 2 ∨ offset = escape + 3)

/-- What an error of this kind at this offset says about the line. -/
def ErrorAt (input : List UInt8) (offset : Nat) : CodecErrorKind → Prop
  | .unexpectedEnd => offset = input.length
  | .unexpectedByte expected found => input[offset]? = some found ∧ Rejects expected found
  | .invalidRecordPrefix found =>
      input[offset]? = some found ∧ found ≠ Ascii.caret ∧
        (∀ entry ∈ asyncKinds, found ≠ asciiByte entry.1) ∧
          ∀ entry ∈ streamKinds, found ≠ asciiByte entry.1
  | .unknownResultClass name =>
      name = Ascii.toText ((input.drop offset).takeWhile Ascii.isLowercase) ∧ name ≠ "" ∧
        (∀ entry ∈ resultClasses, name ≠ entry.1) ∧
          0 < offset ∧ input[offset - 1]? = some Ascii.caret
  | .streamRecordHasToken =>
      offset = 0 ∧ ∃ digits kind rest, input = digits ++ asciiByte kind :: rest ∧
        digits ≠ [] ∧ (∀ digit ∈ digits, IsDecimalDigit digit) ∧
          kind ∈ streamKinds.map Prod.fst
  | .tokenOverflow =>
      offset = 0 ∧ 2 ^ 64 ≤ decimalValue (input.takeWhile Ascii.isDigit)
  | .invalidIdentifier =>
      ∀ found ∈ input[offset]?, isIdentifierByte found = false ∨
        Ascii.isLowercase found = false ∧ 0 < offset ∧ input[offset - 1]? = some Ascii.caret
  | .expectedEquals =>
      ∃ found, input[offset]? = some found ∧ found ≠ Ascii.equals ∧
        isIdentifierByte found = false ∧ 0 < offset ∧
          ∃ last, input[offset - 1]? = some last ∧ isIdentifierByte last = true
  | .mixedList => MixesListAt input offset
  | .invalidCString reason => CStringErrorAt input offset reason
  | .invalidUtf8 =>
      ∃ body decoded rest, input.drop offset = Ascii.quote :: (body ++ Ascii.quote :: rest) ∧
        CStringBody body decoded ∧ fromUtf8 decoded = none
  | .trailingGarbage => offset < input.length ∧ ∃ record, IsRecord (input.take offset) record

/-- The error is located inside the line (or at its end) and says the truth
about what stands there. -/
def Locates (input : List UInt8) (error : CodecError) : Prop :=
  error.offset ≤ input.length ∧ ErrorAt input error.offset error.kind

/-- A parser that, from a cursor into the line with at most the given number
of unread bytes, ends at a later cursor into the line or locates its error. -/
def LocatesErrors (input : List UInt8) (bound : Nat) {α : Type} (parser : Parser α) : Prop :=
  ∀ cursor, Into input cursor → cursor.rest.length ≤ bound →
    Ensures (fun found => Into input found.2 ∧ found.2.rest.length ≤ cursor.rest.length)
      (Locates input) (parser cursor)

theorem LocatesErrors.mono {α : Type} {parser : Parser α} {bound smaller : Nat}
    (locates : LocatesErrors input bound parser) (le : smaller ≤ bound) :
    LocatesErrors input smaller parser :=
  fun cursor into short => locates cursor into (by omega)

theorem Into.locates_end (into : Into input cursor) (ended : cursor.peek = none) :
    Locates input ⟨.unexpectedEnd, cursor.pos⟩ :=
  ⟨into.within, into.pos_eq_length ended⟩

theorem Into.locates_byte (into : Into input cursor) {expected : Expected} {found : UInt8}
    (peeked : cursor.peek = some found) (rejects : Rejects expected found) :
    Locates input ⟨.unexpectedByte expected found, cursor.pos⟩ :=
  ⟨into.within, into.peek_eq.symm.trans peeked, rejects⟩

theorem peek_eq_none_of_length (short : cursor.rest.length ≤ 0) : cursor.peek = none := by
  rw [Cursor.peek, List.eq_nil_of_length_eq_zero (Nat.le_zero.mp short), List.head?_nil]

/-- At the end of the line there is no byte that could start a name. -/
theorem Into.locates_noName (into : Into input cursor) (ended : cursor.peek = none) :
    Locates input ⟨.invalidIdentifier, cursor.pos⟩ := by
  refine ⟨into.within, fun found first => ?_⟩
  rw [← into.peek_eq, ended] at first
  cases first

theorem Into.succ_eq (into : Into input cursor) {byte : UInt8} (peeked : cursor.peek = some byte) :
    cursor.advance.pos = cursor.pos + 1 := by
  obtain ⟨pos, rest⟩ := cursor
  cases rest with
  | nil => simp at peeked
  | cons head tail => rfl

theorem unknownEscape {found : UInt8} (unnamed : namedEscape found = none)
    (notHex : found ≠ Ascii.lowerX) (notOctal : ¬ isOctalDigit found = true) :
    UnknownEscape found := by
  refine ⟨?_, notHex, fun octal => notOctal ((isOctalDigit_iff found).mpr octal)⟩
  rintro ⟨letter, value⟩ listed rfl
  rw [namedEscape_asciiByte listed] at unnamed
  cases unnamed

theorem readHexDigit_locates (into : Into input cursor) {escapePos : Nat}
    (escape : HexEscapeAt input escapePos)
    (place : cursor.pos = escapePos + 2 ∨ cursor.pos = escapePos + 3) :
    Ensures (fun found => Into input found.2 ∧ found.2.pos = cursor.pos + 1 ∧
        found.2.rest.length ≤ cursor.rest.length)
      (Locates input) (readHexDigit cursor escapePos) := by
  have within := into.within
  unfold readHexDigit
  split
  · next ended =>
      have length := into.pos_eq_length ended
      have opens : input.length ≤ escapePos + 3 := by omega
      exact ⟨by dsimp only; omega, escape.1, .inr ⟨escape, opens⟩⟩
  · next byte peeked =>
      split
      · next nibble decoded =>
          have shorter := length_advance_lt peeked
          exact ⟨into.advance peeked, into.succ_eq peeked, Nat.le_of_lt shorter⟩
      · next notHex =>
          refine ⟨within, into.peek_eq.symm.trans peeked, ?_, escapePos, escape, place⟩
          rintro ⟨digit, value⟩ listed rfl
          rw [hexDigitValue_asciiByte listed] at notHex
          cases notHex

theorem readOctalDigits_into (into : Into input cursor) (remaining : Nat) (value : UInt16) :
    Into input (readOctalDigits remaining value cursor).2 ∧
      (readOctalDigits remaining value cursor).2.rest.length ≤ cursor.rest.length := by
  induction remaining generalizing cursor value with
  | zero => exact ⟨into, Nat.le_refl _⟩
  | succ remaining ih =>
      unfold readOctalDigits
      split
      · next byte peeked =>
          split
          · next octal =>
              have shorter := length_advance_lt peeked
              have rest := ih (into.advance peeked) (value * 8 + (byte - 48).toUInt16)
              exact ⟨rest.1, by omega⟩
          · exact ⟨into, Nat.le_refl _⟩
      · exact ⟨into, Nat.le_refl _⟩

theorem decodeEscape_locates (into : Into input cursor)
    (opens : cursor.peek = some Ascii.backslash) :
    Ensures (fun found => Into input found.2 ∧ found.2.rest.length < cursor.rest.length)
      (Locates input) (decodeEscape cursor) := by
  have backslash : input[cursor.pos]? = some Ascii.backslash := into.peek_eq.symm.trans opens
  have within := into.within
  have inside := into.advance opens
  have moved := into.succ_eq opens
  have shorter := length_advance_lt opens
  unfold decodeEscape
  dsimp only
  split
  · next ended =>
      have length := inside.pos_eq_length ended
      exact ⟨within, backslash, .inl (by dsimp only; omega)⟩
  · next letter peeked =>
      have letterAt : input[cursor.pos + 1]? = some letter := by
        rw [← moved, ← inside.peek_eq, peeked]
      have shorter' := length_advance_lt peeked
      split
      · next byte named => exact ⟨inside.advance peeked, Nat.lt_trans shorter' shorter⟩
      · next unnamed =>
          split_ifs with hex octal
          · subst hex
            have escape : HexEscapeAt input cursor.pos := ⟨backslash, letterAt⟩
            have moved' := inside.succ_eq peeked
            refine (readHexDigit_locates (inside.advance peeked) escape (by omega)).bind ?_
            rintro ⟨hi, afterHi⟩ ⟨intoHi, posHi, shortHi⟩
            refine (readHexDigit_locates intoHi escape (by omega)).bind ?_
            rintro ⟨lo, afterLo⟩ ⟨intoLo, posLo, shortLo⟩
            exact ⟨intoLo, by dsimp only at shortHi shortLo ⊢; omega⟩
          · have digits := readOctalDigits_into inside 3 0
            exact ⟨digits.1, by dsimp only; omega⟩
          · exact ⟨within, backslash, letterAt, unknownEscape unnamed hex octal⟩

theorem parseCstringLoop_locates (openPos unread : Nat) (out : List UInt8)
    (into : Into input cursor) :
    Ensures (fun found => Into input found.2 ∧ found.2.rest.length ≤ cursor.rest.length)
      (fun error => Locates input error ∨
        error = ⟨.invalidCString .missingCloseQuote, openPos⟩)
      (parseCstringLoop openPos unread cursor out) := by
  induction unread generalizing cursor out with
  | zero => exact .inr rfl
  | succ unread ih =>
      unfold parseCstringLoop
      split
      · exact .inr rfl
      · next byte peeked =>
          have shorter := length_advance_lt peeked
          split_ifs with closes escapes
          · exact ⟨into.advance peeked, Nat.le_of_lt shorter⟩
          · subst escapes
            refine Ensures.bind ((decodeEscape_locates into peeked).imp (fun _ found => found)
              fun _ located => .inl located) ?_
            rintro ⟨decoded, next⟩ ⟨nextInto, nextShort⟩
            refine (ih _ nextInto).imp ?_ (fun _ failed => failed)
            rintro found ⟨foundInto, foundShort⟩
            exact ⟨foundInto, by dsimp only at nextShort foundShort; omega⟩
          · refine (ih _ (into.advance peeked)).imp ?_ (fun _ failed => failed)
            rintro found ⟨foundInto, foundShort⟩
            exact ⟨foundInto, by omega⟩

/-- An unterminated literal is one that no body and closing quote completes. -/
theorem not_startsLiteral {openPos : Nat} {rest : List UInt8} {error : CodecError}
    (failed : parseCstringLoop openPos rest.length ⟨openPos + 1, rest⟩ [] = .error error) :
    ¬ StartsLiteral (Ascii.quote :: rest) := by
  rintro ⟨body, decoded, tail, grammar, restEq⟩
  obtain rfl : rest = body ++ Ascii.quote :: tail := (List.cons.inj restEq).2
  have parsed := parseCstringLoop_append grammar openPos tail (openPos + 1) []
    (body ++ Ascii.quote :: tail).length (by simp)
  rw [parsed] at failed
  cases failed

theorem parseCstring_locates (bound : Nat) : LocatesErrors input bound parseCstring := by
  intro cursor into _
  have within := into.within
  unfold parseCstring
  dsimp only
  split_ifs with opens
  · have quote := into.peek_eq.symm.trans opens
    have restEq := Cursor.rest_eq_of_peek opens
    have moved := into.succ_eq opens
    have shorter := length_advance_lt opens
    have fromOpen : input.drop cursor.pos = Ascii.quote :: cursor.advance.rest :=
      into.unread.trans restEq
    have loop := parseCstringLoop_locates cursor.pos cursor.advance.rest.length []
      (into.advance opens)
    cases ran : parseCstringLoop cursor.pos cursor.advance.rest.length cursor.advance [] with
    | error error =>
        rw [ran] at loop
        rcases loop with located | rfl
        · exact located
        · have cursorEq : cursor.advance = ⟨cursor.pos + 1, cursor.advance.rest⟩ := by
            rw [← moved]
          rw [cursorEq] at ran
          refine ⟨within, quote, ?_⟩
          rw [fromOpen]
          exact not_startsLiteral ran
    | ok found =>
        obtain ⟨out, after⟩ := found
        rw [ran] at loop
        obtain ⟨afterInto, afterShort⟩ := loop
        simp only [bind, Except.bind]
        split
        · exact ⟨afterInto, by dsimp only at afterShort ⊢; omega⟩
        · next notText =>
            obtain ⟨body, decoded, bodyEq, outEq, grammar⟩ := exists_of_parseCstringLoop ran
            rw [outEq, List.nil_append] at notText
            have split : input.drop cursor.pos =
                Ascii.quote :: (body ++ Ascii.quote :: after.rest) := by
              rw [fromOpen, bodyEq]
            exact ⟨within, body, decoded, after.rest, split, grammar, notText⟩
  · exact ⟨within, fun quote => opens (into.peek_eq.trans quote)⟩

theorem not_accepted_of_takeRun_nil {accepts : UInt8 → Bool} (into : Into input cursor)
    (empty : (cursor.takeRun accepts).1 = []) :
    ∀ found ∈ input[cursor.pos]?, accepts found = false := by
  intro found first
  rw [← into.peek_eq] at first
  have restEq := Cursor.rest_eq_of_peek first
  rw [Cursor.takeRun, restEq] at empty
  by_contra accepted
  rw [Bool.not_eq_false] at accepted
  rw [List.takeWhile_cons_of_pos accepted] at empty
  cases empty

theorem length_takeRun_le (accepts : UInt8 → Bool) (cursor : Cursor) :
    (cursor.takeRun accepts).2.rest.length ≤ cursor.rest.length := by
  have restEq := congrArg List.length (Cursor.rest_eq_of_takeRun accepts cursor)
  rw [List.length_append] at restEq
  omega

theorem exists_of_parseName_ok {accepts : UInt8 → Bool} {name : String}
    (parsed : parseName accepts cursor = .ok (name, next)) :
    (cursor.takeRun accepts).1 ≠ [] ∧ next = (cursor.takeRun accepts).2 := by
  simp only [parseName] at parsed
  split_ifs at parsed with empty
  cases parsed
  exact ⟨empty, rfl⟩

theorem parseVariable_locates (bound : Nat) : LocatesErrors input bound parseVariable := by
  intro cursor into _
  unfold parseVariable parseName
  dsimp only
  split_ifs with empty
  · exact ⟨into.within, fun found first =>
      .inl (not_accepted_of_takeRun_nil into empty found first)⟩
  · exact ⟨into.takeRun _, length_takeRun_le _ cursor⟩

/-- The byte behind a non-empty run is not accepted, and the one before it is. -/
theorem takeRun_boundary {accepts : UInt8 → Bool} (into : Into input cursor)
    (nonempty : (cursor.takeRun accepts).1 ≠ []) :
    (∀ found ∈ (cursor.takeRun accepts).2.peek, accepts found = false) ∧
      0 < (cursor.takeRun accepts).2.pos ∧
        ∃ last, input[(cursor.takeRun accepts).2.pos - 1]? = some last ∧
          accepts last = true := by
  have positive : 0 < (cursor.takeRun accepts).1.length := List.length_pos_iff.mpr nonempty
  have restEq := Cursor.rest_eq_of_takeRun accepts cursor
  set run := (cursor.takeRun accepts).1 with runEq
  have moved : (cursor.takeRun accepts).2.pos = cursor.pos + run.length := rfl
  refine ⟨?_, by omega, run.getLast nonempty, ?_, ?_⟩
  · intro found first
    have headFalse := List.head?_dropWhile_not accepts cursor.rest
    rw [Cursor.peek] at first
    rw [Option.mem_def] at first
    change (cursor.rest.dropWhile accepts).head? = some found at first
    rw [first] at headFalse
    simpa using headFalse
  · have lastAt : cursor.rest[run.length - 1]? = some (run.getLast nonempty) := by
      rw [restEq, List.getElem?_append_left (by omega), List.getLast_eq_getElem,
        List.getElem?_eq_getElem (by omega)]
    rw [moved, ← lastAt, ← into.unread, List.getElem?_drop]
    congr 1
    omega
  · exact List.mem_takeWhile_imp (List.getLast_mem nonempty)

theorem parseResult_locates {parser : Parser Value} {bound : Nat}
    (value : LocatesErrors input bound parser) :
    LocatesErrors input bound (parseResult parser) := by
  intro cursor into short
  refine (parseVariable_locates bound cursor into short).bind_eq ?_
  rintro ⟨name, afterName⟩ parsed ⟨nameInto, nameShort⟩
  obtain ⟨nonempty, rfl⟩ := exists_of_parseName_ok parsed
  obtain ⟨stops, positive, lastAccepted⟩ := takeRun_boundary into nonempty
  have equalsRead : Ensures
      (fun next => Into input next ∧
        next.rest.length ≤ (cursor.takeRun isIdentifierByte).2.rest.length)
      (Locates input) (expectEquals (cursor.takeRun isIdentifierByte).2) := by
    unfold expectEquals Cursor.expectByte
    cases peeked : (cursor.takeRun isIdentifierByte).2.peek with
    | none => exact nameInto.locates_end peeked
    | some found =>
        dsimp only
        by_cases equals : found = Ascii.equals
        · rw [if_pos equals]
          exact ⟨nameInto.advance peeked, Nat.le_of_lt (length_advance_lt peeked)⟩
        · rw [if_neg equals]
          exact ⟨nameInto.within, found, nameInto.peek_eq.symm.trans peeked, equals,
            stops found peeked, positive, lastAccepted⟩
  refine equalsRead.bind ?_
  rintro afterEquals ⟨equalsInto, equalsShort⟩
  dsimp only at nameShort
  refine (value afterEquals equalsInto (by omega)).bind ?_
  rintro ⟨found, afterValue⟩ ⟨valueInto, valueShort⟩
  exact ⟨valueInto, by dsimp only at valueShort ⊢; omega⟩

/-- After an item the loops look for a comma or their closing bracket. -/
theorem locates_separator (into : Into input cursor) {found close : UInt8}
    (peeked : cursor.peek = some found) (notComma : ¬ found = Ascii.comma)
    (notClose : ¬ found = close) :
    Locates input ⟨.unexpectedByte (.oneOf [Ascii.comma, close]) found, cursor.pos⟩ :=
  into.locates_byte peeked (by simp [Rejects, notComma, notClose])

theorem exists_of_scansToEquals {bytes : List UInt8} (scans : scansToEquals bytes = true) :
    ∃ run rest, bytes = run ++ Ascii.equals :: rest ∧
      ∀ byte ∈ run, isIdentifierByte byte = true := by
  induction bytes with
  | nil => cases scans
  | cons byte bytes ih =>
      rw [scansToEquals] at scans
      split_ifs at scans with accepted
      · obtain ⟨run, rest, rfl, all⟩ := ih scans
        exact ⟨byte :: run, rest, rfl, List.forall_mem_cons.mpr ⟨accepted, all⟩⟩
      · exact ⟨[], bytes, by rw [beq_iff_eq.mp scans, List.nil_append], List.forall_mem_nil _⟩

/-- The look-ahead is right about the beginning of a result. -/
theorem looksLikeResult_iff (cursor : Cursor) :
    looksLikeResult cursor = true ↔ StartsResult cursor.rest := by
  unfold looksLikeResult
  constructor
  · intro looks
    split at looks
    · cases looks
    · next first tail restEq =>
        rw [Bool.and_eq_true] at looks
        obtain ⟨run, rest, rfl, all⟩ := exists_of_scansToEquals looks.2
        exact ⟨first :: run, _, rest, isName_toText (List.cons_ne_nil _ _)
          (List.forall_mem_cons.mpr ⟨looks.1, all⟩), restEq⟩
  · rintro ⟨nameBytes, name, rest, isName, restEq⟩
    obtain ⟨nonempty, accepted, _⟩ := isName.bytes_spec
    cases nameBytes with
    | nil => exact absurd rfl nonempty
    | cons first run =>
        rw [restEq, List.cons_append]
        have scans := scansToEquals_append rest fun byte member =>
          accepted byte (List.mem_cons_of_mem first member)
        simp [accepted first List.mem_cons_self, scans]

/-- Behind entries with their commas, what follows is not one of them. -/
def MixesBehind (entries goesOn : List UInt8 → Prop) (cursor : Cursor) (error : CodecError) :
    Prop :=
  ∃ inner rest, cursor.rest = inner ++ Ascii.comma :: rest ∧ entries inner ∧ ¬ goesOn rest ∧
    error = ⟨.mixedList, cursor.pos + inner.length + 1⟩

section Mixing

variable {entries goesOn : List UInt8 → Prop} {bytes : List UInt8}

theorem MixesBehind.here (into : Into input cursor) (nextInto : Into input next)
    (consumed : cursor.rest = bytes ++ next.rest) (comma : next.peek = some Ascii.comma)
    (isEntry : entries bytes) (stops : ¬ goesOn next.advance.rest) :
    MixesBehind entries goesOn cursor ⟨.mixedList, next.advance.pos⟩ := by
  refine ⟨bytes, next.advance.rest, ?_, isEntry, stops, ?_⟩
  · rw [consumed, Cursor.rest_eq_of_peek comma]
  · rw [nextInto.succ_eq comma, into.pos_eq nextInto consumed]

/-- An entry and its comma in front of the others. -/
theorem MixesBehind.cons {error : CodecError} (into : Into input cursor)
    (nextInto : Into input next) (consumed : cursor.rest = bytes ++ next.rest)
    (comma : next.peek = some Ascii.comma)
    (more : ∀ inner, entries inner → entries (bytes ++ Ascii.comma :: inner))
    (mixes : MixesBehind entries goesOn next.advance error) :
    MixesBehind entries goesOn cursor error := by
  obtain ⟨inner, rest, restEq, areEntries, stops, rfl⟩ := mixes
  refine ⟨bytes ++ Ascii.comma :: inner, rest, ?_, more inner areEntries, stops, ?_⟩
  · rw [consumed, Cursor.rest_eq_of_peek comma, restEq, List.append_assoc, List.cons_append]
  · rw [nextInto.succ_eq comma, into.pos_eq nextInto consumed, List.length_append,
      List.length_cons]
    congr 1
    omega

/-- The entries stand behind their opening bracket. -/
theorem MixesBehind.located {error : CodecError} (into : Into input cursor)
    (opens : cursor.peek = some Ascii.openBracket)
    (mixes : MixesBehind entries goesOn cursor.advance error)
    (kinds : ∀ inner rest, entries inner → ¬ goesOn rest →
      (∃ found, Derives (.results found) inner) ∧ ¬ StartsResult rest ∨
        (∃ found, Derives (.values found) inner) ∧ StartsResult rest) :
    Locates input error := by
  obtain ⟨inner, rest, restEq, areEntries, stops, rfl⟩ := mixes
  have length := (into.advance opens).length_eq
  have moved := into.succ_eq opens
  have fromOpen : input.drop cursor.pos = Ascii.openBracket :: (inner ++ Ascii.comma :: rest) := by
    rw [into.unread, Cursor.rest_eq_of_peek opens, restEq]
  have offsetEq : cursor.advance.pos + inner.length + 1 = cursor.pos + (inner.length + 2) := by
    omega
  have unread : input.drop (cursor.advance.pos + inner.length + 1) = rest := by
    rw [offsetEq, ← List.drop_drop, fromOpen, List.drop_succ_cons, List.drop_append]
    simp
  refine ⟨?_, cursor.pos, inner, ?_, ?_, ?_⟩
  · rw [restEq, List.length_append, List.length_cons] at length
    change cursor.advance.pos + inner.length + 1 ≤ input.length
    omega
  · change cursor.advance.pos + inner.length + 1 = _
    omega
  · rw [unread]
    exact fromOpen
  · rw [unread]
    exact kinds inner rest areEntries stops

end Mixing

/-- Results, each behind the first one's comma. -/
def AreResults (bytes : List UInt8) : Prop :=
  ∃ entries, Derives (.results entries) bytes

def AreValues (bytes : List UInt8) : Prop :=
  ∃ items, Derives (.values items) bytes

theorem expectByte_locates (into : Into input cursor) (expected : UInt8) :
    Ensures (fun next => Into input next ∧ next.rest.length < cursor.rest.length)
      (Locates input) (cursor.expectByte expected) := by
  unfold Cursor.expectByte
  split
  · next found peeked =>
      split_ifs with same
      · exact ⟨into.advance peeked, length_advance_lt peeked⟩
      · exact into.locates_byte peeked same
  · next ended => exact into.locates_end ended

theorem eq_advance_of_expectByte {expected : UInt8}
    (consumed : cursor.expectByte expected = .ok next) :
    cursor.peek = some expected ∧ next = cursor.advance := by
  unfold Cursor.expectByte at consumed
  split at consumed
  · next found peeked =>
      split_ifs at consumed with same
      cases consumed
      exact ⟨same ▸ peeked, rfl⟩
  · cases consumed

section Loops

variable {parser : Parser Value} {bound : Nat} (value : LocatesErrors input bound parser)
include value

theorem parseTupleLoop_locates {unread : Nat} (le : unread ≤ bound)
    (out : List (String × Value)) :
    LocatesErrors input unread (parseTupleLoop parser unread out) := by
  induction unread generalizing out with
  | zero =>
      intro cursor into short
      exact into.locates_noName (peek_eq_none_of_length short)
  | succ unread ih =>
      intro cursor into short
      unfold parseTupleLoop
      refine (parseResult_locates value cursor into (by omega)).bind ?_
      rintro ⟨entry, cursor⟩ ⟨entryInto, entryShort⟩
      dsimp only at entryInto entryShort ⊢
      split
      · next found peeked =>
          have shorter := length_advance_lt peeked
          split_ifs with comma close
          · refine (ih (by omega) _ _ (entryInto.advance peeked) (by omega)).imp ?_
              (fun _ failed => failed)
            rintro result ⟨resultInto, resultShort⟩
            exact ⟨resultInto, by omega⟩
          · exact ⟨entryInto.advance peeked, by dsimp only; omega⟩
          · exact locates_separator entryInto peeked comma close
      · next ended => exact entryInto.locates_end ended

theorem parseResultsLoop_locates (sound : SoundParser parser) {unread : Nat}
    (le : unread ≤ bound) (out : List (String × Value)) (into : Into input cursor)
    (short : cursor.rest.length ≤ unread) :
    Ensures (fun found => Into input found.2 ∧ found.2.rest.length ≤ cursor.rest.length)
      (fun error => Locates input error ∨ MixesBehind AreResults StartsResult cursor error)
      (parseResultsLoop parser unread out cursor) := by
  induction unread generalizing cursor out with
  | zero => exact .inl (into.locates_noName (peek_eq_none_of_length short))
  | succ unread ih =>
      unfold parseResultsLoop
      refine Ensures.bind_eq ((parseResult_locates value cursor into (by omega)).imp
        (fun _ found => found) fun _ located => .inl located) ?_
      rintro ⟨⟨name, found⟩, after⟩ parsed ⟨afterInto, afterShort⟩
      obtain ⟨bytes, consumed, derived⟩ := exists_of_parseResult sound parsed
      dsimp only at afterInto afterShort ⊢
      split
      · next found peeked =>
          have shorter := length_advance_lt peeked
          split_ifs with comma looksResult close
          · subst comma
            refine (ih (by omega) _ (afterInto.advance peeked) (by omega)).imp ?_ ?_
            · rintro result ⟨resultInto, resultShort⟩
              exact ⟨resultInto, by omega⟩
            · refine fun _ failed => failed.imp_right ?_
              apply MixesBehind.cons into afterInto consumed peeked
              rintro inner ⟨entries, rest⟩
              exact ⟨_, .moreResults derived rest⟩
          · subst comma
            right
            refine .here into afterInto consumed peeked ⟨_, .lastResult derived⟩ ?_
            rwa [looksLikeResult_iff] at looksResult
          · exact ⟨afterInto.advance peeked, by dsimp only; omega⟩
          · exact .inl (locates_separator afterInto peeked comma close)
      · next ended => exact .inl (afterInto.locates_end ended)

theorem parseValuesLoop_locates (sound : SoundParser parser) {unread : Nat}
    (le : unread ≤ bound) (out : List Value) (into : Into input cursor)
    (short : cursor.rest.length ≤ unread) :
    Ensures (fun found => Into input found.2 ∧ found.2.rest.length ≤ cursor.rest.length)
      (fun error => Locates input error ∨
        MixesBehind AreValues (fun rest => ¬ StartsResult rest) cursor error)
      (parseValuesLoop parser unread out cursor) := by
  induction unread generalizing cursor out with
  | zero => exact .inl (into.locates_end (peek_eq_none_of_length short))
  | succ unread ih =>
      unfold parseValuesLoop
      refine Ensures.bind_eq ((value cursor into (by omega)).imp
        (fun _ found => found) fun _ located => .inl located) ?_
      rintro ⟨item, after⟩ parsed ⟨afterInto, afterShort⟩
      obtain ⟨bytes, consumed, derived⟩ := sound parsed
      dsimp only at afterInto afterShort ⊢
      split
      · next found peeked =>
          have shorter := length_advance_lt peeked
          split_ifs with comma looksResult close
          · subst comma
            right
            refine .here into afterInto consumed peeked ⟨_, .lastValue derived⟩ ?_
            rw [looksLikeResult_iff] at looksResult
            exact not_not_intro looksResult
          · subst comma
            refine (ih (by omega) _ (afterInto.advance peeked) (by omega)).imp ?_ ?_
            · rintro result ⟨resultInto, resultShort⟩
              exact ⟨resultInto, by omega⟩
            · refine fun _ failed => failed.imp_right ?_
              apply MixesBehind.cons into afterInto consumed peeked
              rintro inner ⟨items, rest⟩
              exact ⟨_, .moreValues derived rest⟩
          · exact ⟨afterInto.advance peeked, by dsimp only; omega⟩
          · exact .inl (locates_separator afterInto peeked comma close)
      · next ended => exact .inl (afterInto.locates_end ended)

theorem parseTuple_locates : LocatesErrors input (bound + 1) (parseTuple parser) := by
  intro cursor into short
  refine (expectByte_locates into _).bind ?_
  rintro opened ⟨openedInto, openedShort⟩
  split_ifs with closes
  · exact ⟨openedInto.advance closes, by
      have shorter := length_advance_lt closes
      dsimp only
      omega⟩
  · refine (parseTupleLoop_locates value (by omega) [] opened openedInto (Nat.le_refl _)).imp ?_
      (fun _ failed => failed)
    rintro result ⟨resultInto, resultShort⟩
    exact ⟨resultInto, by omega⟩

theorem parseList_locates (sound : SoundParser parser) :
    LocatesErrors input (bound + 1) (parseList parser) := by
  intro cursor into short
  refine (expectByte_locates into _).bind_eq ?_
  rintro opened opening ⟨openedInto, openedShort⟩
  obtain ⟨opens, rfl⟩ := eq_advance_of_expectByte opening
  split_ifs with closes looksResult
  · exact ⟨openedInto.advance closes, by
      have shorter := length_advance_lt closes
      dsimp only
      omega⟩
  · refine Ensures.bind ((parseResultsLoop_locates value sound (by omega) [] openedInto
      (Nat.le_refl _)).imp (fun _ found => found) ?_) ?_
    · rintro error (located | mixes)
      · exact located
      · exact mixes.located into opens fun inner rest areResults stops => .inl ⟨areResults, stops⟩
    · rintro ⟨entries, after⟩ ⟨resultInto, resultShort⟩
      exact ⟨resultInto, by dsimp only at resultShort ⊢; omega⟩
  · refine Ensures.bind ((parseValuesLoop_locates value sound (by omega) [] openedInto
      (Nat.le_refl _)).imp (fun _ found => found) ?_) ?_
    · rintro error (located | mixes)
      · exact located
      · exact mixes.located into opens fun inner rest areValues goesOn =>
          .inr ⟨areValues, not_not.mp goesOn⟩
    · rintro ⟨items, after⟩ ⟨resultInto, resultShort⟩
      exact ⟨resultInto, by dsimp only at resultShort ⊢; omega⟩

end Loops

theorem parseValueWithin_locates (unread : Nat) :
    LocatesErrors input unread (parseValueWithin unread) := by
  induction unread with
  | zero =>
      intro cursor into short
      exact into.locates_end (peek_eq_none_of_length short)
  | succ unread ih =>
      intro cursor into short
      unfold parseValueWithin
      split
      · next found peeked =>
          split_ifs with quote brace bracket
          · refine (parseCstring_locates (unread + 1) cursor into short).bind ?_
            rintro ⟨text, after⟩ found
            exact found
          · refine (parseTuple_locates ih cursor into short).bind ?_
            rintro ⟨entries, after⟩ found
            exact found
          · refine (parseList_locates ih (parseValueWithin_sound unread) cursor into short).bind ?_
            rintro ⟨items, after⟩ found
            exact found
          · exact into.locates_byte peeked (by simp [Rejects, quote, brace, bracket])
      · next ended => exact into.locates_end ended

theorem parseValue_locates (bound : Nat) : LocatesErrors input bound parseValue :=
  fun cursor into _ => parseValueWithin_locates cursor.rest.length cursor into (Nat.le_refl _)

theorem parseTokenLoop_locates (start : Nat) {rest : List UInt8} {pos : Nat} {value : UInt64}
    {any : Bool} (into : Into input ⟨pos, rest⟩) :
    Ensures (fun found => Into input found.2)
      (fun error => error = ⟨.tokenOverflow, start⟩ ∧
        2 ^ 64 ≤ decimalFrom value.toNat (rest.takeWhile Ascii.isDigit))
      (parseTokenLoop start rest pos value any) := by
  induction rest generalizing pos value any with
  | nil => exact into
  | cons byte rest ih =>
      unfold parseTokenLoop
      split_ifs with digit fits some
      · have decimal := (isDigit_iff byte).mp digit
        have inner : Into input ⟨pos + 1, rest⟩ := into.skip [byte] rfl rfl
        refine (ih inner).imp (fun _ found => found) ?_
        rintro error ⟨rfl, large⟩
        refine ⟨rfl, ?_⟩
        rw [List.takeWhile_cons_of_pos digit]
        rw [tokenDigit_toNat decimal fits] at large
        simpa only [decimalFrom, List.foldl_cons] using large
      · have decimal := (isDigit_iff byte).mp digit
        have grows := le_decimalFrom (value.toNat * 10 + (byte.toNat - 48))
          (rest.takeWhile Ascii.isDigit)
        rw [decimalDigit_toNat decimal] at fits
        refine ⟨rfl, ?_⟩
        rw [List.takeWhile_cons_of_pos digit]
        simp only [decimalFrom, List.foldl_cons] at grows ⊢
        omega
      · exact into
      · exact into

theorem parseOptionalToken_locates :
    Ensures (fun found => Into input found.2) (Locates input)
      (parseOptionalToken (.new input)) := by
  refine (parseTokenLoop_locates 0 (Into.start input)).imp (fun _ found => found) ?_
  rintro error ⟨rfl, large⟩
  exact ⟨Nat.zero_le _, rfl, large⟩

end Framewalk.OutputGrammar
