import Framewalk.ErrorPositions
import Framewalk.ViablePrefixes

/-!
# The record parser stops at a correct prefix

A line that the parser rejects is read correctly up to the offset of the
error: the bytes in front of the offset begin some well-formed record.  The
parser descends with the phrases that are still expected, and each error is
raised where every phrase so far could have been completed.  Only a malformed
escape is reported inside the string literal it stands in, whose bytes so far
need not be the beginning of a UTF-8 text; there the correct prefix ends at
the literal's opening quote.
-/

namespace Framewalk.OutputGrammar

open Fallible Utf8Text ViablePrefix

/-- The byte lines of the output grammar. -/
def records : Set (List UInt8) :=
  {input | ∃ record, IsRecord input record}

/-- The literal's body is at fault, not its place in the line. -/
def IsEscapeError : CodecErrorKind → Prop
  | .invalidCString (.invalidEscape _) => True
  | .invalidCString .truncatedEscape => True
  | .invalidCString (.invalidHexDigit _) => True
  | _ => False

/-- A string literal opens at the start, and its body is well formed up to the
backslash of an escape. -/
def EscapesAt (input : List UInt8) (start escape : Nat) : Prop :=
  ∃ body decoded rest, CStringBody body decoded ∧ escape = start + 1 + body.length ∧
    input.drop start = Ascii.quote :: (body ++ Ascii.backslash :: rest)

/-- The bytes in front of the error begin a record; an error in an escape has such a
prefix in front of the literal that holds the escape. -/
def AfterCorrectPrefix (input : List UInt8) (error : CodecError) : Prop :=
  Viable records (input.take error.offset) ∨
    IsEscapeError error.kind ∧ ∃ start escape, EscapesAt input start escape ∧
      escape ≤ error.offset ∧ error.offset ≤ escape + 3 ∧ Viable records (input.take start)

variable {input : List UInt8} {cursor next : Cursor}

/-- A parser that, with at most the given number of unread bytes, errs behind
a correct prefix whenever its phrases are expected at the cursor. -/
def ErrsCorrectly (input : List UInt8) (bound : Nat) {α : Type} (parser : Parser α)
    (phrases : Set (List UInt8)) : Prop :=
  ∀ cursor, Into input cursor → cursor.rest.length ≤ bound →
    Expects records (input.take cursor.pos) phrases →
      Ensures (fun _ => True) (AfterCorrectPrefix input) (parser cursor)

/-- What lies between two cursors extends the prefix of the first one. -/
theorem Into.take_eq (into : Into input cursor) (nextInto : Into input next) {bytes : List UInt8}
    (consumed : cursor.rest = bytes ++ next.rest) :
    input.take next.pos = input.take cursor.pos ++ bytes := by
  rw [into.pos_eq nextInto consumed, List.take_add, into.unread, consumed, List.take_left]

theorem Into.take_advance (into : Into input cursor) {byte : UInt8}
    (peeked : cursor.peek = some byte) :
    input.take cursor.advance.pos = input.take cursor.pos ++ [byte] :=
  into.take_eq (into.advance peeked) (Cursor.rest_eq_of_peek peeked)

def cstrings : Set (List UInt8) :=
  {bytes | ∃ text, IsCString bytes text}

def values : Set (List UInt8) :=
  {bytes | ∃ value, Derives (.value value) bytes}

def results : Set (List UInt8) :=
  {bytes | ∃ name value, Derives (.result name value) bytes}

/-- A non-empty sequence of results and the bracket that closes it. -/
def closedResults (close : UInt8) : Set (List UInt8) :=
  {bytes | ∃ inner entries, bytes = inner ++ [close] ∧ Derives (.results entries) inner}

def closedValues (close : UInt8) : Set (List UInt8) :=
  {bytes | ∃ inner items, bytes = inner ++ [close] ∧ Derives (.values items) inner}

def trailings : Set (List UInt8) :=
  {bytes | ∃ entries, IsTrailing bytes entries}

theorem emptyLiteral : [Ascii.quote, Ascii.quote] ∈ cstrings :=
  ⟨"", [], rfl, .nil⟩

theorem emptyLiteral_value : [Ascii.quote, Ascii.quote] ∈ values := by
  obtain ⟨text, literal⟩ := emptyLiteral
  exact ⟨.const text, .const literal⟩

/-- A name followed by an equals sign and the empty literal is a result. -/
theorem named_result {nameBytes : List UInt8} {name : String} (isName : IsName nameBytes name) :
    nameBytes ++ Ascii.equals :: [Ascii.quote, Ascii.quote] ∈ results := by
  obtain ⟨value, derived⟩ := emptyLiteral_value
  exact ⟨name, value, .result isName derived⟩

theorem isName_x : IsName [120] "x" := by
  refine ⟨by decide, by decide, ?_⟩
  have every : "x".toList.all (identifierAlphabet.contains ·) = true := by decide
  intro character isX
  exact List.contains_iff_mem.mp (List.all_eq_true.mp every character isX)

theorem shortest_result : [120, Ascii.equals, Ascii.quote, Ascii.quote] ∈ results :=
  named_result isName_x

/-- A single result closes at once. -/
theorem closed_result {bytes : List UInt8} (close : UInt8) (result : bytes ∈ results) :
    bytes ++ [close] ∈ closedResults close := by
  obtain ⟨name, value, derived⟩ := result
  exact ⟨bytes, [(name, value)], rfl, .lastResult derived⟩

theorem closed_value {bytes : List UInt8} (close : UInt8) (value : bytes ∈ values) :
    bytes ++ [close] ∈ closedValues close := by
  obtain ⟨found, derived⟩ := value
  exact ⟨bytes, [found], rfl, .lastValue derived⟩

/-- A result and a comma in front of a closed sequence make a longer one. -/
theorem closedResults_cons {close : UInt8} {bytes more : List UInt8} {name : String}
    {value : Value} (result : Derives (.result name value) bytes)
    (closed : more ∈ closedResults close) :
    bytes ++ [Ascii.comma] ++ more ∈ closedResults close := by
  obtain ⟨inner, entries, rfl, derived⟩ := closed
  refine ⟨bytes ++ Ascii.comma :: inner, (name, value) :: entries, ?_,
    .moreResults result derived⟩
  simp

theorem closedValues_cons {close : UInt8} {bytes more : List UInt8} {value : Value}
    (item : Derives (.value value) bytes) (closed : more ∈ closedValues close) :
    bytes ++ [Ascii.comma] ++ more ∈ closedValues close := by
  obtain ⟨inner, items, rfl, derived⟩ := closed
  refine ⟨bytes ++ Ascii.comma :: inner, value :: items, ?_, .moreValues item derived⟩
  simp

theorem readHexDigit_escapes (escapePos : Nat) (behind : escapePos ≤ cursor.pos)
    (near : cursor.pos ≤ escapePos + 3) :
    Ensures (fun _ => True)
      (fun error => IsEscapeError error.kind ∧ escapePos ≤ error.offset ∧
        error.offset ≤ escapePos + 3)
      (readHexDigit cursor escapePos) := by
  unfold readHexDigit
  split
  · exact ⟨trivial, Nat.le_refl _, Nat.le_add_right _ _⟩
  · split
    · trivial
    · exact ⟨trivial, behind, near⟩

theorem decodeEscape_escapes (into : Into input cursor)
    (opens : cursor.peek = some Ascii.backslash) :
    Ensures (fun _ => True)
      (fun error => IsEscapeError error.kind ∧ cursor.pos ≤ error.offset ∧
        error.offset ≤ cursor.pos + 3)
      (decodeEscape cursor) := by
  have moved := into.succ_eq opens
  have inside := into.advance opens
  unfold decodeEscape
  dsimp only
  split
  · exact ⟨trivial, Nat.le_refl _, Nat.le_add_right _ _⟩
  · next letter peeked =>
      have moved' := inside.succ_eq peeked
      have backslash := into.peek_eq.symm.trans opens
      have letterAt : input[cursor.pos + 1]? = some letter := by
        rw [← moved, ← inside.peek_eq, peeked]
      split
      · trivial
      · split_ifs with hex octal
        · refine (readHexDigit_escapes cursor.pos (by omega) (by omega)).bind_eq ?_
          rintro ⟨hi, afterHi⟩ read _
          have position := ((readHexDigit_locates (inside.advance peeked)
            ⟨backslash, hex ▸ letterAt⟩ (by omega)).of_ok read).2.1
          dsimp only at position
          refine (readHexDigit_escapes cursor.pos (by dsimp only; omega)
            (by dsimp only; omega)).bind ?_
          rintro ⟨lo, afterLo⟩ _
          trivial
        · trivial
        · exact ⟨trivial, Nat.le_refl _, Nat.le_add_right _ _⟩

/-- The offset is in an escape that a well-formed part of a body leads to. -/
def EscapesBehind (cursor : Cursor) (offset : Nat) : Prop :=
  ∃ body decoded rest, CStringBody body decoded ∧
    cursor.rest = body ++ Ascii.backslash :: rest ∧ cursor.pos + body.length ≤ offset ∧
      offset ≤ cursor.pos + body.length + 3

/-- An error of a literal's body is the missing closing quote, or an error in an
escape behind what has been read well. -/
theorem parseCstringLoop_escapes {openPos unread : Nat} {out : List UInt8}
    (into : Into input cursor) :
    Ensures (fun _ => True)
      (fun error => error.offset = openPos ∨
        IsEscapeError error.kind ∧ EscapesBehind cursor error.offset)
      (parseCstringLoop openPos unread cursor out) := by
  induction unread generalizing cursor out with
  | zero => exact .inl rfl
  | succ unread ih =>
      unfold parseCstringLoop
      split
      · exact .inl rfl
      · next byte peeked =>
          split_ifs with closes escapes
          · trivial
          · subst escapes
            refine Ensures.bind_eq ((decodeEscape_escapes into peeked).imp (fun _ found => found)
              ?_) ?_
            · rintro error ⟨isEscape, behind, near⟩
              exact .inr ⟨isEscape, [], [], cursor.advance.rest, .nil,
                Cursor.rest_eq_of_peek peeked, behind, near⟩
            · rintro ⟨decoded, next⟩ parsed _
              obtain ⟨nextInto, _⟩ := (decodeEscape_locates into peeked).of_ok parsed
              obtain ⟨escape, restEq, extendsBody⟩ := exists_of_decodeEscape peeked parsed
              have moved := @Into.pos_eq _ _ _ into nextInto (Ascii.backslash :: escape) restEq
              refine (ih nextInto).imp (fun _ _ => trivial) fun error failed =>
                failed.imp_right ?_
              rintro ⟨isEscape, body, output, rest, grammar, follows, behind, near⟩
              dsimp only at moved behind near
              rw [List.length_cons] at moved
              refine ⟨isEscape, Ascii.backslash :: (escape ++ body), decoded :: output, rest,
                extendsBody follows grammar, ?_, ?_, ?_⟩
              · rw [restEq, follows, List.cons_append, List.append_assoc]
              · rw [List.length_cons, List.length_append]
                omega
              · rw [List.length_cons, List.length_append]
                omega
          · have moved := into.succ_eq peeked
            refine (ih (into.advance peeked)).imp (fun _ _ => trivial) fun error failed =>
              failed.imp_right ?_
            rintro ⟨isEscape, body, output, rest, grammar, follows, behind, near⟩
            refine ⟨isEscape, byte :: body, byte :: output, rest,
              .plain byte closes escapes grammar, ?_, ?_, ?_⟩
            · rw [Cursor.rest_eq_of_peek peeked, follows, List.cons_append]
            · rw [List.length_cons]
              omega
            · rw [List.length_cons]
              omega

theorem parseCstring_errsCorrectly (bound : Nat) :
    ErrsCorrectly input bound parseCstring cstrings := by
  intro cursor into _ expects
  have viable : Viable records (input.take cursor.pos) := expects.viable _ emptyLiteral
  unfold parseCstring
  dsimp only
  split_ifs with opens
  · have moved := into.succ_eq opens
    refine Ensures.bind ((parseCstringLoop_escapes (into.advance opens)).imp
      (fun _ found => found) ?_) ?_
    · rintro error (atOpen | ⟨isEscape, body, decoded, rest, grammar, restEq, behind, near⟩)
      · left
        rw [atOpen]
        exact viable
      · refine .inr ⟨isEscape, cursor.pos, cursor.pos + 1 + body.length,
          ⟨body, decoded, rest, grammar, rfl, ?_⟩, by omega, by omega, viable⟩
        rw [into.unread, Cursor.rest_eq_of_peek opens, restEq]
    · rintro ⟨out, after⟩ _
      dsimp only
      split
      · trivial
      · exact .inl viable
  · exact .inl viable

theorem eq_advance_of_expectEquals (consumed : expectEquals cursor = .ok next) :
    cursor.peek = some Ascii.equals ∧ next = cursor.advance := by
  unfold expectEquals Cursor.expectByte at consumed
  cases peeked : cursor.peek with
  | none =>
      rw [peeked] at consumed
      cases consumed
  | some found =>
      rw [peeked] at consumed
      dsimp only at consumed
      by_cases equals : found = Ascii.equals
      · rw [if_pos equals] at consumed
        cases consumed
        exact ⟨congrArg some equals, rfl⟩
      · rw [if_neg equals] at consumed
        cases consumed

section Nested

variable {parser : Parser Value} {bound : Nat}
  (errs : ErrsCorrectly input bound parser values)
  (locates : LocatesErrors input bound parser) (sound : SoundParser parser)
include errs

theorem parseResult_errsCorrectly : ErrsCorrectly input bound (parseResult parser) results := by
  intro cursor into short expects
  have variableRead : Ensures (fun _ => True) (AfterCorrectPrefix input)
      (parseVariable cursor) := by
    unfold parseVariable parseName
    dsimp only
    split_ifs
    · exact .inl (expects.viable _ shortest_result)
    · trivial
  refine variableRead.bind_eq ?_
  rintro ⟨name, afterName⟩ parsed _
  obtain ⟨nameInto, nameShort⟩ := (parseVariable_locates bound cursor into short).of_ok parsed
  obtain ⟨nameBytes, nameEq, isName⟩ := exists_of_parseName parsed
  have nameTake := into.take_eq nameInto nameEq
  dsimp only at nameInto nameShort nameTake ⊢
  have nameViable : Viable records (input.take afterName.pos) := by
    rw [nameTake]
    exact expects.viable_append (named_result isName)
  have equalsRead : Ensures (fun _ => True) (AfterCorrectPrefix input)
      (expectEquals afterName) := by
    unfold expectEquals Cursor.expectByte
    cases peeked : afterName.peek with
    | none => exact .inl nameViable
    | some found =>
        dsimp only
        by_cases equals : found = Ascii.equals
        · rw [if_pos equals]
          trivial
        · rw [if_neg equals]
          exact .inl nameViable
  refine equalsRead.bind_eq ?_
  rintro afterEquals consumed _
  obtain ⟨peeked, rfl⟩ := eq_advance_of_expectEquals consumed
  have shorter := length_advance_lt peeked
  refine (errs afterName.advance (nameInto.advance peeked) (by omega) ?_).bind fun _ _ => trivial
  rw [nameInto.take_advance peeked, nameTake, List.append_assoc]
  refine expects.after _ ?_
  rintro part ⟨value, derived⟩
  exact ⟨[], name, value, by simpa using Derives.result isName derived⟩

include locates sound

theorem parseTupleLoop_errsCorrectly {unread : Nat} (le : unread ≤ bound)
    (out : List (String × Value)) :
    ErrsCorrectly input unread (parseTupleLoop parser unread out)
      (closedResults Ascii.closeBrace) := by
  induction unread generalizing out with
  | zero =>
      intro cursor into short expects
      exact .inl (expects.viable _ (closed_result _ shortest_result))
  | succ unread ih =>
      intro cursor into short expects
      unfold parseTupleLoop
      have entryExpected : Expects records (input.take cursor.pos) results :=
        expects.first fun part result => ⟨_, closed_result _ result⟩
      refine (parseResult_errsCorrectly errs cursor into (by omega) entryExpected).bind_eq ?_
      rintro ⟨⟨name, value⟩, after⟩ parsed _
      obtain ⟨afterInto, afterShort⟩ :=
        (parseResult_locates locates cursor into (by omega)).of_ok parsed
      obtain ⟨bytes, consumed, derived⟩ := exists_of_parseResult sound parsed
      have taken := into.take_eq afterInto consumed
      have closes : Viable records (input.take after.pos) := by
        rw [taken]
        exact expects.viable_append (closed_result _ ⟨name, value, derived⟩)
      dsimp only at afterInto afterShort taken ⊢
      split
      · next found peeked =>
          have shorter := length_advance_lt peeked
          split_ifs with comma close
          · refine ih (by omega) _ _ (afterInto.advance peeked) (by omega) ?_
            rw [afterInto.take_advance peeked, taken, comma, List.append_assoc]
            exact expects.after _ fun part closed =>
              ⟨[], by simpa using closedResults_cons derived closed⟩
          · trivial
          · exact .inl closes
      · exact .inl closes

theorem parseResultsLoop_errsCorrectly {unread : Nat} (le : unread ≤ bound)
    (out : List (String × Value)) :
    ErrsCorrectly input unread (parseResultsLoop parser unread out)
      (closedResults Ascii.closeBracket) := by
  induction unread generalizing out with
  | zero =>
      intro cursor into short expects
      exact .inl (expects.viable _ (closed_result _ shortest_result))
  | succ unread ih =>
      intro cursor into short expects
      unfold parseResultsLoop
      have entryExpected : Expects records (input.take cursor.pos) results :=
        expects.first fun part result => ⟨_, closed_result _ result⟩
      refine (parseResult_errsCorrectly errs cursor into (by omega) entryExpected).bind_eq ?_
      rintro ⟨⟨name, value⟩, after⟩ parsed _
      obtain ⟨afterInto, afterShort⟩ :=
        (parseResult_locates locates cursor into (by omega)).of_ok parsed
      obtain ⟨bytes, consumed, derived⟩ := exists_of_parseResult sound parsed
      have taken := into.take_eq afterInto consumed
      have closes : Viable records (input.take after.pos) := by
        rw [taken]
        exact expects.viable_append (closed_result _ ⟨name, value, derived⟩)
      dsimp only at afterInto afterShort taken ⊢
      split
      · next found peeked =>
          have shorter := length_advance_lt peeked
          split_ifs with comma looksResult close
          · refine ih (by omega) _ _ (afterInto.advance peeked) (by omega) ?_
            rw [afterInto.take_advance peeked, taken, comma, List.append_assoc]
            exact expects.after _ fun part closed =>
              ⟨[], by simpa using closedResults_cons derived closed⟩
          · left
            dsimp only
            rw [afterInto.take_advance peeked, taken, comma, List.append_assoc]
            exact expects.viable_append
              (closedResults_cons derived (closed_result _ shortest_result))
          · trivial
          · exact .inl closes
      · exact .inl closes

theorem parseValuesLoop_errsCorrectly {unread : Nat} (le : unread ≤ bound) (out : List Value) :
    ErrsCorrectly input unread (parseValuesLoop parser unread out)
      (closedValues Ascii.closeBracket) := by
  induction unread generalizing out with
  | zero =>
      intro cursor into short expects
      exact .inl (expects.viable _ (closed_value _ emptyLiteral_value))
  | succ unread ih =>
      intro cursor into short expects
      unfold parseValuesLoop
      have itemExpected : Expects records (input.take cursor.pos) values :=
        expects.first fun part value => ⟨_, closed_value _ value⟩
      refine (errs cursor into (by omega) itemExpected).bind_eq ?_
      rintro ⟨item, after⟩ parsed _
      obtain ⟨afterInto, afterShort⟩ := (locates cursor into (by omega)).of_ok parsed
      obtain ⟨bytes, consumed, derived⟩ := sound parsed
      have taken := into.take_eq afterInto consumed
      have closes : Viable records (input.take after.pos) := by
        rw [taken]
        exact expects.viable_append (closed_value _ ⟨item, derived⟩)
      dsimp only at afterInto afterShort taken ⊢
      split
      · next found peeked =>
          have shorter := length_advance_lt peeked
          split_ifs with comma looksResult close
          · left
            dsimp only
            rw [afterInto.take_advance peeked, taken, comma, List.append_assoc]
            exact expects.viable_append
              (closedValues_cons derived (closed_value _ emptyLiteral_value))
          · refine ih (by omega) _ _ (afterInto.advance peeked) (by omega) ?_
            rw [afterInto.take_advance peeked, taken, comma, List.append_assoc]
            exact expects.after _ fun part closed =>
              ⟨[], by simpa using closedValues_cons derived closed⟩
          · trivial
          · exact .inl closes
      · exact .inl closes

omit errs locates sound in
theorem expectByte_errsCorrectly (expected : UInt8)
    (viable : Viable records (input.take cursor.pos)) :
    Ensures (fun next => cursor.peek = some expected ∧ next = cursor.advance)
      (AfterCorrectPrefix input) (cursor.expectByte expected) := by
  unfold Cursor.expectByte
  split
  · next found peeked =>
      split_ifs with same
      · exact ⟨same ▸ peeked, rfl⟩
      · exact .inl viable
  · exact .inl viable

theorem parseTuple_errsCorrectly :
    ErrsCorrectly input (bound + 1) (parseTuple parser) values := by
  intro cursor into short expects
  refine (expectByte_errsCorrectly _ (expects.viable _ emptyLiteral_value)).bind ?_
  rintro opened ⟨peeked, rfl⟩
  have shorter := length_advance_lt peeked
  split_ifs with closes
  · trivial
  · refine parseTupleLoop_errsCorrectly errs locates sound (by omega) [] cursor.advance
      (into.advance peeked) (Nat.le_refl _) ?_
    rw [into.take_advance peeked]
    refine expects.after _ ?_
    rintro part ⟨inner, entries, rfl, derived⟩
    exact ⟨[], .tuple entries, by simpa using Derives.tuple derived⟩

theorem parseList_errsCorrectly :
    ErrsCorrectly input (bound + 1) (parseList parser) values := by
  intro cursor into short expects
  refine (expectByte_errsCorrectly _ (expects.viable _ emptyLiteral_value)).bind ?_
  rintro opened ⟨peeked, rfl⟩
  have shorter := length_advance_lt peeked
  split_ifs with closes looksResult
  · trivial
  · refine Ensures.bind (parseResultsLoop_errsCorrectly errs locates sound (by omega) []
      cursor.advance (into.advance peeked) (Nat.le_refl _) ?_) fun _ _ => trivial
    rw [into.take_advance peeked]
    refine expects.after _ ?_
    rintro part ⟨inner, entries, rfl, derived⟩
    exact ⟨[], .list (.results entries), by simpa using Derives.resultList derived⟩
  · refine Ensures.bind (parseValuesLoop_errsCorrectly errs locates sound (by omega) []
      cursor.advance (into.advance peeked) (Nat.le_refl _) ?_) fun _ _ => trivial
    rw [into.take_advance peeked]
    refine expects.after _ ?_
    rintro part ⟨inner, items, rfl, derived⟩
    exact ⟨[], .list (.values items), by simpa using Derives.valueList derived⟩

end Nested

theorem parseValueWithin_errsCorrectly (unread : Nat) :
    ErrsCorrectly input unread (parseValueWithin unread) values := by
  induction unread with
  | zero =>
      intro cursor into short expects
      exact .inl (expects.viable _ emptyLiteral_value)
  | succ unread ih =>
      intro cursor into short expects
      have viable := expects.viable _ emptyLiteral_value
      have locates : LocatesErrors input unread (parseValueWithin unread) :=
        parseValueWithin_locates unread
      have sound : SoundParser (parseValueWithin unread) := parseValueWithin_sound unread
      unfold parseValueWithin
      split
      · next found peeked =>
          split_ifs with quote brace bracket
          · refine Ensures.bind (parseCstring_errsCorrectly _ cursor into short ?_)
              fun _ _ => trivial
            refine expects.first ?_
            rintro part ⟨text, literal⟩
            exact ⟨[], .const text, by simpa using Derives.const literal⟩
          · exact (parseTuple_errsCorrectly ih locates sound cursor into short expects).bind
              fun _ _ => trivial
          · exact (parseList_errsCorrectly ih locates sound cursor into short expects).bind
              fun _ _ => trivial
          · exact .inl viable
      · exact .inl viable

theorem parseValue_errsCorrectly (bound : Nat) : ErrsCorrectly input bound parseValue values :=
  fun cursor into _ => parseValueWithin_errsCorrectly cursor.rest.length cursor into (Nat.le_refl _)

theorem parseTrailingResultsLoop_errsCorrectly {unread : Nat} (out : List (String × Value)) :
    ErrsCorrectly input unread (parseTrailingResultsLoop unread out) trailings := by
  have endsHere : ([] : List UInt8) ∈ trailings := ⟨[], .nil⟩
  induction unread generalizing out with
  | zero =>
      intro cursor into short expects
      unfold parseTrailingResultsLoop
      rw [peek_eq_none_of_length short]
      trivial
  | succ unread ih =>
      intro cursor into short expects
      unfold parseTrailingResultsLoop
      split
      · trivial
      · next found peeked =>
          have shorter := length_advance_lt peeked
          have inner := into.advance peeked
          split_ifs with comma
          · have locates : LocatesErrors input unread parseValue := parseValue_locates unread
            have entryExpected : Expects records (input.take cursor.advance.pos) results := by
              rw [into.take_advance peeked]
              refine expects.after _ ?_
              rintro part ⟨name, value, derived⟩
              exact ⟨[], [(name, value)], by simpa [comma] using IsTrailing.cons derived .nil⟩
            refine (parseResult_errsCorrectly (parseValue_errsCorrectly unread) _ inner
              (by omega) entryExpected).bind_eq ?_
            rintro ⟨⟨name, value⟩, after⟩ parsed _
            obtain ⟨afterInto, afterShort⟩ :=
              (parseResult_locates locates _ inner (by omega)).of_ok parsed
            obtain ⟨bytes, consumed, derived⟩ := exists_of_parseResult parseValue_sound parsed
            have taken := inner.take_eq afterInto consumed
            dsimp only at afterInto afterShort taken
            refine ih _ after afterInto (by omega) ?_
            rw [taken, into.take_advance peeked, List.append_assoc]
            refine expects.after _ ?_
            rintro part ⟨entries, trailing⟩
            exact ⟨[], (name, value) :: entries, by
              simpa [comma] using IsTrailing.cons derived trailing⟩
          · exact .inl (expects.viable _ endsHere)

/-- The results of a record run up to the end of the line. -/
theorem parseTrailingResults_errsCorrectly (into : Into input cursor)
    (expects : Expects records (input.take cursor.pos) trailings) :
    Ensures (fun found => found.2.rest = []) (AfterCorrectPrefix input)
      (parseTrailingResults cursor) := by
  have errs := parseTrailingResultsLoop_errsCorrectly [] cursor into (Nat.le_refl _) expects
  rw [ensures_iff] at errs ⊢
  refine ⟨fun found parsed => ?_, errs.2⟩
  obtain ⟨_, _, _, ended⟩ := exists_of_parseTrailingResultsLoop parsed
  exact ended

/-- The result class and the results that may follow the caret. -/
def resultBodies : Set (List UInt8) :=
  {bytes | ∃ spelling resultClass trailing, (spelling, resultClass) ∈ resultClasses ∧
    trailing ∈ trailings ∧ bytes = asBytes spelling ++ trailing}

/-- The async class and the results that may follow the prefix of an async
record. -/
def asyncBodies : Set (List UInt8) :=
  {bytes | ∃ classBytes asyncClass trailing, IsName classBytes asyncClass ∧
    trailing ∈ trailings ∧ bytes = classBytes ++ trailing}

theorem parseResultRecord_errsCorrectly (token : Option Token) (into : Into input cursor)
    (expects : Expects records (input.take cursor.pos) resultBodies) :
    Ensures (fun found => found.2.rest = []) (AfterCorrectPrefix input)
      (parseResultRecord token cursor) := by
  have viable : Viable records (input.take cursor.pos) :=
    expects.viable (asBytes "done")
      ⟨"done", .done, [], by simp [resultClasses], ⟨[], .nil⟩, rfl⟩
  have classRead : Ensures (fun _ => True) (AfterCorrectPrefix input)
      (parseResultClass cursor) := by
    unfold parseResultClass
    dsimp only
    split_ifs
    · exact .inl viable
    · split
      · trivial
      · exact .inl viable
  refine classRead.bind_eq ?_
  rintro ⟨resultClass, afterClass⟩ parsed _
  unfold parseResultClass at parsed
  dsimp only at parsed
  split_ifs at parsed with empty
  split at parsed
  · next found known =>
      cases parsed
      obtain ⟨spelling, listed, bytesEq⟩ := exists_of_fromBytes known
      have classInto := into.takeRun Ascii.isLowercase
      have taken := into.take_eq classInto (Cursor.rest_eq_of_takeRun Ascii.isLowercase cursor)
      refine Ensures.bind (parseTrailingResults_errsCorrectly classInto ?_) fun _ ended => ended
      rw [taken]
      refine expects.after _ ?_
      rintro part trailing
      exact ⟨[], spelling, _, part, listed, trailing, by rw [List.append_nil, bytesEq]⟩
  · cases parsed

theorem parseAsyncRecord_errsCorrectly (token : Option Token) (into : Into input cursor)
    (expects : Expects records (input.take cursor.pos) asyncBodies) :
    Ensures (fun found => found.2.rest = []) (AfterCorrectPrefix input)
      (parseAsyncRecord token cursor) := by
  have viable : Viable records (input.take cursor.pos) :=
    expects.viable [120] ⟨[120], "x", [], isName_x, ⟨[], .nil⟩, rfl⟩
  have classRead : Ensures (fun _ => True) (AfterCorrectPrefix input)
      (parseName isIdentifierByte cursor) := by
    unfold parseName
    dsimp only
    split_ifs
    · exact .inl viable
    · trivial
  unfold parseAsyncRecord
  rw [parseAsyncClass_eq]
  refine classRead.bind_eq ?_
  rintro ⟨asyncClass, afterClass⟩ parsed _
  obtain ⟨classBytes, consumed, isName⟩ := exists_of_parseName parsed
  obtain ⟨_, afterEq⟩ := exists_of_parseName_ok parsed
  have classInto : Into input afterClass := afterEq ▸ into.takeRun isIdentifierByte
  have taken := into.take_eq classInto consumed
  refine Ensures.bind (parseTrailingResults_errsCorrectly classInto ?_) fun _ ended => ended
  rw [taken]
  refine expects.after _ ?_
  rintro part trailing
  exact ⟨[], classBytes, asyncClass, part, isName, trailing, by simp⟩

/-- The literal of a stream record is a record by itself, whatever follows. -/
theorem parseStreamRecord_errsCorrectly (into : Into input cursor)
    (expects : Expects records (input.take cursor.pos) cstrings) :
    Ensures (fun found => Viable records (input.take found.2.pos)) (AfterCorrectPrefix input)
      (parseStreamRecord cursor) := by
  have errs := parseCstring_errsCorrectly _ cursor into (Nat.le_refl _) expects
  refine errs.bind_eq ?_
  rintro ⟨text, after⟩ parsed _
  obtain ⟨bytes, consumed, literal⟩ := exists_of_parseCstring parsed
  have afterInto := ((parseCstring_locates _ cursor into (Nat.le_refl _)).of_ok parsed).1
  change Viable records (input.take after.pos)
  rw [into.take_eq afterInto consumed]
  exact expects _ ⟨text, literal⟩

theorem result_expected {tokenBytes : List UInt8} {token : Option Token}
    (isToken : IsToken tokenBytes token) :
    Expects records (tokenBytes ++ [Ascii.caret]) resultBodies := by
  rintro _ ⟨spelling, resultClass, trailing, listed, ⟨entries, isTrailing⟩, rfl⟩
  rw [List.append_assoc, List.singleton_append]
  exact viable_of_mem ⟨_, .result spelling resultClass listed isToken isTrailing⟩

theorem async_expected {tokenBytes : List UInt8} {token : Option Token}
    (isToken : IsToken tokenBytes token) {kind : Char} {build : AsyncRecord → Record}
    (listed : (kind, build) ∈ asyncKinds) :
    Expects records (tokenBytes ++ [asciiByte kind]) asyncBodies := by
  rintro _ ⟨classBytes, asyncClass, trailing, isName, ⟨entries, isTrailing⟩, rfl⟩
  rw [List.append_assoc, List.singleton_append]
  exact viable_of_mem ⟨_, .async kind build listed isToken isName isTrailing⟩

theorem stream_expected {kind : Char} {build : StreamRecord → Record}
    (listed : (kind, build) ∈ streamKinds) :
    Expects records ([] ++ [asciiByte kind]) cstrings := by
  rintro bytes ⟨text, literal⟩
  exact viable_of_mem ⟨_, .stream kind build listed literal⟩

/-- After a token a result record may follow. -/
theorem token_viable {tokenBytes : List UInt8} {token : Option Token}
    (isToken : IsToken tokenBytes token) : Viable records tokenBytes :=
  ((result_expected isToken).viable (asBytes "done")
    ⟨"done", .done, [], by simp [resultClasses], ⟨[], .nil⟩, rfl⟩).of_append

/-- The record is complete: the line ends here, or what was read is a record
and the rest is garbage. -/
def CompletesRecord (input : List UInt8) (cursor : Cursor) : Prop :=
  cursor.rest = [] ∨ Viable records (input.take cursor.pos)

theorem ensures_completed {α : Type} {build : α → Record}
    {parsed : Except CodecError (α × Cursor)}
    (ensures : Ensures (fun found => CompletesRecord input found.2) (AfterCorrectPrefix input)
      parsed) :
    Ensures (fun found => CompletesRecord input found.2) (AfterCorrectPrefix input)
      (parsed >>= fun found => .ok (build found.1, found.2)) :=
  ensures.bind fun _ found => found

theorem parseRecordBody_errsCorrectly {tokenBytes : List UInt8} {token : Option Token}
    (into : Into input cursor) (isToken : IsToken tokenBytes token)
    (taken : input.take cursor.pos = tokenBytes) :
    Ensures (fun found => CompletesRecord input found.2) (AfterCorrectPrefix input)
      (parseRecordBody token cursor) := by
  have viable : Viable records (input.take cursor.pos) := taken ▸ token_viable isToken
  unfold parseRecordBody
  split
  · exact .inl viable
  · next prefixByte peeked =>
      have inner := into.advance peeked
      have taken' := into.take_advance peeked
      rw [taken] at taken'
      have async (kind : Char) (build : AsyncRecord → Record)
          (listed : (kind, build) ∈ asyncKinds) (same : prefixByte = asciiByte kind) :
          Ensures (fun found => CompletesRecord input found.2) (AfterCorrectPrefix input)
            (parseAsyncRecord token cursor.advance) := by
        refine (parseAsyncRecord_errsCorrectly token inner ?_).imp (fun _ ended => .inl ended)
          (fun _ failed => failed)
        rw [taken', same]
        exact async_expected isToken listed
      have stream (kind : Char) (build : StreamRecord → Record)
          (listed : (kind, build) ∈ streamKinds) (same : prefixByte = asciiByte kind)
          (untokened : ¬ token.isSome = true) :
          Ensures (fun found => CompletesRecord input found.2) (AfterCorrectPrefix input)
            (parseStreamRecord cursor.advance) := by
        refine (parseStreamRecord_errsCorrectly inner ?_).imp (fun _ whole => .inr whole)
          (fun _ failed => failed)
        cases isToken with
        | digits => simp at untokened
        | absent =>
            rw [taken', same]
            exact stream_expected listed
      split_ifs with caret star plus equals isStream hasToken tilde atSign
      · refine ensures_completed ((parseResultRecord_errsCorrectly token inner ?_).imp
          (fun _ ended => .inl ended) (fun _ failed => failed))
        rw [taken', caret]
        exact result_expected isToken
      · exact ensures_completed (async '*' .exec (by simp [asyncKinds]) star)
      · exact ensures_completed (async '+' .status (by simp [asyncKinds]) plus)
      · exact ensures_completed (async '=' .notify (by simp [asyncKinds]) equals)
      · exact .inl (token_viable .absent)
      · exact ensures_completed (stream '~' .console (by simp [streamKinds]) tilde hasToken)
      · exact ensures_completed (stream '@' .target (by simp [streamKinds]) atSign hasToken)
      · have ampersand := (isStream.resolve_left tilde).resolve_left atSign
        exact ensures_completed (stream '&' .log (by simp [streamKinds]) ampersand hasToken)
      · exact .inl viable

/-- A rejected line is a correct beginning of a record up to the offset of its
error, escape errors apart: those have it up to the quote that opens their
literal. -/
theorem parseRecord_errs_after_correct_prefix {input : List UInt8} {error : CodecError}
    (failed : parseRecord input = .error error) : AfterCorrectPrefix input error := by
  suffices ensures : Ensures (fun _ => True) (AfterCorrectPrefix input) (parseRecord input) from
    ensures.of_error failed
  have tokenRead : Ensures (fun _ => True) (AfterCorrectPrefix input)
      (parseOptionalToken (.new input)) := by
    refine (parseTokenLoop_locates 0 (Into.start input)).imp (fun _ _ => trivial) ?_
    rintro error ⟨rfl, _⟩
    exact .inl (token_viable .absent)
  refine tokenRead.bind_eq ?_
  rintro ⟨token, afterToken⟩ parsed _
  have tokenInto := parseOptionalToken_locates.of_ok parsed
  obtain ⟨tokenBytes, lineEq, isToken⟩ := exists_of_parseOptionalToken parsed
  have taken := (Into.start input).take_eq tokenInto lineEq
  rw [show (Cursor.new input).pos = 0 from rfl, List.take_zero, List.nil_append] at taken
  refine (parseRecordBody_errsCorrectly tokenInto isToken taken).bind ?_
  rintro ⟨record, after⟩ completed
  dsimp only at completed ⊢
  split_ifs with ended
  · trivial
  · refine .inl (completed.resolve_left fun nothingLeft => ended ?_)
    simp [Cursor.atEnd, nothingLeft]

/-- A list that starts with a bare value and goes on with a result is correct
up to the result. -/
theorem parseRecord_errs_after_correct_prefix_mixed :
    parseRecord (asBytes "^done,a=[\"b\",c=\"d\"]") = .error ⟨.mixedList, 13⟩ ∧
      AfterCorrectPrefix (asBytes "^done,a=[\"b\",c=\"d\"]") ⟨.mixedList, 13⟩ :=
  have failed : parseRecord (asBytes "^done,a=[\"b\",c=\"d\"]") = .error ⟨.mixedList, 13⟩ := rfl
  ⟨failed, parseRecord_errs_after_correct_prefix failed⟩

end Framewalk.OutputGrammar
