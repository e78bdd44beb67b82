import Framewalk.ValueGrammar

/-!
# Every derivable value is parsed

The look-ahead that tells a list of results from a list of values is settled by
the first byte: a result starts with an identifier byte and has an equals sign
after its name, a value starts with a quote or an opening bracket or brace.
-/

namespace Framewalk.OutputGrammar

open Utf8Text

/-- The bytes that can start a value. -/
def StartsValue (byte : UInt8) : Prop :=
  byte = Ascii.quote ∨ byte = Ascii.openBrace ∨ byte = Ascii.openBracket

theorem StartsValue.not_identifier {byte : UInt8} (starts : StartsValue byte) :
    isIdentifierByte byte = false := by
  rcases starts with rfl | rfl | rfl <;> decide

theorem Derives.exists_first_value {bytes : List UInt8} {value : Value}
    (derived : Derives (.value value) bytes) :
    ∃ first tail, bytes = first :: tail ∧ StartsValue first := by
  cases derived with
  | const isCString =>
      obtain ⟨body, rfl, _⟩ := isCString
      exact ⟨_, _, rfl, .inl rfl⟩
  | emptyTuple | tuple => exact ⟨_, _, rfl, .inr (.inl rfl)⟩
  | emptyList | valueList | resultList => exact ⟨_, _, rfl, .inr (.inr rfl)⟩

theorem Derives.exists_first_values {bytes : List UInt8} {items : List Value}
    (derived : Derives (.values items) bytes) :
    ∃ first tail, bytes = first :: tail ∧ StartsValue first := by
  cases derived with
  | lastValue value => exact value.exists_first_value
  | moreValues value _ =>
      obtain ⟨first, tail, rfl, starts⟩ := value.exists_first_value
      exact ⟨first, _, rfl, starts⟩

theorem scansToEquals_append {run : List UInt8} (rest : List UInt8)
    (accepted : ∀ byte ∈ run, isIdentifierByte byte = true) :
    scansToEquals (run ++ Ascii.equals :: rest) = true := by
  induction run with
  | nil => rfl
  | cons byte run ih =>
      rw [List.cons_append, scansToEquals, if_pos (accepted byte (by simp))]
      exact ih fun other member => accepted other (by simp [member])

/-- What the look-ahead sees of a result: an identifier byte, and an equals
sign after the run. -/
theorem Derives.exists_first_result {bytes : List UInt8} {name : String} {value : Value}
    (derived : Derives (.result name value) bytes) :
    ∃ first tail, bytes = first :: tail ∧ isIdentifierByte first = true ∧
      ∀ rest, scansToEquals (tail ++ rest) = true := by
  cases derived with
  | @result nameBytes valueBytes _ _ isName _ =>
      obtain ⟨nonempty, accepted, _⟩ := isName.bytes_spec
      cases nameBytes with
      | nil => exact absurd rfl nonempty
      | cons first tail =>
          refine ⟨first, tail ++ Ascii.equals :: valueBytes, rfl, accepted first (by simp), ?_⟩
          intro rest
          rw [List.append_assoc, List.cons_append]
          exact scansToEquals_append _ fun byte member => accepted byte (by simp [member])

theorem Derives.exists_first_results {bytes : List UInt8} {entries : List (String × Value)}
    (derived : Derives (.results entries) bytes) :
    ∃ first tail, bytes = first :: tail ∧ isIdentifierByte first = true ∧
      ∀ rest, scansToEquals (tail ++ rest) = true := by
  cases derived with
  | lastResult result => exact result.exists_first_result
  | moreResults result _ =>
      obtain ⟨first, tail, rfl, accepted, scans⟩ := result.exists_first_result
      refine ⟨first, tail ++ _, rfl, accepted, fun rest => ?_⟩
      rw [List.append_assoc]
      exact scans _

theorem looksLikeResult_of_results {bytes : List UInt8} {entries : List (String × Value)}
    (derived : Derives (.results entries) bytes) (pos : Nat) (rest : List UInt8) :
    looksLikeResult ⟨pos, bytes ++ rest⟩ = true := by
  obtain ⟨first, tail, rfl, accepted, scans⟩ := derived.exists_first_results
  simp [looksLikeResult, accepted, scans]

theorem not_looksLikeResult_of_values {bytes : List UInt8} {items : List Value}
    (derived : Derives (.values items) bytes) (pos : Nat) (rest : List UInt8) :
    looksLikeResult ⟨pos, bytes ++ rest⟩ = false := by
  obtain ⟨first, tail, rfl, starts⟩ := derived.exists_first_values
  simp [looksLikeResult, starts.not_identifier]

section Turns

variable {parser : Parser Value} {entry : String × Value} {value : Value} {cursor : Cursor}
  {pos unread : Nat} {rest : List UInt8}

theorem parseTupleLoop_last {out : List (String × Value)}
    (parsed : parseResult parser cursor = .ok (entry, ⟨pos, Ascii.closeBrace :: rest⟩)) :
    parseTupleLoop parser (unread + 1) out cursor = .ok (out ++ [entry], ⟨pos + 1, rest⟩) := by
  have notComma : Ascii.closeBrace ≠ Ascii.comma := by decide
  simp [parseTupleLoop, parsed, notComma, bind, Except.bind]

theorem parseTupleLoop_more {out : List (String × Value)}
    (parsed : parseResult parser cursor = .ok (entry, ⟨pos, Ascii.comma :: rest⟩)) :
    parseTupleLoop parser (unread + 1) out cursor =
      parseTupleLoop parser unread (out ++ [entry]) ⟨pos + 1, rest⟩ := by
  simp [parseTupleLoop, parsed, bind, Except.bind]

theorem parseResultsLoop_last {out : List (String × Value)}
    (parsed : parseResult parser cursor = .ok (entry, ⟨pos, Ascii.closeBracket :: rest⟩)) :
    parseResultsLoop parser (unread + 1) out cursor =
      .ok (out ++ [entry], ⟨pos + 1, rest⟩) := by
  have notComma : Ascii.closeBracket ≠ Ascii.comma := by decide
  simp [parseResultsLoop, parsed, notComma, bind, Except.bind]

theorem parseResultsLoop_more {out : List (String × Value)}
    (parsed : parseResult parser cursor = .ok (entry, ⟨pos, Ascii.comma :: rest⟩))
    (looks : looksLikeResult ⟨pos + 1, rest⟩ = true) :
    parseResultsLoop parser (unread + 1) out cursor =
      parseResultsLoop parser unread (out ++ [entry]) ⟨pos + 1, rest⟩ := by
  simp [parseResultsLoop, parsed, looks, bind, Except.bind]

theorem parseValuesLoop_last {out : List Value}
    (parsed : parser cursor = .ok (value, ⟨pos, Ascii.closeBracket :: rest⟩)) :
    parseValuesLoop parser (unread + 1) out cursor = .ok (out ++ [value], ⟨pos + 1, rest⟩) := by
  have notComma : Ascii.closeBracket ≠ Ascii.comma := by decide
  simp [parseValuesLoop, parsed, notComma, bind, Except.bind]

theorem parseValuesLoop_more {out : List Value}
    (parsed : parser cursor = .ok (value, ⟨pos, Ascii.comma :: rest⟩))
    (looks : looksLikeResult ⟨pos + 1, rest⟩ = false) :
    parseValuesLoop parser (unread + 1) out cursor =
      parseValuesLoop parser unread (out ++ [value]) ⟨pos + 1, rest⟩ := by
  simp [parseValuesLoop, parsed, looks, bind, Except.bind]

theorem parseResult_append {nameBytes : List UInt8} {name : String} {next : Cursor}
    (isName : IsName nameBytes name)
    (parsed : parser ⟨pos + nameBytes.length + 1, rest⟩ = .ok (value, next)) :
    parseResult parser ⟨pos, nameBytes ++ Ascii.equals :: rest⟩ = .ok ((name, value), next) := by
  have stops : ∀ byte ∈ (Ascii.equals :: rest).head?, isIdentifierByte byte = false := by
    rintro byte ⟨⟩
    decide
  have nameParsed := parseName_append isName stops pos
  simp [parseResult, parseVariable, nameParsed, expectEquals, parsed, bind, Except.bind]

end Turns

/-- What the functions reading a category return on one of its spellings, when
the bound of the nested values and the bound of the loop allow its length. -/
def ReadsBack : Production → List UInt8 → Prop
  | .value value, bytes => ∀ unread pos rest, bytes.length ≤ unread →
      parseValueWithin unread ⟨pos, bytes ++ rest⟩ =
        .ok (value, ⟨pos + bytes.length, rest⟩)
  | .result name value, bytes => ∀ unread pos rest, bytes.length ≤ unread →
      parseResult (parseValueWithin unread) ⟨pos, bytes ++ rest⟩ =
        .ok ((name, value), ⟨pos + bytes.length, rest⟩)
  | .results entries, bytes => ∀ unread loopBound out pos rest, bytes.length ≤ unread →
      bytes.length ≤ loopBound →
        parseTupleLoop (parseValueWithin unread) loopBound out
            ⟨pos, bytes ++ Ascii.closeBrace :: rest⟩ =
          .ok (out ++ entries, ⟨pos + bytes.length + 1, rest⟩) ∧
        parseResultsLoop (parseValueWithin unread) loopBound out
            ⟨pos, bytes ++ Ascii.closeBracket :: rest⟩ =
          .ok (out ++ entries, ⟨pos + bytes.length + 1, rest⟩)
  | .values items, bytes => ∀ unread loopBound out pos rest, bytes.length ≤ unread →
      bytes.length ≤ loopBound →
        parseValuesLoop (parseValueWithin unread) loopBound out
            ⟨pos, bytes ++ Ascii.closeBracket :: rest⟩ =
          .ok (out ++ items, ⟨pos + bytes.length + 1, rest⟩)

theorem parseValueWithin_tuple {bytes : List UInt8} {entries : List (String × Value)}
    (derived : Derives (.results entries) bytes) (readsBack : ReadsBack (.results entries) bytes)
    {unread : Nat} (bound : bytes.length + 2 ≤ unread) (pos : Nat) (rest : List UInt8) :
    parseValueWithin unread ⟨pos, Ascii.openBrace :: (bytes ++ Ascii.closeBrace :: rest)⟩ =
      .ok (.tuple entries, ⟨pos + bytes.length + 2, rest⟩) := by
  obtain ⟨spare, rfl⟩ := Nat.exists_eq_add_of_le' (Nat.lt_of_lt_of_le (by omega) bound : 0 < unread)
  have loop := (readsBack spare (bytes ++ Ascii.closeBrace :: rest).length [] (pos + 1) rest
    (by omega) (by simp)).1
  have notClose : Cursor.peek ⟨pos + 1, bytes ++ Ascii.closeBrace :: rest⟩ ≠
      some Ascii.closeBrace := by
    obtain ⟨first, tail, rfl, accepted, _⟩ := derived.exists_first_results
    rintro same
    obtain rfl : first = Ascii.closeBrace := by simpa using same
    exact absurd accepted (by decide)
  have position : pos + 1 + bytes.length + 1 = pos + bytes.length + 2 := by omega
  have parsed : parseTuple (parseValueWithin spare)
      ⟨pos, Ascii.openBrace :: (bytes ++ Ascii.closeBrace :: rest)⟩ =
        .ok (entries, ⟨pos + bytes.length + 2, rest⟩) := by
    simp only [parseTuple, Cursor.expectByte_cons_self, bind, Except.bind, if_neg notClose, loop,
      position, List.nil_append]
  have notQuote : Ascii.openBrace ≠ Ascii.quote := by decide
  simp only [parseValueWithin, Cursor.peek_cons, if_neg notQuote, if_true, parsed, bind,
    Except.bind]

theorem parseValueWithin_list {body rest : List UInt8} {items : ListValue} {spare pos : Nat}
    {next : Cursor}
    (parsed : parseList (parseValueWithin spare) ⟨pos, Ascii.openBracket :: (body ++ rest)⟩ =
      .ok (items, next)) :
    parseValueWithin (spare + 1) ⟨pos, Ascii.openBracket :: (body ++ rest)⟩ =
      .ok (.list items, next) := by
  have notQuote : Ascii.openBracket ≠ Ascii.quote := by decide
  have notBrace : Ascii.openBracket ≠ Ascii.openBrace := by decide
  simp only [parseValueWithin, Cursor.peek_cons, if_neg notQuote, if_neg notBrace, if_true, parsed,
    bind, Except.bind]

theorem parseList_results {bytes : List UInt8} {entries : List (String × Value)}
    (derived : Derives (.results entries) bytes) (readsBack : ReadsBack (.results entries) bytes)
    {unread : Nat} (bound : bytes.length ≤ unread) (pos : Nat) (rest : List UInt8) :
    parseList (parseValueWithin unread)
        ⟨pos, Ascii.openBracket :: (bytes ++ Ascii.closeBracket :: rest)⟩ =
      .ok (.results entries, ⟨pos + bytes.length + 2, rest⟩) := by
  have loop := (readsBack unread (bytes ++ Ascii.closeBracket :: rest).length [] (pos + 1) rest
    bound (by simp)).2
  have looks := looksLikeResult_of_results derived (pos + 1) (Ascii.closeBracket :: rest)
  have notClose : Cursor.peek ⟨pos + 1, bytes ++ Ascii.closeBracket :: rest⟩ ≠
      some Ascii.closeBracket := by
    obtain ⟨first, tail, rfl, accepted, _⟩ := derived.exists_first_results
    rintro same
    obtain rfl : first = Ascii.closeBracket := by simpa using same
    exact absurd accepted (by decide)
  have position : pos + 1 + bytes.length + 1 = pos + bytes.length + 2 := by omega
  simp only [parseList, Cursor.expectByte_cons_self, bind, Except.bind, if_neg notClose, looks,
    if_true, loop, position, List.nil_append]

theorem parseList_values {bytes : List UInt8} {items : List Value}
    (derived : Derives (.values items) bytes) (readsBack : ReadsBack (.values items) bytes)
    {unread : Nat} (bound : bytes.length ≤ unread) (pos : Nat) (rest : List UInt8) :
    parseList (parseValueWithin unread)
        ⟨pos, Ascii.openBracket :: (bytes ++ Ascii.closeBracket :: rest)⟩ =
      .ok (.values items, ⟨pos + bytes.length + 2, rest⟩) := by
  have loop := readsBack unread (bytes ++ Ascii.closeBracket :: rest).length [] (pos + 1) rest
    bound (by simp)
  have looks := not_looksLikeResult_of_values derived (pos + 1) (Ascii.closeBracket :: rest)
  have notClose : Cursor.peek ⟨pos + 1, bytes ++ Ascii.closeBracket :: rest⟩ ≠
      some Ascii.closeBracket := by
    obtain ⟨first, tail, rfl, starts⟩ := derived.exists_first_values
    rintro same
    obtain rfl : first = Ascii.closeBracket := by simpa using same
    exact absurd starts (by unfold StartsValue; decide)
  have position : pos + 1 + bytes.length + 1 = pos + bytes.length + 2 := by omega
  simp only [parseList, Cursor.expectByte_cons_self, bind, Except.bind, if_neg notClose, looks,
    Bool.false_eq_true, if_false, loop, position, List.nil_append]

/-- Where the reader stands behind a first item, a comma, more items and what
closes them. -/
theorem position_after_comma (pos : Nat) (bytes moreBytes : List UInt8) :
    pos + bytes.length + 1 + moreBytes.length + 1 =
      pos + (bytes ++ Ascii.comma :: moreBytes).length + 1 := by
  simp only [List.length_append, List.length_cons]
  omega

theorem Derives.readsBack {production : Production} {bytes : List UInt8}
    (derived : Derives production bytes) : ReadsBack production bytes := by
  induction derived with
  | @const bytes text isCString =>
      intro unread pos rest bound
      obtain ⟨body, bytesEq, _⟩ := id isCString
      obtain ⟨spare, rfl⟩ : ∃ spare, unread = spare + 1 :=
        ⟨unread - 1, by rw [bytesEq, List.length_cons] at bound; omega⟩
      have parsed := parseCstring_append isCString pos rest
      rw [bytesEq] at parsed ⊢
      rw [List.cons_append] at parsed ⊢
      simp only [parseValueWithin, Cursor.peek_cons, if_true, parsed, bind, Except.bind]
  | emptyTuple =>
      intro unread pos rest bound
      obtain ⟨spare, rfl⟩ : ∃ spare, unread = spare + 1 :=
        ⟨unread - 1, by simp only [List.length_cons] at bound; omega⟩
      rfl
  | @tuple bytes entries results ih =>
      intro unread pos rest bound
      have tupleBound : bytes.length + 2 ≤ unread := by
        simp only [List.length_cons, List.length_append, List.length_nil] at bound
        omega
      have parsed := parseValueWithin_tuple results ih tupleBound pos rest
      simpa [Nat.add_assoc] using parsed
  | emptyList =>
      intro unread pos rest bound
      obtain ⟨spare, rfl⟩ : ∃ spare, unread = spare + 1 :=
        ⟨unread - 1, by simp only [List.length_cons] at bound; omega⟩
      rfl
  | @valueList bytes items values ih =>
      intro unread pos rest bound
      simp only [List.length_cons, List.length_append] at bound
      obtain ⟨spare, rfl⟩ : ∃ spare, unread = spare + 1 := ⟨unread - 1, by omega⟩
      have listBound : bytes.length ≤ spare := by omega
      have parsed := parseValueWithin_list (parseList_values values ih listBound pos rest)
      simpa [Nat.add_assoc] using parsed
  | @resultList bytes entries results ih =>
      intro unread pos rest bound
      simp only [List.length_cons, List.length_append] at bound
      obtain ⟨spare, rfl⟩ : ∃ spare, unread = spare + 1 := ⟨unread - 1, by omega⟩
      have listBound : bytes.length ≤ spare := by omega
      have parsed := parseValueWithin_list (parseList_results results ih listBound pos rest)
      simpa [Nat.add_assoc] using parsed
  | @result nameBytes valueBytes name value isName _ ih =>
      intro unread pos rest bound
      simp only [List.length_append, List.length_cons] at bound
      have parsed := parseResult_append isName
        (ih unread (pos + nameBytes.length + 1) rest (by omega))
      have position : pos + nameBytes.length + 1 + valueBytes.length =
          pos + (nameBytes ++ Ascii.equals :: valueBytes).length := by
        simp only [List.length_append, List.length_cons]
        omega
      rw [List.append_assoc, List.cons_append, parsed, position]
  | @lastResult bytes name value result ih =>
      intro unread loopBound out pos rest bound loopAllows
      obtain ⟨first, tail, bytesEq, _⟩ := result.exists_first_result
      obtain ⟨spare, rfl⟩ : ∃ spare, loopBound = spare + 1 :=
        ⟨loopBound - 1, by rw [bytesEq, List.length_cons] at loopAllows; omega⟩
      exact ⟨parseTupleLoop_last (ih unread pos _ bound),
        parseResultsLoop_last (ih unread pos _ bound)⟩
  | @moreResults bytes moreBytes name value entries result more ihFirst ihMore =>
      intro unread loopBound out pos rest bound loopAllows
      simp only [List.length_append, List.length_cons] at bound loopAllows
      obtain ⟨spare, rfl⟩ : ∃ spare, loopBound = spare + 1 := ⟨loopBound - 1, by omega⟩
      have loops := ihMore unread spare (out ++ [(name, value)]) (pos + bytes.length + 1) rest
        (by omega) (by omega)
      have position := position_after_comma pos bytes moreBytes
      have firstRead (tail : List UInt8) := ihFirst unread pos
        (Ascii.comma :: (moreBytes ++ tail)) (by omega)
      simp only [List.append_assoc, List.cons_append]
      constructor
      · rw [parseTupleLoop_more (firstRead _), loops.1, position]
        simp
      · rw [parseResultsLoop_more (firstRead _) (looksLikeResult_of_results more _ _), loops.2,
          position]
        simp
  | @lastValue bytes value single ih =>
      intro unread loopBound out pos rest bound loopAllows
      obtain ⟨first, tail, bytesEq, _⟩ := single.exists_first_value
      obtain ⟨spare, rfl⟩ : ∃ spare, loopBound = spare + 1 :=
        ⟨loopBound - 1, by rw [bytesEq, List.length_cons] at loopAllows; omega⟩
      exact parseValuesLoop_last (ih unread pos _ bound)
  | @moreValues bytes moreBytes value items single more ihFirst ihMore =>
      intro unread loopBound out pos rest bound loopAllows
      simp only [List.length_append, List.length_cons] at bound loopAllows
      obtain ⟨spare, rfl⟩ : ∃ spare, loopBound = spare + 1 := ⟨loopBound - 1, by omega⟩
      have loop := ihMore unread spare (out ++ [value]) (pos + bytes.length + 1) rest
        (by omega) (by omega)
      have position := position_after_comma pos bytes moreBytes
      have firstRead := ihFirst unread pos
        (Ascii.comma :: (moreBytes ++ Ascii.closeBracket :: rest)) (by omega)
      rw [List.append_assoc, List.cons_append, parseValuesLoop_more firstRead
        (not_looksLikeResult_of_values more _ _), loop, position]
      simp

/-- Every spelling of a result is read whole, whatever follows it. -/
theorem parseResult_derived {bytes : List UInt8} {name : String} {value : Value}
    (derived : Derives (.result name value) bytes) (pos : Nat) (rest : List UInt8) :
    parseResult parseValue ⟨pos, bytes ++ rest⟩ =
      .ok ((name, value), ⟨pos + bytes.length, rest⟩) := by
  cases derived with
  | @result nameBytes valueBytes _ _ isName valueDerived =>
      have valueRead := valueDerived.readsBack (valueBytes ++ rest).length
        (pos + nameBytes.length + 1) rest (by simp)
      have position : pos + nameBytes.length + 1 + valueBytes.length =
          pos + (nameBytes ++ Ascii.equals :: valueBytes).length := by
        simp only [List.length_append, List.length_cons]
        omega
      rw [position] at valueRead
      rw [List.append_assoc, List.cons_append]
      exact parseResult_append isName valueRead

end Framewalk.OutputGrammar
