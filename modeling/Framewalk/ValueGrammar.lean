import Framewalk.CStringGrammar

/-!
# The value parser reads exactly the value grammar

The soundness lemmas are stated for any sound parser of nested values, so that
each loop is an induction on its own bound and the values an induction on
nesting.  Completeness is one induction on the derivation, whose motive says
for each syntactic category what the functions reading it return.
-/

namespace Framewalk.OutputGrammar

open Utf8Text

theorem alphabet_spec {character : Char} (member : character ∈ identifierAlphabet) :
    character.toNat < 128 ∧ isIdentifierByte (asciiByte character) = true ∧
      Char.ofUInt8 (asciiByte character) = character := by
  have every : identifierAlphabet.all (fun character => decide (character.toNat < 128) &&
      (isIdentifierByte (asciiByte character) &&
        Char.ofUInt8 (asciiByte character) == character)) = true := by
    decide +kernel
  have listed := List.all_eq_true.mp every character member
  simpa only [Bool.and_eq_true, decide_eq_true_eq, beq_iff_eq] using listed

theorem alphabet_of_isIdentifierByte {byte : UInt8} (accepted : isIdentifierByte byte = true) :
    Char.ofUInt8 byte ∈ identifierAlphabet ∧ asciiByte (Char.ofUInt8 byte) = byte := by
  have every : ∀ byte : UInt8, isIdentifierByte byte = true →
      Char.ofUInt8 byte ∈ identifierAlphabet ∧ asciiByte (Char.ofUInt8 byte) = byte := by
    apply forall_byte
    decide +kernel
  exact every byte accepted

theorem flatMap_utf8EncodeChar_alphabet {characters : List Char}
    (alphabet : ∀ character ∈ characters, character ∈ identifierAlphabet) :
    characters.flatMap String.utf8EncodeChar = characters.map asciiByte :=
  flatMap_utf8EncodeChar_of_ascii fun character member =>
    (alphabet_spec (alphabet character member)).1

/-- The bytes of a name are accepted one by one and push its characters. -/
theorem IsName.bytes_spec {bytes : List UInt8} {name : String} (isName : IsName bytes name) :
    bytes ≠ [] ∧ (∀ byte ∈ bytes, isIdentifierByte byte = true) ∧ Ascii.toText bytes = name := by
  obtain ⟨rfl, nonempty, alphabet⟩ := isName
  refine ⟨by simpa using nonempty, ?_, ?_⟩
  · rw [asBytes_eq_flatMap, flatMap_utf8EncodeChar_alphabet alphabet]
    intro byte member
    obtain ⟨character, listed, rfl⟩ := List.mem_map.mp member
    exact (alphabet_spec (alphabet character listed)).2.1
  · rw [asBytes_eq_flatMap, flatMap_utf8EncodeChar_alphabet alphabet, Ascii.toText, List.map_map]
    have restored : name.toList.map (Char.ofUInt8 ∘ asciiByte) = name.toList :=
      List.map_congr_left (fun character member => (alphabet_spec (alphabet character member)).2.2)
        |>.trans (List.map_id _)
    rw [restored, String.ofList_toList]

theorem isName_toText {bytes : List UInt8} (nonempty : bytes ≠ [])
    (accepted : ∀ byte ∈ bytes, isIdentifierByte byte = true) :
    IsName bytes (Ascii.toText bytes) := by
  have alphabet : ∀ character ∈ bytes.map Char.ofUInt8, character ∈ identifierAlphabet := by
    intro character member
    obtain ⟨byte, listed, rfl⟩ := List.mem_map.mp member
    exact (alphabet_of_isIdentifierByte (accepted byte listed)).1
  refine ⟨?_, ?_, ?_⟩
  · rw [Ascii.toText, asBytes_ofList, flatMap_utf8EncodeChar_alphabet alphabet, List.map_map]
    exact ((List.map_congr_left fun byte member =>
      (alphabet_of_isIdentifierByte (accepted byte member)).2).trans (List.map_id _)).symm
  · intro empty
    apply nonempty
    have noCharacters := congrArg String.toList empty
    rw [Ascii.toText, String.toList_ofList] at noCharacters
    simpa using noCharacters
  · rw [Ascii.toText, String.toList_ofList]
    exact alphabet

theorem parseName_append {bytes rest : List UInt8} {name : String} (isName : IsName bytes name)
    (stops : ∀ byte ∈ rest.head?, isIdentifierByte byte = false) (pos : Nat) :
    parseName isIdentifierByte ⟨pos, bytes ++ rest⟩ =
      .ok (name, ⟨pos + bytes.length, rest⟩) := by
  obtain ⟨nonempty, accepted, rfl⟩ := isName.bytes_spec
  simp only [parseName, Cursor.takeRun_append pos accepted stops, if_neg nonempty]

theorem exists_of_parseName {cursor next : Cursor} {name : String}
    (parsed : parseName isIdentifierByte cursor = .ok (name, next)) :
    ∃ bytes, cursor.rest = bytes ++ next.rest ∧ IsName bytes name := by
  simp only [parseName] at parsed
  split_ifs at parsed with empty
  cases parsed
  exact ⟨_, Cursor.rest_eq_of_takeRun isIdentifierByte cursor,
    isName_toText empty (fun byte member => List.mem_takeWhile_imp member)⟩

/-- A value parser that only returns derivable readings of what it consumes. -/
def SoundParser (parser : Parser Value) : Prop :=
  ∀ {cursor value next}, parser cursor = .ok (value, next) →
    ∃ bytes, cursor.rest = bytes ++ next.rest ∧ Derives (.value value) bytes

theorem rest_eq_of_expectEquals {cursor next : Cursor}
    (consumed : expectEquals cursor = .ok next) :
    cursor.rest = Ascii.equals :: next.rest := by
  unfold expectEquals at consumed
  split at consumed
  · next after expected =>
      cases consumed
      exact Cursor.rest_eq_of_expectByte expected
  · cases consumed
  · cases consumed

section Sound

variable {parser : Parser Value}

theorem exists_of_parseResult (sound : SoundParser parser) {cursor next : Cursor}
    {name : String} {value : Value}
    (parsed : parseResult parser cursor = .ok ((name, value), next)) :
    ∃ bytes, cursor.rest = bytes ++ next.rest ∧ Derives (.result name value) bytes := by
  obtain ⟨⟨text, afterName⟩, nameParsed, parsed⟩ := exists_of_bind_eq_ok parsed
  obtain ⟨afterEquals, equalsRead, parsed⟩ := exists_of_bind_eq_ok parsed
  obtain ⟨⟨inner, afterValue⟩, valueParsed, parsed⟩ := exists_of_bind_eq_ok parsed
  cases parsed
  obtain ⟨nameBytes, nameEq, isName⟩ := exists_of_parseName nameParsed
  obtain ⟨valueBytes, valueEq, derived⟩ := sound valueParsed
  refine ⟨nameBytes ++ Ascii.equals :: valueBytes, ?_, .result isName derived⟩
  rw [nameEq, rest_eq_of_expectEquals equalsRead, valueEq]
  simp

theorem exists_of_parseTupleLoop (sound : SoundParser parser) {unread : Nat}
    {cursor next : Cursor} {out result : List (String × Value)}
    (parsed : parseTupleLoop parser unread out cursor = .ok (result, next)) :
    ∃ bytes entries, cursor.rest = bytes ++ Ascii.closeBrace :: next.rest ∧
      result = out ++ entries ∧ Derives (.results entries) bytes := by
  induction unread generalizing cursor out with
  | zero =>
      unfold parseTupleLoop at parsed
      cases parsed
  | succ unread ih =>
      unfold parseTupleLoop at parsed
      obtain ⟨⟨⟨name, value⟩, afterEntry⟩, entryParsed, parsed⟩ := exists_of_bind_eq_ok parsed
      obtain ⟨entryBytes, entryEq, derived⟩ := exists_of_parseResult sound entryParsed
      dsimp only at parsed
      split at parsed
      · next found peeked =>
          split_ifs at parsed with isComma isClose
          · obtain ⟨bytes, entries, restEq, resultEq, more⟩ := ih parsed
            refine ⟨entryBytes ++ Ascii.comma :: bytes, (name, value) :: entries, ?_, ?_,
              .moreResults derived more⟩
            · rw [entryEq, Cursor.rest_eq_of_peek peeked, isComma, restEq]
              simp
            · rw [resultEq]
              simp
          · cases parsed
            refine ⟨entryBytes, [(name, value)], ?_, rfl, .lastResult derived⟩
            rw [entryEq, Cursor.rest_eq_of_peek peeked, isClose]
      · cases parsed

theorem exists_of_parseTuple (sound : SoundParser parser) {cursor next : Cursor}
    {entries : List (String × Value)} (parsed : parseTuple parser cursor = .ok (entries, next)) :
    ∃ bytes, cursor.rest = bytes ++ next.rest ∧ Derives (.value (.tuple entries)) bytes := by
  obtain ⟨opened, openRead, parsed⟩ := exists_of_bind_eq_ok parsed
  have openEq := Cursor.rest_eq_of_expectByte openRead
  split_ifs at parsed with closes
  · cases parsed
    refine ⟨_, ?_, .emptyTuple⟩
    rw [openEq, Cursor.rest_eq_of_peek closes]
    rfl
  · obtain ⟨bytes, found, restEq, rfl, derived⟩ := exists_of_parseTupleLoop sound parsed
    refine ⟨_, ?_, .tuple derived⟩
    rw [openEq, restEq]
    simp

theorem exists_of_parseResultsLoop (sound : SoundParser parser) {unread : Nat}
    {cursor next : Cursor} {out result : List (String × Value)}
    (parsed : parseResultsLoop parser unread out cursor = .ok (result, next)) :
    ∃ bytes entries, cursor.rest = bytes ++ Ascii.closeBracket :: next.rest ∧
      result = out ++ entries ∧ Derives (.results entries) bytes := by
  induction unread generalizing cursor out with
  | zero =>
      unfold parseResultsLoop at parsed
      cases parsed
  | succ unread ih =>
      unfold parseResultsLoop at parsed
      obtain ⟨⟨⟨name, value⟩, afterEntry⟩, entryParsed, parsed⟩ := exists_of_bind_eq_ok parsed
      obtain ⟨entryBytes, entryEq, derived⟩ := exists_of_parseResult sound entryParsed
      dsimp only at parsed
      split at parsed
      · next found peeked =>
          split_ifs at parsed with isComma looksResult isClose
          · obtain ⟨bytes, entries, restEq, resultEq, more⟩ := ih parsed
            refine ⟨entryBytes ++ Ascii.comma :: bytes, (name, value) :: entries, ?_, ?_,
              .moreResults derived more⟩
            · rw [entryEq, Cursor.rest_eq_of_peek peeked, isComma, restEq]
              simp
            · rw [resultEq]
              simp
          · cases parsed
            refine ⟨entryBytes, [(name, value)], ?_, rfl, .lastResult derived⟩
            rw [entryEq, Cursor.rest_eq_of_peek peeked, isClose]
      · cases parsed

theorem exists_of_parseValuesLoop (sound : SoundParser parser) {unread : Nat}
    {cursor next : Cursor} {out result : List Value}
    (parsed : parseValuesLoop parser unread out cursor = .ok (result, next)) :
    ∃ bytes items, cursor.rest = bytes ++ Ascii.closeBracket :: next.rest ∧
      result = out ++ items ∧ Derives (.values items) bytes := by
  induction unread generalizing cursor out with
  | zero =>
      unfold parseValuesLoop at parsed
      cases parsed
  | succ unread ih =>
      unfold parseValuesLoop at parsed
      obtain ⟨⟨value, afterItem⟩, itemParsed, parsed⟩ := exists_of_bind_eq_ok parsed
      obtain ⟨itemBytes, itemEq, derived⟩ := sound itemParsed
      dsimp only at parsed
      split at parsed
      · next found peeked =>
          split_ifs at parsed with isComma looksResult isClose
          · obtain ⟨bytes, items, restEq, resultEq, more⟩ := ih parsed
            refine ⟨itemBytes ++ Ascii.comma :: bytes, value :: items, ?_, ?_,
              .moreValues derived more⟩
            · rw [itemEq, Cursor.rest_eq_of_peek peeked, isComma, restEq]
              simp
            · rw [resultEq]
              simp
          · cases parsed
            refine ⟨itemBytes, [value], ?_, rfl, .lastValue derived⟩
            rw [itemEq, Cursor.rest_eq_of_peek peeked, isClose]
      · cases parsed

theorem exists_of_parseList (sound : SoundParser parser) {cursor next : Cursor}
    {items : ListValue} (parsed : parseList parser cursor = .ok (items, next)) :
    ∃ bytes, cursor.rest = bytes ++ next.rest ∧ Derives (.value (.list items)) bytes := by
  obtain ⟨opened, openRead, parsed⟩ := exists_of_bind_eq_ok parsed
  have openEq := Cursor.rest_eq_of_expectByte openRead
  split_ifs at parsed with closes looksResult
  · cases parsed
    refine ⟨_, ?_, .emptyList⟩
    rw [openEq, Cursor.rest_eq_of_peek closes]
    rfl
  · obtain ⟨⟨entries, afterLoop⟩, loop, parsed⟩ := exists_of_bind_eq_ok parsed
    cases parsed
    obtain ⟨bytes, found, restEq, rfl, derived⟩ := exists_of_parseResultsLoop sound loop
    refine ⟨_, ?_, .resultList derived⟩
    rw [openEq, restEq]
    simp
  · obtain ⟨⟨values, afterLoop⟩, loop, parsed⟩ := exists_of_bind_eq_ok parsed
    cases parsed
    obtain ⟨bytes, found, restEq, rfl, derived⟩ := exists_of_parseValuesLoop sound loop
    refine ⟨_, ?_, .valueList derived⟩
    rw [openEq, restEq]
    simp

end Sound

theorem parseValueWithin_sound (unread : Nat) : SoundParser (parseValueWithin unread) := by
  induction unread with
  | zero =>
      intro cursor value next parsed
      cases parsed
  | succ unread ih =>
      intro cursor value next parsed
      unfold parseValueWithin at parsed
      split at parsed
      · split_ifs at parsed with isQuote isBrace isBracket
        · obtain ⟨⟨text, afterText⟩, textParsed, parsed⟩ := exists_of_bind_eq_ok parsed
          cases parsed
          obtain ⟨bytes, restEq, isCString⟩ := exists_of_parseCstring textParsed
          exact ⟨bytes, restEq, .const isCString⟩
        · obtain ⟨⟨entries, afterTuple⟩, tupleParsed, parsed⟩ := exists_of_bind_eq_ok parsed
          cases parsed
          exact exists_of_parseTuple ih tupleParsed
        · obtain ⟨⟨items, afterList⟩, listParsed, parsed⟩ := exists_of_bind_eq_ok parsed
          cases parsed
          exact exists_of_parseList ih listParsed
      · cases parsed

theorem parseValue_sound : SoundParser parseValue := by
  intro cursor value next parsed
  exact parseValueWithin_sound cursor.rest.length parsed

end Framewalk.OutputGrammar
