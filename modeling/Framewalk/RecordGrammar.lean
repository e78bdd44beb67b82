import Framewalk.ValueGrammarCompleteness

/-!
# The record parser reads exactly the record grammar

The token accumulates with checked arithmetic: since the running value never
decreases, an overflow at any digit is an overflow of the whole number.  The
remaining parts of a record are delimited by their first bytes, so both
directions go through part by part.
-/

namespace Framewalk.OutputGrammar

open Utf8Text

theorem isDigit_iff (byte : UInt8) : Ascii.isDigit byte = true ↔ IsDecimalDigit byte := by
  simp [Ascii.isDigit, IsDecimalDigit, UInt8.le_iff_toNat_le]

/-- Decimal digits appended to a running value. -/
def decimalFrom (value : Nat) (digits : List UInt8) : Nat :=
  digits.foldl (fun value digit => value * 10 + (digit.toNat - 48)) value

theorem le_decimalFrom (value : Nat) (digits : List UInt8) :
    value ≤ decimalFrom value digits := by
  induction digits generalizing value with
  | nil => exact Nat.le_refl value
  | cons digit digits ih =>
      have step := ih (value * 10 + (digit.toNat - 48))
      simp only [decimalFrom, List.foldl_cons] at step ⊢
      omega

theorem decimalDigit_toNat {byte : UInt8} (decimal : IsDecimalDigit byte) :
    (byte - 48).toNat = byte.toNat - 48 := by
  have low : (48 : UInt8) ≤ byte := by
    rw [UInt8.le_iff_toNat_le]
    exact decimal.1
  rw [UInt8.toNat_sub_of_le _ _ low]
  rfl

/-- One digit of the checked accumulator. -/
theorem tokenDigit_toNat {byte : UInt8} (decimal : IsDecimalDigit byte) {value : UInt64}
    (fits : value.toNat * 10 + (byte - 48).toNat < 2 ^ 64) :
    (value * 10 + (byte - 48).toUInt64).toNat = value.toNat * 10 + (byte.toNat - 48) := by
  rw [decimalDigit_toNat decimal] at fits
  rw [UInt64.toNat_add, UInt64.toNat_mul, UInt8.toNat_toUInt64, decimalDigit_toNat decimal]
  change (value.toNat * 10 % 2 ^ 64 + (byte.toNat - 48)) % 2 ^ 64 = _
  omega

theorem parseTokenLoop_append {digits rest : List UInt8} (start pos : Nat) (value : UInt64)
    (any : Bool) (decimal : ∀ byte ∈ digits, IsDecimalDigit byte)
    (stops : ∀ byte ∈ rest.head?, ¬ IsDecimalDigit byte)
    (fits : decimalFrom value.toNat digits < 2 ^ 64) :
    parseTokenLoop start (digits ++ rest) pos value any =
      .ok (if any || !digits.isEmpty then some (UInt64.ofNat (decimalFrom value.toNat digits))
        else none, ⟨pos + digits.length, rest⟩) := by
  induction digits generalizing pos value any with
  | nil =>
      have same : UInt64.ofNat (decimalFrom value.toNat []) = value := UInt64.ofNat_toNat
      rw [same]
      cases rest with
      | nil => simp [parseTokenLoop]
      | cons byte rest =>
          have notDigit : Ascii.isDigit byte = false := by
            rw [Bool.eq_false_iff, Ne, isDigit_iff]
            exact stops byte rfl
          simp [parseTokenLoop, notDigit]
  | cons byte digits ih =>
      have digit := decimal byte (by simp)
      have running : value.toNat * 10 + (byte.toNat - 48) < 2 ^ 64 :=
        Nat.lt_of_le_of_lt (le_decimalFrom _ digits) fits
      have checked : value.toNat * 10 + (byte - 48).toNat < 2 ^ 64 := by
        rwa [decimalDigit_toNat digit]
      have accumulated := tokenDigit_toNat digit checked
      have step := ih (pos + 1) (value * 10 + (byte - 48).toUInt64) true
        (fun other member => decimal other (by simp [member]))
        (by rw [accumulated]; exact fits)
      rw [List.cons_append, parseTokenLoop, if_pos ((isDigit_iff byte).mpr digit), if_pos checked,
        step, accumulated, List.length_cons, Nat.add_assoc, Nat.add_comm 1]
      simp [decimalFrom]

theorem exists_of_parseTokenLoop {start pos : Nat} {rest : List UInt8} {value : UInt64}
    {any : Bool} {token : Option Token} {next : Cursor}
    (parsed : parseTokenLoop start rest pos value any = .ok (token, next)) :
    ∃ digits, rest = digits ++ next.rest ∧ (∀ byte ∈ digits, IsDecimalDigit byte) ∧
      ((any = false ∧ digits = [] ∧ token = none) ∨
        ∃ found, token = some found ∧ found.toNat = decimalFrom value.toNat digits ∧
          (any = true ∨ digits ≠ [])) := by
  induction rest generalizing pos value any with
  | nil =>
      cases parsed
      cases any with
      | false => exact ⟨[], rfl, by simp, .inl ⟨rfl, rfl, rfl⟩⟩
      | true => exact ⟨[], rfl, by simp, .inr ⟨value, rfl, rfl, .inl rfl⟩⟩
  | cons byte rest ih =>
      unfold parseTokenLoop at parsed
      split_ifs at parsed with isDigit fits anyDigit
      · have digit := (isDigit_iff byte).mp isDigit
        obtain ⟨digits, restEq, decimal, outcome⟩ := ih parsed
        refine ⟨byte :: digits, by rw [restEq, List.cons_append], ?_, .inr ?_⟩
        · simpa [digit] using decimal
        · rcases outcome with ⟨impossible, _⟩ | ⟨found, tokenEq, foundEq, _⟩
          · cases impossible
          · rw [tokenDigit_toNat digit fits] at foundEq
            exact ⟨found, tokenEq, foundEq, .inr (List.cons_ne_nil _ _)⟩
      · cases parsed
        exact ⟨[], rfl, by simp, .inr ⟨value, rfl, rfl, .inl anyDigit⟩⟩
      · cases parsed
        exact ⟨[], rfl, by simp, .inl ⟨by simpa using anyDigit, rfl, rfl⟩⟩

theorem parseOptionalToken_append {bytes rest : List UInt8} {token : Option Token}
    (isToken : IsToken bytes token) (stops : ∀ byte ∈ rest.head?, ¬ IsDecimalDigit byte) :
    parseOptionalToken (.new (bytes ++ rest)) = .ok (token, ⟨bytes.length, rest⟩) := by
  cases isToken with
  | absent =>
      have loop := @parseTokenLoop_append [] rest 0 0 0 false (by simp) stops
        (by simp [decimalFrom])
      simpa [parseOptionalToken, Cursor.new] using loop
  | digits _ token nonempty decimal valueEq =>
      have fits : decimalFrom (0 : UInt64).toNat bytes < 2 ^ 64 := by
        change decimalValue bytes < 2 ^ 64
        rw [valueEq]
        exact token.toNat_lt
      have loop := parseTokenLoop_append 0 0 0 false decimal stops fits
      have value : UInt64.ofNat (decimalFrom (0 : UInt64).toNat bytes) = token := by
        change UInt64.ofNat (decimalValue bytes) = token
        rw [valueEq, UInt64.ofNat_toNat]
      have some : (false || !bytes.isEmpty) = true := by simpa using nonempty
      rw [value, if_pos some, Nat.zero_add] at loop
      exact loop

theorem exists_of_parseOptionalToken {line : List UInt8} {token : Option Token} {next : Cursor}
    (parsed : parseOptionalToken (.new line) = .ok (token, next)) :
    ∃ bytes, line = bytes ++ next.rest ∧ IsToken bytes token := by
  obtain ⟨digits, lineEq, decimal, outcome⟩ := exists_of_parseTokenLoop parsed
  refine ⟨digits, lineEq, ?_⟩
  rcases outcome with ⟨_, rfl, rfl⟩ | ⟨found, rfl, foundEq, anyDigits⟩
  · exact .absent
  · exact .digits digits found (anyDigits.resolve_left (by simp)) decimal foundEq.symm

theorem IsTrailing.head_eq_comma {bytes : List UInt8} {entries : List (String × Value)}
    (trailing : IsTrailing bytes entries) : ∀ byte ∈ bytes.head?, byte = Ascii.comma := by
  cases trailing with
  | nil => simp
  | cons _ _ => simp

theorem parseTrailingResultsLoop_append {bytes : List UInt8} {entries : List (String × Value)}
    (trailing : IsTrailing bytes entries) :
    ∀ (unread : Nat) (out : List (String × Value)) (pos : Nat), bytes.length ≤ unread →
      parseTrailingResultsLoop unread out ⟨pos, bytes⟩ =
        .ok (out ++ entries, ⟨pos + bytes.length, []⟩) := by
  induction trailing with
  | nil =>
      intro unread out pos _
      rw [List.append_nil]
      cases unread <;> rfl
  | @cons bytes moreBytes name value entries result more ih =>
      intro unread out pos bound
      simp only [List.length_cons, List.length_append] at bound
      obtain ⟨spare, rfl⟩ : ∃ spare, unread = spare + 1 := ⟨unread - 1, by omega⟩
      have position : pos + 1 + bytes.length + moreBytes.length =
          pos + (Ascii.comma :: (bytes ++ moreBytes)).length := by
        simp only [List.length_cons, List.length_append]
        omega
      rw [parseTrailingResultsLoop]
      simp only [Cursor.peek_cons, if_true, Cursor.advance_cons, parseResult_derived result,
        bind, Except.bind]
      rw [ih spare _ _ (by omega), position]
      simp

theorem exists_of_parseTrailingResultsLoop {unread : Nat} {out result : List (String × Value)}
    {cursor next : Cursor}
    (parsed : parseTrailingResultsLoop unread out cursor = .ok (result, next)) :
    ∃ entries, IsTrailing cursor.rest entries ∧ result = out ++ entries ∧ next.rest = [] := by
  induction unread generalizing out cursor with
  | zero =>
      unfold parseTrailingResultsLoop at parsed
      split at parsed
      · next atEnd =>
          cases parsed
          have rest := List.head?_eq_none_iff.mp atEnd
          exact ⟨[], by rw [rest]; exact .nil, by simp, rest⟩
      · split_ifs at parsed
  | succ unread ih =>
      unfold parseTrailingResultsLoop at parsed
      split at parsed
      · next atEnd =>
          cases parsed
          have rest := List.head?_eq_none_iff.mp atEnd
          exact ⟨[], by rw [rest]; exact .nil, by simp, rest⟩
      · next found peeked =>
          split_ifs at parsed with isComma
          obtain ⟨⟨⟨name, value⟩, afterEntry⟩, entryParsed, parsed⟩ := exists_of_bind_eq_ok parsed
          obtain ⟨bytes, bytesEq, derived⟩ := exists_of_parseResult parseValue_sound entryParsed
          obtain ⟨entries, trailing, resultEq, restEq⟩ := ih parsed
          refine ⟨(name, value) :: entries, ?_, by rw [resultEq]; simp, restEq⟩
          rw [Cursor.rest_eq_of_peek peeked, isComma, bytesEq]
          exact .cons derived trailing

theorem resultClasses_spec {spelling : String} {resultClass : ResultClass}
    (listed : (spelling, resultClass) ∈ resultClasses) :
    asBytes spelling ≠ [] ∧ (∀ byte ∈ asBytes spelling, Ascii.isLowercase byte = true) ∧
      ResultClass.fromBytes (asBytes spelling) = some resultClass := by
  have every : resultClasses.all (fun entry => decide (asBytes entry.1 ≠ []) &&
      ((asBytes entry.1).all Ascii.isLowercase &&
        decide (ResultClass.fromBytes (asBytes entry.1) = some entry.2))) = true := by
    decide
  have entry := List.all_eq_true.mp every (spelling, resultClass) listed
  simpa only [Bool.and_eq_true, decide_eq_true_eq, List.all_eq_true] using entry

theorem exists_of_fromBytes {bytes : List UInt8} {resultClass : ResultClass}
    (parsed : ResultClass.fromBytes bytes = some resultClass) :
    ∃ spelling, (spelling, resultClass) ∈ resultClasses ∧ bytes = asBytes spelling := by
  rw [ResultClass.fromBytes_eq_some_iff.mp parsed]
  cases resultClass
  · exact ⟨"done", by simp [resultClasses], rfl⟩
  · exact ⟨"running", by simp [resultClasses], rfl⟩
  · exact ⟨"connected", by simp [resultClasses], rfl⟩
  · exact ⟨"error", by simp [resultClasses], rfl⟩
  · exact ⟨"exit", by simp [resultClasses], rfl⟩

theorem parseResultRecord_append {spelling : String} {resultClass : ResultClass}
    {trailing : List UInt8} {results : List (String × Value)} (token : Option Token)
    (listed : (spelling, resultClass) ∈ resultClasses) (isTrailing : IsTrailing trailing results)
    (pos : Nat) :
    ∃ next, parseResultRecord token ⟨pos, asBytes spelling ++ trailing⟩ =
      .ok (⟨token, resultClass, results⟩, next) ∧ next.rest = [] := by
  obtain ⟨nonempty, lowercase, fromBytes⟩ := resultClasses_spec listed
  have stops : ∀ byte ∈ trailing.head?, Ascii.isLowercase byte = false := by
    intro byte first
    rw [isTrailing.head_eq_comma byte first]
    decide
  have results := parseTrailingResultsLoop_append isTrailing trailing.length []
    (pos + (asBytes spelling).length) (Nat.le_refl _)
  refine ⟨⟨pos + (asBytes spelling).length + trailing.length, []⟩, ?_, rfl⟩
  simp only [parseResultRecord, parseResultClass, Cursor.takeRun_append pos lowercase stops,
    if_neg nonempty, fromBytes, parseTrailingResults, results, bind, Except.bind, List.nil_append]

theorem exists_of_parseResultRecord {token : Option Token} {record : ResultRecord}
    {cursor next : Cursor}
    (parsed : parseResultRecord token cursor = .ok (record, next)) :
    ∃ spelling trailing, (spelling, record.resultClass) ∈ resultClasses ∧
      cursor.rest = asBytes spelling ++ trailing ∧ IsTrailing trailing record.results ∧
      record.token = token ∧ next.rest = [] := by
  obtain ⟨⟨resultClass, afterClass⟩, classParsed, parsed⟩ := exists_of_bind_eq_ok parsed
  obtain ⟨⟨results, afterResults⟩, resultsParsed, parsed⟩ := exists_of_bind_eq_ok parsed
  cases parsed
  simp only [parseResultClass] at classParsed
  split_ifs at classParsed
  split at classParsed
  · next found fromBytes =>
      cases classParsed
      obtain ⟨spelling, listed, bytesEq⟩ := exists_of_fromBytes fromBytes
      obtain ⟨entries, trailing, rfl, ended⟩ := exists_of_parseTrailingResultsLoop resultsParsed
      refine ⟨spelling, _, listed, ?_, trailing, rfl, ended⟩
      rw [← bytesEq]
      exact Cursor.rest_eq_of_takeRun Ascii.isLowercase cursor
  · cases classParsed

/-- Class bytes and identifier bytes are the same alphabet. -/
theorem parseAsyncClass_eq : parseAsyncClass = parseName isIdentifierByte := by
  have same : isAsyncClassByte = isIdentifierByte := by
    funext byte
    rw [isAsyncClassByte, isIdentifierByte, Bool.or_right_comm]
  rw [parseAsyncClass, same]

theorem parseAsyncRecord_append {classBytes trailing : List UInt8} {asyncClass : String}
    {results : List (String × Value)} (token : Option Token)
    (isName : IsName classBytes asyncClass) (isTrailing : IsTrailing trailing results)
    (pos : Nat) :
    ∃ next, parseAsyncRecord token ⟨pos, classBytes ++ trailing⟩ =
      .ok (⟨token, asyncClass, results⟩, next) ∧ next.rest = [] := by
  have stops : ∀ byte ∈ trailing.head?, isIdentifierByte byte = false := by
    intro byte first
    rw [isTrailing.head_eq_comma byte first]
    decide
  have results := parseTrailingResultsLoop_append isTrailing trailing.length []
    (pos + classBytes.length) (Nat.le_refl _)
  refine ⟨⟨pos + classBytes.length + trailing.length, []⟩, ?_, rfl⟩
  simp only [parseAsyncRecord, parseAsyncClass_eq, parseName_append isName stops pos,
    parseTrailingResults, results, bind, Except.bind, List.nil_append]

theorem exists_of_parseAsyncRecord {token : Option Token} {record : AsyncRecord}
    {cursor next : Cursor} (parsed : parseAsyncRecord token cursor = .ok (record, next)) :
    ∃ classBytes trailing, IsName classBytes record.asyncClass ∧
      cursor.rest = classBytes ++ trailing ∧ IsTrailing trailing record.results ∧
      record.token = token ∧ next.rest = [] := by
  obtain ⟨⟨asyncClass, afterClass⟩, classParsed, parsed⟩ := exists_of_bind_eq_ok parsed
  obtain ⟨⟨results, afterResults⟩, resultsParsed, parsed⟩ := exists_of_bind_eq_ok parsed
  cases parsed
  rw [parseAsyncClass_eq] at classParsed
  obtain ⟨classBytes, classEq, isName⟩ := exists_of_parseName classParsed
  obtain ⟨entries, trailing, rfl, ended⟩ := exists_of_parseTrailingResultsLoop resultsParsed
  exact ⟨classBytes, _, isName, classEq, trailing, rfl, ended⟩

/-- The end of a line parse: the body is accepted exactly when it leaves
nothing behind. -/
theorem parseRecord_of_body {tokenBytes rest : List UInt8} {token : Option Token}
    {record : Record} {next : Cursor} (isToken : IsToken tokenBytes token)
    (stops : ∀ byte ∈ rest.head?, ¬ IsDecimalDigit byte)
    (body : parseRecordBody token ⟨tokenBytes.length, rest⟩ = .ok (record, next))
    (atEnd : next.rest = []) :
    parseRecord (tokenBytes ++ rest) = .ok record := by
  have ended : next.atEnd = true := by simp [Cursor.atEnd, atEnd]
  simp only [parseRecord, parseOptionalToken_append isToken stops, body, bind, Except.bind,
    ended, if_true]

theorem parseRecordBody_async {kind : Char} {build : AsyncRecord → Record}
    {token : Option Token} {record : AsyncRecord} {pos : Nat} {rest : List UInt8} {next : Cursor}
    (listed : (kind, build) ∈ asyncKinds)
    (parsed : parseAsyncRecord token ⟨pos + 1, rest⟩ = .ok (record, next)) :
    parseRecordBody token ⟨pos, asciiByte kind :: rest⟩ = .ok (build record, next) := by
  simp only [asyncKinds, List.mem_cons, Prod.mk.injEq, List.not_mem_nil, or_false] at listed
  rcases listed with ⟨rfl, rfl⟩ | ⟨rfl, rfl⟩ | ⟨rfl, rfl⟩ <;>
    simp [parseRecordBody, asciiByte, parsed, Ascii.caret, Ascii.star, Ascii.plus, Ascii.equals,
      bind, Except.bind]

theorem parseRecordBody_stream {kind : Char} {build : StreamRecord → Record}
    {record : StreamRecord} {pos : Nat} {rest : List UInt8} {next : Cursor}
    (listed : (kind, build) ∈ streamKinds)
    (parsed : parseStreamRecord ⟨pos + 1, rest⟩ = .ok (record, next)) :
    parseRecordBody none ⟨pos, asciiByte kind :: rest⟩ = .ok (build record, next) := by
  simp only [streamKinds, List.mem_cons, Prod.mk.injEq, List.not_mem_nil, or_false] at listed
  rcases listed with ⟨rfl, rfl⟩ | ⟨rfl, rfl⟩ | ⟨rfl, rfl⟩ <;>
    simp [parseRecordBody, asciiByte, parsed, Ascii.caret, Ascii.star, Ascii.plus, Ascii.equals,
      Ascii.tilde, Ascii.atSign, bind, Except.bind]

/-- No record prefix is a digit, so the token ends where the grammar says. -/
theorem prefix_not_decimal (kind : Char)
    (listed : kind ∈ '^' :: asyncKinds.map Prod.fst ++ streamKinds.map Prod.fst) :
    ¬ IsDecimalDigit (asciiByte kind) := by
  simp only [asyncKinds, streamKinds, List.map_cons, List.map_nil, List.cons_append,
    List.nil_append, List.mem_cons, List.not_mem_nil, or_false] at listed
  rcases listed with rfl | rfl | rfl | rfl | rfl | rfl | rfl <;>
    simp [IsDecimalDigit, asciiByte]

theorem parseRecord_of_isRecord {line : List UInt8} {record : Record}
    (isRecord : IsRecord line record) : parseRecord line = .ok record := by
  cases isRecord with
  | @result tokenBytes trailing token results spelling resultClass listed isToken isTrailing =>
      obtain ⟨next, parsed, atEnd⟩ := parseResultRecord_append token listed isTrailing
        (tokenBytes.length + 1)
      refine @parseRecord_of_body _ _ _ _ next isToken ?_ ?_ atEnd
      · rintro byte ⟨⟩
        exact prefix_not_decimal '^' (by simp)
      · simp [parseRecordBody, parsed, bind, Except.bind]
  | @async tokenBytes classBytes trailing token asyncClass results kind build listed isToken
      isName isTrailing =>
      obtain ⟨next, parsed, atEnd⟩ := parseAsyncRecord_append token isName isTrailing
        (tokenBytes.length + 1)
      refine parseRecord_of_body isToken ?_ (parseRecordBody_async listed parsed) atEnd
      rintro byte ⟨⟩
      have member : kind ∈ asyncKinds.map Prod.fst := List.mem_map.mpr ⟨_, listed, rfl⟩
      exact prefix_not_decimal kind (by simp [member])
  | @stream bytes text kind build listed isCString =>
      have literal := parseCstring_append isCString 1 []
      rw [List.append_nil] at literal
      have parsed : parseStreamRecord ⟨([] : List UInt8).length + 1, bytes⟩ =
          .ok (⟨text⟩, ⟨1 + bytes.length, []⟩) := by
        simp [parseStreamRecord, literal, bind, Except.bind]
      refine parseRecord_of_body .absent ?_ (parseRecordBody_stream listed parsed) rfl
      rintro byte ⟨⟩
      have member : kind ∈ streamKinds.map Prod.fst := List.mem_map.mpr ⟨_, listed, rfl⟩
      exact prefix_not_decimal kind (by simp [member])

theorem exists_of_parseRecordBody_async (kind : Char) {build : AsyncRecord → Record}
    {tokenBytes rest : List UInt8} {token : Option Token} {record : Record} {pos : Nat}
    {next : Cursor} (listed : (kind, build) ∈ asyncKinds) (isToken : IsToken tokenBytes token)
    (parsed : (parseAsyncRecord token ⟨pos, rest⟩ >>= fun read =>
      Except.ok (build read.1, read.2)) = .ok (record, next)) :
    IsRecord (tokenBytes ++ asciiByte kind :: rest) record ∧ next.rest = [] := by
  obtain ⟨⟨async, afterAsync⟩, asyncParsed, parsed⟩ := exists_of_bind_eq_ok parsed
  cases parsed
  obtain ⟨classBytes, trailing, isName, restEq, isTrailing, rfl, ended⟩ :=
    exists_of_parseAsyncRecord asyncParsed
  obtain rfl : rest = classBytes ++ trailing := restEq
  exact ⟨.async kind build listed isToken isName isTrailing, ended⟩

theorem exists_of_parseRecordBody_stream (kind : Char) {build : StreamRecord → Record}
    {tokenBytes : List UInt8} {token : Option Token} {record : Record} {cursor next : Cursor}
    (listed : (kind, build) ∈ streamKinds) (isToken : IsToken tokenBytes token)
    (untokened : ¬ token.isSome = true)
    (parsed : (parseStreamRecord cursor >>= fun read =>
      Except.ok (build read.1, read.2)) = .ok (record, next)) :
    ∃ bytes, cursor.rest = bytes ++ next.rest ∧
      IsRecord (tokenBytes ++ asciiByte kind :: bytes) record := by
  obtain ⟨⟨stream, afterStream⟩, streamParsed, parsed⟩ := exists_of_bind_eq_ok parsed
  obtain ⟨⟨text, afterText⟩, textParsed, streamParsed⟩ := exists_of_bind_eq_ok streamParsed
  cases streamParsed
  cases parsed
  obtain ⟨bytes, restEq, isCString⟩ := exists_of_parseCstring textParsed
  cases isToken with
  | digits => simp at untokened
  | absent => exact ⟨bytes, restEq, .stream kind build listed isCString⟩

/-- What the body parser has consumed is a record behind its token; only behind a
stream record may anything be left. -/
theorem exists_of_parseRecordBody {tokenBytes : List UInt8} {token : Option Token}
    {cursor next : Cursor} {record : Record} (isToken : IsToken tokenBytes token)
    (parsed : parseRecordBody token cursor = .ok (record, next)) :
    ∃ bytes, cursor.rest = bytes ++ next.rest ∧ IsRecord (tokenBytes ++ bytes) record := by
  unfold parseRecordBody at parsed
  split at parsed
  · cases parsed
  · next prefixByte peeked =>
      rw [Cursor.rest_eq_of_peek peeked]
      have whole {bytes : List UInt8} (ended : next.rest = []) (isRecord : IsRecord
          (tokenBytes ++ bytes) record) :
          ∃ consumed, bytes = consumed ++ next.rest ∧ IsRecord (tokenBytes ++ consumed) record :=
        ⟨bytes, by rw [ended, List.append_nil], isRecord⟩
      have stream {kind : Char} {build : StreamRecord → Record}
          (listed : (kind, build) ∈ streamKinds) (untokened : ¬ token.isSome = true)
          (parsed : (parseStreamRecord cursor.advance >>= fun read =>
            Except.ok (build read.1, read.2)) = .ok (record, next)) :
          ∃ consumed, asciiByte kind :: cursor.advance.rest = consumed ++ next.rest ∧
            IsRecord (tokenBytes ++ consumed) record := by
        obtain ⟨bytes, restEq, isRecord⟩ :=
          exists_of_parseRecordBody_stream kind listed isToken untokened parsed
        exact ⟨asciiByte kind :: bytes, by rw [restEq, List.cons_append], isRecord⟩
      split_ifs at parsed with isCaret isStar isPlus isEquals isStream hasToken isTilde isAt
      · obtain ⟨⟨result, afterResult⟩, resultParsed, parsed⟩ := exists_of_bind_eq_ok parsed
        cases parsed
        obtain ⟨spelling, trailing, listed, restEq, isTrailing, rfl, ended⟩ :=
          exists_of_parseResultRecord resultParsed
        apply whole ended
        rw [restEq, isCaret]
        exact .result spelling _ listed isToken isTrailing
      · rw [isStar]
        have read := exists_of_parseRecordBody_async '*' (by simp [asyncKinds]) isToken parsed
        exact whole read.2 read.1
      · rw [isPlus]
        have read := exists_of_parseRecordBody_async '+' (by simp [asyncKinds]) isToken parsed
        exact whole read.2 read.1
      · rw [isEquals]
        have read := exists_of_parseRecordBody_async '=' (by simp [asyncKinds]) isToken parsed
        exact whole read.2 read.1
      · rw [isTilde]
        exact @stream '~' _ (by simp [streamKinds]) hasToken parsed
      · rw [isAt]
        exact @stream '@' _ (by simp [streamKinds]) hasToken parsed
      · obtain rfl : prefixByte = Ascii.ampersand := by
          exact (isStream.resolve_left isTilde).resolve_left isAt
        exact @stream '&' _ (by simp [streamKinds]) hasToken parsed

theorem isRecord_of_parseRecord {line : List UInt8} {record : Record}
    (parsed : parseRecord line = .ok record) : IsRecord line record := by
  obtain ⟨⟨token, afterToken⟩, tokenParsed, parsed⟩ := exists_of_bind_eq_ok parsed
  obtain ⟨⟨body, afterBody⟩, bodyParsed, parsed⟩ := exists_of_bind_eq_ok parsed
  dsimp only at parsed
  split_ifs at parsed with atEnd
  cases parsed
  obtain ⟨tokenBytes, lineEq, isToken⟩ := exists_of_parseOptionalToken tokenParsed
  obtain rfl : line = tokenBytes ++ afterToken.rest := lineEq
  obtain ⟨bytes, restEq, isRecord⟩ := exists_of_parseRecordBody isToken bodyParsed
  have ended : afterBody.rest = [] := by simpa [Cursor.atEnd] using atEnd
  rw [ended, List.append_nil] at restEq
  rw [restEq]
  exact isRecord

/-- The parser accepts exactly the MI output grammar and returns its unique
reading; every other line is an error. -/
theorem parseRecord_accepts_exactly_grammar :
    (∀ line record, parseRecord line = .ok record ↔ IsRecord line record) ∧
    (∀ line first second, IsRecord line first → IsRecord line second → first = second) ∧
    (∀ line, (¬ ∃ record, IsRecord line record) → ∃ error, parseRecord line = .error error) := by
  refine ⟨fun line record => ⟨isRecord_of_parseRecord, parseRecord_of_isRecord⟩, ?_, ?_⟩
  · intro line first second firstReading secondReading
    have both := (parseRecord_of_isRecord firstReading).symm.trans
      (parseRecord_of_isRecord secondReading)
    exact Except.ok.inj both
  · intro line unreadable
    cases parsed : parseRecord line with
    | error error => exact ⟨error, rfl⟩
    | ok record => exact absurd ⟨record, isRecord_of_parseRecord parsed⟩ unreadable

end Framewalk.OutputGrammar
