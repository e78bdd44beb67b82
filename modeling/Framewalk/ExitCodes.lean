import Framewalk.CommandTexts
import Framewalk.FramerRuns

/-!
# Exit codes

GDB writes the exit code of the inferior in octal, with a leading zero.  The
accessor reads every number as decimal, so the digits are right and their base
is not: the code survives exactly when it has one octal digit.
-/

namespace Framewalk

open Utf8Text OutputGrammar ResultsView

/-- The C format `0%o`. -/
def octalText (n : Nat) : String :=
  String.ofList ('0' :: Nat.toDigits 8 n)

/-- The octal digits of a number, as bytes. -/
def octalDigits (n : Nat) : List UInt8 :=
  (Nat.toDigits 8 n).map asciiByte

theorem octalDigits_of_lt {n : Nat} (small : n < 8) :
    octalDigits n = [Ascii.zero + UInt8.ofNat n] := by
  rw [octalDigits, Nat.toDigits_of_lt_base small, List.map_singleton,
    asciiByte_digitChar (by omega)]

theorem octalDigits_of_le {n : Nat} (large : 8 ≤ n) :
    octalDigits n = octalDigits (n / 8) ++ [Ascii.zero + UInt8.ofNat (n % 8)] := by
  rw [octalDigits, Nat.toDigits_of_base_le (by omega) large, List.map_append, List.map_singleton,
    asciiByte_digitChar (by omega)]
  rfl

theorem octalDigit_toNat {digit : Nat} (small : digit < 8) :
    (Ascii.zero + UInt8.ofNat digit).toNat = 48 + digit := by
  have zeroCode : Ascii.zero.toNat = 48 := rfl
  rw [UInt8.toNat_add, UInt8.toNat_ofNat', zeroCode]
  omega

theorem octalDigits_decimal (n : Nat) : ∀ byte ∈ octalDigits n, IsDecimalDigit byte :=
  decimal_of_mem_toDigits (by omega) (by omega) n

theorem decimalValue_octalDigits (n : Nat) :
    (n < 8 → decimalValue (octalDigits n) = n) ∧ (8 ≤ n → n < decimalValue (octalDigits n)) := by
  induction n using Nat.strongRecOn with
  | ind n ih =>
      constructor
      · intro small
        rw [octalDigits_of_lt small]
        change 0 * 10 + ((Ascii.zero + UInt8.ofNat n).toNat - 48) = n
        rw [octalDigit_toNat small]
        omega
      · intro large
        have quotient := ih (n / 8) (by omega)
        rw [octalDigits_of_le large, decimalValue_append_singleton,
          octalDigit_toNat (by omega)]
        by_cases small : n / 8 < 8
        · have exact := quotient.1 small
          omega
        · have exceeds := quotient.2 (by omega)
          omega

theorem asBytes_octalText (n : Nat) : asBytes (octalText n) = Ascii.zero :: octalDigits n := by
  rw [octalText, asBytes_ofList, List.flatMap_cons, flatMap_toDigits (by omega) (by omega)]
  rfl

theorem parseDigits_eq_some {digits : List UInt8} (nonempty : digits ≠ [])
    (decimal : ∀ byte ∈ digits, IsDecimalDigit byte) :
    parseDigits digits = some (decimalValue digits) := by
  have allDigits : digits.all Ascii.isDigit = true := by
    rw [List.all_eq_true]
    exact fun byte member => (isDigit_iff byte).mpr (decimal byte member)
  exact if_pos ⟨nonempty, allDigits⟩

theorem parseI32_octalText (n : Nat) :
    parseI32 (octalText n) =
      if decimalValue (octalDigits n) < 2 ^ 31 then
        some (Int32.ofNat (decimalValue (octalDigits n)))
      else none := by
  have decimal : ∀ byte ∈ Ascii.zero :: octalDigits n, IsDecimalDigit byte :=
    List.forall_mem_cons.mpr ⟨by decide, octalDigits_decimal n⟩
  have parsed := parseDigits_eq_some (List.cons_ne_nil _ _) decimal
  have value : decimalValue (Ascii.zero :: octalDigits n) = decimalValue (octalDigits n) := rfl
  rw [value] at parsed
  rw [parseI32, asBytes_octalText]
  change (parseDigits (Ascii.zero :: octalDigits n)).bind _ = _
  rw [parsed]
  rfl

theorem ofNat_ne_of_lt {first second : Nat} (ordered : first < second) (bound : second < 2 ^ 31) :
    Int32.ofNat second ≠ Int32.ofNat first := by
  intro same
  have values := congrArg Int32.toInt same
  rw [Int32.toInt_ofNat_of_lt bound, Int32.toInt_ofNat_of_lt (by omega)] at values
  omega

/-- The accessor returns the number that was written exactly for one octal
digit. -/
theorem parseI32_octalText_iff {n : Nat} (bound : n < 2 ^ 31) :
    parseI32 (octalText n) = some (Int32.ofNat n) ↔ n < 8 := by
  have reading := decimalValue_octalDigits n
  rw [parseI32_octalText]
  constructor
  · intro parsed
    by_contra large
    split_ifs at parsed with fits
    exact ofNat_ne_of_lt (reading.2 (by omega)) fits (Option.some.inj parsed)
  · intro small
    rw [reading.1 small, if_pos bound]

/-- The results of a stop that reports this exit code, among any fields of other
names. -/
structure ReportsExit (results : Results) (n : Nat) : Prop where
  reason : results.filter (·.1 = "reason") = [("reason", .const "exited")]
  exitCode : results.filter (·.1 = "exit-code") = [("exit-code", .const (octalText n))]

theorem getStr_filter (results : Results) (name : String) :
    getStr results name = getStr (results.filter (·.1 = name)) name := by
  induction results with
  | nil => rfl
  | cons entry results ih =>
      simp only [getStr] at ih ⊢
      by_cases named : entry.1 = name
      · rw [List.filter_cons_of_pos (by simpa using named), List.findSome?_cons,
          List.findSome?_cons, ih]
      · rw [List.filter_cons_of_neg (by simpa using named), List.findSome?_cons, ← ih]
        rcases entry with ⟨key, value⟩
        cases value with
        | const text => simp only [if_neg (show key ≠ name from named)]
        | tuple | list => rfl

theorem ReportsExit.fromResults {results : Results} {n : Nat} (reports : ReportsExit results n) :
    StoppedReason.fromResults results = some (.exited (parseI32 (octalText n))) := by
  have reason : getStr results "reason" = some "exited" := by
    rw [getStr_filter, reports.reason]
    rfl
  have exitCode : getI32 results "exit-code" = parseI32 (octalText n) := by
    rw [getI32, getStr_filter, reports.exitCode]
    rfl
  rw [StoppedReason.fromResults, reason]
  simp only [Option.map_some, exitCode]

/-- A record never begins with the parenthesis of a group terminator. -/
theorem not_terminator_of_isRecord {line : List UInt8} {record : Record}
    (isRecord : IsRecord line record) : isGroupTerminator line = false := by
  rw [Bool.eq_false_iff, Ne, isGroupTerminator_iff]
  rintro ⟨blanks, rfl, _⟩
  have parsed := parseRecord_of_isRecord isRecord
  have failed : ∃ error, parseRecord (marker ++ blanks) = .error error := ⟨_, rfl⟩
  rcases failed with ⟨error, failed⟩
  rw [failed] at parsed
  cases parsed

/-- The chunk completes exactly a stop record that reports this exit code. -/
def BringsExit (connection : Connection) (chunk : List UInt8) (n : Nat) : Prop :=
  ∃ streamLine token results, Ascii.newline ∉ streamLine ∧
    connection.framer.unread ++ chunk = streamLine ++ [Ascii.newline] ∧
    IsRecord (Framer.stripCarriageReturn streamLine) (.exec ⟨token, "stopped", results⟩) ∧
    ReportsExit results n

/-- The target has exited with this code, and the one event says the same. -/
def ShowsExit (before after : Connection) (exitCode : Option Int32) : Prop :=
  after.target = .exited exitCode ∧
    ∃ event, after.events = before.events ++ [.stopped event] ∧
      event.reason = some (.exited exitCode)

theorem BringsExit.shows {connection : Connection} {chunk : List UInt8} {n : Nat}
    (brings : BringsExit connection chunk n) :
    ShowsExit connection (connection.receiveBytes chunk) (parseI32 (octalText n)) := by
  rcases brings with ⟨streamLine, token, results, noNewline, completes, isRecord, reports⟩
  have oneLine : connection.linesOf chunk = [streamLine] := by
    rw [Connection.linesOf, completes, LineSplitting.completeLines_line_append noNewline]
    rfl
  have isLineRecord : lineRecord streamLine = some (.exec ⟨token, "stopped", results⟩) := by
    rw [lineRecord, not_terminator_of_isRecord isRecord, parseRecord_of_isRecord isRecord]
    rfl
  have received : (connection.receiveBytes chunk).toSession =
      connection.toSession.classifyStopped results := by
    rw [connection.receiveBytes_toSession, oneLine, List.foldl_cons, List.foldl_nil,
      Session.receiveLine_of_some isLineRecord]
    rfl
  have reason := reports.fromResults
  have target : (connection.receiveBytes chunk).target =
      (connection.toSession.classifyStopped results).target := congrArg Session.target received
  have events : (connection.receiveBytes chunk).events =
      (connection.toSession.classifyStopped results).events := congrArg Session.events received
  constructor
  · rw [target, Session.classifyStopped, reason]
    rfl
  · refine ⟨⟨StoppedReason.fromResults results, getStr results "thread-id",
      extractFrame results, results⟩, ?_, reason⟩
    rw [events, Session.classifyStopped, reason]
    rfl

theorem ShowsExit.unique {before after : Connection} {first second : Option Int32}
    (shows : ShowsExit before after first) (alsoShows : ShowsExit before after second) :
    first = second := by
  have same := shows.1.symm.trans alsoShows.1
  cases same
  rfl

/-- An exit code between 0 and the largest signed number is shown as it is
exactly when it is below eight. -/
theorem exit_code_survives_iff {connection : Connection} {chunk : List UInt8} {n : Nat}
    (bound : n < 2 ^ 31) (brings : BringsExit connection chunk n) :
    ShowsExit connection (connection.receiveBytes chunk) (some (Int32.ofNat n)) ↔ n < 8 := by
  rw [← parseI32_octalText_iff bound]
  constructor
  · exact brings.shows.unique
  · intro parsed
    rw [← parsed]
    exact brings.shows

/-- The shortest line that reports this exit code. -/
def exitLine (n : Nat) : List UInt8 :=
  asciiByte '*' :: (asBytes "stopped" ++
    Ascii.comma :: ((asBytes "reason" ++ Ascii.equals :: encodeCstring "exited") ++
      Ascii.comma :: ((asBytes "exit-code" ++ Ascii.equals :: encodeCstring (octalText n)) ++ [])))

theorem isName_of_all {name : String} (nonempty : name ≠ "")
    (alphabetic : name.toList.all (identifierAlphabet.contains ·) = true) :
    IsName (asBytes name) name := by
  refine ⟨rfl, nonempty, ?_⟩
  intro character member
  have contained := List.all_eq_true.mp alphabetic character member
  rwa [List.contains_iff_mem] at contained

theorem exitLine_isRecord (n : Nat) :
    IsRecord (exitLine n) (.exec ⟨none, "stopped",
      [("reason", .const "exited"), ("exit-code", .const (octalText n))]⟩) := by
  have reason : Derives (.result "reason" (.const "exited"))
      (asBytes "reason" ++ Ascii.equals :: encodeCstring "exited") :=
    .result (isName_of_all (by decide) (by decide)) (.const (encodeCstring_isCString "exited"))
  have exitCode : Derives (.result "exit-code" (.const (octalText n)))
      (asBytes "exit-code" ++ Ascii.equals :: encodeCstring (octalText n)) :=
    .result (isName_of_all (by decide) (by decide)) (.const (encodeCstring_isCString (octalText n)))
  exact @IsRecord.async [] _ _ none "stopped" _ '*' Record.exec (by simp [asyncKinds]) .absent
    (isName_of_all (by decide) (by decide)) (.cons reason (.cons exitCode .nil))

theorem stripCarriageReturn_exitLine (n : Nat) :
    Framer.stripCarriageReturn (exitLine n) = exitLine n := by
  have ends : (exitLine n).getLast? = some Ascii.quote := by
    simp [exitLine, encodeCstring, List.getLast?_cons, List.getLast?_append]
  have notReturn : some Ascii.quote ≠ some Ascii.carriageReturn := by decide
  rw [Framer.stripCarriageReturn, ends, if_neg notReturn]

theorem newline_not_mem_exitLine (n : Nat) : Ascii.newline ∉ exitLine n := by
  have literals : Ascii.newline ∉ asBytes "stopped" ∧ Ascii.newline ∉ asBytes "reason" ∧
      Ascii.newline ∉ asBytes "exit-code" := by decide
  have separators : Ascii.newline ≠ asciiByte '*' ∧ Ascii.newline ≠ Ascii.comma ∧
      Ascii.newline ≠ Ascii.equals := by decide
  simp only [exitLine, List.mem_cons, List.mem_append, List.not_mem_nil, or_false, not_or]
  exact ⟨separators.1, literals.1, separators.2.1,
    ⟨literals.2.1, separators.2.2, newline_not_mem_encodeCstring "exited"⟩, separators.2.1,
    literals.2.2, separators.2.2, newline_not_mem_encodeCstring (octalText n)⟩

theorem bringsExit_exitLine (n : Nat) :
    BringsExit .new (exitLine n ++ [Ascii.newline]) n := by
  refine ⟨exitLine n, none,
    [("reason", .const "exited"), ("exit-code", .const (octalText n))],
    newline_not_mem_exitLine n, rfl, ?_, rfl, rfl⟩
  rw [stripCarriageReturn_exitLine]
  exact exitLine_isRecord n

/-- One is shown as it is. -/
theorem exit_code_one_survives :
    ShowsExit .new (Connection.new.receiveBytes (exitLine 1 ++ [Ascii.newline]))
      (some (Int32.ofNat 1)) :=
  (exit_code_survives_iff (by decide) (bringsExit_exitLine 1)).mpr (by decide)

/-- Eight is written `010` and shown as ten. -/
theorem exit_code_eight_is_lost :
    octalText 8 = "010" ∧ BringsExit .new (exitLine 8 ++ [Ascii.newline]) 8 ∧
      ShowsExit .new (Connection.new.receiveBytes (exitLine 8 ++ [Ascii.newline])) (some 10) ∧
      ¬ ShowsExit .new (Connection.new.receiveBytes (exitLine 8 ++ [Ascii.newline]))
        (some (Int32.ofNat 8)) := by
  have brings := bringsExit_exitLine 8
  have shown : parseI32 (octalText 8) = some 10 := by
    rw [parseI32_octalText]
    rfl
  have shows := brings.shows
  rw [shown] at shows
  refine ⟨by decide, brings, shows, ?_⟩
  intro alsoShows
  exact absurd (shows.unique alsoShows) (by decide)

end Framewalk
