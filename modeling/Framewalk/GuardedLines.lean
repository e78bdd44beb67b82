import Framewalk.RawCommandLines
import Framewalk.SchemeQuoting
import Framewalk.TargetSelection

/-!
# Lines that pass the guard

Lines that the server writes itself begin with a dash and a plain operation name.
The guard extracts that name whatever follows it, and it extracts the same name
once the line is trimmed.
-/

namespace Framewalk.RawGuard

open Utf8Text

/-- A letter first, and no white space. -/
def IsOperationName (operation : String) : Prop :=
  operation.toList.head?.any isAsciiAlphabetic = true ∧
    ∀ character ∈ operation.toList, isWhitespace character = false

instance : DecidablePred IsOperationName := fun operation =>
  decidable_of_iff (operation.toList.head?.any isAsciiAlphabetic = true ∧
      operation.toList.all (fun character => !isWhitespace character) = true) <| by
    simp only [IsOperationName, List.all_eq_true, Bool.not_eq_true']

theorem isWhitespace_of_isAsciiWhitespace {character : Char}
    (isAscii : isAsciiWhitespace character = true) : isWhitespace character = true := by
  simp only [isAsciiWhitespace, Bool.or_eq_true, beq_iff_eq] at isAscii
  simp only [isWhitespace, Bool.or_eq_true, Bool.and_eq_true, decide_eq_true_eq, beq_iff_eq]
  omega

/-- Trimming the end keeps what stands in front of something that stays. -/
theorem rdropWhile_cons_of_not {first : Char} (notBlank : isWhitespace first = false)
    (characters : List Char) :
    (first :: characters).rdropWhile isWhitespace =
      first :: characters.rdropWhile isWhitespace := by
  by_cases later : ∃ character ∈ characters, isWhitespace character = false
  · exact @rdropWhile_append_of_exists Char isWhitespace [first] characters later
  · have all : ∀ character ∈ characters, isWhitespace character = true := by
      simpa using later
    have single : [first].rdropWhile isWhitespace = [first] := by simp [notBlank]
    have nothing : characters.rdropWhile isWhitespace = [] := List.rdropWhile_eq_nil_iff.mpr all
    rw [nothing, ← single]
    exact @rdropWhile_append_of_all Char isWhitespace [first] characters all

theorem trim_trim (characters : List Char) : trim (trim characters) = trim characters := by
  have front : (trim characters).dropWhile isWhitespace = trim characters := by
    cases trimmed : trim characters with
    | nil => rfl
    | cons first rest =>
        obtain ⟨blanks, isSplit⟩ :=
          List.rdropWhile_prefix isWhitespace (characters.dropWhile isWhitespace)
        have notBlank := List.head?_dropWhile_not isWhitespace characters
        rw [← isSplit, show List.rdropWhile isWhitespace _ = first :: rest from trimmed] at notBlank
        exact List.dropWhile_cons_of_neg (Bool.eq_false_iff.mp notBlank)
  rw [trim, front]
  exact List.rdropWhile_idempotent isWhitespace (characters.dropWhile isWhitespace)

theorem rawMiOperation_trim (line : String) :
    rawMiOperation (String.ofList (trim line.toList)) = rawMiOperation line := by
  unfold rawMiOperation
  rw [String.toList_ofList, trim_trim]

theorem validateRawMiCommand_trim (line : String) (allowShell : Bool) :
    validateRawMiCommand (String.ofList (trim line.toList)) allowShell =
      validateRawMiCommand line allowShell := by
  unfold validateRawMiCommand
  rw [rawMiOperation_trim]

/-- Whatever follows the name, it is the first word. -/
theorem rawMiOperation_of_name {operation : String} (isName : IsOperationName operation)
    (rest : String) : rawMiOperation ("-" ++ operation ++ " " ++ rest) = .ok operation := by
  obtain ⟨isLetter, plain⟩ := isName
  have word : firstWord (operation.toList ++ ' ' :: rest.toList) = operation.toList := by
    have kept : ∀ character ∈ operation.toList, (!isAsciiWhitespace character) = true := by
      intro character member
      cases isAscii : isAsciiWhitespace character with
      | false => rfl
      | true =>
          have blank := isWhitespace_of_isAsciiWhitespace isAscii
          rw [plain character member] at blank
          cases blank
    rw [firstWord, List.takeWhile_append_of_pos kept]
    exact List.append_nil _
  have sameWord := (firstWord_rdropWhile_iff (operation.toList ++ ' ' :: rest.toList)).mpr <| by
    left
    rw [word]
    intro last isLast
    exact plain last (List.mem_of_getLast? isLast)
  have trimmed : trim ("-" ++ operation ++ " " ++ rest).toList =
      '-' :: (operation.toList ++ ' ' :: rest.toList).rdropWhile isWhitespace := by
    have spelled : ("-" ++ operation ++ " " ++ rest).toList =
        '-' :: (operation.toList ++ ' ' :: rest.toList) := by simp
    rw [spelled, trim, List.dropWhile_cons_of_neg (by decide)]
    exact rdropWhile_cons_of_not (by decide) _
  have head : ((operation.toList ++ ' ' :: rest.toList).rdropWhile isWhitespace).head? =
      operation.toList.head? := by
    cases isList : operation.toList with
    | nil => simp [isList] at isLetter
    | cons first others =>
        have notBlank := plain first (isList ▸ List.mem_cons_self)
        rw [List.cons_append, rdropWhile_cons_of_not notBlank, List.head?_cons, List.head?_cons]
  rw [rawMiOperation, trimmed]
  simp only [ne_eq, not_true_eq_false, if_false, head, isLetter, if_true, sameWord, word,
    String.ofList_toList]

theorem validateRawMiCommand_of_name {operation : String} (isName : IsOperationName operation)
    (isListed : allowedCommands.any fun entry =>
      entry.matches (operation.toList.map toAsciiLowercase)) (rest : String) (allowShell : Bool) :
    validateRawMiCommand ("-" ++ operation ++ " " ++ rest) allowShell = .ok () := by
  cases allowShell <;> simp [validateRawMiCommand, rawMiOperation_of_name isName, bind, Except.bind,
    isListed]

/-- The guard takes the name by itself as well. -/
theorem validateRawMiCommand_of_name_alone {operation : String}
    (isName : IsOperationName operation)
    (isListed : allowedCommands.any fun entry =>
      entry.matches (operation.toList.map toAsciiLowercase)) (allowShell : Bool) :
    validateRawMiCommand ("-" ++ operation) allowShell = .ok () := by
  have trimmed : trim ("-" ++ operation ++ " " ++ "").toList = ("-" ++ operation).toList := by
    have kept : ('-' :: operation.toList).rdropWhile isWhitespace = '-' :: operation.toList := by
      rw [List.rdropWhile_eq_self_iff]
      intro nonempty
      rcases List.mem_cons.mp (List.getLast_mem nonempty) with isDash | inName
      · rw [isDash]
        decide
      · exact Bool.eq_false_iff.mp (isName.2 _ inName)
    have spelled : ("-" ++ operation ++ " " ++ "").toList = '-' :: operation.toList ++ [' '] := by
      simp
    have blank : ∀ character ∈ [' '], isWhitespace character = true :=
      List.forall_mem_singleton.mpr (by decide)
    rw [spelled, trim, List.cons_append, List.dropWhile_cons_of_neg (by decide), ← List.cons_append,
      rdropWhile_append_of_all blank, kept]
    simp
  have accepted := validateRawMiCommand_of_name isName isListed "" allowShell
  rw [← validateRawMiCommand_trim, trimmed, String.ofList_toList] at accepted
  exact accepted

/-- The remembered line of a selection begins with its operation. -/
theorem encodeMiCommand_targetSelect (transportName parameters : String) :
    ∃ rest, encodeMiCommand (targetSelect transportName parameters) =
      "-" ++ "target-select" ++ " " ++ rest := by
  have space : IsText [Ascii.space] := ⟨" ", rfl⟩
  have selection : IsText (encodeParameter transportName ++
      ([Ascii.space] ++ encodeParameter parameters)) :=
    (encodeParameter_isText transportName).append
      (space.append (encodeParameter_isText parameters))
  obtain ⟨rest, isRest⟩ : ∃ rest, commandBody (targetSelect transportName parameters) =
      asBytes ("-" ++ "target-select" ++ " ") ++ asBytes rest := by
    unfold commandBody
    split_ifs
    · obtain ⟨rest, isRest⟩ := (IsText.asBytes "-- ").append selection
      refine ⟨rest, ?_⟩
      rw [isRest]
      simp [targetSelect, MiCommand.new, MiCommand.parameter]
      rfl
    · obtain ⟨rest, isRest⟩ := selection
      refine ⟨rest, ?_⟩
      rw [isRest]
      simp [targetSelect, MiCommand.new, MiCommand.parameter]
      rfl
  refine ⟨rest, asBytes_injective ?_⟩
  rw [asBytes_encodeMiCommand, isRest, ← asBytes_append]

theorem validateRawMiCommand_targetSelect (transportName parameters : String)
    (allowShell : Bool) :
    validateRawMiCommand (encodeMiCommand (targetSelect transportName parameters)) allowShell =
      .ok () := by
  obtain ⟨rest, isLine⟩ := encodeMiCommand_targetSelect transportName parameters
  rw [isLine]
  exact validateRawMiCommand_of_name (by decide +kernel) (by decide +kernel) rest allowShell

theorem validateRawMiCommand_execUntil (location : String) (allowShell : Bool) :
    validateRawMiCommand ("-exec-until " ++ miQuoteParam location) allowShell = .ok () :=
  @validateRawMiCommand_of_name "exec-until" (by decide +kernel) (by decide +kernel)
    (miQuoteParam location) allowShell

end Framewalk.RawGuard
