import Framewalk.CompactResults

/-!
# Fields of replies in scripts

A script reads a reply by the names of its entries.  The accessors walk the list of
hash maps with an accumulator; on what the server has made of GDB's results they
find the values of that name in GDB's order, and a backtrace finds the frames.
-/

namespace Framewalk

/-- An error of the engine itself, or one with a text. -/
inductive Raised where
  | engine
  | text (message : String)

/-- `hash-ref`, which raises where there is no such key. -/
def hashRefOrRaise (map : SteelVal) (key : String) : Except Raised SteelVal :=
  match map with
  | .hashMapV entries =>
      match entries.find? fun entry => entry.1.equal (.stringV key) with
      | some entry => .ok entry.2
      | none => .error .engine
  | _ => .error .engine

def resultFieldsLoop (name : SteelVal) :
    List SteelVal → List SteelVal → Except Raised (List SteelVal)
  | [], acc => .ok acc.reverse
  | entry :: rest, acc => do
      let found ← hashRefOrRaise entry "name"
      if found.equal name then
        let value ← hashRefOrRaise entry "value"
        resultFieldsLoop name rest (value :: acc)
      else resultFieldsLoop name rest acc

def resultFields (name : SteelVal) : SteelVal → Except Raised (List SteelVal)
  | .boolV false => .ok []
  | .listV entries => resultFieldsLoop name entries []
  | _ => .error .engine

def repeatedField (name : String) : String :=
  "result-field expected one value for " ++ name ++ "; use result-fields for repeated MI keys"

def resultField (name result : SteelVal) : Except Raised SteelVal := do
  match ← resultFields name result with
  | [] => .ok (.boolV false)
  | [value] => .ok value
  | _ =>
      match name with
      | .stringV text => .error (.text (repeatedField text))
      | _ => .error .engine

/-- What both forms of `backtrace` make of their reply. -/
def backtraceReply (maps : SteelMaps) (outcome : CommandOutcome) :
    Except Raised (List SteelVal) := do
  let reply ← (outcomeToSteel maps outcome).mapError .text
  match ← resultField (.stringV "stack") reply with
  | .boolV false => .ok []
  | stack => resultFields (.stringV "frame") stack

/-- The values of this name, in order. -/
def Results.named (results : Results) (name : String) : List Value :=
  (results.filter fun entry => entry.1 = name).map Prod.snd

/-- The frames of a stack; one that is a string or a non-empty list of bare values
has none. -/
def Value.frames : Value → Except Raised (List Value)
  | .tuple entries | .list (.results entries) => .ok (Results.named entries "frame")
  | .list .empty | .list (.values []) => .ok []
  | .const _ | .list (.values (_ :: _)) => .error .engine

/-- The frames of an answer, whose stack is unique. -/
def CommandOutcome.frames : CommandOutcome → Except Raised (List Value)
  | .done results | .connected results =>
      match results.named "stack" with
      | [] => .ok []
      | [stack] => stack.frames
      | _ => .error (.text (repeatedField "stack"))
  | .running => .error .engine
  | .error msg _ => .error (.text ("GDB error: " ++ msg))
  | .exit => .error (.text "GDB session exited")

section Entries

variable (maps : SteelMaps)

theorem hashRefOrRaise_resultEntry (key : String) (value : SteelVal) :
    hashRefOrRaise (resultEntryToSteel maps key value) "name" = .ok (.stringV key) ∧
      hashRefOrRaise (resultEntryToSteel maps key value) "value" = .ok value := by
  rcases resultEntryToSteel_cases maps key value with isEntry | isEntry
  · rw [isEntry]
    simp [hashRefOrRaise, SteelVal.equal]
  · rw [isEntry]
    simp [hashRefOrRaise, SteelVal.equal]

theorem resultFieldsLoop_entries (name : String) (entries : Results) (acc : List SteelVal) :
    resultFieldsLoop (.stringV name) (entriesToSteel maps entries) acc =
      .ok (acc.reverse ++ (Results.named entries name).map (valueToSteel maps)) := by
  induction entries generalizing acc with
  | nil => simp [entriesToSteel, resultFieldsLoop, Results.named]
  | cons entry entries ih =>
      obtain ⟨key, value⟩ := entry
      obtain ⟨nameRef, valueRef⟩ := hashRefOrRaise_resultEntry maps key (valueToSteel maps value)
      simp only [entriesToSteel, resultFieldsLoop, nameRef, valueRef, bind, Except.bind,
        SteelVal.equal, beq_iff_eq]
      split_ifs with same
      · rw [ih]
        simp [Results.named, same]
      · rw [ih]
        simp [Results.named, same]

theorem resultFields_results (name : String) (results : Results) :
    resultFields (.stringV name) (resultsToSteel maps results) =
      .ok ((results.named name).map (valueToSteel maps)) :=
  resultFieldsLoop_entries maps name results []

theorem resultField_results (name : String) (results : Results) :
    resultField (.stringV name) (resultsToSteel maps results) =
      match results.named name with
      | [] => .ok (.boolV false)
      | [value] => .ok (valueToSteel maps value)
      | _ => .error (.text (repeatedField name)) := by
  simp only [resultField, resultFields_results, bind, Except.bind]
  cases results.named name with
  | nil => rfl
  | cons value values =>
      cases values with
      | nil => rfl
      | cons second rest => rfl

theorem valueToSteel_ne_false (value : Value) : valueToSteel maps value ≠ .boolV false := by
  cases value with
  | const text => simp [valueToSteel]
  | tuple entries => simp [valueToSteel]
  | list items => cases items <;> simp [valueToSteel]

theorem resultFields_frame (stack : Value) :
    resultFields (.stringV "frame") (valueToSteel maps stack) =
      List.map (valueToSteel maps) <$> stack.frames := by
  cases stack with
  | const text => rfl
  | tuple entries => exact resultFields_results maps "frame" entries
  | list items =>
      cases items with
      | empty => rfl
      | results entries => exact resultFields_results maps "frame" entries
      | values items =>
          cases items with
          | nil => rfl
          | cons item items =>
              -- An item of a list is no hash map, so it has no name.
              have noName : hashRefOrRaise (valueToSteel maps item) "name" = .error .engine := by
                cases item with
                | const text => rfl
                | tuple entries => rfl
                | list items => cases items <;> rfl
              simp only [valueToSteel, itemsToSteel, resultFields, resultFieldsLoop, noName, bind,
                Except.bind]
              rfl

end Entries

/-- A backtrace is the frames of GDB's answer. -/
theorem backtrace_reads_frames (maps : SteelMaps) (outcome : CommandOutcome) :
    backtraceReply maps outcome = List.map (valueToSteel maps) <$> outcome.frames := by
  have ofResults : ∀ results : Results,
      (do
        match ← resultField (.stringV "stack") (resultsToSteel maps results) with
        | .boolV false => .ok []
        | stack => resultFields (.stringV "frame") stack) =
      List.map (valueToSteel maps) <$> (CommandOutcome.done results).frames := by
    intro results
    rw [resultField_results, CommandOutcome.frames]
    cases results.named "stack" with
    | nil => rfl
    | cons stack others =>
        cases others with
        | nil =>
            simp only [bind, Except.bind]
            rw [← resultFields_frame]
            split
            · next isFalse => exact absurd isFalse (valueToSteel_ne_false maps stack)
            · rfl
        | cons second others => rfl
  cases outcome with
  | done results => exact ofResults results
  | connected results => exact ofResults results
  | running => rfl
  | error msg code => rfl
  | exit => rfl

end Framewalk
