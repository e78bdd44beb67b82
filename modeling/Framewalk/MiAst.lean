import Framewalk.Utf8Text

/-!
# The typed MI output records

These are the syntax trees the parser produces and the protocol layer
consumes.  Results are ordered lists of named values: MI preserves their order
and may repeat a name.
-/

namespace Framewalk

/-- A numeric token echoed by GDB on the record answering a tokenised
command. -/
abbrev Token := UInt64

mutual

/-- The right-hand side of a result: a constant, a tuple or a list. -/
inductive Value where
  | const (text : String)
  | tuple (entries : List (String × Value))
  | list (items : ListValue)

/-- The three shapes a list production can take. -/
inductive ListValue where
  | empty
  | values (items : List Value)
  | results (entries : List (String × Value))

end

theorem Value.induction {motive : Value → Prop} (const : ∀ text, motive (.const text))
    (tuple : ∀ entries, (∀ entry ∈ entries, motive entry.2) → motive (.tuple entries))
    (empty : motive (.list .empty))
    (values : ∀ items, (∀ item ∈ items, motive item) → motive (.list (.values items)))
    (results : ∀ entries, (∀ entry ∈ entries, motive entry.2) →
      motive (.list (.results entries))) (value : Value) : motive value := by
  have inEntries : ∀ {entries : List (String × Value)} {entry : String × Value},
      entry ∈ entries → sizeOf entry.2 < sizeOf entries := by
    rintro entries ⟨name, value⟩ member
    have bound := List.sizeOf_lt_of_mem member
    simp only [Prod.mk.sizeOf_spec] at bound ⊢
    omega
  induction size : sizeOf value using Nat.strongRecOn generalizing value with
  | _ bound ih =>
      subst size
      cases value with
      | const text => exact const text
      | tuple entries =>
          apply tuple entries
          intro entry member
          apply ih (sizeOf entry.2) _ entry.2 rfl
          have := inEntries member
          simp only [Value.tuple.sizeOf_spec]
          omega
      | list items =>
          cases items with
          | empty => exact empty
          | values items =>
              apply values items
              intro item member
              apply ih (sizeOf item) _ item rfl
              have := List.sizeOf_lt_of_mem member
              simp only [Value.list.sizeOf_spec, ListValue.values.sizeOf_spec]
              omega
          | results entries =>
              apply results entries
              intro entry member
              apply ih (sizeOf entry.2) _ entry.2 rfl
              have := inEntries member
              simp only [Value.list.sizeOf_spec, ListValue.results.sizeOf_spec]
              omega

inductive ResultClass where
  | done
  | running
  | connected
  | error
  | exit
  deriving DecidableEq

namespace ResultClass

def asBytes : ResultClass → List UInt8
  | .done => Utf8Text.asBytes "done"
  | .running => Utf8Text.asBytes "running"
  | .connected => Utf8Text.asBytes "connected"
  | .error => Utf8Text.asBytes "error"
  | .exit => Utf8Text.asBytes "exit"

def fromBytes (bytes : List UInt8) : Option ResultClass :=
  if bytes = Utf8Text.asBytes "done" then some .done
  else if bytes = Utf8Text.asBytes "running" then some .running
  else if bytes = Utf8Text.asBytes "connected" then some .connected
  else if bytes = Utf8Text.asBytes "error" then some .error
  else if bytes = Utf8Text.asBytes "exit" then some .exit
  else none

theorem fromBytes_eq_some_iff {bytes : List UInt8} {resultClass : ResultClass} :
    fromBytes bytes = some resultClass ↔ bytes = resultClass.asBytes := by
  constructor
  · intro parsed
    unfold fromBytes at parsed
    split_ifs at parsed with isDone isRunning isConnected isError isExit <;>
      cases parsed <;> assumption
  · rintro rfl
    cases resultClass <;> decide

end ResultClass

structure ResultRecord where
  token : Option Token
  resultClass : ResultClass
  results : List (String × Value)

structure AsyncRecord where
  token : Option Token
  asyncClass : String
  results : List (String × Value)

structure StreamRecord where
  text : String

/-- A complete parsed MI output record, one per non-terminator line. -/
inductive Record where
  | result (record : ResultRecord)
  | exec (record : AsyncRecord)
  | status (record : AsyncRecord)
  | notify (record : AsyncRecord)
  | console (record : StreamRecord)
  | target (record : StreamRecord)
  | log (record : StreamRecord)

end Framewalk
