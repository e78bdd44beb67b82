import Mathlib.Tactic.Common

/-!
# Outcomes of fallible computations

A computation either returns a value or fails with an error.  A pair of
conditions, one on the values and one on the errors, is established for a
sequence of computations from its parts: the value condition of the first part
is the precondition of the second, and the error condition is shared.
-/

namespace Fallible

variable {ε α β : Type} {returns : α → Prop} {fails : ε → Prop}

/-- A returned value meets the first condition, an error the second. -/
def Ensures (returns : α → Prop) (fails : ε → Prop) : Except ε α → Prop
  | .ok value => returns value
  | .error error => fails error

@[simp]
theorem ensures_ok {value : α} : Ensures returns fails (.ok value) ↔ returns value :=
  Iff.rfl

@[simp]
theorem ensures_error {error : ε} : Ensures returns fails (.error error) ↔ fails error :=
  Iff.rfl

theorem ensures_iff {computation : Except ε α} :
    Ensures returns fails computation ↔
      (∀ value, computation = .ok value → returns value) ∧
        ∀ error, computation = .error error → fails error := by
  cases computation with
  | ok value => simp
  | error error => simp

theorem Ensures.of_ok {computation : Except ε α} {value : α}
    (ensures : Ensures returns fails computation) (returned : computation = .ok value) :
    returns value :=
  (ensures_iff.mp ensures).1 value returned

theorem Ensures.of_error {computation : Except ε α} {error : ε}
    (ensures : Ensures returns fails computation) (failed : computation = .error error) :
    fails error :=
  (ensures_iff.mp ensures).2 error failed

/-- A sequence meets the conditions when its first part does and its second
part does from every value of the first. -/
theorem Ensures.bind {after : β → Prop} {computation : Except ε α} {next : α → Except ε β}
    (first : Ensures returns fails computation)
    (second : ∀ value, returns value → Ensures after fails (next value)) :
    Ensures after fails (computation >>= next) := by
  cases computation with
  | ok value => exact second value first
  | error error => exact first

/-- What is known of a returned value from elsewhere may be used by the
second part of a sequence. -/
theorem Ensures.bind_eq {after : β → Prop} {computation : Except ε α}
    {next : α → Except ε β}
    (first : Ensures returns fails computation)
    (second : ∀ value, computation = .ok value → returns value →
      Ensures after fails (next value)) :
    Ensures after fails (computation >>= next) := by
  cases computation with
  | ok value => exact second value rfl first
  | error error => exact first

theorem Ensures.imp {weaker : α → Prop} {weakerFails : ε → Prop} {computation : Except ε α}
    (ensures : Ensures returns fails computation)
    (value : ∀ value, returns value → weaker value)
    (error : ∀ error, fails error → weakerFails error) :
    Ensures weaker weakerFails computation := by
  cases computation with
  | ok found => exact value found ensures
  | error found => exact error found ensures

end Fallible
