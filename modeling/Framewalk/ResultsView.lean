import Framewalk.Cursor
import Mathlib.Algebra.Group.Nat.Defs

/-!
# Accessors for result tuples

Results are ordered and may repeat a name; every accessor takes the first entry
of the requested name that has the requested shape.
-/

namespace Framewalk

abbrev Results := List (String × Value)

namespace ResultsView

def getStr (results : Results) (name : String) : Option String :=
  results.findSome? fun
    | (key, .const text) => if key = name then some text else none
    | _ => none

def getTuple (results : Results) (name : String) : Option Results :=
  results.findSome? fun
    | (key, .tuple entries) => if key = name then some entries else none
    | _ => none

/-- The first entry of this name, of any shape. -/
def getValue (results : Results) (name : String) : Option Value :=
  results.findSome? fun entry => if entry.1 = name then some entry.2 else none

def getList (results : Results) (name : String) : Option ListValue :=
  match getValue results name with
  | some (.list items) => some items
  | _ => none

/-- GDB writes its flags as `y` and `n`. -/
def getBool (results : Results) (name : String) : Option Bool :=
  (getStr results name).map fun text => text == "y" || text == "yes" || text == "true"

/-- A non-empty run of decimal digits. -/
def parseDigits (digits : List UInt8) : Option Nat :=
  if digits ≠ [] ∧ digits.all Ascii.isDigit then
    some (digits.foldl (fun value digit => value * 10 + (digit.toNat - 48)) 0)
  else none

/-- `str::parse::<u32>`: an optional plus sign and digits in range. -/
def parseU32 (text : String) : Option UInt32 :=
  let digits :=
    match Utf8Text.asBytes text with
    | 43 :: digits => digits
    | digits => digits
  (parseDigits digits).bind fun value =>
    if value < 2 ^ 32 then some (UInt32.ofNat value) else none

/-- `str::parse::<i32>`: an optional sign and digits in range. -/
def parseI32 (text : String) : Option Int32 :=
  match Utf8Text.asBytes text with
  | 45 :: digits =>
      (parseDigits digits).bind fun value =>
        if value ≤ 2 ^ 31 then some (Int32.ofInt (-value)) else none
  | 43 :: digits =>
      (parseDigits digits).bind fun value =>
        if value < 2 ^ 31 then some (Int32.ofNat value) else none
  | digits =>
      (parseDigits digits).bind fun value =>
        if value < 2 ^ 31 then some (Int32.ofNat value) else none

def getU32 (results : Results) (name : String) : Option UInt32 :=
  (getStr results name).bind parseU32

def getI32 (results : Results) (name : String) : Option Int32 :=
  (getStr results name).bind parseI32

example : parseI32 "-12" = some (-12) ∧ parseU32 "-12" = none ∧ parseU32 "+7" = some 7 := by
  decide

end ResultsView

end Framewalk
