import Framewalk.DisplayTruncation
import Framewalk.ObservedEvents
import Mathlib.Data.List.Permutation

/-!
# Results as Scheme values

A result reaches Scheme as a list of entries, each a hash map with the keys
`name` and `value`.  What a program evaluates to is turned into JSON again by a
generic conversion that knows nothing of results.
-/

namespace Framewalk

/-- A hash map lists its entries in its own order, a float is given by its bits,
and what exists at run time only is told apart by a number. -/
inductive SteelVal where
  | boolV (flag : Bool)
  | numV (bits : UInt64)
  | intV (value : Int64)
  | charV (character : Char)
  | void
  | stringV (text : String)
  | symbolV (text : String)
  | listV (items : List SteelVal)
  | vectorV (items : List SteelVal)
  | hashMapV (entries : List (SteelVal × SteelVal))
  | other (identity : Nat)

/-- The exponent of a finite float is not all ones. -/
def isFiniteFloat (bits : UInt64) : Bool :=
  (bits >>> 52) &&& 0x7ff != 0x7ff

/-- Equality of floats: not-a-number equals nothing, and the two zeros are
equal. -/
def equalFloats (first second : UInt64) : Bool :=
  let isNaN (bits : UInt64) := !isFiniteFloat bits && bits <<< 12 != 0
  !isNaN first && !isNaN second && (first == second || first <<< 1 == 0 && second <<< 1 == 0)

namespace SteelVal

mutual

/-- `equal?`: structural, and regardless of the order of a hash map. -/
def equal : SteelVal → SteelVal → Bool
  | .boolV first, .boolV second => first == second
  | .numV first, .numV second => equalFloats first second
  | .intV first, .intV second => first == second
  | .charV first, .charV second => first == second
  | .void, .void => true
  | .stringV first, .stringV second => first == second
  | .symbolV first, .symbolV second => first == second
  | .listV first, .listV second => equalItems first second
  | .vectorV first, .vectorV second => equalItems first second
  | .hashMapV first, .hashMapV second =>
      first.length == second.length && entriesWithin first second
  | .other first, .other second => first == second
  | _, _ => false

def equalItems : List SteelVal → List SteelVal → Bool
  | [], [] => true
  | first :: rest, second :: others => equal first second && equalItems rest others
  | _, _ => false

/-- Every entry of the first map is one of the second. -/
def entriesWithin : List (SteelVal × SteelVal) → List (SteelVal × SteelVal) → Bool
  | [], _ => true
  | (key, value) :: rest, others =>
      (others.any fun other => equal key other.1 && equal value other.2) &&
        entriesWithin rest others

end

end SteelVal

/-- The hash maps of Steel: an insertion replaces the entry of an equal key, and
where the new entry stands is up to the map. -/
structure SteelMaps where
  insert : List (SteelVal × SteelVal) → SteelVal → SteelVal → List (SteelVal × SteelVal)
  insert_perm : ∀ entries key value, (insert entries key value).Perm
    ((key, value) :: entries.filter fun entry => !entry.1.equal key)

/-- Maps that put each new entry in front. -/
def SteelMaps.newestFirst : SteelMaps where
  insert entries key value := (key, value) :: entries.filter fun entry => !entry.1.equal key
  insert_perm _ _ _ := List.Perm.refl _

def resultEntryToSteel (maps : SteelMaps) (key : String) (value : SteelVal) : SteelVal :=
  .hashMapV (maps.insert (maps.insert [] (.stringV "name") (.stringV key)) (.stringV "value") value)

mutual

def valueToSteel (maps : SteelMaps) : Value → SteelVal
  | .const text => .stringV text
  | .tuple entries => .listV (entriesToSteel maps entries)
  | .list .empty => .listV []
  | .list (.values items) => .listV (itemsToSteel maps items)
  | .list (.results entries) => .listV (entriesToSteel maps entries)

def entriesToSteel (maps : SteelMaps) : List (String × Value) → List SteelVal
  | [] => []
  | (key, value) :: rest =>
      resultEntryToSteel maps key (valueToSteel maps value) :: entriesToSteel maps rest

def itemsToSteel (maps : SteelMaps) : List Value → List SteelVal
  | [] => []
  | item :: rest => valueToSteel maps item :: itemsToSteel maps rest

end

def resultsToSteel (maps : SteelMaps) (results : Results) : SteelVal :=
  .listV (entriesToSteel maps results)

theorem entriesToSteel_eq_map (maps : SteelMaps) (entries : List (String × Value)) :
    entriesToSteel maps entries = entries.map fun entry =>
      resultEntryToSteel maps entry.1 (valueToSteel maps entry.2) := by
  induction entries with
  | nil => rfl
  | cons entry rest ih => rw [entriesToSteel, ih, List.map_cons]

theorem itemsToSteel_eq_map (maps : SteelMaps) (items : List Value) :
    itemsToSteel maps items = items.map (valueToSteel maps) := by
  induction items with
  | nil => rfl
  | cons item rest ih => rw [itemsToSteel, ih, List.map_cons]

theorem SteelMaps.insert_insert (maps : SteelMaps) {firstKey secondKey : SteelVal}
    (different : firstKey.equal secondKey = false) (first second : SteelVal) :
    maps.insert (maps.insert [] firstKey first) secondKey second =
        [(secondKey, second), (firstKey, first)] ∨
      maps.insert (maps.insert [] firstKey first) secondKey second =
        [(firstKey, first), (secondKey, second)] := by
  have single : maps.insert [] firstKey first = [(firstKey, first)] :=
    List.perm_singleton.mp (maps.insert_perm [] firstKey first)
  have both := maps.insert_perm [(firstKey, first)] secondKey second
  rw [List.filter_cons_of_pos (by simp [different]), List.filter_nil, List.perm_pair] at both
  rwa [single]

theorem resultEntryToSteel_cases (maps : SteelMaps) (key : String) (value : SteelVal) :
    resultEntryToSteel maps key value =
        .hashMapV [(.stringV "value", value), (.stringV "name", .stringV key)] ∨
      resultEntryToSteel maps key value =
        .hashMapV [(.stringV "name", .stringV key), (.stringV "value", value)] := by
  have different : SteelVal.equal (.stringV "name") (.stringV "value") = false := by decide
  unfold resultEntryToSteel
  rcases maps.insert_insert different (.stringV key) value with isMap | isMap
  · exact Or.inl (congrArg SteelVal.hashMapV isMap)
  · exact Or.inr (congrArg SteelVal.hashMapV isMap)

/-- An outcome as a Scheme value, or the text of the error that it raises. -/
def outcomeToSteel (maps : SteelMaps) : CommandOutcome → Except String SteelVal
  | .done results | .connected results => .ok (resultsToSteel maps results)
  | .running => .ok (.symbolV "running")
  | .error msg _ => .error ("GDB error: " ++ msg)
  | .exit => .error "GDB session exited"

/-- Texts are ordered byte by byte. -/
def comesBefore (text other : String) : Bool :=
  (Utf8Text.asBytes text).lex (Utf8Text.asBytes other) fun byte next =>
    decide (byte.toNat < next.toNat)

/-- A JSON object keeps its members in the order of their keys, each once. -/
def insertMember (key : String) (value : Json) : List (String × Json) → List (String × Json)
  | [] => [(key, value)]
  | (other, old) :: rest =>
      if comesBefore key other then (key, value) :: (other, old) :: rest
      else if key = other then (key, value) :: rest
      else (other, old) :: insertMember key value rest

def steelJsonObjectKey : SteelVal → Option String
  | .stringV text | .symbolV text => some text
  | .charV character => some (String.singleton character)
  | _ => none

/-- The text that Steel displays for a value, shortened; `none` is the panic of
shortening inside a character. -/
def fallbackJsonString (display : SteelVal → String) (value : SteelVal) : Option Json :=
  (truncateDisplayString (display value)).map .string

mutual

def steelToJsonValue (display : SteelVal → String) : SteelVal → Option Json
  | .boolV flag => some (.bool flag)
  | .numV bits =>
      if isFiniteFloat bits then some (.float bits) else fallbackJsonString display (.numV bits)
  | .intV value => some (.integer value.toInt)
  | .stringV text | .symbolV text => some (.string text)
  | .charV character => some (.string (String.singleton character))
  | .void => some .null
  | .listV items | .vectorV items => do
      let items ← steelItemsToJson display items
      some (.array items)
  | .hashMapV entries => do
      match ← steelHashMapToJson display [] entries with
      | some members => some (.object members)
      | none => fallbackJsonString display (.hashMapV entries)
  | .other identity => fallbackJsonString display (.other identity)

def steelItemsToJson (display : SteelVal → String) : List SteelVal → Option (List Json)
  | [] => some []
  | item :: rest => do
      let item ← steelToJsonValue display item
      let rest ← steelItemsToJson display rest
      some (item :: rest)

/-- The members of an object, or that some key has no text. -/
def steelHashMapToJson (display : SteelVal → String) (members : List (String × Json)) :
    List (SteelVal × SteelVal) → Option (Option (List (String × Json)))
  | [] => some (some members)
  | (key, value) :: rest =>
      match steelJsonObjectKey key with
      | none => some none
      | some key => do
          let value ← steelToJsonValue display value
          steelHashMapToJson display (insertMember key value members) rest

end

end Framewalk
