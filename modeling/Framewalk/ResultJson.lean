import Framewalk.ObservedEvents

/-!
# What the JSON of a result keeps

An array of entry objects and an array of plain values never look alike, so the
JSON of a value determines it up to two spellings: a tuple is written like the
list of the same results, and whatever is empty is the empty array.
-/

namespace Framewalk

namespace Value

/-- The list of these results; without any it is the empty list. -/
def ofEntries : List (String × Value) → Value
  | [] => .list .empty
  | entry :: rest => .list (.results (entry :: rest))

/-- The list of these values; without any it is the empty list. -/
def ofItems : List Value → Value
  | [] => .list .empty
  | item :: rest => .list (.values (item :: rest))

mutual

/-- A tuple becomes the list of its results and an empty value the empty list,
at every depth. -/
def identify : Value → Value
  | .const text => .const text
  | .tuple entries => ofEntries (identifyEntries entries)
  | .list .empty => .list .empty
  | .list (.values items) => ofItems (identifyItems items)
  | .list (.results entries) => ofEntries (identifyEntries entries)

def identifyEntries : List (String × Value) → List (String × Value)
  | [] => []
  | (name, value) :: rest => (name, identify value) :: identifyEntries rest

def identifyItems : List Value → List Value
  | [] => []
  | item :: rest => identify item :: identifyItems rest

end

theorem identifyEntries_eq_map (entries : List (String × Value)) :
    identifyEntries entries = entries.map fun entry => (entry.1, entry.2.identify) := by
  induction entries with
  | nil => rfl
  | cons entry rest ih => rw [identifyEntries, ih, List.map_cons]

theorem identifyItems_eq_map (items : List Value) :
    identifyItems items = items.map identify := by
  induction items with
  | nil => rfl
  | cons item rest ih => rw [identifyItems, ih, List.map_cons]

end Value

namespace Json

mutual

/-- The value that a JSON form was made of: an array whose first item is an
object is an array of entries. -/
def toValue : Json → Value
  | .string text => .const text
  | .array [] => .list .empty
  | .array (.object members :: rest) => .list (.results (toEntries (.object members :: rest)))
  | .array (item :: rest) => .list (.values (toItems (item :: rest)))
  | .null | .bool _ | .integer _ | .float _ | .object _ => .list .empty

def toEntries : List Json → List (String × Value)
  | .object [(_, .string name), (_, value)] :: rest => (name, toValue value) :: toEntries rest
  | _ => []

def toItems : List Json → List Value
  | [] => []
  | item :: rest => toValue item :: toItems rest

end

end Json

theorem entriesToJson_eq_map (entries : List (String × Value)) :
    entriesToJson entries = entries.map fun entry =>
      .object [("name", .string entry.1), ("value", valueToJson entry.2)] := by
  induction entries with
  | nil => rfl
  | cons entry rest ih => rw [entriesToJson, ih, List.map_cons]

theorem valuesToJson_eq_map (items : List Value) :
    valuesToJson items = items.map valueToJson := by
  induction items with
  | nil => rfl
  | cons item rest ih => rw [valuesToJson, ih, List.map_cons]

theorem toEntries_entriesToJson {entries : List (String × Value)}
    (each : ∀ entry ∈ entries, (valueToJson entry.2).toValue = entry.2.identify) :
    Json.toEntries (entriesToJson entries) = Value.identifyEntries entries := by
  induction entries with
  | nil => rfl
  | cons entry rest ih =>
      rw [entriesToJson, Json.toEntries, Value.identifyEntries, each entry (by simp),
        ih fun other member => each other (by simp [member])]

theorem toItems_valuesToJson {items : List Value}
    (each : ∀ item ∈ items, (valueToJson item).toValue = item.identify) :
    Json.toItems (valuesToJson items) = Value.identifyItems items := by
  induction items with
  | nil => rfl
  | cons item rest ih =>
      rw [valuesToJson, Json.toItems, Value.identifyItems, each item (by simp),
        ih fun other member => each other (by simp [member])]

/-- An array of entries is read back as its results. -/
theorem toValue_array_entriesToJson (entries : List (String × Value))
    (each : ∀ entry ∈ entries, (valueToJson entry.2).toValue = entry.2.identify) :
    (Json.array (entriesToJson entries)).toValue =
      .ofEntries (Value.identifyEntries entries) := by
  have readBack := toEntries_entriesToJson each
  cases entries with
  | nil => rfl
  | cons entry rest =>
      rw [entriesToJson] at readBack ⊢
      rw [Json.toValue, readBack]
      rfl

theorem valueToJson_shape (value : Value) :
    (∃ text, valueToJson value = .string text) ∨ ∃ items, valueToJson value = .array items := by
  cases value with
  | const text => exact Or.inl ⟨text, rfl⟩
  | tuple entries => exact Or.inr ⟨_, rfl⟩
  | list items => cases items <;> exact Or.inr ⟨_, rfl⟩

/-- A value is never an object, so an array of values is not read as entries. -/
theorem toValue_array_valuesToJson (items : List Value)
    (each : ∀ item ∈ items, (valueToJson item).toValue = item.identify) :
    (Json.array (valuesToJson items)).toValue = .ofItems (Value.identifyItems items) := by
  have readBack := toItems_valuesToJson each
  cases items with
  | nil => rfl
  | cons item rest =>
      rw [valuesToJson] at readBack ⊢
      rcases valueToJson_shape item with ⟨text, shape⟩ | ⟨members, shape⟩
      · rw [shape] at readBack ⊢
        exact congrArg (fun items => Value.list (.values items)) readBack
      · rw [shape] at readBack ⊢
        exact congrArg (fun items => Value.list (.values items)) readBack

/-- Reading the JSON of a value back gives the value up to its spelling. -/
theorem toValue_valueToJson (value : Value) : (valueToJson value).toValue = value.identify := by
  induction value using Value.induction with
  | const text => rfl
  | empty => rfl
  | tuple entries ih => exact toValue_array_entriesToJson entries ih
  | values items ih => exact toValue_array_valuesToJson items ih
  | results entries ih => exact toValue_array_entriesToJson entries ih

theorem valueToJson_ofEntries (entries : List (String × Value)) :
    valueToJson (.ofEntries entries) = .array (entriesToJson entries) := by
  cases entries <;> rfl

theorem valueToJson_ofItems (items : List Value) :
    valueToJson (.ofItems items) = .array (valuesToJson items) := by
  cases items <;> rfl

theorem entriesToJson_identifyEntries {entries : List (String × Value)}
    (each : ∀ entry ∈ entries, valueToJson entry.2.identify = valueToJson entry.2) :
    entriesToJson (Value.identifyEntries entries) = entriesToJson entries := by
  rw [Value.identifyEntries_eq_map, entriesToJson_eq_map, entriesToJson_eq_map, List.map_map]
  apply List.map_congr_left
  intro entry member
  simp only [Function.comp_apply, each entry member]

theorem valuesToJson_identifyItems {items : List Value}
    (each : ∀ item ∈ items, valueToJson item.identify = valueToJson item) :
    valuesToJson (Value.identifyItems items) = valuesToJson items := by
  rw [Value.identifyItems_eq_map, valuesToJson_eq_map, valuesToJson_eq_map, List.map_map]
  apply List.map_congr_left
  intro item member
  simp only [Function.comp_apply, each item member]

theorem valueToJson_identify (value : Value) :
    valueToJson value.identify = valueToJson value := by
  induction value using Value.induction with
  | const text => rfl
  | empty => rfl
  | tuple entries ih =>
      rw [Value.identify, valueToJson_ofEntries, entriesToJson_identifyEntries ih]
      rfl
  | values items ih =>
      rw [Value.identify, valueToJson_ofItems, valuesToJson_identifyItems ih]
      rfl
  | results entries ih =>
      rw [Value.identify, valueToJson_ofEntries, entriesToJson_identifyEntries ih]
      rfl

/-- Two values have the same JSON exactly when they are the same up to their
spellings. -/
theorem valueToJson_eq_iff (first second : Value) :
    valueToJson first = valueToJson second ↔ first.identify = second.identify := by
  constructor
  · intro same
    rw [← toValue_valueToJson, ← toValue_valueToJson, same]
  · intro same
    rw [← valueToJson_identify, ← valueToJson_identify second, same]

/-- A tuple, the list of its results and a repeated name. -/
example :
    (Value.tuple [("frame", .const "a"), ("frame", .tuple [])]).identify =
      (Value.list (.results [("frame", .const "a"), ("frame", .list (.values []))])).identify :=
  rfl

end Framewalk
