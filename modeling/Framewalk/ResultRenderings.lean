import Framewalk.ResultJson
import Framewalk.SteelValues

/-!
# Both renderings of a result agree

A Scheme program is given the results of a command as entry maps, and what it
returns is turned into JSON member by member.  On results this detour ends at
the JSON that the native tools show.
-/

namespace Framewalk

theorem steelToJsonValue_entry (maps : SteelMaps) (display : SteelVal → String) (key : String)
    {value : SteelVal} {json : Json} (converted : steelToJsonValue display value = some json) :
    steelToJsonValue display (resultEntryToSteel maps key value) =
      some (.object [("name", .string key), ("value", json)]) := by
  have nameFirst : comesBefore "name" "value" = true := by decide +kernel
  have valueSecond : comesBefore "value" "name" = false := by decide +kernel
  rcases resultEntryToSteel_cases maps key value with isEntry | isEntry
  · rw [isEntry]
    simp [steelToJsonValue, steelHashMapToJson, steelJsonObjectKey, converted, insertMember,
      nameFirst]
  · rw [isEntry]
    simp [steelToJsonValue, steelHashMapToJson, steelJsonObjectKey, converted, insertMember,
      valueSecond]

theorem steelItemsToJson_entries (maps : SteelMaps) (display : SteelVal → String)
    {entries : List (String × Value)}
    (each : ∀ entry ∈ entries,
      steelToJsonValue display (valueToSteel maps entry.2) = some (valueToJson entry.2)) :
    steelItemsToJson display (entriesToSteel maps entries) = some (entriesToJson entries) := by
  induction entries with
  | nil => rfl
  | cons entry rest ih =>
      have first := steelToJsonValue_entry maps display entry.1 (each entry (by simp))
      have others := ih fun other member => each other (by simp [member])
      simp only [entriesToSteel, steelItemsToJson, first, others, Option.bind_eq_bind,
        Option.bind_some, entriesToJson]

theorem steelItemsToJson_items (maps : SteelMaps) (display : SteelVal → String)
    {items : List Value}
    (each : ∀ item ∈ items,
      steelToJsonValue display (valueToSteel maps item) = some (valueToJson item)) :
    steelItemsToJson display (itemsToSteel maps items) = some (valuesToJson items) := by
  induction items with
  | nil => rfl
  | cons item rest ih =>
      have first := each item (by simp)
      have others := ih fun other member => each other (by simp [member])
      simp only [itemsToSteel, steelItemsToJson, first, others, Option.bind_eq_bind,
        Option.bind_some, valuesToJson]

theorem steelToJsonValue_list {display : SteelVal → String} {items : List SteelVal}
    {json : List Json} (converted : steelItemsToJson display items = some json) :
    steelToJsonValue display (.listV items) = some (.array json) := by
  simp only [steelToJsonValue, converted, Option.bind_eq_bind, Option.bind_some]

theorem steelToJsonValue_valueToSteel (maps : SteelMaps) (display : SteelVal → String)
    (value : Value) :
    steelToJsonValue display (valueToSteel maps value) = some (valueToJson value) := by
  induction value using Value.induction with
  | const text => rfl
  | empty => rfl
  | tuple entries ih => exact steelToJsonValue_list (steelItemsToJson_entries maps display ih)
  | values items ih => exact steelToJsonValue_list (steelItemsToJson_items maps display ih)
  | results entries ih => exact steelToJsonValue_list (steelItemsToJson_entries maps display ih)

/-- In whatever order hash maps keep their entries and however other values are
displayed, a value, a list of results and a successful outcome have the same
JSON with Scheme as without. -/
theorem renderings_agree (maps : SteelMaps) (display : SteelVal → String) :
    (∀ value, steelToJsonValue display (valueToSteel maps value) = some (valueToJson value)) ∧
      (∀ results, steelToJsonValue display (resultsToSteel maps results) =
        some (resultsToJson results)) ∧
      ∀ outcome results, outcome = .done results ∨ outcome = .connected results →
        ∃ steel, outcomeToSteel maps outcome = .ok steel ∧
          steelToJsonValue display steel = some (resultsToJson results) := by
  have each := steelToJsonValue_valueToSteel maps display
  have whole : ∀ results, steelToJsonValue display (resultsToSteel maps results) =
      some (resultsToJson results) := by
    intro results
    apply steelToJsonValue_list
    exact steelItemsToJson_entries maps display fun entry _ => each entry.2
  refine ⟨each, whole, ?_⟩
  rintro outcome results (rfl | rfl)
  · exact ⟨_, rfl, whole results⟩
  · exact ⟨_, rfl, whole results⟩

/-- Two frames of one name, one of them with a list. -/
theorem renderings_agree_frames :
    steelToJsonValue (fun _ => "") (valueToSteel .newestFirst (.list (.results
        [("frame", .tuple [("level", .const "0")]), ("frame", .list (.values [.const "x"]))]))) =
      some (.array [
        .object [("name", .string "frame"),
          ("value", .array [.object [("name", .string "level"), ("value", .string "0")]])],
        .object [("name", .string "frame"), ("value", .array [.string "x"])]]) :=
  (renderings_agree .newestFirst fun _ => "").1 (.list (.results
    [("frame", .tuple [("level", .const "0")]), ("frame", .list (.values [.const "x"]))]))

end Framewalk
