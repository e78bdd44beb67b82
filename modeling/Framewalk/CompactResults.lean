import Framewalk.SteelValues

/-!
# Compacting results

The prelude's `compact` turns a list of entries with unique names into one hash
map and keeps a list with repeated names as a list of entries.  Such a list then
looks like a list of tuples with a name and a value each, so the two cannot be
told apart any more.
-/

namespace Framewalk

/-- What a key maps to.  A missing key is an error in Steel; every use here is
behind `isCompactEntry`. -/
def hashRef (map : SteelVal) (key : String) : SteelVal :=
  match map with
  | .hashMapV entries =>
      ((entries.find? fun entry => entry.1.equal (.stringV key)).map Prod.snd).getD .void
  | _ => .void

/-- A hash map with exactly the keys `name` and `value`. -/
def isCompactEntry : SteelVal → Bool
  | .hashMapV entries =>
      entries.length == 2 && entries.any (fun entry => entry.1.equal (.stringV "name")) &&
        entries.any fun entry => entry.1.equal (.stringV "value")
  | _ => false

def compactAllEntries : List SteelVal → Bool
  | [] => false
  | [item] => isCompactEntry item
  | item :: rest => isCompactEntry item && compactAllEntries rest

def compactSeen (needle : SteelVal) : List SteelVal → Bool
  | [] => false
  | item :: rest => if needle.equal item then true else compactSeen needle rest

def compactUniqueNames : List (SteelVal × SteelVal) → List SteelVal → Bool
  | [], _ => true
  | (name, _) :: rest, seen =>
      if compactSeen name seen then false else compactUniqueNames rest (name :: seen)

def compactPairsToHash (maps : SteelMaps) :
    List (SteelVal × SteelVal) → List (SteelVal × SteelVal) → List (SteelVal × SteelVal)
  | [], acc => acc
  | (name, value) :: rest, acc => compactPairsToHash maps rest (maps.insert acc name value)

theorem sizeOf_hashRef_lt {items : List SteelVal} {item : SteelVal} (member : item ∈ items)
    (key : String) : sizeOf (hashRef item key) < sizeOf (SteelVal.listV items) := by
  have itemBound := List.sizeOf_lt_of_mem member
  have inItem : sizeOf (hashRef item key) ≤ sizeOf item := by
    unfold hashRef
    split
    · next entries =>
        cases found : entries.find? fun entry => entry.1.equal (.stringV key) with
        | none => simp
        | some entry =>
            have entryBound := List.sizeOf_lt_of_mem (List.mem_of_find?_eq_some found)
            rcases entry with ⟨name, value⟩
            simp only [Prod.mk.sizeOf_spec] at entryBound
            simp only [Option.map_some, Option.getD_some, SteelVal.hashMapV.sizeOf_spec]
            omega
    · cases item <;> simp
  simp only [SteelVal.listV.sizeOf_spec]
  omega

/-- Collapse a list of entries with unique names to a hash map, at every
depth. -/
def compact (maps : SteelMaps) : SteelVal → SteelVal
  | .listV items =>
      if items.isEmpty then .hashMapV []
      else if compactAllEntries items then
        let pairs := items.map fun item =>
          (hashRef item "name", compact maps (hashRef item "value"))
        if compactUniqueNames pairs [] then .hashMapV (compactPairsToHash maps pairs [])
        else .listV (items.map fun item => .hashMapV
          (maps.insert (maps.insert [] (.stringV "name") (hashRef item "name"))
            (.stringV "value") (compact maps (hashRef item "value"))))
      else .listV (items.map fun item => compact maps item)
  | value => value
termination_by value => sizeOf value
decreasing_by
  · exact sizeOf_hashRef_lt (by assumption) "value"
  · exact sizeOf_hashRef_lt (by assumption) "value"
  · have := List.sizeOf_lt_of_mem (by assumption : item ∈ items)
    simp only [SteelVal.listV.sizeOf_spec]
    omega

section Entries

variable (maps : SteelMaps) (key : String) (value : SteelVal)

theorem isCompactEntry_resultEntry :
    isCompactEntry (resultEntryToSteel maps key value) = true := by
  rcases resultEntryToSteel_cases maps key value with isEntry | isEntry
  · rw [isEntry]
    simp [isCompactEntry, SteelVal.equal]
  · rw [isEntry]
    simp [isCompactEntry, SteelVal.equal]

theorem hashRef_name_resultEntry :
    hashRef (resultEntryToSteel maps key value) "name" = .stringV key := by
  rcases resultEntryToSteel_cases maps key value with isEntry | isEntry
  · rw [isEntry]
    simp [hashRef, SteelVal.equal]
  · rw [isEntry]
    simp [hashRef, SteelVal.equal]

theorem hashRef_value_resultEntry :
    hashRef (resultEntryToSteel maps key value) "value" = value := by
  rcases resultEntryToSteel_cases maps key value with isEntry | isEntry
  · rw [isEntry]
    simp [hashRef, SteelVal.equal]
  · rw [isEntry]
    simp [hashRef, SteelVal.equal]

end Entries

theorem compactAllEntries_of_forall {items : List SteelVal} (nonempty : items ≠ [])
    (each : ∀ item ∈ items, isCompactEntry item = true) : compactAllEntries items = true := by
  induction items with
  | nil => exact absurd rfl nonempty
  | cons item rest ih =>
      cases rest with
      | nil => exact each item (by simp)
      | cons next rest =>
          rw [compactAllEntries, each item (by simp), Bool.true_and]
          · exact ih (List.cons_ne_nil _ _) fun other member => each other (by simp [member])
          · exact List.cons_ne_nil _ _

theorem compactSeen_iff (name : String) (seen : List String) :
    compactSeen (.stringV name) (seen.map .stringV) = true ↔ name ∈ seen := by
  induction seen with
  | nil => simp [compactSeen]
  | cons other rest ih => simp [compactSeen, SteelVal.equal, ih]

/-- Names are unique if no later one repeats them or one seen before. -/
theorem compactUniqueNames_iff {α : Type} (value : α → SteelVal) (entries : List (String × α))
    (seen : List String) :
    compactUniqueNames (entries.map fun entry => (.stringV entry.1, value entry.2))
        (seen.map .stringV) = true ↔
      (entries.map Prod.fst).Nodup ∧ ∀ entry ∈ entries, entry.1 ∉ seen := by
  induction entries generalizing seen with
  | nil => simp [compactUniqueNames]
  | cons entry rest ih =>
      have behind := ih (entry.1 :: seen)
      rw [List.map_cons] at behind
      rw [List.map_cons, compactUniqueNames]
      by_cases isSeen : entry.1 ∈ seen
      · rw [if_pos ((compactSeen_iff entry.1 seen).mpr isSeen)]
        simp [isSeen]
      · rw [if_neg (mt (compactSeen_iff entry.1 seen).mp isSeen), behind]
        simp only [List.map_cons, List.nodup_cons, List.mem_map, List.mem_cons, not_or]
        grind

/-- Inserting entries under different names keeps them all. -/
theorem compactPairsToHash_perm {α : Type} (maps : SteelMaps) (value : α → SteelVal)
    {entries done : List (String × α)}
    (unique : ((entries ++ done).map Prod.fst).Nodup) {acc : List (SteelVal × SteelVal)}
    (isDone : acc.Perm (done.map fun entry => (.stringV entry.1, value entry.2))) :
    (compactPairsToHash maps (entries.map fun entry => (.stringV entry.1, value entry.2))
      acc).Perm ((entries ++ done).map fun entry => (.stringV entry.1, value entry.2)) := by
  induction entries generalizing done acc with
  | nil => exact isDone
  | cons entry rest ih =>
      rw [List.cons_append, List.map_cons, List.nodup_cons] at unique
      have reordered : (rest ++ entry :: done).Perm (entry :: (rest ++ done)) :=
        List.perm_middle
      have others : (acc.filter fun other => !other.1.equal (.stringV entry.1)) = acc := by
        rw [List.filter_eq_self]
        intro other member
        obtain ⟨old, oldMember, rfl⟩ := List.mem_map.mp (isDone.mem_iff.mp member)
        have notSame : old.1 ≠ entry.1 := by
          intro same
          apply unique.1
          rw [← same]
          exact List.mem_map_of_mem (List.mem_append_right rest oldMember)
        simpa [SteelVal.equal] using notSame
      have inserted := maps.insert_perm acc (.stringV entry.1) (value entry.2)
      rw [others] at inserted
      have nowDone : (maps.insert acc (.stringV entry.1) (value entry.2)).Perm
          ((entry :: done).map fun entry => (.stringV entry.1, value entry.2)) :=
        inserted.trans (isDone.cons _)
      have stillUnique : ((rest ++ entry :: done).map Prod.fst).Nodup := by
        rw [(reordered.map Prod.fst).nodup_iff, List.map_cons, List.nodup_cons]
        exact unique
      exact (ih stillUnique nowDone).trans (reordered.map _)

/-- What Scheme is left with of a value after `compact`. -/
def compacted (maps : SteelMaps) (value : Value) : SteelVal :=
  compact maps (valueToSteel maps value)

/-- The entries of a value as Scheme keys with compacted values. -/
def compactedPairs (maps : SteelMaps) (entries : List (String × Value)) :
    List (SteelVal × SteelVal) :=
  entries.map fun entry => (.stringV entry.1, compacted maps entry.2)

/-- The results that a value lists, as a tuple or as a list of results. -/
def Value.entries? : Value → Option (List (String × Value))
  | .tuple entries => some entries
  | .list (.results entries) => some entries
  | .const _ | .list .empty | .list (.values _) => none

def Value.isEmpty : Value → Bool
  | .tuple entries => entries.isEmpty
  | .list (.results entries) => entries.isEmpty
  | .list (.values items) => items.isEmpty
  | .list .empty => true
  | .const _ => false

/-- A value is a constant, empty, a list of values or a list of results. -/
inductive Value.Shape : Value → Prop
  | const (text : String) : Shape (.const text)
  | empty {value : Value} : value.isEmpty = true → Shape value
  | items {items : List Value} : items ≠ [] → Shape (.list (.values items))
  | entries {value : Value} {entries : List (String × Value)} :
      entries ≠ [] → value.entries? = some entries → Shape value

theorem Value.shape (value : Value) : value.Shape := by
  cases value with
  | const text => exact .const text
  | tuple entries =>
      cases entries with
      | nil => exact .empty rfl
      | cons entry rest => exact .entries (List.cons_ne_nil entry rest) rfl
  | list items =>
      cases items with
      | empty => exact .empty rfl
      | values items =>
          cases items with
          | nil => exact .empty rfl
          | cons item rest => exact .items (List.cons_ne_nil item rest)
      | results entries =>
          cases entries with
          | nil => exact .empty rfl
          | cons entry rest => exact .entries (List.cons_ne_nil entry rest) rfl

theorem compacted_const (maps : SteelMaps) (text : String) :
    compacted maps (.const text) = .stringV text := by
  rw [compacted, valueToSteel, compact]
  intro items isList
  cases isList

theorem Value.isEmpty_eq_true {value : Value} : value.isEmpty = true ↔
    value = .tuple [] ∨ value = .list .empty ∨ value = .list (.values []) ∨
      value = .list (.results []) := by
  cases value with
  | const text => simp [Value.isEmpty]
  | tuple entries => simp [Value.isEmpty]
  | list items => cases items <;> simp [Value.isEmpty]

theorem compacted_empty (maps : SteelMaps) {value : Value} (isEmpty : value.isEmpty = true) :
    compacted maps value = .hashMapV [] := by
  have noItems : valueToSteel maps value = .listV [] := by
    rcases Value.isEmpty_eq_true.mp isEmpty with rfl | rfl | rfl | rfl <;> rfl
  rw [compacted, noItems, compact]
  rfl

theorem Value.entries?_eq_some {value : Value} {entries : List (String × Value)} :
    value.entries? = some entries ↔
      value = .tuple entries ∨ value = .list (.results entries) := by
  cases value with
  | const text => simp [Value.entries?]
  | tuple own => simp [Value.entries?]
  | list items => cases items <;> simp [Value.entries?]

theorem valueToSteel_of_entries (maps : SteelMaps) {value : Value}
    {entries : List (String × Value)} (isEntries : value.entries? = some entries) :
    valueToSteel maps value = .listV (entriesToSteel maps entries) := by
  rcases Value.entries?_eq_some.mp isEntries with rfl | rfl <;> rfl

section Entries

variable (maps : SteelMaps) {entries : List (String × Value)}

theorem map_hashRef_entries :
    ((entriesToSteel maps entries).map fun item =>
        (hashRef item "name", compact maps (hashRef item "value"))) =
      compactedPairs maps entries := by
  rw [entriesToSteel_eq_map, List.map_map]
  apply List.map_congr_left
  intro entry _
  simp only [Function.comp_apply, hashRef_name_resultEntry, hashRef_value_resultEntry]
  rfl

theorem compact_entries (nonempty : entries ≠ []) :
    compact maps (.listV (entriesToSteel maps entries)) =
      if (entries.map Prod.fst).Nodup then
        .hashMapV (compactPairsToHash maps (compactedPairs maps entries) [])
      else .listV (entries.map fun entry =>
        resultEntryToSteel maps entry.1 (compacted maps entry.2)) := by
  have notEmpty : (entriesToSteel maps entries).isEmpty = false := by
    rw [entriesToSteel_eq_map]
    simpa using nonempty
  have allEntries : compactAllEntries (entriesToSteel maps entries) = true := by
    rw [entriesToSteel_eq_map]
    apply compactAllEntries_of_forall (by simpa using nonempty)
    intro item member
    obtain ⟨entry, _, rfl⟩ := List.mem_map.mp member
    exact isCompactEntry_resultEntry maps entry.1 _
  have uniqueNames : compactUniqueNames (compactedPairs maps entries) [] = true ↔
      (entries.map Prod.fst).Nodup := by
    have general := compactUniqueNames_iff (compacted maps) entries []
    simpa [compactedPairs] using general
  have rebuilt : ((entriesToSteel maps entries).map fun item => SteelVal.hashMapV
      (maps.insert (maps.insert [] (.stringV "name") (hashRef item "name")) (.stringV "value")
        (compact maps (hashRef item "value")))) =
      entries.map fun entry => resultEntryToSteel maps entry.1 (compacted maps entry.2) := by
    rw [entriesToSteel_eq_map, List.map_map]
    apply List.map_congr_left
    intro entry _
    simp only [Function.comp_apply, hashRef_name_resultEntry, hashRef_value_resultEntry]
    rfl
  rw [compact, notEmpty, allEntries, map_hashRef_entries, rebuilt]
  simp only [Bool.false_eq_true, if_false, if_true, uniqueNames]

end Entries

section Forms

variable (maps : SteelMaps) {value : Value} {entries : List (String × Value)}

theorem compacted_items {items : List Value} (nonempty : items ≠ []) :
    compacted maps (.list (.values items)) = .listV (items.map (compacted maps)) := by
  have steel : valueToSteel maps (.list (.values items)) =
      .listV (items.map (valueToSteel maps)) := by
    rw [valueToSteel, itemsToSteel_eq_map]
  have notEmpty : (items.map (valueToSteel maps)).isEmpty = false := by simpa using nonempty
  have notEntries : compactAllEntries (items.map (valueToSteel maps)) = false := by
    obtain ⟨item, rest, rfl⟩ := List.exists_cons_of_ne_nil nonempty
    have notEntry : isCompactEntry (valueToSteel maps item) = false := by
      cases item with
      | const text => rfl
      | tuple own => rfl
      | list items => cases items <;> rfl
    cases rest with
    | nil => exact notEntry
    | cons next rest => simp [compactAllEntries, notEntry]
  rw [compacted, steel, compact, notEmpty, notEntries]
  simp [compacted]

/-- Results with unique names become a hash map. -/
theorem compacted_unique (isEntries : value.entries? = some entries)
    (nonempty : entries ≠ []) (unique : (entries.map Prod.fst).Nodup) :
    ∃ hash, compacted maps value = .hashMapV hash ∧
      hash.Perm (compactedPairs maps entries) := by
  refine ⟨compactPairsToHash maps (compactedPairs maps entries) [], ?_, ?_⟩
  · rw [compacted, valueToSteel_of_entries maps isEntries, compact_entries maps nonempty,
      if_pos unique]
  · have stillUnique : ((entries ++ []).map Prod.fst).Nodup := by simpa using unique
    have inserted := compactPairsToHash_perm maps (compacted maps) stillUnique (List.Perm.refl _)
    simpa [compactedPairs] using inserted

/-- Results with repeated names stay a list of entries. -/
theorem compacted_repeated (isEntries : value.entries? = some entries)
    (repeated : ¬(entries.map Prod.fst).Nodup) :
    compacted maps value = .listV (entries.map fun entry =>
      resultEntryToSteel maps entry.1 (compacted maps entry.2)) := by
  have nonempty : entries ≠ [] := by
    rintro rfl
    exact repeated List.nodup_nil
  rw [compacted, valueToSteel_of_entries maps isEntries, compact_entries maps nonempty,
    if_neg repeated]

/-- The forms that are left of a value. -/
inductive Compacts : Value → SteelVal → Prop
  | const (text : String) : Compacts (.const text) (.stringV text)
  | empty {value : Value} : value.isEmpty = true → Compacts value (.hashMapV [])
  | items {items : List Value} : items ≠ [] →
      Compacts (.list (.values items)) (.listV (items.map (compacted maps)))
  | unique {value : Value} {entries : List (String × Value)} {hash : List (SteelVal × SteelVal)} :
      value.entries? = some entries → entries ≠ [] → (entries.map Prod.fst).Nodup →
      hash.Perm (compactedPairs maps entries) → Compacts value (.hashMapV hash)
  | repeated {value : Value} {entries : List (String × Value)} :
      value.entries? = some entries → ¬(entries.map Prod.fst).Nodup →
      Compacts value (.listV (entries.map fun entry =>
        resultEntryToSteel maps entry.1 (compacted maps entry.2)))

theorem compacts (value : Value) : Compacts maps value (compacted maps value) := by
  cases value.shape with
  | const text =>
      rw [compacted_const]
      exact .const text
  | empty isEmpty =>
      rw [compacted_empty maps isEmpty]
      exact .empty isEmpty
  | items nonempty =>
      rw [compacted_items maps nonempty]
      exact .items nonempty
  | @entries _ entries nonempty isEntries =>
      by_cases isUnique : (entries.map Prod.fst).Nodup
      · obtain ⟨hash, isHash, isPerm⟩ := compacted_unique maps isEntries nonempty isUnique
        rw [isHash]
        exact .unique isEntries nonempty isUnique isPerm
      · rw [compacted_repeated maps isEntries isUnique]
        exact .repeated isEntries isUnique

end Forms

end Framewalk
