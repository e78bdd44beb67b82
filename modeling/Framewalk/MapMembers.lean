import Framewalk.SteelValues

/-!
# Maps as JSON objects

Strings, symbols and characters are different keys of a Scheme map, but their
texts are keys of one JSON object, where the entry that is converted later
replaces the earlier one.  A map keeps its entries exactly when their texts are
different, or when some key has no text and the map is displayed instead.
-/

namespace Framewalk

open Utf8Text

theorem comesBefore_iff (text other : String) :
    comesBefore text other = true ↔
      List.Lex (fun byte next : UInt8 => decide (byte.toNat < next.toNat) = true) (asBytes text)
        (asBytes other) :=
  List.lex_eq_true_iff_lex _

theorem comesBefore_irrefl (text : String) : comesBefore text text = false := by
  rw [Bool.eq_false_iff, Ne, comesBefore_iff]
  apply List.lex_irrefl
  simp

theorem comesBefore_trans {first second third : String}
    (firstSecond : comesBefore first second = true)
    (secondThird : comesBefore second third = true) : comesBefore first third = true := by
  rw [comesBefore_iff] at firstSecond secondThird ⊢
  apply List.lex_trans _ firstSecond secondThird
  intro x y z
  simpa using Nat.lt_trans

theorem comesBefore_of_not {text other : String} (notBefore : ¬ comesBefore text other = true)
    (different : text ≠ other) : comesBefore other text = true := by
  by_contra notAfter
  rw [comesBefore_iff] at notBefore notAfter
  apply different
  apply asBytes_injective
  apply List.lex_trichotomous _ notAfter notBefore
  intro x y notLess notGreater
  apply UInt8.toNat_inj.mp
  simp only [decide_eq_true_eq] at notLess notGreater
  omega

def insertMembers (members : List (String × Json)) (added : List (String × Json)) :
    List (String × Json) :=
  added.foldl (fun members member => insertMember member.1 member.2 members) members

/-- The members stand in the order of their keys, each once. -/
def InOrder (members : List (String × Json)) : Prop :=
  members.Pairwise fun first second => comesBefore first.1 second.1 = true

theorem mem_keys_insertMember (key : String) (value : Json) (members : List (String × Json))
    (other : String) :
    other ∈ (insertMember key value members).map Prod.fst ↔
      other = key ∨ other ∈ members.map Prod.fst := by
  induction members with
  | nil => simp [insertMember]
  | cons member members ih =>
      unfold insertMember
      split_ifs with before same
      · simp
      · simp [same]
      · simp only [List.map_cons, List.mem_cons, ih]
        tauto

theorem InOrder.insertMember {members : List (String × Json)} (inOrder : InOrder members)
    (key : String) (value : Json) : InOrder (insertMember key value members) := by
  induction members with
  | nil => exact List.pairwise_singleton _ _
  | cons member members ih =>
      rcases List.pairwise_cons.mp inOrder with ⟨first, rest⟩
      unfold Framewalk.insertMember
      split_ifs with before same
      · rw [InOrder, List.pairwise_cons]
        refine ⟨?_, inOrder⟩
        intro other member
        rcases List.mem_cons.mp member with rfl | later
        · exact before
        · exact comesBefore_trans before (first other later)
      · subst same
        exact List.pairwise_cons.mpr ⟨first, rest⟩
      · rw [InOrder, List.pairwise_cons]
        refine ⟨?_, ih rest⟩
        intro other isMember
        have isKey : other.1 ∈ (Framewalk.insertMember key value members).map Prod.fst :=
          List.mem_map_of_mem isMember
        rcases (mem_keys_insertMember _ _ _ _).mp isKey with isNew | isOld
        · rw [isNew]
          exact comesBefore_of_not before same
        · rcases List.mem_map.mp isOld with ⟨old, isOld, sameKey⟩
          rw [← sameKey]
          exact first old isOld

theorem insertMember_perm {key : String} {members : List (String × Json)}
    (isNew : key ∉ members.map Prod.fst) (value : Json) :
    (insertMember key value members).Perm ((key, value) :: members) := by
  induction members with
  | nil => exact List.Perm.refl _
  | cons member members ih =>
      simp only [List.map_cons, List.mem_cons, not_or] at isNew
      unfold insertMember
      split_ifs with before same
      · exact List.Perm.refl _
      · exact absurd same isNew.1
      · exact ((ih isNew.2).cons member).trans (List.Perm.swap _ _ _)

theorem length_insertMember_of_mem {key : String} {members : List (String × Json)}
    (inOrder : InOrder members) (isKnown : key ∈ members.map Prod.fst) (value : Json) :
    (insertMember key value members).length = members.length := by
  induction members with
  | nil => simp at isKnown
  | cons member members ih =>
      rcases List.pairwise_cons.mp inOrder with ⟨first, rest⟩
      unfold insertMember
      split_ifs with before same
      · -- every known key stands behind the first one
        exfalso
        rw [List.map_cons, List.mem_cons] at isKnown
        rcases isKnown with rfl | isLater
        · rw [comesBefore_irrefl] at before
          cases before
        · rcases List.mem_map.mp isLater with ⟨later, isMember, rfl⟩
          have circle := comesBefore_trans before (first later isMember)
          rw [comesBefore_irrefl] at circle
          cases circle
      · rfl
      · rw [List.map_cons, List.mem_cons, or_iff_right same] at isKnown
        rw [List.length_cons, ih rest isKnown, List.length_cons]

theorem length_insertMember_le (key : String) (value : Json) (members : List (String × Json)) :
    (insertMember key value members).length ≤ members.length + 1 := by
  induction members with
  | nil => exact Nat.le_refl _
  | cons member members ih =>
      unfold insertMember
      split_ifs
      · exact Nat.le_refl _
      · simp
      · simpa using ih

theorem length_insertMembers_le (members added : List (String × Json)) :
    (insertMembers members added).length ≤ members.length + added.length := by
  induction added generalizing members with
  | nil => exact Nat.le_refl _
  | cons member added ih =>
      have rest := ih (insertMember member.1 member.2 members)
      have first := length_insertMember_le member.1 member.2 members
      simp only [insertMembers, List.foldl_cons, List.length_cons] at rest ⊢
      omega

theorem insertMembers_cons (members added : List (String × Json)) (member : String × Json) :
    insertMembers members (member :: added) =
      insertMembers (insertMember member.1 member.2 members) added :=
  rfl

/-- The added keys are new and different if the first is new and the others are
still new behind it. -/
theorem newKeys_cons {members added : List (String × Json)} {member : String × Json} :
    (((member :: added).map Prod.fst).Nodup ∧
        ∀ key ∈ (member :: added).map Prod.fst, key ∉ members.map Prod.fst) ↔
      member.1 ∉ members.map Prod.fst ∧ (added.map Prod.fst).Nodup ∧
        ∀ key ∈ added.map Prod.fst,
          key ∉ (insertMember member.1 member.2 members).map Prod.fst := by
  simp only [mem_keys_insertMember, List.map_cons, List.nodup_cons, List.forall_mem_cons, not_or]
  constructor
  · rintro ⟨⟨differs, distinct⟩, isNew, othersNew⟩
    refine ⟨isNew, distinct, ?_⟩
    intro key isAdded
    exact ⟨fun same => differs (same ▸ isAdded), othersNew key isAdded⟩
  · rintro ⟨isNew, distinct, othersNew⟩
    exact ⟨⟨fun isAdded => (othersNew member.1 isAdded).1 rfl, distinct⟩, isNew,
      fun key isAdded => (othersNew key isAdded).2⟩

/-- Every added member is counted exactly when its key is new every time. -/
theorem length_insertMembers_iff {members : List (String × Json)} (inOrder : InOrder members)
    (added : List (String × Json)) :
    (insertMembers members added).length = members.length + added.length ↔
      (added.map Prod.fst).Nodup ∧ ∀ key ∈ added.map Prod.fst, key ∉ members.map Prod.fst := by
  induction added generalizing members with
  | nil => simp [insertMembers]
  | cons member added ih =>
      rw [newKeys_cons, insertMembers_cons, List.length_cons]
      by_cases isKnown : member.1 ∈ members.map Prod.fst
      · have same := length_insertMember_of_mem inOrder isKnown member.2
        have bound := length_insertMembers_le (insertMember member.1 member.2 members) added
        refine iff_of_false (by omega) ?_
        exact fun isNew => isNew.1 isKnown
      · have longer := (insertMember_perm isKnown member.2).length_eq
        rw [List.length_cons] at longer
        rw [← ih (inOrder.insertMember member.1 member.2), longer, and_iff_right isKnown]
        omega

theorem insertMembers_perm {members added : List (String × Json)}
    (distinct : (added.map Prod.fst).Nodup)
    (isNew : ∀ key ∈ added.map Prod.fst, key ∉ members.map Prod.fst) :
    (insertMembers members added).Perm (added ++ members) := by
  induction added generalizing members with
  | nil => exact List.Perm.refl _
  | cons member added ih =>
      rcases newKeys_cons.mp ⟨distinct, isNew⟩ with ⟨first, distinct, others⟩
      rw [insertMembers_cons]
      exact (ih distinct others).trans
        (((insertMember_perm first member.2).append_left added).trans List.perm_middle)

def SteelVal.isContainer : SteelVal → Bool
  | .listV _ | .vectorV _ | .hashMapV _ => true
  | _ => false

/-- Induction over values, with the property for the items and the values of the
entries that they contain. -/
theorem SteelVal.induction {motive : SteelVal → Prop}
    (plain : ∀ value : SteelVal, value.isContainer = false → motive value)
    (listV : ∀ items, (∀ item ∈ items, motive item) → motive (.listV items))
    (vectorV : ∀ items, (∀ item ∈ items, motive item) → motive (.vectorV items))
    (hashMapV : ∀ entries, (∀ entry ∈ entries, motive entry.2) → motive (.hashMapV entries))
    (value : SteelVal) : motive value := by
  induction size : sizeOf value using Nat.strongRecOn generalizing value with
  | _ bound ih =>
      subst size
      cases value with
      | listV items =>
          apply listV items
          intro item member
          have := List.sizeOf_lt_of_mem member
          exact ih (sizeOf item) (by simp only [SteelVal.listV.sizeOf_spec]; omega) item rfl
      | vectorV items =>
          apply vectorV items
          intro item member
          have := List.sizeOf_lt_of_mem member
          exact ih (sizeOf item) (by simp only [SteelVal.vectorV.sizeOf_spec]; omega) item rfl
      | hashMapV entries =>
          apply hashMapV entries
          rintro ⟨key, value⟩ member
          have smaller := List.sizeOf_lt_of_mem member
          simp only [Prod.mk.sizeOf_spec] at smaller
          exact ih (sizeOf value) (by simp only [SteelVal.hashMapV.sizeOf_spec]; omega) value rfl
      | _ => exact plain _ rfl

def hasText (entry : SteelVal × SteelVal) : Bool :=
  (steelJsonObjectKey entry.1).isSome

/-- What the conversion of a value displays is cut cleanly.  A map is displayed if
some key has no text, and the values in front of the first such key are
converted all the same. -/
inductive ShowsCleanly (display : SteelVal → String) : SteelVal → Prop
  | boolV (flag : Bool) : ShowsCleanly display (.boolV flag)
  | finite {bits : UInt64} : isFiniteFloat bits = true → ShowsCleanly display (.numV bits)
  | numV {bits : UInt64} : CutsCleanly (display (.numV bits)) → ShowsCleanly display (.numV bits)
  | intV (value : Int64) : ShowsCleanly display (.intV value)
  | charV (character : Char) : ShowsCleanly display (.charV character)
  | void : ShowsCleanly display .void
  | stringV (text : String) : ShowsCleanly display (.stringV text)
  | symbolV (text : String) : ShowsCleanly display (.symbolV text)
  | listV {items : List SteelVal} :
      (∀ item ∈ items, ShowsCleanly display item) → ShowsCleanly display (.listV items)
  | vectorV {items : List SteelVal} :
      (∀ item ∈ items, ShowsCleanly display item) → ShowsCleanly display (.vectorV items)
  | hashMapV {entries : List (SteelVal × SteelVal)} :
      (∀ entry ∈ entries.takeWhile hasText, ShowsCleanly display entry.2) →
      (entries.all hasText = false → CutsCleanly (display (.hashMapV entries))) →
        ShowsCleanly display (.hashMapV entries)
  | other {identity : Nat} :
      CutsCleanly (display (.other identity)) → ShowsCleanly display (.other identity)

section Conversion

variable (display : SteelVal → String)

theorem fallbackJsonString_isSome_iff (value : SteelVal) :
    (fallbackJsonString display value).isSome ↔ CutsCleanly (display value) := by
  rw [fallbackJsonString, Option.isSome_map]
  constructor
  · intro shown
    by_contra unclean
    rw [truncateDisplayString_unclean unclean] at shown
    cases shown
  · intro clean
    rcases (truncateDisplayString_iff (display value)).mpr clean with ⟨shown, isShown, _⟩
    rw [isShown]
    rfl

theorem steelItemsToJson_isSome_iff (items : List SteelVal) :
    (steelItemsToJson display items).isSome ↔
      ∀ item ∈ items, (steelToJsonValue display item).isSome := by
  induction items with
  | nil => simp [steelItemsToJson]
  | cons item rest ih =>
      rw [List.forall_mem_cons, ← ih, steelItemsToJson]
      cases steelToJsonValue display item with
      | none => simp
      | some item =>
          cases steelItemsToJson display rest with
          | none => simp
          | some rest => simp

theorem steelHashMapToJson_isSome_iff (members : List (String × Json))
    (entries : List (SteelVal × SteelVal)) :
    (steelHashMapToJson display members entries).isSome ↔
      ∀ entry ∈ entries.takeWhile hasText, (steelToJsonValue display entry.2).isSome := by
  induction entries generalizing members with
  | nil => simp [steelHashMapToJson]
  | cons entry rest ih =>
      rcases entry with ⟨key, value⟩
      rw [steelHashMapToJson, List.takeWhile_cons]
      cases isKey : steelJsonObjectKey key with
      | none => simp [hasText, isKey]
      | some text =>
          have textual : hasText (key, value) = true := by rw [hasText, isKey]; rfl
          rw [if_pos textual, List.forall_mem_cons]
          cases steelToJsonValue display value with
          | none => simp
          | some json => simpa using ih (insertMember text json members)

/-- The members stand for the entries: the text of the key, and the JSON of the
value. -/
def Renders (entry : SteelVal × SteelVal) (member : String × Json) : Prop :=
  steelJsonObjectKey entry.1 = some member.1 ∧ steelToJsonValue display entry.2 = some member.2

theorem exists_of_steelHashMapToJson {members result : List (String × Json)}
    {entries : List (SteelVal × SteelVal)}
    (converted : steelHashMapToJson display members entries = some (some result)) :
    ∃ added, List.Forall₂ (Renders display) entries added ∧
      result = insertMembers members added := by
  induction entries generalizing members with
  | nil =>
      rw [steelHashMapToJson] at converted
      cases converted
      exact ⟨[], .nil, rfl⟩
  | cons entry rest ih =>
      rcases entry with ⟨key, value⟩
      rw [steelHashMapToJson] at converted
      split at converted
      · cases converted
      · next text isKey =>
          rw [Option.bind_eq_bind, Option.bind_eq_some_iff] at converted
          rcases converted with ⟨json, isJson, converted⟩
          rcases ih converted with ⟨added, renders, isResult⟩
          exact ⟨(text, json) :: added, .cons ⟨isKey, isJson⟩ renders, isResult⟩

/-- The result tells whether every key has a text. -/
theorem all_hasText_of_steelHashMapToJson {members : List (String × Json)}
    {entries : List (SteelVal × SteelVal)} {result : Option (List (String × Json))}
    (converted : steelHashMapToJson display members entries = some result) :
    entries.all hasText = result.isSome := by
  induction entries generalizing members with
  | nil =>
      rw [steelHashMapToJson] at converted
      cases converted
      rfl
  | cons entry rest ih =>
      rcases entry with ⟨key, value⟩
      rw [steelHashMapToJson] at converted
      rw [List.all_cons, hasText]
      split at converted
      · next isKey =>
          cases converted
          rw [isKey]
          rfl
      · next text isKey =>
          rw [Option.bind_eq_bind, Option.bind_eq_some_iff] at converted
          rcases converted with ⟨json, _, converted⟩
          rw [isKey, ih converted]
          rfl

/-- A map is displayed or becomes an object. -/
theorem steelToJsonValue_hashMapV (entries : List (SteelVal × SteelVal)) :
    steelToJsonValue display (.hashMapV entries) =
      (steelHashMapToJson display [] entries).bind fun
        | some members => some (.object members)
        | none => fallbackJsonString display (.hashMapV entries) := by
  rw [steelToJsonValue]
  rfl

theorem steelToJsonValue_hashMapV_isSome_iff (entries : List (SteelVal × SteelVal)) :
    (steelToJsonValue display (.hashMapV entries)).isSome ↔
      (∀ entry ∈ entries.takeWhile hasText, (steelToJsonValue display entry.2).isSome) ∧
        (entries.all hasText = false → CutsCleanly (display (.hashMapV entries))) := by
  rw [← steelHashMapToJson_isSome_iff display [], steelToJsonValue_hashMapV]
  cases converted : steelHashMapToJson display [] entries with
  | none => simp
  | some result =>
      rw [all_hasText_of_steelHashMapToJson display converted]
      cases result with
      | none => simpa using fallbackJsonString_isSome_iff display (.hashMapV entries)
      | some members => simp

theorem steelToJsonValue_isSome_iff_of_plain {value : SteelVal}
    (isPlain : value.isContainer = false) :
    (steelToJsonValue display value).isSome ↔ ShowsCleanly display value := by
  cases value with
  | boolV flag => exact iff_of_true rfl (.boolV flag)
  | intV value => exact iff_of_true rfl (.intV value)
  | charV character => exact iff_of_true rfl (.charV character)
  | void => exact iff_of_true rfl .void
  | stringV text => exact iff_of_true rfl (.stringV text)
  | symbolV text => exact iff_of_true rfl (.symbolV text)
  | other identity =>
      refine (fallbackJsonString_isSome_iff display (.other identity)).trans ?_
      exact ⟨.other, fun shows => by cases shows; assumption⟩
  | numV bits =>
      rw [steelToJsonValue]
      split_ifs with isFinite
      · exact iff_of_true rfl (.finite isFinite)
      · refine (fallbackJsonString_isSome_iff display (.numV bits)).trans ⟨.numV, ?_⟩
        intro shows
        cases shows with
        | finite other => exact absurd other isFinite
        | numV clean => exact clean
  | listV | vectorV | hashMapV => cases isPlain

/-- Lists and vectors become the array of their converted items. -/
theorem array_isSome_iff {items : List SteelVal}
    (each : ∀ item ∈ items, ((steelToJsonValue display item).isSome ↔ ShowsCleanly display item)) :
    ((steelItemsToJson display items).bind fun items => some (Json.array items)).isSome ↔
      ∀ item ∈ items, ShowsCleanly display item := by
  rw [← forall₂_congr each, ← steelItemsToJson_isSome_iff]
  cases steelItemsToJson display items <;> simp

/-- A conversion panics exactly where a text that it displays is cut inside a
character. -/
theorem steelToJsonValue_isSome_iff (value : SteelVal) :
    (steelToJsonValue display value).isSome ↔ ShowsCleanly display value := by
  induction value using SteelVal.induction with
  | plain value isPlain => exact steelToJsonValue_isSome_iff_of_plain display isPlain
  | listV items ih =>
      refine (array_isSome_iff display ih).trans ⟨.listV, ?_⟩
      intro shows
      cases shows with
      | listV each => exact each
  | vectorV items ih =>
      refine (array_isSome_iff display ih).trans ⟨.vectorV, ?_⟩
      intro shows
      cases shows with
      | vectorV each => exact each
  | hashMapV entries ih =>
      have eachEntry : ∀ entry ∈ entries.takeWhile hasText,
          ((steelToJsonValue display entry.2).isSome ↔ ShowsCleanly display entry.2) :=
        fun entry member => ih entry ((List.takeWhile_prefix hasText).subset member)
      rw [steelToJsonValue_hashMapV_isSome_iff, forall₂_congr eachEntry]
      constructor
      · rintro ⟨each, clean⟩
        exact .hashMapV each clean
      · intro shows
        cases shows with
        | hashMapV each clean => exact ⟨each, clean⟩

/-- The map is displayed as a whole, or each of its entries is a member of its
own. -/
def KeepsEntries (entries : List (SteelVal × SteelVal)) : Prop :=
  ∃ json, steelToJsonValue display (.hashMapV entries) = some json ∧
    (fallbackJsonString display (.hashMapV entries) = some json ∨
      ∃ members, json = .object members ∧ members.length = entries.length ∧
        ∀ entry ∈ entries, ∃ member ∈ members, Renders display entry member)

variable {display} {entries : List (SteelVal × SteelVal)}

theorem Renders.keys {added : List (String × Json)}
    (renders : List.Forall₂ (Renders display) entries added) :
    (entries.map fun entry => steelJsonObjectKey entry.1) = (added.map Prod.fst).map some := by
  induction renders with
  | nil => rfl
  | cons first _ ih => rw [List.map_cons, List.map_cons, List.map_cons, first.1, ih]

theorem Renders.exists_mem {added : List (String × Json)}
    (renders : List.Forall₂ (Renders display) entries added) :
    ∀ entry ∈ entries, ∃ member ∈ added, Renders display entry member := by
  induction renders with
  | nil => simp
  | cons first _ ih =>
      rw [List.forall_mem_cons]
      refine ⟨⟨_, List.mem_cons_self, first⟩, ?_⟩
      intro entry isEntry
      rcases ih entry isEntry with ⟨member, isMember, isRendered⟩
      exact ⟨member, List.mem_cons_of_mem _ isMember, isRendered⟩

/-- An object has every entry as a member exactly when the texts of the keys are
different. -/
theorem keeps_iff_of_object {members : List (String × Json)}
    (converted : steelHashMapToJson display [] entries = some (some members)) :
    (members.length = entries.length ∧
        ∀ entry ∈ entries, ∃ member ∈ members, Renders display entry member) ↔
      (entries.map fun entry => steelJsonObjectKey entry.1).Nodup := by
  rcases exists_of_steelHashMapToJson display converted with ⟨added, renders, rfl⟩
  have counted := length_insertMembers_iff List.Pairwise.nil added
  have noneKnown : ∀ key ∈ added.map Prod.fst, key ∉ ([] : List (String × Json)).map Prod.fst :=
    fun _ _ => List.not_mem_nil
  have someInjective : Function.Injective (some : String → Option String) :=
    fun _ _ => Option.some.inj
  rw [List.length_nil, Nat.zero_add, ← renders.length_eq, and_iff_left noneKnown] at counted
  rw [Renders.keys renders, List.nodup_map_iff someInjective, counted, and_iff_left_iff_imp]
  intro distinct entry isEntry
  rcases Renders.exists_mem renders entry isEntry with ⟨member, isAdded, isRendered⟩
  have kept := insertMembers_perm distinct noneKnown
  rw [List.append_nil] at kept
  exact ⟨member, kept.mem_iff.mpr isAdded, isRendered⟩

end Conversion

/-- A map keeps its entries exactly when what its conversion displays is cut
cleanly, and some key has no text or no two keys have the same one. -/
theorem keepsEntries_iff (display : SteelVal → String) (entries : List (SteelVal × SteelVal)) :
    KeepsEntries display entries ↔
      ShowsCleanly display (.hashMapV entries) ∧
        (entries.all hasText = false ∨
          (entries.map fun entry => steelJsonObjectKey entry.1).Nodup) := by
  rw [← steelToJsonValue_isSome_iff, KeepsEntries, steelToJsonValue_hashMapV]
  cases converted : steelHashMapToJson display [] entries with
  | none => simp
  | some result =>
      rw [all_hasText_of_steelHashMapToJson display converted]
      cases result with
      | none =>
          simp only [Option.bind_some, Option.isSome_none, true_or, and_true,
            Option.isSome_iff_exists]
          constructor
          · rintro ⟨json, isShown, _⟩
            exact ⟨json, isShown⟩
          · rintro ⟨json, isShown⟩
            exact ⟨json, isShown, Or.inl isShown⟩
      | some members =>
          rw [← keeps_iff_of_object converted]
          have notShown : fallbackJsonString display (.hashMapV entries) ≠
              some (.object members) := by
            intro isObject
            rw [fallbackJsonString, Option.map_eq_some_iff] at isObject
            rcases isObject with ⟨_, _, isObject⟩
            cases isObject
          simp only [Option.bind_some, Option.some.injEq, Option.isSome_some, Bool.true_eq_false,
            false_or, true_and, exists_eq_left', notShown]
          constructor
          · rintro ⟨others, isObject, kept⟩
            cases isObject
            exact kept
          · exact fun kept => ⟨members, rfl, kept⟩

/-- A string and a symbol of the same text. -/
def sameText : List (SteelVal × SteelVal) :=
  [(.stringV "a", .intV 1), (.symbolV "a", .intV 2)]

/-- They are different keys, and only one of them is left. -/
theorem sameText_drops_entry :
    SteelVal.equal (.stringV "a") (.symbolV "a") = false ∧
      steelToJsonValue (fun _ => "") (.hashMapV sameText) = some (.object [("a", .integer 2)]) ∧
      ¬ KeepsEntries (fun _ => "") sameText := by
  have converted : steelToJsonValue (fun _ => "") (.hashMapV sameText) =
      some (.object [("a", .integer 2)]) := by
    simp [sameText, steelToJsonValue, steelHashMapToJson, steelJsonObjectKey, insertMember,
      comesBefore_irrefl]
  refine ⟨by decide, converted, ?_⟩
  rintro ⟨json, isJson, isShown | ⟨members, isObject, length, _⟩⟩
  · rw [converted] at isJson
    cases isJson
    cases isShown
  · rw [converted, isObject] at isJson
    cases isJson
    cases length

end Framewalk
