import Framewalk.CompactResults

/-!
# What `compact` keeps

`compact` is injective on a value, up to the spellings it is meant to identify,
exactly when nothing in the value repeats a name.  Results with a repeated name
are kept as a list of entries, which is also what a list of tuples becomes that
have a name and a value each.
-/

namespace Framewalk

section Equality

variable {first second : List SteelVal}

theorem equalItems_iff : SteelVal.equalItems first second = true ↔
    List.Forall₂ (fun item other => item.equal other = true) first second := by
  induction first generalizing second with
  | nil => cases second <;> simp [SteelVal.equalItems]
  | cons item rest ih => cases second <;> simp [SteelVal.equalItems, ih]

theorem equal_listV_iff : (SteelVal.listV first).equal (.listV second) = true ↔
    List.Forall₂ (fun item other => item.equal other = true) first second := by
  rw [SteelVal.equal, equalItems_iff]

@[simp] theorem equal_strings_iff {text own : String} :
    (SteelVal.stringV text).equal (.stringV own) = true ↔ text = own := by
  simp [SteelVal.equal]

theorem entriesWithin_iff {entries others : List (SteelVal × SteelVal)} :
    SteelVal.entriesWithin entries others = true ↔
      ∀ entry ∈ entries, ∃ other ∈ others,
        entry.1.equal other.1 = true ∧ entry.2.equal other.2 = true := by
  induction entries with
  | nil => simp [SteelVal.entriesWithin]
  | cons entry rest ih => simp [SteelVal.entriesWithin, ih]

theorem equal_hashMapV_iff {entries others : List (SteelVal × SteelVal)} :
    (SteelVal.hashMapV entries).equal (.hashMapV others) = true ↔
      entries.length = others.length ∧ ∀ entry ∈ entries, ∃ other ∈ others,
        entry.1.equal other.1 = true ∧ entry.2.equal other.2 = true := by
  rw [SteelVal.equal, Bool.and_eq_true, beq_iff_eq, entriesWithin_iff]

end Equality

namespace Value

/-- The same entries, in another order if their names are unique. -/
def Arranged (entries arranged : List (String × Value)) : Prop :=
  arranged = entries ∨ (entries.map Prod.fst).Nodup ∧ arranged.Perm entries

/-- Values are alike up to the order of uniquely named fields, between a tuple
and a list of results, and if both are empty. -/
inductive Alike : Value → Value → Prop
  | const (text : String) : Alike (.const text) (.const text)
  | empty {value other : Value} : value.isEmpty = true → other.isEmpty = true → Alike value other
  | items {items others : List Value} : List.Forall₂ Alike items others →
      Alike (.list (.values items)) (.list (.values others))
  | entries {value other : Value} {entries others arranged : List (String × Value)} :
      value.entries? = some entries → other.entries? = some others → Arranged others arranged →
      entries.map Prod.fst = arranged.map Prod.fst →
      List.Forall₂ Alike (entries.map Prod.snd) (arranged.map Prod.snd) → Alike value other

/-- A tuple of a name and a value, in either order. -/
def Lists (item : Value) (entry : String × Value) : Prop :=
  ∃ entries, item.entries? = some entries ∧
    entries.Perm [("name", .const entry.1), ("value", entry.2)]

/-- Results with a repeated name, or a list of tuples that look like these. -/
def RepeatsName : Value → Prop
  | .const _ | .list .empty => False
  | .tuple entries | .list (.results entries) => ¬(entries.map Prod.fst).Nodup
  | .list (.values items) =>
      ∃ listed, List.Forall₂ Lists items listed ∧ ¬(listed.map Prod.fst).Nodup

def children : Value → List Value
  | .const _ | .list .empty => []
  | .tuple entries | .list (.results entries) => entries.map Prod.snd
  | .list (.values items) => items

/-- A value at some depth of another. -/
inductive Within : Value → Value → Prop
  | refl (value : Value) : Within value value
  | child {part child value : Value} : child ∈ value.children → Within part child →
      Within part value

/-- Nothing in the value repeats a name. -/
def Unambiguous (value : Value) : Prop :=
  ∀ part, Within part value → ¬part.RepeatsName

theorem unambiguous_iff {value : Value} : value.Unambiguous ↔
    ¬value.RepeatsName ∧ ∀ child ∈ value.children, child.Unambiguous := by
  constructor
  · intro unambiguous
    constructor
    · exact unambiguous value (.refl value)
    · intro child member part within
      exact unambiguous part (.child member within)
  · rintro ⟨noRepeat, inChildren⟩ part within
    cases within with
    | refl => exact noRepeat
    | child member within => exact inChildren _ member part within

theorem children_induction {motive : Value → Prop}
    (step : ∀ value, (∀ child ∈ value.children, motive child) → motive value) (value : Value) :
    motive value := by
  induction value using Value.induction with
  | const text => exact step _ (by simp [children])
  | tuple entries ih =>
      apply step
      intro child member
      obtain ⟨entry, entryMember, rfl⟩ := List.mem_map.mp member
      exact ih entry entryMember
  | empty => exact step _ (by simp [children])
  | values items ih => exact step _ ih
  | results entries ih =>
      apply step
      intro child member
      obtain ⟨entry, entryMember, rfl⟩ := List.mem_map.mp member
      exact ih entry entryMember

section Entries

variable {value : Value} {entries : List (String × Value)}

theorem children_of_entries (isEntries : value.entries? = some entries) :
    value.children = entries.map Prod.snd := by
  rcases entries?_eq_some.mp isEntries with rfl | rfl <;> rfl

theorem repeatsName_of_entries (isEntries : value.entries? = some entries) :
    value.RepeatsName ↔ ¬(entries.map Prod.fst).Nodup := by
  rcases entries?_eq_some.mp isEntries with rfl | rfl <;> rfl

end Entries

theorem children_of_isEmpty {value : Value} (isEmpty : value.isEmpty = true) :
    value.children = [] := by
  rcases isEmpty_eq_true.mp isEmpty with rfl | rfl | rfl | rfl <;> rfl

theorem not_repeatsName_of_isEmpty {value : Value} (isEmpty : value.isEmpty = true) :
    ¬value.RepeatsName := by
  rcases isEmpty_eq_true.mp isEmpty with rfl | rfl | rfl | rfl
  · exact not_not.mpr List.nodup_nil
  · exact not_false
  · rintro ⟨listed, areListed, repeated⟩
    cases areListed
    exact repeated List.nodup_nil
  · exact not_not.mpr List.nodup_nil

end Value

section Forms

variable (maps : SteelMaps) {value other : Value} {entries others : List (String × Value)}

theorem equal_compactedPairs_iff {hash otherHash : List (SteelVal × SteelVal)}
    {target : List (String × SteelVal)} (isPerm : hash.Perm (compactedPairs maps entries))
    (isTarget : otherHash.Perm (target.map fun entry => (.stringV entry.1, entry.2))) :
    (SteelVal.hashMapV hash).equal (.hashMapV otherHash) = true ↔
      entries.length = target.length ∧ ∀ entry ∈ entries, ∃ other ∈ target,
        entry.1 = other.1 ∧ (compacted maps entry.2).equal other.2 = true := by
  rw [equal_hashMapV_iff, isPerm.length_eq, isTarget.length_eq]
  simp only [compactedPairs, List.length_map, isPerm.mem_iff, isTarget.mem_iff,
    List.forall_mem_map]
  simp only [List.mem_map, exists_exists_and_eq_and, equal_strings_iff]

theorem equal_hashes_iff {hash otherHash : List (SteelVal × SteelVal)}
    (isPerm : hash.Perm (compactedPairs maps entries))
    (isOther : otherHash.Perm (compactedPairs maps others)) :
    (SteelVal.hashMapV hash).equal (.hashMapV otherHash) = true ↔
      entries.length = others.length ∧ ∀ entry ∈ entries, ∃ next ∈ others,
        entry.1 = next.1 ∧ (compacted maps entry.2).equal (compacted maps next.2) = true := by
  have isTarget : otherHash.Perm
      ((others.map fun entry => (entry.1, compacted maps entry.2)).map fun entry =>
        (.stringV entry.1, entry.2)) := by
    simpa [compactedPairs, Function.comp_def] using isOther
  rw [equal_compactedPairs_iff maps isPerm isTarget, List.length_map]
  simp only [List.mem_map, exists_exists_and_eq_and]

theorem equal_stringV_iff (text : String) :
    (compacted maps value).equal (.stringV text) = true ↔ value = .const text := by
  constructor
  · have form := compacts maps value
    intro equal
    generalize compacted maps value = left at form equal
    cases form with
    | const own => rw [equal_strings_iff.mp equal]
    | empty | items | unique | repeated => cases equal
  · rintro rfl
    rw [compacted_const, equal_strings_iff]

/-- An entry as a hash map, up to the order of its two keys. -/
theorem resultEntryToSteel_perm (name : String) (own : SteelVal) :
    ∃ hash, resultEntryToSteel maps name own = .hashMapV hash ∧
      hash.Perm ([("name", .stringV name), ("value", own)].map fun entry =>
        (.stringV entry.1, entry.2)) := by
  rcases resultEntryToSteel_cases maps name own with isEntry | isEntry
  · exact ⟨_, isEntry, List.Perm.swap _ _ _⟩
  · exact ⟨_, isEntry, List.Perm.refl _⟩

/-- Two results with different names, one a name and the other a value. -/
theorem exists_listed {name : String} (holds : Value → Prop)
    (unique : (entries.map Prod.fst).Nodup) (two : entries.length = 2)
    (each : ∀ entry ∈ entries,
      entry.1 = "name" ∧ entry.2 = .const name ∨ entry.1 = "value" ∧ holds entry.2) :
    ∃ own, entries.Perm [("name", .const name), ("value", own)] ∧ holds own := by
  obtain ⟨⟨firstName, first⟩, ⟨secondName, second⟩, rfl⟩ := List.length_eq_two.mp two
  have different : firstName ≠ secondName := by simpa using unique
  have isFirst := each (firstName, first) (by simp)
  have isSecond := each (secondName, second) (by simp)
  simp only at isFirst isSecond
  rcases isFirst with ⟨rfl, rfl⟩ | ⟨rfl, isValue⟩
  · rcases isSecond with ⟨rfl, rfl⟩ | ⟨rfl, isValue⟩
    · exact absurd rfl different
    · exact ⟨second, List.Perm.refl _, isValue⟩
  · rcases isSecond with ⟨rfl, rfl⟩ | ⟨rfl, _⟩
    · exact ⟨first, List.Perm.swap _ _ _, isValue⟩
    · exact absurd rfl different

theorem lists_of_equal {name : String} {own : SteelVal}
    (equal : (compacted maps value).equal (resultEntryToSteel maps name own) = true) :
    ∃ listed, value.Lists (name, listed) ∧ (compacted maps listed).equal own = true := by
  obtain ⟨entry, isEntry, entryPerm⟩ := resultEntryToSteel_perm maps name own
  rw [isEntry] at equal
  have form := compacts maps value
  generalize compacted maps value = left at form equal
  cases form with
  | const | items | repeated => cases equal
  | empty =>
      rw [equal_hashMapV_iff, entryPerm.length_eq] at equal
      cases equal.1
  | @unique _ entries hash isEntries nonempty unique hashPerm =>
      rw [equal_compactedPairs_iff maps hashPerm entryPerm] at equal
      obtain ⟨two, each⟩ := equal
      simp only [List.mem_cons, List.not_mem_nil, or_false, exists_eq_or_imp, exists_eq_left,
        equal_stringV_iff] at each
      obtain ⟨listed, isPerm, isValue⟩ :=
        exists_listed (fun listed => (compacted maps listed).equal own = true) unique two each
      exact ⟨listed, ⟨entries, isEntries, isPerm⟩, isValue⟩

theorem equal_of_lists {name : String} {listed : Value} {own : SteelVal}
    (isListed : value.Lists (name, listed)) (equal : (compacted maps listed).equal own = true) :
    (compacted maps value).equal (resultEntryToSteel maps name own) = true := by
  obtain ⟨entries, isEntries, isPerm⟩ := isListed
  obtain ⟨entry, isEntry, entryPerm⟩ := resultEntryToSteel_perm maps name own
  have unique : (entries.map Prod.fst).Nodup := by
    rw [(isPerm.map Prod.fst).nodup_iff]
    simp
  have nonempty : entries ≠ [] := by
    rintro rfl
    cases isPerm.length_eq
  obtain ⟨hash, isHash, hashPerm⟩ := compacted_unique maps isEntries nonempty unique
  rw [isEntry, isHash, equal_compactedPairs_iff maps hashPerm entryPerm]
  constructor
  · exact isPerm.length_eq
  · simp only [isPerm.mem_iff, List.mem_cons, List.not_mem_nil, or_false, exists_eq_or_imp,
      exists_eq_left, equal_stringV_iff]
    rintro entry (rfl | rfl)
    · exact Or.inl ⟨rfl, rfl⟩
    · exact Or.inr ⟨rfl, equal⟩

theorem equal_resultEntries (name : String) {first second : SteelVal}
    (equal : first.equal second = true) :
    (resultEntryToSteel maps name first).equal (resultEntryToSteel maps name second) = true := by
  obtain ⟨entry, isEntry, entryPerm⟩ := resultEntryToSteel_perm maps name first
  obtain ⟨other, isOther, otherPerm⟩ := resultEntryToSteel_perm maps name second
  rw [isEntry, isOther, equal_hashMapV_iff, entryPerm.length_eq, otherPerm.length_eq]
  simp only [entryPerm.mem_iff, otherPerm.mem_iff]
  simp [equal]

theorem equal_of_entries (isEntries : value.entries? = some entries)
    (isOther : other.entries? = some others) (unique : (entries.map Prod.fst).Nodup)
    (nonempty : entries ≠ []) (sameNames : entries.map Prod.fst = others.map Prod.fst)
    (each : ∀ entry ∈ entries, ∃ next ∈ others,
      entry.1 = next.1 ∧ (compacted maps entry.2).equal (compacted maps next.2) = true) :
    (compacted maps value).equal (compacted maps other) = true := by
  have sameLength : entries.length = others.length := by
    simpa using congrArg List.length sameNames
  have otherNonempty : others ≠ [] := by
    rw [← List.length_pos_iff, ← sameLength]
    exact List.length_pos_iff.mpr nonempty
  obtain ⟨hash, isHash, hashPerm⟩ := compacted_unique maps isEntries nonempty unique
  obtain ⟨otherHash, isOtherHash, otherPerm⟩ :=
    compacted_unique maps isOther otherNonempty (sameNames ▸ unique)
  rw [isHash, isOtherHash, equal_hashes_iff maps hashPerm otherPerm]
  exact ⟨sameLength, each⟩

theorem compacted_equal_self (value : Value) :
    (compacted maps value).equal (compacted maps value) = true := by
  induction value using Value.children_induction with
  | step value ih =>
      cases value.shape with
      | const text => simp [compacted_const]
      | empty isEmpty => simp [compacted_empty maps isEmpty, equal_hashMapV_iff]
      | items nonempty =>
          rw [compacted_items maps nonempty, equal_listV_iff, List.forall₂_map_left_iff,
            List.forall₂_map_right_iff, List.forall₂_same]
          exact ih
      | @entries _ entries nonempty isEntries =>
          rw [Value.children_of_entries isEntries, List.forall_mem_map] at ih
          by_cases unique : (entries.map Prod.fst).Nodup
          · apply equal_of_entries maps isEntries isEntries unique nonempty rfl
            intro entry member
            exact ⟨entry, member, rfl, ih entry member⟩
          · rw [compacted_repeated maps isEntries unique, equal_listV_iff,
              List.forall₂_map_left_iff, List.forall₂_map_right_iff, List.forall₂_same]
            intro entry member
            exact equal_resultEntries maps entry.1 (ih entry member)

end Forms

/-- Entries with unique names that all have a counterpart are the others in
some order. -/
theorem exists_arranged {α β : Type} (relation : α → β → Prop) {entries : List (String × α)}
    {others : List (String × β)} (unique : (entries.map Prod.fst).Nodup)
    (sameLength : entries.length = others.length)
    (each : ∀ entry ∈ entries, ∃ other ∈ others,
      entry.1 = other.1 ∧ relation entry.2 other.2) :
    ∃ arranged : List (String × β), arranged.Perm others ∧
      entries.map Prod.fst = arranged.map Prod.fst ∧
      List.Forall₂ relation (entries.map Prod.snd) (arranged.map Prod.snd) := by
  induction entries generalizing others with
  | nil =>
      obtain rfl := List.length_eq_zero_iff.mp sameLength.symm
      exact ⟨[], List.Perm.refl _, rfl, .nil⟩
  | cons entry rest ih =>
      rw [List.map_cons, List.nodup_cons] at unique
      obtain ⟨other, member, sameName, related⟩ := each entry (by simp)
      obtain ⟨before, after, rfl⟩ := List.append_of_mem member
      have inFront : (before ++ other :: after).Perm (other :: (before ++ after)) :=
        List.perm_middle
      have restLength : rest.length = (before ++ after).length := by
        have := inFront.length_eq
        simp only [List.length_cons] at sameLength this
        omega
      have restEach : ∀ entry ∈ rest, ∃ other ∈ before ++ after,
          entry.1 = other.1 ∧ relation entry.2 other.2 := by
        intro next nextMember
        obtain ⟨match_, matchMember, nextName, nextRelated⟩ := each next (by simp [nextMember])
        rcases List.mem_cons.mp (inFront.mem_iff.mp matchMember) with rfl | inRest
        · apply absurd _ unique.1
          rw [sameName, ← nextName]
          exact List.mem_map_of_mem nextMember
        · exact ⟨match_, inRest, nextName, nextRelated⟩
      obtain ⟨arranged, isPerm, sameNames, allRelated⟩ := ih unique.2 restLength restEach
      refine ⟨other :: arranged, (isPerm.cons other).trans inFront.symm, ?_, ?_⟩
      · rw [List.map_cons, List.map_cons, sameName, sameNames]
      · exact .cons related allRelated

theorem exists_aligned {α β : Type} {relation : α → β → Prop} {entries : List (String × α)}
    {others : List (String × β)} (sameNames : entries.map Prod.fst = others.map Prod.fst)
    (pairwise : List.Forall₂ relation (entries.map Prod.snd) (others.map Prod.snd))
    {entry : String × α} (member : entry ∈ entries) :
    ∃ other ∈ others, entry.1 = other.1 ∧ relation entry.2 other.2 := by
  induction entries generalizing others with
  | nil => cases member
  | cons first rest ih =>
      cases others with
      | nil => cases sameNames
      | cons other others =>
          rw [List.map_cons, List.map_cons, List.cons.injEq] at sameNames
          rw [List.map_cons, List.map_cons, List.forall₂_cons] at pairwise
          rcases List.mem_cons.mp member with rfl | inRest
          · exact ⟨other, by simp, sameNames.1, pairwise.1⟩
          · obtain ⟨next, nextMember, aligned⟩ := ih sameNames.2 pairwise.2 inRest
            exact ⟨next, by simp [nextMember], aligned⟩

section Unambiguous

variable (maps : SteelMaps) {value other : Value}

/-- Items that equal rebuilt entries are tuples of a name and a value. -/
theorem listed_of_equal {items : List Value} {entries : List (String × Value)}
    (equal : List.Forall₂ (fun item entry => (compacted maps item).equal
      (resultEntryToSteel maps entry.1 (compacted maps entry.2)) = true) items entries) :
    ∃ listed, List.Forall₂ Value.Lists items listed ∧
      listed.map Prod.fst = entries.map Prod.fst := by
  induction equal with
  | nil => exact ⟨[], .nil, rfl⟩
  | @cons item entry items entries first _ ih =>
      obtain ⟨own, isListed, _⟩ := lists_of_equal maps first
      obtain ⟨listed, areListed, sameNames⟩ := ih
      exact ⟨(entry.1, own) :: listed, .cons isListed areListed, by simp [sameNames]⟩

theorem const_of_equal {text : String}
    (equal : (SteelVal.stringV text).equal (compacted maps other) = true) :
    other = .const text := by
  have form := compacts maps other
  generalize compacted maps other = right at form equal
  cases form with
  | const own => rw [equal_strings_iff.mp equal]
  | empty | items | unique | repeated => cases equal

/-- A list is left of a list of values or of results with a repeated name. -/
theorem items_of_equal {forms : List SteelVal}
    (equal : (SteelVal.listV forms).equal (compacted maps other) = true) :
    (∃ items, other = .list (.values items) ∧
        List.Forall₂ (fun form item => form.equal (compacted maps item) = true) forms items) ∨
      ∃ entries, other.entries? = some entries ∧ ¬(entries.map Prod.fst).Nodup ∧
        List.Forall₂ (fun form entry => form.equal
          (resultEntryToSteel maps entry.1 (compacted maps entry.2)) = true) forms entries := by
  have form := compacts maps other
  generalize compacted maps other = right at form equal
  cases form with
  | const | empty | unique => cases equal
  | @items items nonempty =>
      rw [equal_listV_iff, List.forall₂_map_right_iff] at equal
      exact Or.inl ⟨items, rfl, equal⟩
  | @repeated _ entries isEntries repeated =>
      rw [equal_listV_iff, List.forall₂_map_right_iff] at equal
      exact Or.inr ⟨entries, isEntries, repeated, equal⟩

/-- A hash map is left of what is empty or of results with unique names. -/
theorem entries_of_equal {hash : List (SteelVal × SteelVal)}
    (equal : (SteelVal.hashMapV hash).equal (compacted maps other) = true) :
    hash = [] ∧ other.isEmpty = true ∨
      ∃ entries otherHash, other.entries? = some entries ∧
        compacted maps other = .hashMapV otherHash ∧
        otherHash.Perm (compactedPairs maps entries) ∧ entries ≠ [] := by
  have form := compacts maps other
  generalize compacted maps other = right at form equal ⊢
  cases form with
  | const | items | repeated => cases equal
  | empty isEmpty =>
      rw [equal_hashMapV_iff] at equal
      exact Or.inl ⟨List.length_eq_zero_iff.mp equal.1, isEmpty⟩
  | @unique _ entries otherHash isEntries nonempty _ isPerm =>
      exact Or.inr ⟨entries, otherHash, isEntries, rfl, isPerm, nonempty⟩

theorem forall₂_alike {items others : List Value}
    (keeps : ∀ item ∈ items, ∀ other,
      (compacted maps item).equal (compacted maps other) = true → item.Alike other)
    (pairwise : List.Forall₂ (fun item next =>
      (compacted maps item).equal (compacted maps next) = true) items others) :
    List.Forall₂ Value.Alike items others := by
  have both := (List.forall₂_and_left items others).mpr ⟨keeps, pairwise⟩
  exact both.imp fun item next keptAndEqual => keptAndEqual.1 next keptAndEqual.2

theorem alike_of_items {items : List Value} (nonempty : items ≠ [])
    (noRepeat : ¬(Value.list (.values items)).RepeatsName)
    (keeps : ∀ item ∈ items, ∀ other,
      (compacted maps item).equal (compacted maps other) = true → item.Alike other)
    (equal : (compacted maps (.list (.values items))).equal (compacted maps other) = true) :
    (Value.list (.values items)).Alike other := by
  rw [compacted_items maps nonempty] at equal
  rcases items_of_equal maps equal with ⟨others, rfl, pairwise⟩ | ⟨entries, _, repeated, pairwise⟩
  · rw [List.forall₂_map_left_iff] at pairwise
    exact .items (forall₂_alike maps keeps pairwise)
  · rw [List.forall₂_map_left_iff] at pairwise
    obtain ⟨listed, areListed, sameNames⟩ := listed_of_equal maps pairwise
    exact absurd ⟨listed, areListed, sameNames ▸ repeated⟩ noRepeat

theorem alike_of_entries {entries : List (String × Value)} (nonempty : entries ≠ [])
    (isEntries : value.entries? = some entries) (unique : (entries.map Prod.fst).Nodup)
    (keeps : ∀ child ∈ entries.map Prod.snd, ∀ other,
      (compacted maps child).equal (compacted maps other) = true → child.Alike other)
    (equal : (compacted maps value).equal (compacted maps other) = true) : value.Alike other := by
  obtain ⟨hash, isHash, hashPerm⟩ := compacted_unique maps isEntries nonempty unique
  rw [isHash] at equal
  rcases entries_of_equal maps equal with ⟨rfl, _⟩ |
    ⟨others, otherHash, isOthers, isOtherHash, otherPerm, _⟩
  · have := hashPerm.length_eq
    simp only [compactedPairs, List.length_nil, List.length_map] at this
    exact absurd (List.length_eq_zero_iff.mp this.symm) nonempty
  · rw [isOtherHash, equal_hashes_iff maps hashPerm otherPerm] at equal
    obtain ⟨arranged, isPerm, sameNames, pairwise⟩ :=
      exists_arranged (fun child next =>
        (compacted maps child).equal (compacted maps next) = true) unique equal.1 equal.2
    have othersUnique : (others.map Prod.fst).Nodup := by
      rw [← (isPerm.map Prod.fst).nodup_iff, ← sameNames]
      exact unique
    exact .entries isEntries isOthers (Or.inr ⟨othersUnique, isPerm⟩) sameNames
      (forall₂_alike maps keeps pairwise)

theorem alike_of_equal (unambiguous : value.Unambiguous)
    (equal : (compacted maps value).equal (compacted maps other) = true) : value.Alike other := by
  induction value using Value.children_induction generalizing other with
  | step value ih =>
      obtain ⟨noRepeat, inChildren⟩ := Value.unambiguous_iff.mp unambiguous
      have keeps : ∀ child ∈ value.children, ∀ other,
          (compacted maps child).equal (compacted maps other) = true → child.Alike other :=
        fun child member _ same => ih child member (inChildren child member) same
      cases value.shape with
      | const text =>
          rw [compacted_const] at equal
          rw [const_of_equal maps equal]
          exact .const text
      | empty isEmpty =>
          rw [compacted_empty maps isEmpty] at equal
          rcases entries_of_equal maps equal with ⟨_, otherEmpty⟩ |
            ⟨entries, otherHash, _, isHash, isPerm, nonempty⟩
          · exact .empty isEmpty otherEmpty
          · rw [isHash, equal_hashMapV_iff, isPerm.length_eq, compactedPairs,
              List.length_map] at equal
            exact absurd (List.length_eq_zero_iff.mp equal.1.symm) nonempty
      | items nonempty => exact alike_of_items maps nonempty noRepeat keeps equal
      | entries nonempty isEntries =>
          rw [Value.children_of_entries isEntries] at keeps
          rw [Value.repeatsName_of_entries isEntries, not_not] at noRepeat
          exact alike_of_entries maps nonempty isEntries noRepeat keeps equal

/-- The tuple of a name and a value. -/
def listing (entry : String × Value) : Value :=
  .tuple [("name", .const entry.1), ("value", entry.2)]

/-- It becomes the entry that results with a repeated name are rebuilt from. -/
theorem compacted_listing (entry : String × Value) :
    compacted maps (listing entry) =
      resultEntryToSteel maps entry.1 (compacted maps entry.2) := by
  have steel : compacted maps (listing entry) = compact maps (.listV (entriesToSteel maps
      [("name", .const entry.1), ("value", entry.2)])) := rfl
  rw [steel, compact_entries maps (List.cons_ne_nil _ _), if_pos (by simp),
    compactedPairs, List.map_cons, compacted_const]
  rfl

section Kinds

variable {entries : List (String × Value)} {items : List Value}

theorem not_alike_items (isEntries : value.entries? = some entries) (nonempty : entries ≠ []) :
    ¬value.Alike (.list (.values items)) := by
  intro alike
  rcases Value.entries?_eq_some.mp isEntries with rfl | rfl
  · cases alike with
    | empty isEmpty _ => exact nonempty (List.isEmpty_iff.mp isEmpty)
    | entries _ isOther => cases isOther
  · cases alike with
    | empty isEmpty _ => exact nonempty (List.isEmpty_iff.mp isEmpty)
    | entries _ isOther => cases isOther

theorem not_alike_results (nonempty : items ≠ []) :
    ¬(Value.list (.values items)).Alike (.list (.results entries)) := by
  intro alike
  cases alike with
  | empty isEmpty _ => exact nonempty (List.isEmpty_iff.mp isEmpty)
  | entries isOwn _ => cases isOwn

end Kinds

/-- Results with a repeated name look like the list of their listings. -/
theorem equal_listings {entries : List (String × Value)}
    (isEntries : value.entries? = some entries) (repeated : ¬(entries.map Prod.fst).Nodup) :
    (compacted maps value).equal (compacted maps (.list (.values (entries.map listing)))) =
      true := by
  have nonempty : entries.map listing ≠ [] := by
    rintro isNil
    obtain rfl := List.map_eq_nil_iff.mp isNil
    exact repeated List.nodup_nil
  rw [compacted_items maps nonempty, compacted_repeated maps isEntries repeated,
    List.map_map, equal_listV_iff, List.forall₂_map_left_iff, List.forall₂_map_right_iff,
    List.forall₂_same]
  intro entry _
  rw [Function.comp_apply, compacted_listing]
  exact equal_resultEntries maps entry.1 (compacted_equal_self maps entry.2)

/-- Results with a repeated name look like a list of tuples, and the other way
round. -/
theorem exists_collision (repeats : value.RepeatsName) :
    ∃ other, (compacted maps value).equal (compacted maps other) = true ∧
      ¬value.Alike other := by
  cases value.shape with
  | const text => cases repeats
  | empty isEmpty => exact absurd repeats (Value.not_repeatsName_of_isEmpty isEmpty)
  | @items items nonempty =>
      obtain ⟨listed, areListed, repeated⟩ := repeats
      refine ⟨.list (.results listed), ?_, not_alike_results nonempty⟩
      rw [compacted_items maps nonempty, compacted_repeated maps rfl repeated, equal_listV_iff,
        List.forall₂_map_left_iff, List.forall₂_map_right_iff]
      exact areListed.imp fun item entry isListed =>
        equal_of_lists maps isListed (compacted_equal_self maps entry.2)
  | @entries _ entries nonempty isEntries =>
      rw [Value.repeatsName_of_entries isEntries] at repeats
      exact ⟨_, equal_listings maps isEntries repeats, not_alike_items isEntries nonempty⟩

/-- A value that is told from all others tells each of its items from all
others, since one item can be replaced. -/
theorem alike_of_replaced_item {before after : List Value} {child : Value}
    (keeps : ∀ next, (compacted maps (.list (.values (before ++ child :: after)))).equal
      (compacted maps next) = true → (Value.list (.values (before ++ child :: after))).Alike next)
    (equal : (compacted maps child).equal (compacted maps other) = true) : child.Alike other := by
  have replaced : (compacted maps (.list (.values (before ++ child :: after)))).equal
      (compacted maps (.list (.values (before ++ other :: after)))) = true := by
    rw [compacted_items maps (by simp), compacted_items maps (by simp), equal_listV_iff,
      List.forall₂_map_left_iff, List.forall₂_map_right_iff]
    apply List.rel_append
    · exact List.forall₂_same.mpr fun item _ => compacted_equal_self maps item
    · exact .cons equal (List.forall₂_same.mpr fun item _ => compacted_equal_self maps item)
  cases keeps _ replaced with
  | empty isEmpty _ => exact absurd (List.isEmpty_iff.mp isEmpty) (by simp)
  | items pairwise =>
      have fromChild := List.forall₂_drop_append _ before (other :: after) pairwise
      rw [List.drop_left] at fromChild
      cases fromChild with
      | cons alike _ => exact alike
  | entries isOwn => cases isOwn

theorem alike_of_replaced_entry {before after : List (String × Value)} {name : String}
    {child : Value} (isEntries : value.entries? = some (before ++ (name, child) :: after))
    (unique : ((before ++ (name, child) :: after).map Prod.fst).Nodup)
    (keeps : ∀ next, (compacted maps value).equal (compacted maps next) = true → value.Alike next)
    (equal : (compacted maps child).equal (compacted maps other) = true) : child.Alike other := by
  have replaced : (compacted maps value).equal (compacted maps
      (.list (.results (before ++ (name, other) :: after)))) = true := by
    apply equal_of_entries maps isEntries rfl unique (by simp) (by simp)
    intro entry isEntry
    rcases List.mem_append.mp isEntry with isBefore | isAfter
    · exact ⟨entry, by simp [isBefore], rfl, compacted_equal_self maps entry.2⟩
    · rcases List.mem_cons.mp isAfter with rfl | isAfter
      · exact ⟨(name, other), by simp, rfl, equal⟩
      · exact ⟨entry, by simp [isAfter], rfl, compacted_equal_self maps entry.2⟩
  cases keeps _ replaced with
  | empty _ isEmpty => exact absurd (List.isEmpty_iff.mp isEmpty) (by simp)
  | @entries _ _ own others arranged isOwn isOther arranges sameNames pairwise =>
      obtain rfl := Option.some.inj (isEntries.symm.trans isOwn)
      obtain rfl := Option.some.inj isOther
      have member : (name, child) ∈ before ++ (name, child) :: after := by simp
      obtain ⟨⟨_, found⟩, foundMember, rfl, alike⟩ := exists_aligned sameNames pairwise member
      have isResult : (name, found) ∈ before ++ (name, other) :: after := by
        rcases arranges with rfl | ⟨_, isPerm⟩
        · exact foundMember
        · exact isPerm.mem_iff.mp foundMember
      -- the names are those of the value itself, so no other result has this name
      have stillUnique : ((before ++ (name, other) :: after).map Prod.fst).Nodup := by
        simpa using unique
      have same := List.inj_on_of_nodup_map stillUnique isResult
        (by simp : (name, other) ∈ before ++ (name, other) :: after) rfl
      obtain rfl : found = other := congrArg Prod.snd same
      exact alike

theorem alike_child (child : Value) (member : child ∈ value.children)
    (noRepeat : ¬value.RepeatsName)
    (keeps : ∀ next, (compacted maps value).equal (compacted maps next) = true →
      value.Alike next)
    (equal : (compacted maps child).equal (compacted maps other) = true) : child.Alike other := by
  cases value.shape with
  | const text => cases member
  | empty isEmpty =>
      rw [Value.children_of_isEmpty isEmpty] at member
      cases member
  | items nonempty =>
      obtain ⟨before, after, rfl⟩ := List.append_of_mem member
      exact alike_of_replaced_item maps keeps equal
  | entries nonempty isEntries =>
      rw [Value.repeatsName_of_entries isEntries, not_not] at noRepeat
      rw [Value.children_of_entries isEntries] at member
      obtain ⟨entry, entryMember, rfl⟩ := List.mem_map.mp member
      obtain ⟨before, after, rfl⟩ := List.append_of_mem entryMember
      exact alike_of_replaced_entry maps isEntries noRepeat keeps equal

theorem unambiguous_of_keeps (keeps : ∀ other,
    (compacted maps value).equal (compacted maps other) = true → value.Alike other) :
    value.Unambiguous := by
  induction value using Value.children_induction with
  | step value ih =>
      have noRepeat : ¬value.RepeatsName := by
        intro repeats
        obtain ⟨other, equal, notAlike⟩ := exists_collision maps repeats
        exact notAlike (keeps other equal)
      rw [Value.unambiguous_iff]
      constructor
      · exact noRepeat
      · intro child member
        exact ih child member fun other equal => alike_child maps child member noRepeat keeps equal

end Unambiguous

/-- `compact` tells a value from all values that it is not meant to identify
with it exactly when nothing in the value repeats a name. -/
theorem compact_injective_iff (maps : SteelMaps) (value : Value) :
    (∀ other, (compacted maps value).equal (compacted maps other) = true →
      value.Alike other) ↔ value.Unambiguous := by
  constructor
  · exact unambiguous_of_keeps maps
  · intro unambiguous other equal
    exact alike_of_equal maps unambiguous equal

/-- Two locals of one name, in scopes of their own. -/
def shadowedLocals : List (String × Value) :=
  [("a", .const "1"), ("a", .const "2")]

/-- A list of two tuples becomes the same as a tuple with a repeated field,
whatever order hash maps have. -/
theorem compact_shadowedLocals :
    ¬∃ maps : SteelMaps, ∀ value other : Value,
      (compacted maps value).equal (compacted maps other) = true → value.Alike other := by
  rintro ⟨maps, keeps⟩
  have repeated : ¬(shadowedLocals.map Prod.fst).Nodup := by decide
  have isEntries : (Value.tuple shadowedLocals).entries? = some shadowedLocals := rfl
  apply not_alike_items isEntries (List.cons_ne_nil _ _)
  exact keeps _ _ (equal_listings maps isEntries repeated)

end Framewalk
