import Framewalk.Utf8Text

/-!
# Rendering evaluation results

Rendered values are joined by newlines and cut at a fixed byte offset.  Cutting
a text inside a character is a panic, and there are two cuts: one of each value
and one of the joined text.  The result is right exactly when both fall between
characters.
-/

namespace Framewalk

open Utf8Text

/-- The length of a text in bytes. -/
def byteLength (text : String) : Nat :=
  (asBytes text).length

/-- The characters that fill exactly so many bytes, or all of them if there are
fewer. -/
def charsWithin : Nat → List Char → Option (List Char)
  | 0, _ => some []
  | _ + 1, [] => some []
  | room + 1, character :: rest =>
      if character.utf8Size ≤ room + 1 then
        (charsWithin (room + 1 - character.utf8Size) rest).map (character :: ·)
      else none

/-- Shorten a text in place; `none` is the panic inside a character. -/
def truncate (text : String) (newLen : Nat) : Option String :=
  (charsWithin newLen text.toList).map .ofList

/-- The offset lies between two characters or at one of the ends. -/
def IsCharBoundary (text : String) (offset : Nat) : Prop :=
  ∃ front back, text = front ++ back ∧ byteLength front = offset

theorem byteLength_append (first second : String) :
    byteLength (first ++ second) = byteLength first + byteLength second := by
  rw [byteLength, asBytes_append, List.length_append]
  rfl

theorem charsWithin_append (front back : List Char) :
    charsWithin (front.flatMap String.utf8EncodeChar).length (front ++ back) = some front := by
  induction front with
  | nil => rw [List.flatMap_nil, List.length_nil, charsWithin]
  | cons character front ih =>
      have positive := character.utf8Size_pos
      rw [List.flatMap_cons, List.length_append, String.length_utf8EncodeChar]
      obtain ⟨room, roomEq⟩ : ∃ room,
          character.utf8Size + (front.flatMap String.utf8EncodeChar).length = room + 1 :=
        ⟨_, (Nat.sub_add_cancel (by omega)).symm⟩
      have rest : room + 1 - character.utf8Size =
          (front.flatMap String.utf8EncodeChar).length := by omega
      rw [roomEq, List.cons_append, charsWithin, if_pos (by omega), rest, ih]
      rfl

theorem exists_of_charsWithin {room : Nat} {characters front : List Char}
    (within : charsWithin room characters = some front)
    (enough : room ≤ (characters.flatMap String.utf8EncodeChar).length) :
    ∃ back, characters = front ++ back ∧
      (front.flatMap String.utf8EncodeChar).length = room := by
  induction characters generalizing room front with
  | nil =>
      obtain rfl : room = 0 := Nat.le_zero.mp enough
      cases within
      exact ⟨[], rfl, rfl⟩
  | cons character rest ih =>
      cases room with
      | zero =>
          cases within
          exact ⟨character :: rest, rfl, rfl⟩
      | succ room =>
          rw [charsWithin] at within
          split_ifs at within with fits
          rw [Option.map_eq_some_iff] at within
          rcases within with ⟨others, within, rfl⟩
          rw [List.flatMap_cons, List.length_append, String.length_utf8EncodeChar] at enough
          rcases ih within (by omega) with ⟨back, rfl, lengthEq⟩
          refine ⟨back, rfl, ?_⟩
          rw [List.flatMap_cons, List.length_append, String.length_utf8EncodeChar, lengthEq]
          omega

theorem truncate_append (front back : String) :
    truncate (front ++ back) (byteLength front) = some front := by
  have within := charsWithin_append front.toList back.toList
  rw [truncate, byteLength, asBytes_eq_flatMap, String.toList_append, within, Option.map_some,
    String.ofList_toList]

theorem charsWithin_append_of_le {room : Nat} {characters : List Char} (more : List Char)
    (inside : room ≤ (characters.flatMap String.utf8EncodeChar).length) :
    charsWithin room (characters ++ more) = charsWithin room characters := by
  induction characters generalizing room with
  | nil =>
      obtain rfl : room = 0 := Nat.le_zero.mp inside
      rw [charsWithin, charsWithin]
  | cons character rest ih =>
      rw [List.flatMap_cons, List.length_append, String.length_utf8EncodeChar] at inside
      cases room with
      | zero => rw [charsWithin, charsWithin]
      | succ room => rw [List.cons_append, charsWithin, charsWithin, ih (by omega)]

theorem truncate_append_of_le {text : String} {newLen : Nat} (rest : String)
    (inside : newLen ≤ byteLength text) :
    truncate (text ++ rest) newLen = truncate text newLen := by
  rw [byteLength, asBytes_eq_flatMap] at inside
  rw [truncate, String.toList_append, charsWithin_append_of_le rest.toList inside, truncate]

theorem truncate_eq_some_iff {text front : String} {newLen : Nat}
    (inside : newLen ≤ byteLength text) :
    truncate text newLen = some front ↔
      ∃ back, text = front ++ back ∧ byteLength front = newLen := by
  constructor
  · intro cut
    rw [truncate, Option.map_eq_some_iff] at cut
    rcases cut with ⟨characters, within, rfl⟩
    rw [byteLength, asBytes_eq_flatMap] at inside
    rcases exists_of_charsWithin within inside with ⟨back, split, lengthEq⟩
    refine ⟨.ofList back, ?_, ?_⟩
    · rw [← String.toList_inj, String.toList_append, String.toList_ofList, String.toList_ofList,
        split]
    · rw [byteLength, asBytes_ofList, lengthEq]
  · rintro ⟨back, rfl, rfl⟩
    exact truncate_append front back

def maxOutputBytes : Nat :=
  256 * 1024

def truncationMarker : String :=
  "\n…[truncated]"

/-- Cut an overlong text and say so. -/
def truncateDisplayString (rendered : String) : Option String :=
  if byteLength rendered > maxOutputBytes then
    (truncate rendered maxOutputBytes).map (· ++ truncationMarker)
  else some rendered

/-- What stands in front of the value with this index. -/
def separated (index : Nat) (buf : String) : String :=
  if index > 0 then buf ++ "\n" else buf

/-- Append the renderings in order, and stop at the limit. -/
def displayLoop : Nat → String → List String → Option String
  | _, buf, [] => some buf
  | index, buf, rendered :: rest => do
      let buf := separated index buf
      let formatted ← truncateDisplayString rendered
      let buf := buf ++ formatted
      if byteLength buf > maxOutputBytes then
        (truncate buf maxOutputBytes).map (· ++ truncationMarker)
      else displayLoop (index + 1) buf rest

/-- The display of values that are given by their renderings. -/
def steelToDisplayString (renderings : List String) : Option String :=
  displayLoop 0 "" renderings

/-- A text within the limit is shown whole, and of a longer one a part within the
limit and the marker. -/
def IsDisplay (full shown : String) : Prop :=
  if byteLength full ≤ maxOutputBytes then shown = full
  else ∃ front back, full = front ++ back ∧ byteLength front ≤ maxOutputBytes ∧
    shown = front ++ truncationMarker

/-- A text that has to be cut is cut between two characters. -/
def CutsCleanly (text : String) : Prop :=
  byteLength text ≤ maxOutputBytes ∨ IsCharBoundary text maxOutputBytes

theorem isDisplay_cut {full : String} (long : maxOutputBytes < byteLength full) :
    (∃ shown, (truncate full maxOutputBytes).map (· ++ truncationMarker) = some shown ∧
        IsDisplay full shown) ↔ IsCharBoundary full maxOutputBytes := by
  constructor
  · rintro ⟨shown, cut, _⟩
    rw [Option.map_eq_some_iff] at cut
    rcases cut with ⟨front, cut, _⟩
    exact ⟨front, (truncate_eq_some_iff (Nat.le_of_lt long)).mp cut⟩
  · rintro ⟨front, back, split, lengthEq⟩
    have cut := (truncate_eq_some_iff (Nat.le_of_lt long)).mpr ⟨back, split, lengthEq⟩
    refine ⟨front ++ truncationMarker, ?_, ?_⟩
    · rw [cut]
      rfl
    · rw [IsDisplay, if_neg (Nat.not_le_of_lt long)]
      exact ⟨front, back, split, Nat.le_of_eq lengthEq, rfl⟩

theorem truncateDisplayString_iff (rendered : String) :
    (∃ shown, truncateDisplayString rendered = some shown ∧ IsDisplay rendered shown) ↔
      CutsCleanly rendered := by
  by_cases long : byteLength rendered > maxOutputBytes
  · rw [truncateDisplayString, if_pos long, isDisplay_cut long, CutsCleanly,
      or_iff_right (Nat.not_le_of_lt long)]
  · have short : byteLength rendered ≤ maxOutputBytes := Nat.le_of_not_lt long
    rw [truncateDisplayString, if_neg long]
    refine iff_of_true ⟨rendered, rfl, ?_⟩ (Or.inl short)
    rw [IsDisplay, if_pos short]

theorem truncateDisplayString_unclean {rendered : String} (unclean : ¬ CutsCleanly rendered) :
    truncateDisplayString rendered = none := by
  rw [CutsCleanly, not_or] at unclean
  have long : byteLength rendered > maxOutputBytes := Nat.lt_of_not_le unclean.1
  rw [truncateDisplayString, if_pos long, Option.map_eq_none_iff, Option.eq_none_iff_forall_ne_some]
  intro front cut
  exact unclean.2 ⟨front, (truncate_eq_some_iff (Nat.le_of_lt long)).mp cut⟩

/-- All renderings appended to a buffer. -/
def appended : Nat → String → List String → String
  | _, buf, [] => buf
  | index, buf, rendered :: rest => appended (index + 1) (separated index buf ++ rendered) rest

theorem exists_appended (index : Nat) (buf : String) (renderings : List String) :
    ∃ rest, appended index buf renderings = buf ++ rest := by
  induction renderings generalizing index buf with
  | nil => exact ⟨"", String.append_empty.symm⟩
  | cons rendered renderings ih =>
      rcases ih (index + 1) (separated index buf ++ rendered) with ⟨rest, isAppended⟩
      rw [appended, isAppended, separated]
      split_ifs
      · exact ⟨"\n" ++ rendered ++ rest, by simp only [String.append_assoc]⟩
      · exact ⟨rendered ++ rest, by simp only [String.append_assoc]⟩

theorem byteLength_le_appended (index : Nat) (buf : String) (renderings : List String) :
    byteLength buf ≤ byteLength (appended index buf renderings) := by
  rcases exists_appended index buf renderings with ⟨rest, isAppended⟩
  rw [isAppended, byteLength_append]
  omega

theorem appended_eq (index : Nat) (buf : String) (renderings : List String) :
    appended (index + 1) buf renderings = "\n".intercalate (buf :: renderings) := by
  induction renderings generalizing index buf with
  | nil => rw [appended, String.intercalate_singleton]
  | cons rendered renderings ih =>
      rw [appended, ih, separated, if_pos (Nat.succ_pos index), String.intercalate_cons_append,
        String.intercalate_cons_cons, String.append_assoc]

theorem appended_start (renderings : List String) :
    appended 0 "" renderings = "\n".intercalate renderings := by
  cases renderings with
  | nil => rw [appended, String.intercalate_nil]
  | cons rendered rest => rw [appended, appended_eq, separated, if_neg (Nat.lt_irrefl 0),
      String.empty_append]

theorem displayLoop_unclean {rendered : String} (unclean : ¬ CutsCleanly rendered) (index : Nat)
    (buf : String) (rest : List String) : displayLoop index buf (rendered :: rest) = none := by
  rw [displayLoop, truncateDisplayString_unclean unclean]
  rfl

/-- Otherwise the value's own cut does not show: either it fits, or the text is
cut again no later. -/
theorem displayLoop_clean {rendered : String} (clean : CutsCleanly rendered) (index : Nat)
    (buf : String) (rest : List String) :
    displayLoop index buf (rendered :: rest) =
      if byteLength (separated index buf ++ rendered) > maxOutputBytes then
        (truncate (separated index buf ++ rendered) maxOutputBytes).map (· ++ truncationMarker)
      else displayLoop (index + 1) (separated index buf ++ rendered) rest := by
  rw [displayLoop]
  by_cases long : byteLength rendered > maxOutputBytes
  · rcases clean with short | ⟨front, back, split, lengthEq⟩
    · exact absurd short (Nat.not_le_of_lt long)
    · have cut := (truncate_eq_some_iff (Nat.le_of_lt long)).mpr ⟨back, split, lengthEq⟩
      have formatted : truncateDisplayString rendered = some (front ++ truncationMarker) := by
        rw [truncateDisplayString, if_pos long, cut]
        rfl
      have markerLength : 0 < byteLength truncationMarker := by decide
      have enough : maxOutputBytes ≤ byteLength (separated index buf ++ front) := by
        rw [byteLength_append]
        omega
      have overlong : byteLength (separated index buf ++ (front ++ truncationMarker)) >
          maxOutputBytes := by
        rw [byteLength_append, byteLength_append]
        omega
      have fullOverlong : byteLength (separated index buf ++ rendered) > maxOutputBytes := by
        rw [byteLength_append]
        omega
      simp only [formatted, Option.bind_eq_bind, Option.bind_some]
      rw [if_pos overlong, if_pos fullOverlong, ← String.append_assoc,
        truncate_append_of_le truncationMarker enough, split, ← String.append_assoc,
        truncate_append_of_le back enough]
  · have formatted : truncateDisplayString rendered = some rendered := if_neg long
    simp only [formatted, Option.bind_eq_bind, Option.bind_some]

/-- Every value that the loop gets to is cut cleanly. -/
def ReachedCutCleanly (index : Nat) (buf : String) (renderings : List String) : Prop :=
  ∀ earlier rendered later, renderings = earlier ++ rendered :: later →
    byteLength (appended index buf earlier) ≤ maxOutputBytes → CutsCleanly rendered

theorem reachedCutCleanly_cons {index : Nat} {buf rendered : String} {rest : List String}
    (fits : byteLength buf ≤ maxOutputBytes) :
    ReachedCutCleanly index buf (rendered :: rest) ↔
      CutsCleanly rendered ∧
        ReachedCutCleanly (index + 1) (separated index buf ++ rendered) rest := by
  constructor
  · intro reached
    constructor
    · exact reached [] rendered rest rfl fits
    · intro earlier value later split within
      exact reached (rendered :: earlier) value later (congrArg _ split) within
  · rintro ⟨clean, reached⟩ earlier value later split within
    cases earlier with
    | nil =>
        obtain ⟨rfl, rfl⟩ := List.cons.inj split
        exact clean
    | cons first earlier =>
        obtain ⟨rfl, tailEq⟩ := List.cons.inj split
        exact reached earlier value later tailEq within

theorem reachedCutCleanly_of_long {index : Nat} {buf : String}
    (long : maxOutputBytes < byteLength buf) (renderings : List String) :
    ReachedCutCleanly index buf renderings := by
  intro earlier rendered later _ within
  have := byteLength_le_appended index buf earlier
  omega

/-- The induction is on the values still to append to a buffer within the
limit. -/
theorem displayLoop_iff (renderings : List String) :
    ∀ (index : Nat) (buf : String), byteLength buf ≤ maxOutputBytes →
      ((∃ shown, displayLoop index buf renderings = some shown ∧
          IsDisplay (appended index buf renderings) shown) ↔
        CutsCleanly (appended index buf renderings) ∧
          ReachedCutCleanly index buf renderings) := by
  induction renderings with
  | nil =>
      intro index buf fits
      have reached : ReachedCutCleanly index buf [] := by
        intro earlier rendered later split
        simp at split
      refine iff_of_true ⟨buf, rfl, ?_⟩ ⟨Or.inl fits, reached⟩
      rw [appended, IsDisplay, if_pos fits]
  | cons rendered rest ih =>
      intro index buf fits
      rw [reachedCutCleanly_cons fits]
      by_cases clean : CutsCleanly rendered
      · rw [displayLoop_clean clean, appended]
        by_cases long : byteLength (separated index buf ++ rendered) > maxOutputBytes
        · rcases exists_appended (index + 1) (separated index buf ++ rendered) rest with
            ⟨tail, isAppended⟩
          have fullLong : maxOutputBytes <
              byteLength (appended (index + 1) (separated index buf ++ rendered) rest) :=
            Nat.lt_of_lt_of_le long (byteLength_le_appended _ _ rest)
          have sameCut := truncate_append_of_le tail (Nat.le_of_lt long)
          rw [if_pos long, ← sameCut, ← isAppended, isDisplay_cut fullLong, CutsCleanly,
            or_iff_right (Nat.not_le_of_lt fullLong)]
          simp only [clean, reachedCutCleanly_of_long long, and_true]
        · rw [if_neg long, ih _ _ (Nat.le_of_not_lt long)]
          simp only [clean, true_and]
      · rw [displayLoop_unclean clean]
        simp only [clean, false_and, and_false, reduceCtorEq, exists_false]

/-- A single text is shown as it should be exactly when it is cut cleanly, and a
list of values exactly when moreover every value that starts within the limit
is. -/
theorem display_iff (rendered : String) (renderings : List String) :
    ((∃ shown, truncateDisplayString rendered = some shown ∧ IsDisplay rendered shown) ↔
      CutsCleanly rendered) ∧
    ((∃ shown, steelToDisplayString renderings = some shown ∧
        IsDisplay ("\n".intercalate renderings) shown) ↔
      CutsCleanly ("\n".intercalate renderings) ∧
        ∀ earlier reached later, renderings = earlier ++ reached :: later →
          byteLength ("\n".intercalate earlier) ≤ maxOutputBytes → CutsCleanly reached) := by
  refine ⟨truncateDisplayString_iff rendered, ?_⟩
  have fits : byteLength "" ≤ maxOutputBytes := by decide
  have loop := displayLoop_iff renderings 0 "" fits
  rw [appended_start] at loop
  simp only [ReachedCutCleanly, appended_start] at loop
  exact loop

/-- So many bytes, and then a character of two bytes. -/
def acrossOffset (count : Nat) : String :=
  .ofList (List.replicate count 'x' ++ ['é'])

theorem charsWithin_across (count : Nat) :
    charsWithin (count + 1) (List.replicate count 'x' ++ ['é']) = none := by
  induction count with
  | zero => rfl
  | succ count ih =>
      have oneByte : 'x'.utf8Size = 1 := rfl
      rw [List.replicate_succ, List.cons_append, charsWithin, oneByte, if_pos (by omega),
        Nat.add_sub_cancel, ih]
      rfl

theorem truncate_acrossOffset (count : Nat) :
    truncate (acrossOffset count) (count + 1) = none := by
  rw [truncate, acrossOffset, String.toList_ofList, charsWithin_across, Option.map_none]

theorem byteLength_acrossOffset (count : Nat) :
    byteLength (acrossOffset count) = count + 2 := by
  have oneByte : String.utf8EncodeChar 'x' = [0x78] := by decide
  have twoBytes : (String.utf8EncodeChar 'é').length = 2 := by decide
  rw [acrossOffset, byteLength, asBytes_ofList, List.flatMap_append, List.length_append,
    List.flatMap_singleton, twoBytes, List.length_flatMap]
  simp only [oneByte, List.map_replicate, List.sum_replicate_nat, List.length_singleton]
  omega

/-- With such a character across the limit, neither function returns. -/
theorem display_panics :
    truncateDisplayString (acrossOffset 262143) = none ∧
      steelToDisplayString [acrossOffset 262143] = none := by
  have limit : maxOutputBytes = 262143 + 1 := rfl
  have long : byteLength (acrossOffset 262143) > maxOutputBytes := by
    rw [byteLength_acrossOffset, limit]
    omega
  have panics : truncateDisplayString (acrossOffset 262143) = none := by
    rw [truncateDisplayString, if_pos long, limit, truncate_acrossOffset, Option.map_none]
  constructor
  · exact panics
  · rw [steelToDisplayString, displayLoop, panics]
    rfl

end Framewalk
