import Mathlib.Data.Set.Basic

/-!
# Viable prefixes of a language

A list is a viable prefix when some word of the language begins with it.  A
left-to-right reader that has read a viable prefix and still expects a phrase
keeps, for each part of the phrase, the obligation that every way of
completing the part leads back into the language.
-/

namespace ViablePrefix

variable {α : Type} {language phrases parts : Set (List α)} {before : List α}

/-- Some word of the language begins with the list. -/
def Viable (language : Set (List α)) (read : List α) : Prop :=
  ∃ rest, read ++ rest ∈ language

/-- Behind what has been read, each of the phrases leads to a viable prefix. -/
def Expects (language : Set (List α)) (before : List α) (phrases : Set (List α)) : Prop :=
  ∀ phrase ∈ phrases, Viable language (before ++ phrase)

theorem Viable.of_append {read more : List α} (viable : Viable language (read ++ more)) :
    Viable language read := by
  obtain ⟨rest, member⟩ := viable
  exact ⟨more ++ rest, by rwa [← List.append_assoc]⟩

theorem viable_of_mem {word : List α} (member : word ∈ language) : Viable language word :=
  ⟨[], by rwa [List.append_nil]⟩

theorem Expects.viable (expects : Expects language before phrases) (phrase : List α)
    (member : phrase ∈ phrases) : Viable language before :=
  (expects phrase member).of_append

theorem Expects.viable_append (expects : Expects language before phrases) {read rest : List α}
    (phrase : read ++ rest ∈ phrases) : Viable language (before ++ read) := by
  have viable := expects _ phrase
  rw [← List.append_assoc] at viable
  exact viable.of_append

/-- Reading the beginning of a phrase leaves the expectation of its next
part. -/
theorem Expects.after (expects : Expects language before phrases) (read : List α)
    (continues : ∀ part ∈ parts, ∃ rest, read ++ part ++ rest ∈ phrases) :
    Expects language (before ++ read) parts := by
  intro part member
  obtain ⟨rest, phrase⟩ := continues part member
  rw [List.append_assoc]
  exact expects.viable_append phrase

theorem Expects.first (expects : Expects language before phrases)
    (continues : ∀ part ∈ parts, ∃ rest, part ++ rest ∈ phrases) :
    Expects language before parts := by
  simpa using expects.after [] (by simpa using continues)

end ViablePrefix
