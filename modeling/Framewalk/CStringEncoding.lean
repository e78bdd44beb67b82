import Framewalk.CommandFields

/-!
# Encoded c-strings in context

An encoded c-string closes where it should: whatever follows it, the parser
stops behind its last quote.  Read from the left, every other quote stands
behind a backslash that is not itself escaped.
-/

namespace Framewalk

open Utf8Text OutputGrammar

/-- Whether the next byte is escaped, after one more byte. -/
def escapesNext (escaped : Bool) (byte : UInt8) : Bool :=
  byte == Ascii.backslash && !escaped

/-- The bytes, read from the left, end with a backslash that escapes what
follows. -/
def EndsInEscape (bytes : List UInt8) : Prop :=
  bytes.foldl escapesNext false = true

instance : DecidablePred EndsInEscape := fun bytes =>
  inferInstanceAs (Decidable (bytes.foldl escapesNext false = true))

/-- Every quote in these bytes is escaped, and they leave nothing escaped. -/
def EscapesQuotes (bytes : List UInt8) : Prop :=
  ¬ EndsInEscape bytes ∧
    ∀ before after, bytes = before ++ Ascii.quote :: after → EndsInEscape before

theorem EscapesQuotes.nil : EscapesQuotes [] := by
  refine ⟨by decide, ?_⟩
  intro before after split
  simp at split

theorem EscapesQuotes.append {first second : List UInt8} (isFirst : EscapesQuotes first)
    (isSecond : EscapesQuotes second) : EscapesQuotes (first ++ second) := by
  have closed : first.foldl escapesNext false = false := by
    simpa [EndsInEscape] using isFirst.1
  have behind : ∀ bytes, EndsInEscape (first ++ bytes) ↔ EndsInEscape bytes := by
    intro bytes
    rw [EndsInEscape, EndsInEscape, List.foldl_append, closed]
  constructor
  · rw [behind]
    exact isSecond.1
  · intro before after split
    rcases List.append_eq_append_iff.mp split with ⟨more, rfl, rest⟩ | ⟨more, rfl, rest⟩
    · rw [behind]
      exact isSecond.2 more after rest
    · cases more with
      | nil =>
          have isEmpty : EndsInEscape [] := isSecond.2 [] after rest.symm
          exact absurd isEmpty (by decide)
      | cons byte more =>
          obtain ⟨rfl, _⟩ := List.cons.inj rest
          exact isFirst.2 before more rfl

theorem encodeCstringByte_escapesQuotes (byte : UInt8) :
    EscapesQuotes (encodeCstringByte byte) := by
  have every : ∀ byte : UInt8, ¬ EndsInEscape (encodeCstringByte byte) ∧
      ∀ index < (encodeCstringByte byte).length,
        (encodeCstringByte byte)[index]? = some Ascii.quote →
          EndsInEscape ((encodeCstringByte byte).take index) := by
    apply forall_byte
    decide +kernel
  refine ⟨(every byte).1, ?_⟩
  intro before after split
  have atQuote : (encodeCstringByte byte)[before.length]? = some Ascii.quote := by
    rw [split]
    simp
  have inBounds := (List.getElem?_eq_some_iff.mp atQuote).1
  have escaped := (every byte).2 before.length inBounds atQuote
  rwa [split, List.take_left] at escaped

theorem flatMap_encodeCstringByte_escapesQuotes (bytes : List UInt8) :
    EscapesQuotes (bytes.flatMap encodeCstringByte) := by
  induction bytes with
  | nil => exact .nil
  | cons byte bytes ih => exact (encodeCstringByte_escapesQuotes byte).append ih

theorem printable_of_mem_encodeCstring {text : String} {byte : UInt8}
    (member : byte ∈ encodeCstring text) : 0x20 ≤ byte ∧ byte ≠ 0x7f := by
  have every : ∀ byte : UInt8, ((encodeCstringByte byte).all fun encoded =>
      decide (0x20 ≤ encoded ∧ encoded ≠ 0x7f)) = true := by
    apply forall_byte
    decide +kernel
  have isQuote : 0x20 ≤ Ascii.quote ∧ Ascii.quote ≠ 0x7f := by decide
  rw [encodeCstring, List.mem_cons, List.mem_append, List.mem_flatMap, List.mem_singleton]
    at member
  rcases member with rfl | ⟨source, _, encoded⟩ | rfl
  · exact isQuote
  · exact of_decide_eq_true (List.all_eq_true.mp (every source) byte encoded)
  · exact isQuote

theorem quote_of_encodeCstring {text : String} {before after : List UInt8}
    (split : encodeCstring text = before ++ Ascii.quote :: after) :
    before = [] ∨ after = [] ∨ EndsInEscape before := by
  have body := flatMap_encodeCstringByte_escapesQuotes (asBytes text)
  cases before with
  | nil => exact Or.inl rfl
  | cons opening before =>
      right
      have bodySplit : (asBytes text).flatMap encodeCstringByte ++ [Ascii.quote] =
          before ++ Ascii.quote :: after := (List.cons.inj split).2
      obtain rfl : Ascii.quote = opening := (List.cons.inj split).1
      rcases List.eq_nil_or_concat after with rfl | ⟨front, closing, isConcat⟩
      · exact Or.inl rfl
      · right
        rw [isConcat, List.concat_eq_append, ← List.cons_append, ← List.append_assoc] at bodySplit
        exact body.2 before front (List.append_inj' bodySplit rfl).1

/-- Encoding and parsing are inverse wherever the literal stands, and the
literal has no control character and no quote that could close it early. -/
theorem parseCstring_encodeCstring (text : String) (rest : List UInt8) (pos : Nat) :
    parseCstring ⟨pos, encodeCstring text ++ rest⟩ =
        .ok (text, ⟨pos + (encodeCstring text).length, rest⟩) ∧
      (∀ byte ∈ encodeCstring text, 0x20 ≤ byte ∧ byte ≠ 0x7f) ∧
      ∀ before after, encodeCstring text = before ++ Ascii.quote :: after →
        before = [] ∨ after = [] ∨ EndsInEscape before :=
  ⟨parseCstring_append (encodeCstring_isCString text) pos rest,
    fun _ member => printable_of_mem_encodeCstring member,
    fun _ _ split => quote_of_encodeCstring split⟩

end Framewalk
