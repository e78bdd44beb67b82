import Framewalk.RecordParser

/-!
# The MI output grammar

This file states which record a byte line denotes, as inductive relations that
follow the documented productions and never mention a cursor or an error:

    result-record → [token] "^" result-class ("," result)*
    async-output  → [token] ("*" | "+" | "=") async-class ("," result)*
    stream-output → ("~" | "@" | "&") c-string
    result        → variable "=" value
    value         → const | tuple | list
-/

namespace Framewalk.OutputGrammar

/-- The identifier alphabet `[A-Za-z0-9_-]`. -/
def identifierAlphabet : List Char :=
  "ABCDEFGHIJKLMNOPQRSTUVWXYZabcdefghijklmnopqrstuvwxyz0123456789_-".toList

/-- A non-empty identifier and its spelling. -/
def IsName (bytes : List UInt8) (name : String) : Prop :=
  bytes = Utf8Text.asBytes name ∧ name ≠ "" ∧
    ∀ character ∈ name.toList, character ∈ identifierAlphabet

/-- A run of decimal digits, read as a number. -/
def decimalValue (digits : List UInt8) : Nat :=
  digits.foldl (fun value digit => value * 10 + (digit.toNat - 48)) 0

def IsDecimalDigit (byte : UInt8) : Prop :=
  48 ≤ byte.toNat ∧ byte.toNat ≤ 57

instance : DecidablePred IsDecimalDigit := fun byte =>
  inferInstanceAs (Decidable (48 ≤ byte.toNat ∧ byte.toNat ≤ 57))

/-- An optional token: absent, or a non-empty run of digits whose value fits
in a `u64`.  Leading zeros are allowed. -/
inductive IsToken : List UInt8 → Option Token → Prop
  | absent : IsToken [] none
  | digits (bytes : List UInt8) (token : Token) (nonempty : bytes ≠ [])
      (decimal : ∀ byte ∈ bytes, IsDecimalDigit byte)
      (valueEq : decimalValue bytes = token.toNat) :
      IsToken bytes (some token)

/-- The documented single-letter escapes and the bytes they stand for. -/
def escapeTable : List (Char × Nat) :=
  [('"', 0x22), ('\\', 0x5c), ('\'', 0x27), ('?', 0x3f), ('a', 0x07), ('b', 0x08),
    ('f', 0x0c), ('n', 0x0a), ('r', 0x0d), ('t', 0x09), ('v', 0x0b)]

def hexDigits : List (Char × Nat) :=
  [('0', 0), ('1', 1), ('2', 2), ('3', 3), ('4', 4), ('5', 5), ('6', 6), ('7', 7),
    ('8', 8), ('9', 9), ('a', 10), ('b', 11), ('c', 12), ('d', 13), ('e', 14), ('f', 15),
    ('A', 10), ('B', 11), ('C', 12), ('D', 13), ('E', 14), ('F', 15)]

def IsOctalDigit (byte : UInt8) : Prop :=
  48 ≤ byte.toNat ∧ byte.toNat ≤ 55

def octalValue (digits : List UInt8) : Nat :=
  digits.foldl (fun value digit => value * 8 + (digit.toNat - 48)) 0

/-- `CStringBody source decoded`: the bytes between the quotes and the bytes
they decode to.  An octal escape of fewer than three digits must not be
followed by a further octal digit, and its value is taken modulo 256. -/
inductive CStringBody : List UInt8 → List UInt8 → Prop
  | nil : CStringBody [] []
  | plain {source decoded : List UInt8} (byte : UInt8)
      (notQuote : byte ≠ Ascii.quote) (notBackslash : byte ≠ Ascii.backslash) :
      CStringBody source decoded → CStringBody (byte :: source) (byte :: decoded)
  | named {source decoded : List UInt8} (letter : Char) (value : Nat)
      (listed : (letter, value) ∈ escapeTable) :
      CStringBody source decoded →
        CStringBody (Ascii.backslash :: Utf8Text.asciiByte letter :: source)
          (UInt8.ofNat value :: decoded)
  | hex {source decoded : List UInt8} (hi lo : Char) (hiValue loValue : Nat)
      (hiListed : (hi, hiValue) ∈ hexDigits) (loListed : (lo, loValue) ∈ hexDigits) :
      CStringBody source decoded →
        CStringBody
          (Ascii.backslash :: Ascii.lowerX :: Utf8Text.asciiByte hi ::
            Utf8Text.asciiByte lo :: source)
          (UInt8.ofNat (16 * hiValue + loValue) :: decoded)
  | octal {source decoded : List UInt8} (digits : List UInt8)
      (nonempty : digits ≠ []) (short : digits.length ≤ 3)
      (octal : ∀ digit ∈ digits, IsOctalDigit digit)
      (greedy : digits.length = 3 ∨ ∀ next ∈ source.head?, ¬ IsOctalDigit next) :
      CStringBody source decoded →
        CStringBody (Ascii.backslash :: (digits ++ source))
          (UInt8.ofNat (octalValue digits % 256) :: decoded)

/-- A c-string literal and the valid UTF-8 text it decodes to. -/
def IsCString (bytes : List UInt8) (text : String) : Prop :=
  ∃ body, bytes = Ascii.quote :: (body ++ [Ascii.quote]) ∧
    CStringBody body (Utf8Text.asBytes text)

/-- The syntactic categories below a record, each with what it denotes.
`results` and `values` are the non-empty comma-separated sequences. -/
inductive Production where
  | value (value : Value)
  | result (name : String) (value : Value)
  | results (entries : List (String × Value))
  | values (items : List Value)

inductive Derives : Production → List UInt8 → Prop
  | const {bytes : List UInt8} {text : String} :
      IsCString bytes text → Derives (.value (.const text)) bytes
  | emptyTuple :
      Derives (.value (.tuple [])) [Ascii.openBrace, Ascii.closeBrace]
  | tuple {bytes : List UInt8} {entries : List (String × Value)} :
      Derives (.results entries) bytes →
        Derives (.value (.tuple entries))
          (Ascii.openBrace :: (bytes ++ [Ascii.closeBrace]))
  | emptyList :
      Derives (.value (.list .empty)) [Ascii.openBracket, Ascii.closeBracket]
  | valueList {bytes : List UInt8} {items : List Value} :
      Derives (.values items) bytes →
        Derives (.value (.list (.values items)))
          (Ascii.openBracket :: (bytes ++ [Ascii.closeBracket]))
  | resultList {bytes : List UInt8} {entries : List (String × Value)} :
      Derives (.results entries) bytes →
        Derives (.value (.list (.results entries)))
          (Ascii.openBracket :: (bytes ++ [Ascii.closeBracket]))
  | result {nameBytes valueBytes : List UInt8} {name : String} {value : Value} :
      IsName nameBytes name → Derives (.value value) valueBytes →
        Derives (.result name value) (nameBytes ++ Ascii.equals :: valueBytes)
  | lastResult {bytes : List UInt8} {name : String} {value : Value} :
      Derives (.result name value) bytes → Derives (.results [(name, value)]) bytes
  | moreResults {bytes moreBytes : List UInt8} {name : String} {value : Value}
      {entries : List (String × Value)} :
      Derives (.result name value) bytes → Derives (.results entries) moreBytes →
        Derives (.results ((name, value) :: entries)) (bytes ++ Ascii.comma :: moreBytes)
  | lastValue {bytes : List UInt8} {value : Value} :
      Derives (.value value) bytes → Derives (.values [value]) bytes
  | moreValues {bytes moreBytes : List UInt8} {value : Value} {items : List Value} :
      Derives (.value value) bytes → Derives (.values items) moreBytes →
        Derives (.values (value :: items)) (bytes ++ Ascii.comma :: moreBytes)

/-- `("," result)*` up to the end of the line. -/
inductive IsTrailing : List UInt8 → List (String × Value) → Prop
  | nil : IsTrailing [] []
  | cons {bytes moreBytes : List UInt8} {name : String} {value : Value}
      {entries : List (String × Value)} :
      Derives (.result name value) bytes → IsTrailing moreBytes entries →
        IsTrailing (Ascii.comma :: (bytes ++ moreBytes)) ((name, value) :: entries)

/-- The known result classes and their spellings. -/
def resultClasses : List (String × ResultClass) :=
  [("done", .done), ("running", .running), ("connected", .connected), ("error", .error),
    ("exit", .exit)]

/-- The three async kinds: their prefix byte and the record they build. -/
def asyncKinds : List (Char × (AsyncRecord → Record)) :=
  [('*', .exec), ('+', .status), ('=', .notify)]

/-- The three stream channels: their prefix byte and the record they build. -/
def streamKinds : List (Char × (StreamRecord → Record)) :=
  [('~', .console), ('@', .target), ('&', .log)]

/-- `IsRecord line record`: the line is a spelling of the record. -/
inductive IsRecord : List UInt8 → Record → Prop
  | result {tokenBytes trailing : List UInt8} {token : Option Token}
      {results : List (String × Value)} (spelling : String) (resultClass : ResultClass) :
      (spelling, resultClass) ∈ resultClasses →
        IsToken tokenBytes token → IsTrailing trailing results →
        IsRecord (tokenBytes ++ Ascii.caret :: (Utf8Text.asBytes spelling ++ trailing))
          (.result ⟨token, resultClass, results⟩)
  | async {tokenBytes classBytes trailing : List UInt8} {token : Option Token}
      {asyncClass : String} {results : List (String × Value)}
      (kind : Char) (build : AsyncRecord → Record) :
      (kind, build) ∈ asyncKinds → IsToken tokenBytes token →
        IsName classBytes asyncClass → IsTrailing trailing results →
          IsRecord (tokenBytes ++ Utf8Text.asciiByte kind :: (classBytes ++ trailing))
            (build ⟨token, asyncClass, results⟩)
  | stream {bytes : List UInt8} {text : String}
      (kind : Char) (build : StreamRecord → Record) :
      (kind, build) ∈ streamKinds → IsCString bytes text →
        IsRecord (Utf8Text.asciiByte kind :: bytes) (build ⟨text⟩)

end Framewalk.OutputGrammar
