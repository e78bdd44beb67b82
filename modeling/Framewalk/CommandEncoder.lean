import Framewalk.Cursor

/-!
# Serialising commands

Every function here returns the bytes that its counterpart appends to the
output buffer.
-/

namespace Framewalk

structure CommandOption where
  name : String
  value : Option String

/-- A command ready to be encoded: its operation and option names carry no
leading dash. -/
structure MiCommand where
  operation : String
  options : List CommandOption
  parameters : List String

namespace MiCommand

def new (operation : String) : MiCommand :=
  ⟨operation, [], []⟩

/-- Append an option without a value. -/
def option (command : MiCommand) (name : String) : MiCommand :=
  { command with options := command.options ++ [⟨name, none⟩] }

def optionWith (command : MiCommand) (name value : String) : MiCommand :=
  { command with options := command.options ++ [⟨name, some value⟩] }

/-- Append a positional parameter. -/
def parameter (command : MiCommand) (value : String) : MiCommand :=
  { command with parameters := command.parameters ++ [value] }

end MiCommand

/-- Fill a digit buffer from the low end; `none` is the out-of-bounds panic. -/
def writeU64Loop : Nat → UInt64 → List UInt8 → Option (List UInt8)
  | space, n, buffer =>
      if n = 0 then some buffer
      else
        match space with
        | 0 => none
        | space + 1 => writeU64Loop space (n / 10) (buffer ++ [Ascii.zero + (n % 10).toUInt8])

theorem writeU64Loop_isSome (n : UInt64) (buffer : List UInt8) :
    (writeU64Loop 20 n buffer).isSome := by
  have general : ∀ (space : Nat) (n : UInt64) (buffer : List UInt8),
      n.toNat < 10 ^ space → (writeU64Loop space n buffer).isSome := by
    intro space
    induction space with
    | zero =>
        intro n buffer bound
        have isZero : n = 0 := UInt64.toNat_inj.mp (by simpa using bound)
        simp [writeU64Loop, isZero]
    | succ space ih =>
        intro n buffer bound
        unfold writeU64Loop
        split_ifs
        · rfl
        · apply ih
          have quotient : (n / 10).toNat = n.toNat / 10 := by simp
          rw [quotient]
          omega
  exact general 20 n buffer (by have := n.toNat_lt; omega)

def writeU64 (n : UInt64) : List UInt8 :=
  if n = 0 then [Ascii.zero]
  else ((writeU64Loop 20 n []).get (writeU64Loop_isSome n [])).reverse

/-- A non-empty run of bytes with no space, tab, newline, double quote or
backslash. -/
def isNonBlankSequence (text : String) : Bool :=
  let bytes := Utf8Text.asBytes text
  !bytes.isEmpty &&
    !bytes.any fun byte =>
      byte == Ascii.space || byte == Ascii.tab || byte == Ascii.newline ||
        byte == Ascii.carriageReturn || byte == Ascii.quote || byte == Ascii.backslash

def hexNibble (n : UInt8) : UInt8 :=
  if n ≤ 9 then Ascii.zero + n
  else if n ≤ 15 then 0x61 + (n - 10)
  else 0x3f

/-- One byte of a c-string literal, escaped where needed. -/
def encodeCstringByte (byte : UInt8) : List UInt8 :=
  if byte = Ascii.quote then [Ascii.backslash, Ascii.quote]
  else if byte = Ascii.backslash then [Ascii.backslash, Ascii.backslash]
  else if byte = Ascii.newline then [Ascii.backslash, 0x6e]
  else if byte = Ascii.carriageReturn then [Ascii.backslash, 0x72]
  else if byte = Ascii.tab then [Ascii.backslash, 0x74]
  else if byte = 0x07 then [Ascii.backslash, 0x61]
  else if byte = 0x08 then [Ascii.backslash, 0x62]
  else if byte = 0x0b then [Ascii.backslash, 0x76]
  else if byte = 0x0c then [Ascii.backslash, 0x66]
  else if byte ≤ 0x1f ∨ byte = 0x7f then
    [Ascii.backslash, Ascii.lowerX, hexNibble (byte >>> 4), hexNibble (byte &&& 0x0f)]
  else [byte]

def encodeCstring (text : String) : List UInt8 :=
  Ascii.quote :: ((Utf8Text.asBytes text).flatMap encodeCstringByte ++ [Ascii.quote])

def encodeParameter (parameter : String) : List UInt8 :=
  if isNonBlankSequence parameter then Utf8Text.asBytes parameter
  else encodeCstring parameter

def encodeOption (option : CommandOption) : List UInt8 :=
  Ascii.minus :: Utf8Text.asBytes option.name ++
    match option.value with
    | some value => Ascii.space :: encodeParameter value
    | none => []

/-- Whether the first parameter would be read as an option. -/
def shouldEmitDoubleDash (command : MiCommand) : Bool :=
  match command.parameters.head? with
  | some first => first.toList.head? == some '-'
  | none => false

def encodeToken : Option Token → List UInt8
  | some token => writeU64 token
  | none => []

/-- A complete command line, its trailing newline included. -/
def encodeCommand (token : Option Token) (command : MiCommand) : List UInt8 :=
  encodeToken token ++
  Ascii.minus :: Utf8Text.asBytes command.operation ++
  command.options.flatMap (fun option => Ascii.space :: encodeOption option) ++
  (if shouldEmitDoubleDash command then Utf8Text.asBytes " --" else []) ++
  command.parameters.flatMap (fun parameter => Ascii.space :: encodeParameter parameter) ++
  [Ascii.newline]

end Framewalk
