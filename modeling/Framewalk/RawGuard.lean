import Framewalk.Utf8Text
import Mathlib.Data.List.DropRight

/-!
# The raw-MI guard

The guard reads a command as text: it trims the input, checks that an MI
command follows, and matches the lowercased operation name against an
allowlist of command families.
-/

namespace Framewalk.RawGuard

inductive RawMiRejection where
  | empty
  | notAnMiCommand
  | unknownCommandFamily
  deriving DecidableEq

inductive AllowlistMatch where
  | startsWith
  | exact
  deriving DecidableEq

structure AllowlistEntry where
  operation : String
  matchKind : AllowlistMatch

def AllowlistEntry.matches (entry : AllowlistEntry) (operation : List Char) : Bool :=
  match entry.matchKind with
  | .startsWith => entry.operation.toList.isPrefixOf operation
  | .exact => operation == entry.operation.toList

def allowedCommands : List AllowlistEntry :=
  [⟨"ada-", .startsWith⟩, ⟨"add-", .startsWith⟩, ⟨"break-", .startsWith⟩,
    ⟨"catch-", .startsWith⟩, ⟨"complete", .exact⟩, ⟨"data-", .startsWith⟩,
    ⟨"dprintf-", .startsWith⟩, ⟨"enable-", .startsWith⟩, ⟨"environment-", .startsWith⟩,
    ⟨"exec-", .startsWith⟩, ⟨"file-", .startsWith⟩, ⟨"gdb-", .startsWith⟩,
    ⟨"inferior-", .startsWith⟩, ⟨"info-", .startsWith⟩, ⟨"list-", .startsWith⟩,
    ⟨"remove-", .startsWith⟩, ⟨"stack-", .startsWith⟩, ⟨"symbol-", .startsWith⟩,
    ⟨"target-attach", .exact⟩, ⟨"target-detach", .exact⟩, ⟨"target-disconnect", .exact⟩,
    ⟨"target-download", .exact⟩, ⟨"target-flash-erase", .exact⟩, ⟨"target-select", .exact⟩,
    ⟨"thread-", .startsWith⟩, ⟨"trace-", .startsWith⟩, ⟨"var-", .startsWith⟩]

/-- The Unicode `White_Space` property. -/
def isWhitespace (character : Char) : Bool :=
  let code := character.toNat
  (9 ≤ code && code ≤ 13) || code == 0x20 || code == 0x85 || code == 0xa0 || code == 0x1680 ||
    (0x2000 ≤ code && code ≤ 0x200a) || code == 0x2028 || code == 0x2029 || code == 0x202f ||
    code == 0x205f || code == 0x3000

/-- `is_ascii_whitespace`: no vertical tab. -/
def isAsciiWhitespace (character : Char) : Bool :=
  let code := character.toNat
  code == 0x20 || code == 0x09 || code == 0x0a || code == 0x0c || code == 0x0d

def isAsciiAlphabetic (character : Char) : Bool :=
  let code := character.toNat
  (65 ≤ code && code ≤ 90) || (97 ≤ code && code ≤ 122)

def toAsciiLowercase (character : Char) : Char :=
  if 65 ≤ character.toNat ∧ character.toNat ≤ 90 then Char.ofNat (character.toNat + 32)
  else character

def trim (characters : List Char) : List Char :=
  (characters.dropWhile isWhitespace).rdropWhile isWhitespace

/-- The characters up to the first ASCII whitespace. -/
def firstWord (characters : List Char) : List Char :=
  characters.takeWhile fun character => !isAsciiWhitespace character

/-- The operation name of a raw command, without its dash. -/
def rawMiOperation (input : String) : Except RawMiRejection String :=
  match trim input.toList with
  | [] => .error .empty
  | first :: operation =>
      if first ≠ '-' then .error .notAnMiCommand
      else if operation.head?.any isAsciiAlphabetic then .ok (String.ofList (firstWord operation))
      else .error .notAnMiCommand

def validateRawMiCommand (input : String) (allowShell : Bool) : Except RawMiRejection Unit := do
  let operation ← rawMiOperation input
  if allowShell then .ok ()
  else
    let operationLower := operation.toList.map toAsciiLowercase
    if allowedCommands.any fun entry => entry.matches operationLower then .ok ()
    else .error .unknownCommandFamily

theorem exists_operation_of_accepted {input : String} {allowShell : Bool}
    (accepted : validateRawMiCommand input allowShell = .ok ()) :
    ∃ operation, rawMiOperation input = .ok operation := by
  unfold validateRawMiCommand at accepted
  cases extracted : rawMiOperation input with
  | error rejection =>
      rw [extracted] at accepted
      cases accepted
  | ok operation => exact ⟨operation, rfl⟩

/-- The extracted operation is the first word behind the dash of the trimmed
input. -/
theorem trim_of_rawMiOperation {input operation : String}
    (extracted : rawMiOperation input = .ok operation) :
    ∃ rest, trim input.toList = '-' :: rest ∧ operation = String.ofList (firstWord rest) := by
  unfold rawMiOperation at extracted
  split at extracted
  · cases extracted
  · next first rest trimmed =>
      split_ifs at extracted with notDash alphabetic
      cases extracted
      rw [not_ne_iff.mp notDash] at trimmed
      exact ⟨rest, trimmed, rfl⟩

end Framewalk.RawGuard
