import Framewalk.Framer
import Mathlib.Algebra.GroupWithZero.Nat
import Mathlib.Data.List.Induction

/-!
# Framer schedules

Pushes and pops may come in any order and chunks of any size.  The frames
popped so far are the first frames of a reference sequence that depends only
on the bytes pushed so far, and the bytes still pending are those behind the
popped lines.  Where a push compacts the buffer cannot be observed.
-/

namespace Framewalk

open LineSplitting

/-- `(gdb)` followed by nothing but spaces and tabs. -/
def TerminatorLine (line : List UInt8) : Prop :=
  ∃ blanks, line = marker ++ blanks ∧ ∀ byte ∈ blanks, byte = Ascii.space ∨ byte = Ascii.tab

theorem isGroupTerminator_iff (line : List UInt8) :
    isGroupTerminator line = true ↔ TerminatorLine line := by
  simp only [isGroupTerminator, Bool.and_eq_true, List.isPrefixOf_iff_prefix, List.all_eq_true,
    Bool.or_eq_true, beq_iff_eq]
  constructor
  · rintro ⟨⟨blanks, rfl⟩, eachBlank⟩
    rw [List.drop_left] at eachBlank
    exact ⟨blanks, rfl, eachBlank⟩
  · rintro ⟨blanks, rfl, eachBlank⟩
    rw [List.drop_left]
    exact ⟨List.prefix_append marker blanks, eachBlank⟩

instance (line : List UInt8) : Decidable (TerminatorLine line) :=
  decidable_of_iff _ (isGroupTerminator_iff line)

/-- The frame of a line that was cut off in front of its newline. -/
def referenceFrame (line : List UInt8) : Frame :=
  if TerminatorLine (Framer.stripCarriageReturn line) then .groupTerminator
  else .line (Framer.stripCarriageReturn line)

/-- The frames of a stream: one for each complete line. -/
def referenceFrames (stream : List UInt8) : List Frame :=
  (completeLines Ascii.newline stream).map referenceFrame

theorem ofLine_stripCarriageReturn (line : List UInt8) :
    Frame.ofLine (Framer.stripCarriageReturn line) = referenceFrame line := by
  simp only [Frame.ofLine, referenceFrame, isGroupTerminator_iff]

/-- The bytes of the first lines of a stream, with their line ends. -/
def terminatedLength (lines : List (List UInt8)) : Nat :=
  (lines.map fun line => line.length + 1).sum

theorem length_flatMap_terminated (lines : List (List UInt8)) :
    (lines.flatMap (· ++ [Ascii.newline])).length = terminatedLength lines := by
  simp only [List.length_flatMap, List.length_append, List.length_singleton, terminatedLength]

namespace Framer

theorem pop_cases (framer : Framer) :
    (framer.pop = none ∧ Ascii.newline ∉ framer.unread) ∨
      ∃ line next, framer.pop = some (referenceFrame line, next) ∧ Ascii.newline ∉ line ∧
        framer.unread = line ++ Ascii.newline :: next.unread := by
  by_cases member : Ascii.newline ∈ framer.unread
  · rcases List.eq_append_cons_of_mem member with ⟨line, rest, unreadEq, noNewline⟩
    rcases pop_line noNewline unreadEq with ⟨next, popped, rfl⟩
    rw [ofLine_stripCarriageReturn] at popped
    exact Or.inr ⟨line, next, popped, noNewline, unreadEq⟩
  · exact Or.inl ⟨pop_unfinished member, member⟩

theorem pop_congr {framer other : Framer} (sameUnread : framer.unread = other.unread) :
    (framer.pop = none ∧ other.pop = none) ∨
      ∃ frame next otherNext, framer.pop = some (frame, next) ∧
        other.pop = some (frame, otherNext) ∧ next.unread = otherNext.unread := by
  rcases framer.pop_cases with ⟨nothing, unfinished⟩ | ⟨line, next, popped, noNewline, unreadEq⟩
  · exact Or.inl ⟨nothing, pop_unfinished (sameUnread ▸ unfinished)⟩
  · rcases pop_line noNewline (sameUnread ▸ unreadEq) with ⟨otherNext, otherPopped, restEq⟩
    rw [ofLine_stripCarriageReturn] at otherPopped
    exact Or.inr ⟨referenceFrame line, next, otherNext, popped, otherPopped, restEq.symm⟩

end Framer

inductive FramerCall where
  | push (bytes : List UInt8)
  | pop

/-- A framer beside what was pushed into it and popped from it. -/
structure Framing where
  framer : Framer
  pushed : List UInt8
  popped : List Frame

namespace Framing

def new : Framing :=
  ⟨.new, [], []⟩

def popFrame (framing : Framing) : Framing :=
  match framing.framer.pop with
  | none => framing
  | some (frame, framer) => ⟨framer, framing.pushed, framing.popped ++ [frame]⟩

def call (framing : Framing) : FramerCall → Framing
  | .push bytes => ⟨framing.framer.push bytes, framing.pushed ++ bytes, framing.popped⟩
  | .pop => framing.popFrame

/-- The same call, where a push is told whether to compact first. -/
def pacedCall (framing : Framing) : FramerCall × Bool → Framing
  | (.push bytes, compacts) =>
      let framer := if compacts then framing.framer.compact else framing.framer
      ⟨framer.extend bytes, framing.pushed ++ bytes, framing.popped⟩
  | (.pop, _) => framing.popFrame

/-- After a schedule of calls on a new framer. -/
def after (calls : List FramerCall) : Framing :=
  calls.foldl call new

def afterPaced (calls : List (FramerCall × Bool)) : Framing :=
  calls.foldl pacedCall new

/-- The pushed bytes are the popped lines with their line ends and the unread
rest. -/
def Splits (framing : Framing) (lines : List (List UInt8)) : Prop :=
  (∀ line ∈ lines, Ascii.newline ∉ line) ∧
    framing.pushed = lines.flatMap (· ++ [Ascii.newline]) ++ framing.framer.unread ∧
    framing.popped = lines.map referenceFrame

theorem Splits.push {framing : Framing} {lines : List (List UInt8)}
    (splits : framing.Splits lines) (bytes : List UInt8) :
    (framing.call (.push bytes)).Splits lines := by
  rcases splits with ⟨eachLine, pushedEq, poppedEq⟩
  have unreadEq : (framing.framer.push bytes).unread = framing.framer.unread ++ bytes :=
    Framer.unread_push framing.framer bytes
  constructor
  · exact eachLine
  · constructor
    · change framing.pushed ++ bytes = _ ++ (framing.framer.push bytes).unread
      rw [pushedEq, unreadEq, List.append_assoc]
    · exact poppedEq

theorem Splits.pop {framing : Framing} {lines : List (List UInt8)}
    (splits : framing.Splits lines) :
    ∃ lines, framing.popFrame.Splits lines := by
  rcases splits with ⟨eachLine, pushedEq, poppedEq⟩
  unfold popFrame
  rcases framing.framer.pop_cases with
    ⟨nothing, _⟩ | ⟨line, next, popped, noNewline, unreadEq⟩
  · rw [nothing]
    exact ⟨lines, eachLine, pushedEq, poppedEq⟩
  · rw [popped]
    use lines ++ [line]
    constructor
    · intro other member
      rcases List.mem_append.mp member with earlier | last
      · exact eachLine other earlier
      · rwa [List.mem_singleton.mp last]
    · constructor
      · change framing.pushed = _ ++ next.unread
        rw [pushedEq, unreadEq]
        simp
      · change framing.popped ++ [referenceFrame line] = _
        rw [poppedEq, List.map_append, List.map_singleton]

theorem splits_after (calls : List FramerCall) : ∃ lines, (after calls).Splits lines := by
  induction calls using List.reverseRecOn with
  | nil => exact ⟨[], by simp, rfl, rfl⟩
  | append_singleton calls last ih =>
      rcases ih with ⟨lines, splits⟩
      rw [after, List.foldl_append]
      cases last with
      | push bytes => exact ⟨lines, splits.push bytes⟩
      | pop => exact splits.pop

/-- The reference frames are those already popped and those of the unread
bytes. -/
theorem Splits.referenceFrames_eq {framing : Framing} {lines : List (List UInt8)}
    (splits : framing.Splits lines) :
    referenceFrames framing.pushed =
      framing.popped ++ referenceFrames framing.framer.unread := by
  rcases splits with ⟨eachLine, pushedEq, poppedEq⟩
  rw [referenceFrames, pushedEq, completeLines_terminated eachLine, List.map_append, poppedEq]
  rfl

theorem Splits.take_completeLines {framing : Framing} {lines : List (List UInt8)}
    (splits : framing.Splits lines) :
    (completeLines Ascii.newline framing.pushed).take framing.popped.length = lines := by
  rcases splits with ⟨eachLine, pushedEq, poppedEq⟩
  rw [pushedEq, completeLines_terminated eachLine, poppedEq, List.length_map, List.take_left]

/-- The same calls seen from outside. -/
def SameView (framing other : Framing) : Prop :=
  framing.framer.unread = other.framer.unread ∧ framing.pushed = other.pushed ∧
    framing.popped = other.popped

theorem SameView.popFrame {framing other : Framing} (same : framing.SameView other) :
    framing.popFrame.SameView other.popFrame := by
  rcases same with ⟨sameUnread, samePushed, samePopped⟩
  unfold Framing.popFrame
  rcases Framer.pop_congr sameUnread with
    ⟨nothing, otherNothing⟩ | ⟨frame, next, otherNext, popped, otherPopped, restEq⟩
  · rw [nothing, otherNothing]
    exact ⟨sameUnread, samePushed, samePopped⟩
  · rw [popped, otherPopped]
    exact ⟨restEq, samePushed, by rw [samePopped]⟩

theorem SameView.call {framing other : Framing} (same : framing.SameView other)
    (call : FramerCall) (compacts : Bool) :
    (framing.pacedCall (call, compacts)).SameView (other.call call) := by
  cases call with
  | pop => exact same.popFrame
  | push bytes =>
      rcases same with ⟨sameUnread, samePushed, samePopped⟩
      have unreadEq : ((if compacts then framing.framer.compact
          else framing.framer).extend bytes).unread = framing.framer.unread ++ bytes := by
        rw [Framer.unread_extend]
        cases compacts with
        | false => rfl
        | true => rw [if_pos rfl, Framer.unread_compact]
      constructor
      · change _ = (other.framer.push bytes).unread
        rw [Framer.unread_push, ← sameUnread]
        exact unreadEq
      · constructor
        · change framing.pushed ++ bytes = other.pushed ++ bytes
          rw [samePushed]
        · exact samePopped

theorem sameView_after (paced : List (FramerCall × Bool)) :
    (afterPaced paced).SameView (after (paced.map Prod.fst)) := by
  induction paced using List.reverseRecOn with
  | nil => exact ⟨rfl, rfl, rfl⟩
  | append_singleton paced last ih =>
      rw [afterPaced, List.foldl_append, List.map_append, after, List.foldl_append]
      exact ih.call last.1 last.2

/-- Under every schedule, the framer refines the reference splitter, and so
does a framer that compacts wherever it likes. -/
theorem framer_refines_lineSplitter (calls : List FramerCall) :
    (after calls).popped <+: referenceFrames (after calls).pushed ∧
      ((after calls).framer.pop = none ↔
        (after calls).popped = referenceFrames (after calls).pushed) ∧
      (after calls).framer.pendingBytes +
          terminatedLength ((completeLines Ascii.newline (after calls).pushed).take
            (after calls).popped.length) = (after calls).pushed.length ∧
      ∀ paced, paced.map Prod.fst = calls →
        (afterPaced paced).popped = (after calls).popped ∧
          (afterPaced paced).framer.pop.map Prod.fst = (after calls).framer.pop.map Prod.fst ∧
          (afterPaced paced).framer.pendingBytes = (after calls).framer.pendingBytes := by
  rcases splits_after calls with ⟨lines, splits⟩
  constructor
  · rw [splits.referenceFrames_eq]
    exact List.prefix_append _ _
  constructor
  · rw [splits.referenceFrames_eq, List.self_eq_append_right, referenceFrames, List.map_eq_nil_iff,
      completeLines_eq_nil_iff]
    rcases (after calls).framer.pop_cases with
      ⟨nothing, unfinished⟩ | ⟨line, next, popped, _, unreadEq⟩
    · simp [nothing, unfinished]
    · simp [popped, unreadEq]
  constructor
  · rw [splits.take_completeLines, splits.2.1, List.length_append, length_flatMap_terminated,
      Framer.pendingBytes_eq]
    omega
  · rintro paced rfl
    rcases sameView_after paced with ⟨sameUnread, _, samePopped⟩
    constructor
    · exact samePopped
    constructor
    · rcases Framer.pop_congr sameUnread with
        ⟨nothing, otherNothing⟩ | ⟨frame, next, otherNext, popped, otherPopped, _⟩
      · rw [nothing, otherNothing]
      · rw [popped, otherPopped]
        rfl
    · rw [Framer.pendingBytes_eq, Framer.pendingBytes_eq, sameUnread]

end Framing

end Framewalk
