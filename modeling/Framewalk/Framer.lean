import Framewalk.Cursor
import Framewalk.LineSplitting

/-!
# The byte-level framer

The framer buffers received bytes and yields complete lines.  Consumed bytes
stay in the buffer in front of the read position until a later push compacts
them away; what is observable is only the unread rest.
-/

namespace Framewalk

open LineSplitting

/-- One line, without its terminator, or the end of a response group. -/
inductive Frame where
  | line (bytes : List UInt8)
  | groupTerminator
  deriving DecidableEq

def marker : List UInt8 :=
  Utf8Text.asBytes "(gdb)"

/-- `(gdb)` followed by any number of spaces or tabs. -/
def isGroupTerminator (line : List UInt8) : Bool :=
  marker.isPrefixOf line &&
    (line.drop marker.length).all fun byte => byte == Ascii.space || byte == Ascii.tab

def Frame.ofLine (line : List UInt8) : Frame :=
  if isGroupTerminator line then .groupTerminator else .line line

/-- The read position never passes the end of the buffer. -/
structure Framer where
  buf : List UInt8
  readPos : Nat
  inBounds : readPos ≤ buf.length

namespace Framer

def new : Framer :=
  ⟨[], 0, Nat.le_refl 0⟩

def pendingBytes (framer : Framer) : Nat :=
  framer.buf.length - framer.readPos

/-- Discard the consumed prefix. -/
def compact (framer : Framer) : Framer :=
  if framer.readPos = 0 then framer
  else ⟨framer.buf.drop framer.readPos, 0, Nat.zero_le _⟩

def extend (framer : Framer) (bytes : List UInt8) : Framer :=
  ⟨framer.buf ++ bytes, framer.readPos, by
    have := framer.inBounds
    rw [List.length_append]
    omega⟩

/-- Append received bytes, compacting once the read position has passed the
midpoint of the buffer. -/
def push (framer : Framer) (bytes : List UInt8) : Framer :=
  if framer.readPos ≠ 0 ∧ framer.readPos ≥ framer.buf.length / 2 then
    framer.compact.extend bytes
  else framer.extend bytes

/-- Where the line before a newline ends: at most one carriage return is
stripped, and only right before the newline. -/
def lineEnd (framer : Framer) (absNewline : Nat) : Nat :=
  if absNewline > framer.readPos ∧ framer.buf[absNewline - 1]? = some Ascii.carriageReturn then
    absNewline - 1
  else absNewline

/-- The next complete line, if the buffer holds one. -/
def pop (framer : Framer) : Option (Frame × Framer) :=
  match found : (framer.buf.drop framer.readPos).findIdx? (· == Ascii.newline) with
  | none => none
  | some relNewline =>
      some (.ofLine (framer.buf.extract framer.readPos
          (framer.lineEnd (framer.readPos + relNewline))),
        ⟨framer.buf, framer.readPos + relNewline + 1, by
          have bound := (List.findIdx?_eq_some_iff_findIdx_eq.mp found).1
          rw [List.length_drop] at bound
          omega⟩)

/-- The bytes received and not yet yielded. -/
def unread (framer : Framer) : List UInt8 :=
  framer.buf.drop framer.readPos

/-- One trailing carriage return is not part of a line. -/
def stripCarriageReturn (line : List UInt8) : List UInt8 :=
  if line.getLast? = some Ascii.carriageReturn then line.dropLast else line

theorem pendingBytes_eq (framer : Framer) : framer.pendingBytes = framer.unread.length :=
  (List.length_drop ..).symm

theorem unread_compact (framer : Framer) : framer.compact.unread = framer.unread := by
  unfold compact
  split_ifs
  · rfl
  · rfl

theorem unread_extend (framer : Framer) (bytes : List UInt8) :
    (framer.extend bytes).unread = framer.unread ++ bytes :=
  List.drop_append_of_le_length framer.inBounds

theorem unread_push (framer : Framer) (bytes : List UInt8) :
    (framer.push bytes).unread = framer.unread ++ bytes := by
  unfold push
  split_ifs
  · rw [unread_extend, unread_compact]
  · exact unread_extend framer bytes

theorem pop_of_not_found {framer : Framer}
    (notFound : (framer.buf.drop framer.readPos).findIdx? (· == Ascii.newline) = none) :
    framer.pop = none := by
  unfold pop
  split
  · rfl
  · next found =>
      rw [notFound] at found
      cases found

theorem pop_of_found {framer : Framer} {relNewline : Nat}
    (found : (framer.buf.drop framer.readPos).findIdx? (· == Ascii.newline) = some relNewline) :
    ∃ next, framer.pop = some (.ofLine (framer.buf.extract framer.readPos
        (framer.lineEnd (framer.readPos + relNewline))), next) ∧
      next.buf = framer.buf ∧ next.readPos = framer.readPos + relNewline + 1 := by
  unfold pop
  split
  · next notFound =>
      rw [notFound] at found
      cases found
  · next otherFound =>
      obtain rfl := Option.some.inj (otherFound.symm.trans found)
      exact ⟨_, rfl, rfl, rfl⟩

theorem pop_unfinished {framer : Framer} (unfinished : Ascii.newline ∉ framer.unread) :
    framer.pop = none := by
  apply pop_of_not_found
  rw [List.findIdx?_eq_none_iff]
  intro byte member
  have notNewline : byte ≠ Ascii.newline := by
    rintro rfl
    exact unfinished member
  simpa using notNewline

theorem findIdx?_newline {line rest : List UInt8} (noNewline : Ascii.newline ∉ line) :
    (line ++ Ascii.newline :: rest).findIdx? (· == Ascii.newline) = some line.length := by
  have notFound : line.findIdx? (· == Ascii.newline) = none := by
    rw [List.findIdx?_eq_none_iff]
    intro byte member
    have notNewline : byte ≠ Ascii.newline := by
      rintro rfl
      exact noNewline member
    simpa using notNewline
  rw [List.findIdx?_append, notFound, List.findIdx?_cons]
  simp

theorem extract_lineEnd {framer : Framer} {line rest : List UInt8}
    (unreadEq : framer.unread = line ++ Ascii.newline :: rest) :
    framer.buf.extract framer.readPos (framer.lineEnd (framer.readPos + line.length)) =
      stripCarriageReturn line := by
  have tailEq : framer.buf.drop framer.readPos = line ++ Ascii.newline :: rest := unreadEq
  rw [List.extract_eq_take_drop, tailEq]
  rcases List.eq_nil_or_concat line with rfl | ⟨front, last, concatEq⟩
  · simp [lineEnd, stripCarriageReturn]
  · obtain rfl : line = front ++ [last] := concatEq.trans List.concat_eq_append
    have lastByte : framer.buf[framer.readPos + (front ++ [last]).length - 1]? = some last := by
      have position : framer.readPos + (front ++ [last]).length - 1 =
          framer.readPos + front.length := by
        simp only [List.length_append, List.length_singleton]
        omega
      rw [position, ← List.getElem?_drop, tailEq]
      simp
    have longer : framer.readPos + (front ++ [last]).length > framer.readPos := by simp
    simp only [lineEnd, stripCarriageReturn, lastByte, longer, true_and, List.getLast?_concat]
    split_ifs with isReturn
    · have length : framer.readPos + (front ++ [last]).length - 1 - framer.readPos =
          front.length := by
        simp only [List.length_append, List.length_singleton]
        omega
      rw [length, List.append_assoc, List.take_left, List.dropLast_concat]
    · rw [Nat.add_sub_cancel_left, List.take_left]

theorem pop_line {framer : Framer} {line rest : List UInt8}
    (noNewline : Ascii.newline ∉ line) (unreadEq : framer.unread = line ++ Ascii.newline :: rest) :
    ∃ next, framer.pop = some (.ofLine (stripCarriageReturn line), next) ∧ next.unread = rest := by
  have tailEq : framer.buf.drop framer.readPos = line ++ Ascii.newline :: rest := unreadEq
  have newlineAt : (framer.buf.drop framer.readPos).findIdx? (· == Ascii.newline) =
      some line.length := by
    rw [tailEq]
    exact findIdx?_newline noNewline
  rcases pop_of_found newlineAt with ⟨next, popped, bufEq, readPosEq⟩
  rw [extract_lineEnd unreadEq] at popped
  refine ⟨next, popped, ?_⟩
  rw [unread, bufEq, readPosEq, Nat.add_assoc, ← List.drop_drop, tailEq]
  simp

/-- The drain loop, bounded by the number of unread bytes: each frame consumes
at least its newline. -/
def popLoop : Nat → Framer → List Frame × Framer
  | 0, framer => ([], framer)
  | unread + 1, framer =>
      match framer.pop with
      | none => ([], framer)
      | some (frame, framer) =>
          let (frames, framer) := popLoop unread framer
          (frame :: frames, framer)

def popAll (framer : Framer) : List Frame × Framer :=
  popLoop framer.pendingBytes framer

theorem popLoop_eq (stream : List UInt8) :
    ∀ (bound : Nat) (framer : Framer), framer.unread = stream → stream.length ≤ bound →
      (popLoop bound framer).1 =
          (completeLines Ascii.newline stream).map (fun line =>
            Frame.ofLine (stripCarriageReturn line)) ∧
        (popLoop bound framer).2.unread = unfinishedLine Ascii.newline stream := by
  induction stream using @lineInduction _ _ _ Ascii.newline with
  | unfinished line noNewline =>
      intro bound framer unreadEq _
      have nothing := pop_unfinished (unreadEq ▸ noNewline)
      rw [completeLines_of_not_mem noNewline, unfinishedLine_of_not_mem noNewline]
      cases bound with
      | zero => exact ⟨rfl, unreadEq⟩
      | succ bound =>
          simp only [popLoop, nothing]
          exact ⟨rfl, unreadEq⟩
  | complete line rest noNewline ih =>
      intro bound framer unreadEq enough
      simp only [List.length_append, List.length_cons] at enough
      obtain ⟨spare, rfl⟩ : ∃ spare, bound = spare + 1 := ⟨bound - 1, by omega⟩
      obtain ⟨next, popped, nextEq⟩ := pop_line noNewline unreadEq
      obtain ⟨framesEq, restEq⟩ := ih spare next nextEq (by omega)
      rw [completeLines_line_append noNewline, unfinishedLine_line_append noNewline]
      simp only [popLoop, popped, List.map_cons]
      exact ⟨congrArg _ framesEq, restEq⟩

/-- The drain loop pops every complete line in order and stops in front of the
unfinished one. -/
theorem popAll_frames (framer : Framer) :
    framer.popAll.1 = (completeLines Ascii.newline framer.unread).map fun line =>
      Frame.ofLine (stripCarriageReturn line) :=
  (popLoop_eq framer.unread _ framer rfl framer.pendingBytes_eq.ge).1

theorem popAll_unread (framer : Framer) :
    framer.popAll.2.unread = unfinishedLine Ascii.newline framer.unread :=
  (popLoop_eq framer.unread _ framer rfl framer.pendingBytes_eq.ge).2

end Framer

end Framewalk
