import Framewalk.FramerRuns
import Framewalk.TransitionSystem

/-!
# The framer's memory

Here the buffer and the read position stand for themselves: every slice, index
and subtraction of the framer is checked where it is made, and a failed check
is a panic.  The checked framer runs the bounded one step for step, so no check
ever fails, and after a push the consumed prefix is shorter than what is
pending.
-/

namespace Framewalk

/-- The two fields of a framer, with nothing known about them. -/
structure FramerMemory where
  buf : List UInt8
  readPos : Nat
  deriving DecidableEq

namespace FramerMemory

/-- A slice that is out of range is a panic. -/
def slice (bytes : List UInt8) (start stop : Nat) : Option (List UInt8) :=
  if start ≤ stop ∧ stop ≤ bytes.length then some (bytes.extract start stop) else none

theorem slice_eq_some {bytes : List UInt8} {start stop : Nat} (ordered : start ≤ stop)
    (inside : stop ≤ bytes.length) : slice bytes start stop = some (bytes.extract start stop) :=
  if_pos ⟨ordered, inside⟩

theorem slice_to_end {bytes : List UInt8} {start : Nat} (inside : start ≤ bytes.length) :
    slice bytes start bytes.length = some (bytes.drop start) := by
  rw [slice_eq_some inside (Nat.le_refl _), List.extract_eq_take_drop, ← List.length_drop,
    List.take_length]

def new : FramerMemory :=
  ⟨[], 0⟩

/-- The subtraction panics when it would go below zero. -/
def pendingBytes (memory : FramerMemory) : Option Nat :=
  if memory.readPos ≤ memory.buf.length then some (memory.buf.length - memory.readPos) else none

/-- Draining past the end panics. -/
def compact (memory : FramerMemory) : Option FramerMemory :=
  if memory.readPos = 0 then some memory
  else do
    let kept ← slice memory.buf memory.readPos memory.buf.length
    some ⟨kept, 0⟩

def push (memory : FramerMemory) (bytes : List UInt8) : Option FramerMemory :=
  if memory.readPos ≠ 0 ∧ memory.readPos ≥ memory.buf.length / 2 then do
    let compacted ← memory.compact
    some ⟨compacted.buf ++ bytes, compacted.readPos⟩
  else some ⟨memory.buf ++ bytes, memory.readPos⟩

def lineEnd (memory : FramerMemory) (absNewline : Nat) : Option Nat :=
  if absNewline > memory.readPos then do
    let last ← memory.buf[absNewline - 1]?
    some (if last = Ascii.carriageReturn then absNewline - 1 else absNewline)
  else some absNewline

/-- The frame, if a line is complete, and the fields after it. -/
def pop (memory : FramerMemory) : Option (Option Frame × FramerMemory) := do
  let tail ← slice memory.buf memory.readPos memory.buf.length
  match tail.findIdx? (· == Ascii.newline) with
  | none => some (none, memory)
  | some relNewline =>
      let absNewline := memory.readPos + relNewline
      let lineEnd ← memory.lineEnd absNewline
      let line ← slice memory.buf memory.readPos lineEnd
      some (some (.ofLine line), ⟨memory.buf, absNewline + 1⟩)

def call (memory : FramerMemory) : FramerCall → Option FramerMemory
  | .push bytes => memory.push bytes
  | .pop => memory.pop.map Prod.snd

/-- The fields of a framer whose read position is known to be in bounds. -/
def ofFramer (framer : Framer) : FramerMemory :=
  ⟨framer.buf, framer.readPos⟩

theorem pendingBytes_ofFramer (framer : Framer) :
    (ofFramer framer).pendingBytes = some framer.pendingBytes :=
  if_pos framer.inBounds

theorem compact_ofFramer (framer : Framer) :
    (ofFramer framer).compact = some (ofFramer framer.compact) := by
  simp only [compact, Framer.compact, ofFramer, slice_to_end framer.inBounds]
  split_ifs <;> rfl

theorem push_ofFramer (framer : Framer) (bytes : List UInt8) :
    (ofFramer framer).push bytes = some (ofFramer (framer.push bytes)) := by
  rw [push, compact_ofFramer, Framer.push]
  by_cases consumed : framer.readPos ≠ 0 ∧ framer.readPos ≥ framer.buf.length / 2
  · rw [if_pos consumed, if_pos (by exact consumed)]
    rfl
  · rw [if_neg consumed, if_neg (by exact consumed)]
    rfl

theorem lineEnd_ofFramer (framer : Framer) {absNewline : Nat}
    (inside : absNewline < framer.buf.length) :
    (ofFramer framer).lineEnd absNewline = some (framer.lineEnd absNewline) := by
  have previous : framer.buf[absNewline - 1]? = some framer.buf[absNewline - 1] :=
    List.getElem?_eq_getElem (by omega)
  simp only [lineEnd, Framer.lineEnd, ofFramer, previous, Option.some.injEq]
  split_ifs <;> simp_all

theorem lineEnd_bounds (framer : Framer) {absNewline : Nat}
    (ordered : framer.readPos ≤ absNewline) :
    framer.readPos ≤ framer.lineEnd absNewline ∧ framer.lineEnd absNewline ≤ absNewline := by
  unfold Framer.lineEnd
  split_ifs with isReturn <;> omega

/-- What a pop of the bounded framer answers, and the framer it leaves. -/
def popped (framer : Framer) : Option Frame × Framer :=
  match framer.pop with
  | none => (none, framer)
  | some (frame, next) => (some frame, next)

theorem popped_of_not_found {framer : Framer}
    (notFound : (framer.buf.drop framer.readPos).findIdx? (· == Ascii.newline) = none) :
    popped framer = (none, framer) := by
  rw [popped, Framer.pop_of_not_found notFound]

theorem popped_of_found {framer : Framer} {relNewline : Nat}
    (found : (framer.buf.drop framer.readPos).findIdx? (· == Ascii.newline) = some relNewline) :
    (popped framer).1 = some (.ofLine (framer.buf.extract framer.readPos
        (framer.lineEnd (framer.readPos + relNewline)))) ∧
      ofFramer (popped framer).2 = ⟨framer.buf, framer.readPos + relNewline + 1⟩ := by
  rcases Framer.pop_of_found found with ⟨next, isPopped, bufEq, readPosEq⟩
  rw [popped, isPopped, ofFramer, bufEq, readPosEq]
  exact ⟨rfl, rfl⟩

theorem pop_ofFramer (framer : Framer) :
    (ofFramer framer).pop = some ((popped framer).1, ofFramer (popped framer).2) := by
  have inBounds := framer.inBounds
  have tailRead : slice (ofFramer framer).buf (ofFramer framer).readPos
      (ofFramer framer).buf.length = some (framer.buf.drop framer.readPos) :=
    slice_to_end inBounds
  rw [pop, tailRead, Option.bind_eq_bind, Option.bind_some]
  cases found : (framer.buf.drop framer.readPos).findIdx? (· == Ascii.newline) with
  | none => rw [popped_of_not_found found]
  | some relNewline =>
      have inside := (List.findIdx?_eq_some_iff_findIdx_eq.mp found).1
      rw [List.length_drop] at inside
      have bounds := lineEnd_bounds framer (Nat.le_add_right framer.readPos relNewline)
      have lineEndRead : (ofFramer framer).lineEnd (framer.readPos + relNewline) =
          some (framer.lineEnd (framer.readPos + relNewline)) :=
        lineEnd_ofFramer framer (by omega)
      have lineRead : slice framer.buf framer.readPos
          (framer.lineEnd (framer.readPos + relNewline)) =
          some (framer.buf.extract framer.readPos
            (framer.lineEnd (framer.readPos + relNewline))) :=
        slice_eq_some bounds.1 (by omega)
      rcases popped_of_found found with ⟨frameEq, nextEq⟩
      rw [frameEq, nextEq]
      change ((ofFramer framer).lineEnd (framer.readPos + relNewline)).bind _ = _
      rw [lineEndRead]
      change (slice framer.buf framer.readPos _).bind _ = _
      rw [lineRead]
      rfl

/-- Whatever the calls, the checked framer is the fields of a bounded one. -/
theorem run_eq_ofFramer {calls : List FramerCall} :
    ∃ framer, TransitionSystem.run call new calls = some (ofFramer framer) := by
  induction calls using List.reverseRecOn with
  | nil => exact ⟨.new, rfl⟩
  | append_singleton calls last ih =>
      rcases ih with ⟨framer, ran⟩
      cases last with
      | push bytes =>
          exact ⟨framer.push bytes, TransitionSystem.run_snoc ran (push_ofFramer framer bytes)⟩
      | pop =>
          have stepped : (ofFramer framer).call .pop = some (ofFramer (popped framer).2) := by
            rw [call, pop_ofFramer]
            rfl
          exact ⟨(popped framer).2, TransitionSystem.run_snoc ran stepped⟩

/-- A push leaves nothing consumed in the buffer, or at least two bytes less than
are pending: it kept the prefix only where that ends below the midpoint. -/
theorem readPos_push (framer : Framer) (bytes : List UInt8) :
    (framer.push bytes).readPos = 0 ∨
      (framer.push bytes).readPos + 2 ≤ (framer.push bytes).pendingBytes := by
  unfold Framer.push
  split_ifs with consumed
  · left
    change framer.compact.readPos = 0
    unfold Framer.compact
    split_ifs with atStart
    · exact atStart
    · rfl
  · change framer.readPos = 0 ∨
      framer.readPos + 2 ≤ (framer.buf ++ bytes).length - framer.readPos
    rw [List.length_append]
    omega

theorem length_buf (framer : Framer) :
    framer.buf.length = framer.readPos + framer.pendingBytes := by
  have inBounds := framer.inBounds
  unfold Framer.pendingBytes
  omega

/-- No call of any history panics, the read position stays within the buffer, and
right after a push the buffer is at most twice as long as what is pending. -/
theorem framer_memory_bounded (calls : List FramerCall) :
    ∃ memory, TransitionSystem.run call new calls = some memory ∧
      memory.readPos ≤ memory.buf.length ∧ memory.pendingBytes.isSome ∧
      ∀ bytes, ∃ pushed pending, memory.push bytes = some pushed ∧
        pushed.pendingBytes = some pending ∧
        (pushed.readPos = 0 ∨ pushed.readPos + 2 ≤ pending) ∧
        pushed.buf.length ≤ 2 * pending := by
  rcases @run_eq_ofFramer calls with ⟨framer, ran⟩
  refine ⟨ofFramer framer, ran, framer.inBounds, ?_, ?_⟩
  · rw [pendingBytes_ofFramer]
    rfl
  intro bytes
  have kept := readPos_push framer bytes
  have length := length_buf (framer.push bytes)
  refine ⟨ofFramer (framer.push bytes), (framer.push bytes).pendingBytes,
    push_ofFramer framer bytes, pendingBytes_ofFramer _, kept, ?_⟩
  change (framer.push bytes).buf.length ≤ _
  omega

end FramerMemory

end Framewalk
