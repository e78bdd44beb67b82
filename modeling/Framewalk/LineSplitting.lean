import Mathlib.Tactic.Common

/-!
# Cutting a stream into lines

A stream is cut at a delimiter: every delimiter ends a complete line, and what
follows the last one is the unfinished line.  A line consumer that keeps the
unfinished line between chunks computes the same as one that is given the
whole stream at once, however the stream was cut into chunks.
-/

namespace LineSplitting

variable {α σ : Type} [BEq α] [LawfulBEq α] {delimiter : α}

/-- The lines of a stream that a delimiter ends. -/
def completeLines (delimiter : α) (stream : List α) : List (List α) :=
  (stream.splitOn delimiter).dropLast

/-- What follows the last delimiter of a stream. -/
def unfinishedLine (delimiter : α) (stream : List α) : List α :=
  (stream.splitOn delimiter).getLast (List.splitOn_ne_nil delimiter stream)

/-- Every stream is an unfinished line behind finitely many complete ones. -/
theorem lineInduction {motive : List α → Prop}
    (unfinished : ∀ line, delimiter ∉ line → motive line)
    (complete : ∀ line rest, delimiter ∉ line → motive rest →
      motive (line ++ delimiter :: rest)) :
    ∀ stream, motive stream := by
  intro stream
  induction lengthEq : stream.length using Nat.strongRecOn generalizing stream with
  | _ length ih =>
      by_cases member : delimiter ∈ stream
      · rcases List.eq_append_cons_of_mem member with ⟨line, rest, rfl, notMember⟩
        have shorter : rest.length < length := by
          rw [← lengthEq, List.length_append, List.length_cons]
          omega
        exact complete line rest notMember (ih rest.length shorter rest rfl)
      · exact unfinished stream member

section Equations

variable {line : List α} (notMember : delimiter ∉ line)

include notMember

theorem completeLines_of_not_mem : completeLines delimiter line = [] := by
  rw [completeLines, List.splitOn_eq_singleton notMember]
  rfl

theorem unfinishedLine_of_not_mem : unfinishedLine delimiter line = line := by
  simp only [unfinishedLine, List.splitOn_eq_singleton notMember, List.getLast_singleton]

theorem completeLines_line_append (rest : List α) :
    completeLines delimiter (line ++ delimiter :: rest) =
      line :: completeLines delimiter rest := by
  rw [completeLines, List.splitOn_append_cons_self_of_not_mem notMember,
    List.dropLast_cons_of_ne_nil (List.splitOn_ne_nil delimiter rest)]
  rfl

theorem unfinishedLine_line_append (rest : List α) :
    unfinishedLine delimiter (line ++ delimiter :: rest) =
      unfinishedLine delimiter rest := by
  simp only [unfinishedLine, List.splitOn_append_cons_self_of_not_mem notMember]
  exact List.getLast_cons (List.splitOn_ne_nil delimiter rest)

end Equations

theorem delimiter_not_mem_unfinishedLine (stream : List α) :
    delimiter ∉ unfinishedLine delimiter stream := by
  induction stream using @lineInduction _ _ _ delimiter with
  | unfinished line notMember => rwa [unfinishedLine_of_not_mem notMember]
  | complete line rest notMember ih => rwa [unfinishedLine_line_append notMember]

theorem completeLines_append (first second : List α) :
    completeLines delimiter (first ++ second) =
      completeLines delimiter first ++
        completeLines delimiter (unfinishedLine delimiter first ++ second) := by
  induction first using @lineInduction _ _ _ delimiter with
  | unfinished line notMember =>
      rw [completeLines_of_not_mem notMember, unfinishedLine_of_not_mem notMember,
        List.nil_append]
  | complete line rest notMember ih =>
      rw [List.append_assoc, List.cons_append, completeLines_line_append notMember,
        completeLines_line_append notMember, unfinishedLine_line_append notMember, ih,
        List.cons_append]

theorem unfinishedLine_append (first second : List α) :
    unfinishedLine delimiter (first ++ second) =
      unfinishedLine delimiter (unfinishedLine delimiter first ++ second) := by
  induction first using @lineInduction _ _ _ delimiter with
  | unfinished line notMember => rw [unfinishedLine_of_not_mem notMember]
  | complete line rest notMember ih =>
      rw [List.append_assoc, List.cons_append, unfinishedLine_line_append notMember,
        unfinishedLine_line_append notMember, ih]

/-- Terminated lines in front of a stream come out as they went in. -/
theorem completeLines_terminated {lines : List (List α)}
    (eachLine : ∀ line ∈ lines, delimiter ∉ line) (rest : List α) :
    completeLines delimiter (lines.flatMap (· ++ [delimiter]) ++ rest) =
      lines ++ completeLines delimiter rest := by
  induction lines with
  | nil => rfl
  | cons line lines ih =>
      have notMember : delimiter ∉ line := eachLine line List.mem_cons_self
      have others : ∀ other ∈ lines, delimiter ∉ other := by
        intro other member
        exact eachLine other (List.mem_cons_of_mem line member)
      rw [List.flatMap_cons, List.append_assoc, List.append_assoc, List.singleton_append,
        completeLines_line_append notMember, ih others, List.cons_append]

theorem completeLines_eq_nil_iff {stream : List α} :
    completeLines delimiter stream = [] ↔ delimiter ∉ stream := by
  constructor
  · intro nothing member
    rcases List.eq_append_cons_of_mem member with ⟨line, rest, rfl, notMember⟩
    rw [completeLines_line_append notMember] at nothing
    cases nothing
  · exact completeLines_of_not_mem

theorem unfinishedLine_isSuffix (stream : List α) :
    unfinishedLine delimiter stream <:+ stream := by
  induction stream using @lineInduction _ _ _ delimiter with
  | unfinished line notMember =>
      simp only [unfinishedLine_of_not_mem notMember, List.suffix_rfl]
  | complete line rest notMember ih =>
      rw [unfinishedLine_line_append notMember]
      exact ih.trans ((List.suffix_cons delimiter rest).trans (List.suffix_append line _))

/-- Behind a delimiter only the rest of its chunk is unfinished. -/
theorem unfinishedLine_length_lt (first : List α) {second : List α}
    (member : delimiter ∈ second) :
    (unfinishedLine delimiter (first ++ second)).length < second.length := by
  rcases List.eq_append_cons_of_mem member with ⟨line, rest, rfl, notMember⟩
  have isOpen : delimiter ∉ unfinishedLine delimiter first ++ line := by
    rw [List.mem_append, not_or]
    exact ⟨delimiter_not_mem_unfinishedLine first, notMember⟩
  rw [unfinishedLine_append, ← List.append_assoc, unfinishedLine_line_append isOpen]
  have bound := (@unfinishedLine_isSuffix _ _ _ delimiter rest).length_le
  rw [List.length_append, List.length_cons]
  omega

/-- Wherever a stream is cut, what is unfinished there begins one of its
lines. -/
theorem unfinishedLine_isPrefix_of_line (first second : List α) :
    ∃ line, unfinishedLine delimiter first <+: line ∧
      (line ∈ completeLines delimiter (first ++ second) ∨
        line = unfinishedLine delimiter (first ++ second)) := by
  rw [completeLines_append, unfinishedLine_append]
  have settled : delimiter ∉ unfinishedLine delimiter first :=
    delimiter_not_mem_unfinishedLine first
  by_cases member : delimiter ∈ second
  · rcases List.eq_append_cons_of_mem member with ⟨line, rest, rfl, notMember⟩
    have isOpen : delimiter ∉ unfinishedLine delimiter first ++ line := by
      rw [List.mem_append, not_or]
      exact ⟨settled, notMember⟩
    refine ⟨unfinishedLine delimiter first ++ line, List.prefix_append _ _, Or.inl ?_⟩
    rw [← List.append_assoc, completeLines_line_append isOpen]
    exact List.mem_append_right _ List.mem_cons_self
  · have isOpen : delimiter ∉ unfinishedLine delimiter first ++ second := by
      rw [List.mem_append, not_or]
      exact ⟨settled, member⟩
    refine ⟨unfinishedLine delimiter first ++ second, List.prefix_append _ _, Or.inr ?_⟩
    rw [unfinishedLine_of_not_mem isOpen]

/-- A consumer's state beside the unfinished line it still holds. -/
structure Feed (α σ : Type) where
  state : σ
  unread : List α

/-- Give one chunk to a consumer that handles complete lines in order. -/
def Feed.receive (delimiter : α) (receiveLine : σ → List α → σ) (feed : Feed α σ)
    (chunk : List α) : Feed α σ where
  state := (completeLines delimiter (feed.unread ++ chunk)).foldl receiveLine feed.state
  unread := unfinishedLine delimiter (feed.unread ++ chunk)

theorem Feed.receive_append (receiveLine : σ → List α → σ) (feed : Feed α σ)
    (first second : List α) :
    (feed.receive delimiter receiveLine first).receive delimiter receiveLine second =
      feed.receive delimiter receiveLine (first ++ second) := by
  simp only [Feed.receive, ← List.append_assoc, completeLines_append (feed.unread ++ first),
    unfinishedLine_append (feed.unread ++ first) second, List.foldl_append]

theorem Feed.receive_nil (receiveLine : σ → List α → σ) {feed : Feed α σ}
    (settled : delimiter ∉ feed.unread) :
    feed.receive delimiter receiveLine [] = feed := by
  simp only [Feed.receive, List.append_nil, completeLines_of_not_mem settled,
    unfinishedLine_of_not_mem settled, List.foldl_nil]

/-- Only the concatenation of the chunks matters. -/
theorem Feed.foldl_receive (receiveLine : σ → List α → σ) (chunks : List (List α))
    {feed : Feed α σ} (settled : delimiter ∉ feed.unread) :
    chunks.foldl (Feed.receive delimiter receiveLine) feed =
      feed.receive delimiter receiveLine chunks.flatten := by
  induction chunks generalizing feed with
  | nil => exact (Feed.receive_nil receiveLine settled).symm
  | cons chunk chunks ih =>
      rw [List.foldl_cons, ih (delimiter_not_mem_unfinishedLine _), Feed.receive_append,
        List.flatten_cons]

end LineSplitting
