import Framewalk.AnsweredCommands

/-!
# Breakpoints as GDB has them

GDB reports a breakpoint in a notification or in the answer to the command that
changed it, never in both.  The registry follows the notifications and the
answers that carry a breakpoint, but not the answers to commands that delete,
enable or disable one.
-/

namespace Framewalk

open ResultsView TransitionSystem

/-- Which breakpoints there are, and whether each is enabled. -/
abbrev BreakpointView := BreakpointId → Option Bool

def BreakpointRegistry.view (registry : BreakpointRegistry) : BreakpointView :=
  fun id => registry.byId[id]?.map Breakpoint.enabled

namespace BreakpointView

/-- The breakpoint of a `bkpt` tuple is there, and enabled as it says. -/
def introduce (view : BreakpointView) (tuple : Results) : BreakpointView :=
  match getStr tuple "number" with
  | some id => Function.update view id (some ((getBool tuple "enabled").getD true))
  | none => view

def introduceFrom (view : BreakpointView) (results : Results) : BreakpointView :=
  match getTuple results "bkpt" with
  | some tuple => view.introduce tuple
  | none => view

def remove (view : BreakpointView) (ids : List BreakpointId) : BreakpointView :=
  fun id => if id ∈ ids then none else view id

def setEnabled (view : BreakpointView) (ids : List BreakpointId) (enabled : Bool) :
    BreakpointView :=
  fun id => if id ∈ ids then (view id).map fun _ => enabled else view id

/-- What GDB has done when it acknowledges a command. -/
def acknowledge (view : BreakpointView) (command : MiCommand) (results : Results) :
    BreakpointView :=
  match command.operation with
  | "break-insert" => view.introduceFrom results
  | "break-info" => view.introduceFrom results
  | "break-delete" => view.remove command.parameters
  | "break-enable" => view.setEnabled command.parameters true
  | "break-disable" => view.setEnabled command.parameters false
  | _ => view

/-- What GDB has done when it sends a notification. -/
def notify (view : BreakpointView) (record : AsyncRecord) : BreakpointView :=
  match record.asyncClass with
  | "breakpoint-created" => view.introduceFrom record.results
  | "breakpoint-modified" => view.introduceFrom record.results
  | "breakpoint-deleted" =>
      match getStr record.results "id" with
      | some id => view.remove [id]
      | none => view
  | _ => view

end BreakpointView

/-- What GDB has reported so far, a command by its `^done`. -/
def followBreakpoints (view : BreakpointView) (_ : Session) (label : SessionLabel) :
    Option Answer → BreakpointView
  | some ⟨.structured command, record⟩ =>
      if record.resultClass = .done then view.acknowledge command record.results else view
  | some ⟨.raw _, _⟩ => view
  | none =>
      match label.record? with
      | some (.notify record) => view.notify record
      | _ => view

/-- The registry has the breakpoints that GDB has. -/
def MirrorsBreakpoints (current : Remembering Session (AnswerLog BreakpointView)) : Prop :=
  current.state.breakpoints.view = current.memory.memory

/-- No acknowledged command deletes a breakpoint that is there, or enables or
disables one that is not yet so, and no `^connected` answer brings a breakpoint
that is not there as it says. -/
def OnlyReportsBreakpoints (current : Remembering Session (AnswerLog BreakpointView))
    (label : SessionLabel) : Prop :=
  ∀ command record, current.memory.outstanding.answer? label = some ⟨.structured command, record⟩ →
    (record.resultClass = .done →
      (command.operation = "break-delete" →
        ∀ id ∈ command.parameters, current.state.breakpoints.view id = none) ∧
      (command.operation = "break-enable" →
        ∀ id ∈ command.parameters, current.state.breakpoints.view id ≠ some false) ∧
      (command.operation = "break-disable" →
        ∀ id ∈ command.parameters, current.state.breakpoints.view id ≠ some true)) ∧
    (record.resultClass = .connected →
      command.operation = "break-insert" ∨ command.operation = "break-info" →
        current.state.breakpoints.view.introduceFrom record.results =
          current.state.breakpoints.view)

namespace BreakpointRegistry

theorem view_upsertFromBkptTuple (registry : BreakpointRegistry) (tuple : Results) :
    (registry.upsertFromBkptTuple tuple).view = registry.view.introduce tuple := by
  unfold upsertFromBkptTuple BreakpointView.introduce
  cases getStr tuple "number" with
  | none => rfl
  | some number =>
      funext id
      simp only [view, Std.ExtTreeMap.getElem?_insert, Std.LawfulEqCmp.compare_eq_iff_eq]
      by_cases same : number = id
      · rw [if_pos same, ← same, Function.update_self]
        rfl
      · rw [if_neg same, Function.update_of_ne (Ne.symm same)]
        rfl

theorem view_introduceFrom (registry : BreakpointRegistry) (results : Results) :
    (match getTuple results "bkpt" with
      | some tuple => registry.upsertFromBkptTuple tuple
      | none => registry).view = registry.view.introduceFrom results := by
  unfold BreakpointView.introduceFrom
  cases getTuple results "bkpt" with
  | none => rfl
  | some tuple => exact registry.view_upsertFromBkptTuple tuple

theorem view_onBreakpointDeleted (registry : BreakpointRegistry) (results : Results) :
    (registry.onBreakpointDeleted results).view =
      match getStr results "id" with
      | some id => registry.view.remove [id]
      | none => registry.view := by
  unfold onBreakpointDeleted
  cases getStr results "id" with
  | none => rfl
  | some deleted =>
      funext id
      simp only [view, BreakpointView.remove, Std.ExtTreeMap.getElem?_erase,
        Std.LawfulEqCmp.compare_eq_iff_eq, List.mem_singleton]
      by_cases same : deleted = id
      · rw [if_pos same, if_pos same.symm]
        rfl
      · rw [if_neg same, if_neg (Ne.symm same)]

end BreakpointRegistry

theorem view_notifiedBreakpoints (label : SessionLabel) (registry : BreakpointRegistry) :
    (label.notifiedBreakpoints registry).view =
      match label.record? with
      | some (.notify record) => registry.view.notify record
      | _ => registry.view := by
  unfold SessionLabel.notifiedBreakpoints
  cases label.record? with
  | none => rfl
  | some record =>
      cases record with
      | notify record =>
          rcases record with ⟨token, asyncClass, results⟩
          by_cases created : asyncClass = "breakpoint-created"
          · subst created
            exact registry.view_introduceFrom results
          by_cases modified : asyncClass = "breakpoint-modified"
          · subst modified
            exact registry.view_introduceFrom results
          by_cases deleted : asyncClass = "breakpoint-deleted"
          · subst deleted
            exact registry.view_onBreakpointDeleted results
          simp [BreakpointView.notify]
      | _ => rfl

theorem view_breakpointsAfter (command : MiCommand) (results : Results)
    (registry : BreakpointRegistry) :
    ((SubmitRequest.structured command).info.breakpointsAfter results registry).view =
      if command.operation = "break-insert" ∨ command.operation = "break-info" then
        registry.view.introduceFrom results
      else registry.view := by
  rcases command with ⟨operation, options, parameters⟩
  simp only [SubmitRequest.info, PendingInfo.breakpointsAfter]
  fun_cases Operation.fromName operation parameters
  case case1 =>
    rw [if_pos (Or.inl rfl), ← registry.view_introduceFrom]
    cases getTuple results "bkpt" <;> rfl
  case case2 =>
    rw [if_pos (Or.inr rfl), ← registry.view_introduceFrom]
    cases getTuple results "bkpt" <;> rfl
  case case10 notBreakInsert notBreakInfo _ _ _ _ _ _ _ =>
    have other : ¬ (operation = "break-insert" ∨ operation = "break-info") := by
      rintro (isInsert | isInfo)
      · exact notBreakInsert isInsert
      · exact notBreakInfo isInfo
    rw [if_neg other]
  all_goals rfl

namespace BreakpointView

theorem remove_eq_iff (view : BreakpointView) (ids : List BreakpointId) :
    view = view.remove ids ↔ ∀ id ∈ ids, view id = none := by
  constructor
  · intro same id member
    rw [same, remove, if_pos member]
  · intro absent
    funext id
    unfold remove
    split_ifs with member
    · exact absent id member
    · rfl

theorem setEnabled_eq_iff (view : BreakpointView) (ids : List BreakpointId) (enabled : Bool) :
    view = view.setEnabled ids enabled ↔ ∀ id ∈ ids, view id ≠ some (!enabled) := by
  constructor
  · intro same id member isOther
    have changed := congrFun same id
    rw [setEnabled, if_pos member, isOther] at changed
    cases enabled <;> cases changed
  · intro alreadySo
    funext id
    unfold setEnabled
    split_ifs with member
    · have known := alreadySo id member
      cases isKnown : view id with
      | none => rfl
      | some other =>
          rw [isKnown, ne_eq, Option.some.injEq] at known
          exact congrArg some ((Bool.eq_not_of_ne known).trans (Bool.not_not enabled))
    · rfl

/-- GDB has done no more than the registry exactly when the command deletes,
enables or disables nothing. -/
theorem acknowledge_eq_iff (view : BreakpointView) (command : MiCommand) (results : Results) :
    (if command.operation = "break-insert" ∨ command.operation = "break-info" then
        view.introduceFrom results
      else view) = view.acknowledge command results ↔
      (command.operation = "break-delete" → ∀ id ∈ command.parameters, view id = none) ∧
      (command.operation = "break-enable" →
        ∀ id ∈ command.parameters, view id ≠ some false) ∧
      (command.operation = "break-disable" →
        ∀ id ∈ command.parameters, view id ≠ some true) := by
  fun_cases acknowledge view command results
  case case1 isOperation => simp [isOperation]
  case case2 isOperation => simp [isOperation]
  case case3 isOperation => simp [isOperation, remove_eq_iff]
  case case4 isOperation => simp [isOperation, setEnabled_eq_iff]
  case case5 isOperation => simp [isOperation, setEnabled_eq_iff]
  case case6 notInsert notInfo notDelete notEnable notDisable =>
    rw [if_neg (not_or.mpr ⟨notInsert, notInfo⟩)]
    refine iff_of_true rfl ⟨?_, ?_, ?_⟩
    · intro isDelete
      exact absurd isDelete notDelete
    · intro isEnable
      exact absurd isEnable notEnable
    · intro isDisable
      exact absurd isDisable notDisable

end BreakpointView

section Steps

variable {current next : Remembering Session (AnswerLog BreakpointView)} {label : SessionLabel}

/-- A step that finds registry and GDB agreeing leaves them so exactly when it
meets the condition. -/
theorem mirrorsBreakpoints_step_iff
    (tracks : current.memory.outstanding.Tracks current.state.pending)
    (mirrors : MirrorsBreakpoints current)
    (stepped : remember Session.step (AnswerLog.note followBreakpoints) current label =
      some next) :
    MirrorsBreakpoints next ↔ OnlyReportsBreakpoints current label := by
  rcases remember_eq_some stepped with ⟨stepped, noted⟩
  rw [MirrorsBreakpoints] at mirrors
  rw [MirrorsBreakpoints, noted, AnswerLog.note, OnlyReportsBreakpoints]
  cases isAnswer : current.memory.outstanding.answer? label with
  | none =>
      rw [(tracks.step_unanswered stepped isAnswer).2.2, view_notifiedBreakpoints, mirrors]
      simp [followBreakpoints]
  | some answer =>
      have changes := (tracks.step_answered stepped isAnswer).breakpoints
      rcases answer with ⟨request, record⟩
      cases request with
      | raw line =>
          have same : next.state.breakpoints = current.state.breakpoints := by
            rw [changes]
            exact ite_self _
          simp [same, mirrors, followBreakpoints]
      | structured command =>
          have viewEq : next.state.breakpoints.view =
              if record.resultClass.isSuccess then
                if command.operation = "break-insert" ∨ command.operation = "break-info" then
                  current.state.breakpoints.view.introduceFrom record.results
                else current.state.breakpoints.view
              else current.state.breakpoints.view := by
            rw [changes, ← view_breakpointsAfter]
            exact apply_ite BreakpointRegistry.view _ _ _
          have acknowledged :=
            current.state.breakpoints.view.acknowledge_eq_iff command record.results
          simp only [Option.some.injEq, Answer.mk.injEq, SubmitRequest.structured.injEq,
            and_imp, forall_eq', forall_apply_eq_imp_iff, followBreakpoints, ← mirrors, viewEq]
          cases resultClass : record.resultClass with
          | done => simpa [ResultClass.isSuccess] using acknowledged
          | connected => simp [ResultClass.isSuccess]
          | running | error | exit => simp [ResultClass.isSuccess]

end Steps

/-- In a run, the registry mirrors GDB exactly when acknowledged commands change
no breakpoint but by reporting it. -/
theorem breakpoints_mirror_iff (miVersion : MiVersion) (labels : List SessionLabel) :
    Always (remember Session.step (AnswerLog.note followBreakpoints))
        ⟨.withVersionHint miVersion, .empty, fun _ => none⟩ MirrorsBreakpoints labels ↔
      EachStep (remember Session.step (AnswerLog.note followBreakpoints))
        ⟨.withVersionHint miVersion, .empty, fun _ => none⟩ OnlyReportsBreakpoints labels := by
  apply always_iff_eachStep_of_step_iff
  · funext id
    change ((∅ : Std.ExtTreeMap BreakpointId Breakpoint)[id]?).map _ = none
    rw [Std.ExtTreeMap.getElem?_empty, Option.map_none]
  · intro current next label reachable mirrors stepped
    have tracks := AnswerLog.tracks_of_reachable reachable
    exact mirrorsBreakpoints_step_iff tracks mirrors stepped

/-- A breakpoint is inserted and deleted. -/
def deleteBreakpoint : List SessionLabel :=
  [.submit (.structured ⟨"break-insert", [], ["main"]⟩),
    .line (Utf8Text.asBytes "1^done,bkpt=\x7bnumber=\"1\",enabled=\"y\"\x7d"),
    .submit (.structured ⟨"break-delete", [], ["1"]⟩), .line (Utf8Text.asBytes "2^done")]

/-- The registry still has it. -/
theorem deleteBreakpoint_stays :
    ∃ final, run (remember Session.step (AnswerLog.note followBreakpoints))
        ⟨.withVersionHint .mi3, .empty, fun _ => none⟩ deleteBreakpoint = some final ∧
      final.state.breakpoints.view "1" = some true ∧ ¬ MirrorsBreakpoints final := by
  have stays : ((run (remember Session.step (AnswerLog.note followBreakpoints))
      ⟨.withVersionHint .mi3, .empty, fun _ => none⟩ deleteBreakpoint).any fun final =>
        final.state.breakpoints.view "1" == some true && final.memory.memory "1" == none) =
          true := by
    decide +kernel
  rcases (Option.any_eq_true _ _).mp stays with ⟨final, ran, differ⟩
  rw [Bool.and_eq_true, beq_iff_eq, beq_iff_eq] at differ
  refine ⟨final, ran, differ.1, ?_⟩
  intro mirrors
  have same := congrFun mirrors "1"
  rw [differ.1, differ.2] at same
  cases same

end Framewalk
