import Framewalk.AnsweredCommands
import Framewalk.KeyedReports
import Framewalk.TargetAgreement

/-!
# Frames, breakpoints and variable objects as their history

What each registry should hold is said here by looking back over what GDB has
reported: the frame of a thread and a breakpoint are as last described, and the
fields of a variable object are what was last said of each.
-/

namespace Framewalk

open KeyedReports ResultsView TransitionSystem

/-- A stop describes the frame of the thread that it names; a running thread and
an ended target have none. -/
def ExecutionReport.ofFrame (id : ThreadId) : ExecutionReport → Option (Report StackFrame Empty)
  | .running thread => if NamesAll thread ∨ thread = some id then some .finish else none
  | .stopped thread reason frame =>
      match (if thread = some id then frame else none) with
      | some frame => some (.describe frame)
      | none => if reason.any StoppedReason.isExit then some .finish else none
  | .failed => some .finish
  | .created _ _ | .exited _ => none

/-- The frame that the last report about the thread's frame has described. -/
def lastFrame (reports : List ExecutionReport) (id : ThreadId) : Option StackFrame :=
  lastDescribed (reports.filterMap (ExecutionReport.ofFrame id))

section Frames

variable (frames : FrameRegistry) (id : ThreadId)

theorem framesAfterRunning_getElem? (thread : Option ThreadId) :
    (Execution.framesAfterRunning frames thread).byThread[id]? =
      if NamesAll thread ∨ thread = some id then none else frames.byThread[id]? := by
  cases thread with
  | none =>
      have namesAll : NamesAll none := Or.inl rfl
      rw [if_pos (Or.inl namesAll)]
      exact Std.ExtTreeMap.getElem?_empty
  | some thread =>
      by_cases isAll : thread = "all"
      · have namesAll : NamesAll (some thread) := Or.inr (congrArg some isAll)
        rw [if_pos (Or.inl namesAll), isAll]
        exact Std.ExtTreeMap.getElem?_empty
      · have notAll : ThreadId.isAll thread = false := beq_eq_false_iff_ne.mpr isAll
        simp only [Execution.framesAfterRunning, notAll, Bool.false_eq_true, if_false,
          FrameRegistry.invalidate, Std.ExtTreeMap.getElem?_erase,
          Std.LawfulEqCmp.compare_eq_iff_eq]
        simp [NamesAll, isAll]

theorem framesAfterStop_getElem? (thread : Option ThreadId) (reason : Option StoppedReason)
    (frame : Option StackFrame) :
    (Execution.framesAfterStop frames thread reason frame).byThread[id]? =
      match (if thread = some id then frame else none) with
      | some frame => some frame
      | none => if reason.any StoppedReason.isExit then none else frames.byThread[id]? := by
  have kept : (if reason.any StoppedReason.isExit then frames.clear else frames).byThread[id]? =
      if reason.any StoppedReason.isExit then none else frames.byThread[id]? := by
    split_ifs
    · exact Std.ExtTreeMap.getElem?_empty
    · rfl
  unfold Execution.framesAfterStop
  cases thread with
  | none => exact kept
  | some thread =>
      cases frame with
      | none =>
          rw [ite_self]
          exact kept
      | some frame =>
          simp only [Std.ExtTreeMap.getElem?_insert, Std.LawfulEqCmp.compare_eq_iff_eq,
            Option.some.injEq]
          by_cases same : thread = id
          · rw [if_pos same, if_pos same]
          · rw [if_neg same, if_neg same]
            exact kept

theorem frames_eq_lastFrame (reports : List ExecutionReport) :
    (reports.foldl Execution.after .fresh).frames.byThread[id]? = lastFrame reports id := by
  induction reports using List.reverseRecOn with
  | nil => exact Std.ExtTreeMap.getElem?_empty
  | append_singleton reports report ih =>
      rw [List.foldl_concat, lastFrame, lastDescribed_about_append, ← lastFrame, ← ih]
      cases report with
      | running thread =>
          simp only [Execution.after, framesAfterRunning_getElem?, ExecutionReport.ofFrame]
          split_ifs <;> rfl
      | stopped thread reason frame =>
          simp only [Execution.after, framesAfterStop_getElem?, ExecutionReport.ofFrame]
          cases (if thread = some id then frame else none) with
          | some frame => rfl
          | none => simp only; split_ifs <;> rfl
      | created | exited => rfl
      | failed => exact Std.ExtTreeMap.getElem?_empty

/-- What an answer says about the execution: a command for it that was submitted as
such has been refused. -/
def ExecutionReport.ofAnswer : Answer → Option ExecutionReport
  | ⟨.structured command, record⟩ =>
      if record.resultClass = .error ∧
          "exec-".toList.isPrefixOf command.operation.toList = true then
        some .failed
      else none
  | ⟨.raw _, _⟩ => none

/-- The reports so far: those of async records and of answers. -/
def followExecutionReports (reports : List ExecutionReport) (_ : Session) (label : SessionLabel) :
    Option Answer → List ExecutionReport
  | some answer => reports ++ (ExecutionReport.ofAnswer answer).toList
  | none => reports ++ (label.record?.bind Record.report?).toList

/-- The pending table knows of an answer what its request says. -/
theorem reportOf_eq {outstanding : Outstanding} {session : Session}
    (tracks : outstanding.Tracks session.pending) (label : SessionLabel) :
    session.reportOf label =
      (outstanding.answer? label).elim (label.record?.bind Record.report?)
        ExecutionReport.ofAnswer := by
  cases label with
  | submit | poll | consume => rfl
  | line streamLine =>
      simp only [Session.reportOf, Outstanding.answer?, SessionLabel.record?]
      cases lineRecord streamLine with
      | none => rfl
      | some record =>
          cases record with
          | result record =>
              have entry := Outstanding.answered?_eq tracks record
              rw [Session.answered?] at entry
              simp only [Option.bind_some, Session.report?, entry]
              cases record.token.bind outstanding with
              | none => rfl
              | some request =>
                  cases request with
                  | structured command => rfl
                  | raw line =>
                      have notExec : (SubmitRequest.raw line).info.isExecCommand = false := by
                        change PendingInfo.isExecCommand ⟨.raw, "_raw"⟩ = false
                        decide
                      simp only [Option.map_some, Option.elim_some, notExec, Bool.false_eq_true,
                        and_false, if_false, ExecutionReport.ofAnswer]
          | _ => rfl

/-- In every state of a session the frame of each thread is the one last
described. -/
theorem frames_are_last_described (miVersion : MiVersion) (labels : List SessionLabel) :
    Always (remember Session.step (AnswerLog.note followExecutionReports))
      ⟨.withVersionHint miVersion, .empty, []⟩
      (fun current => ∀ id, current.state.frames.byThread[id]? =
        lastFrame current.memory.memory id) labels := by
  intro before isPrefix current ran id
  have execution : current.state.execution =
      current.memory.memory.foldl Execution.after .fresh := by
    have reachable := reachable_of_run ran
    clear ran
    induction reachable with
    | refl => rfl
    | @tail current next label reachable _ stepped ih =>
        have tracks := AnswerLog.tracks_of_reachable reachable
        obtain ⟨stepped, noted⟩ := remember_eq_some stepped
        rw [noted, Session.step_execution stepped, reportOf_eq tracks, AnswerLog.note, ih]
        cases current.memory.outstanding.answer? label with
        | none =>
            simp only [followExecutionReports, List.foldl_append, Option.elim_none]
            cases label.record?.bind Record.report? <;> rfl
        | some answer =>
            simp only [followExecutionReports, List.foldl_append, Option.elim_some]
            cases ExecutionReport.ofAnswer answer <;> rfl
  rw [← frames_eq_lastFrame, ← execution]
  rfl

end Frames

/-- What GDB reports of a breakpoint. -/
inductive BreakpointNote where
  | described (tuple : Results)
  | deleted (id : BreakpointId)

namespace BreakpointNote

def ofBkpt (results : Results) : Option BreakpointNote :=
  (getTuple results "bkpt").map .described

def ofNotification (record : AsyncRecord) : Option BreakpointNote :=
  match record.asyncClass with
  | "breakpoint-created" => ofBkpt record.results
  | "breakpoint-modified" => ofBkpt record.results
  | "breakpoint-deleted" => (getStr record.results "id").map .deleted
  | _ => none

/-- The answers that carry a breakpoint are those of commands submitted through
`submit`; answers to raw lines are not interpreted. -/
def ofAnswer : Answer → Option BreakpointNote
  | ⟨.structured command, record⟩ =>
      if record.resultClass.isSuccess = true ∧
          (command.operation = "break-insert" ∨ command.operation = "break-info") then
        ofBkpt record.results
      else none
  | ⟨.raw _, _⟩ => none

/-- A breakpoint without a location list is its own only location. -/
def breakpoint (id : BreakpointId) (tuple : Results) : Breakpoint where
  id
  kind := getStr tuple "type"
  disp := getStr tuple "disp"
  enabled := (getBool tuple "enabled").getD true
  times := getU32 tuple "times"
  locations :=
    if (extractLocations tuple).isEmpty then [.fromResults tuple] else extractLocations tuple

/-- What a note says of one breakpoint. -/
def about (id : BreakpointId) : BreakpointNote → Option (Report Breakpoint Empty)
  | .described tuple =>
      if getStr tuple "number" = some id then some (.describe (breakpoint id tuple)) else none
  | .deleted other => if other = id then some .finish else none

def apply (registry : BreakpointRegistry) : BreakpointNote → BreakpointRegistry
  | .described tuple => registry.upsertFromBkptTuple tuple
  | .deleted id => ⟨registry.byId.erase id⟩

theorem apply_getElem? (registry : BreakpointRegistry) (id : BreakpointId)
    (note : BreakpointNote) :
    (note.apply registry).byId[id]? =
      (note.about id).elim registry.byId[id]? Report.object? := by
  cases note with
  | described tuple =>
      rw [apply, about, BreakpointRegistry.upsertFromBkptTuple]
      cases number : getStr tuple "number" with
      | none => rfl
      | some other =>
          simp only [Std.ExtTreeMap.getElem?_insert, Std.LawfulEqCmp.compare_eq_iff_eq,
            Option.some.injEq]
          by_cases same : other = id
          · subst same
            rw [if_pos rfl, if_pos rfl]
            rfl
          · rw [if_neg same, if_neg same]
            rfl
  | deleted other =>
      simp only [apply, about, Std.ExtTreeMap.getElem?_erase, Std.LawfulEqCmp.compare_eq_iff_eq]
      by_cases same : other = id
      · rw [if_pos same, if_pos same]
        rfl
      · rw [if_neg same, if_neg same]
        rfl

/-- The breakpoint that the last note about it has described. -/
def last (notes : List BreakpointNote) (id : BreakpointId) : Option Breakpoint :=
  lastDescribed (notes.filterMap (about id))

end BreakpointNote

/-- The notes so far: those of notifications and of answers. -/
def followBreakpointNotes (notes : List BreakpointNote) (_ : Session) (label : SessionLabel) :
    Option Answer → List BreakpointNote
  | some answer => notes ++ (BreakpointNote.ofAnswer answer).toList
  | none =>
      match label.record? with
      | some (.notify record) => notes ++ (BreakpointNote.ofNotification record).toList
      | _ => notes

namespace BreakpointNote

theorem elim_ofBkpt (registry : BreakpointRegistry) (results : Results) :
    (ofBkpt results).elim registry (apply registry) =
      match getTuple results "bkpt" with
      | some tuple => registry.upsertFromBkptTuple tuple
      | none => registry := by
  rw [ofBkpt]
  cases getTuple results "bkpt" <;> rfl

theorem elim_ofNotification (label : SessionLabel) (registry : BreakpointRegistry)
    {record : AsyncRecord} (isRecord : label.record? = some (.notify record)) :
    (ofNotification record).elim registry (apply registry) =
      label.notifiedBreakpoints registry := by
  rw [SessionLabel.notifiedBreakpoints, isRecord]
  rcases record with ⟨token, asyncClass, results⟩
  by_cases created : asyncClass = "breakpoint-created"
  · subst created
    exact elim_ofBkpt registry results
  by_cases modified : asyncClass = "breakpoint-modified"
  · subst modified
    exact elim_ofBkpt registry results
  by_cases deleted : asyncClass = "breakpoint-deleted"
  · subst deleted
    simp only [ofNotification, BreakpointRegistry.onBreakpointDeleted]
    cases getStr results "id" <;> rfl
  simp [ofNotification]

theorem elim_ofAnswer (request : SubmitRequest) (record : ResultRecord)
    (registry : BreakpointRegistry) :
    (ofAnswer ⟨request, record⟩).elim registry (apply registry) =
      if record.resultClass.isSuccess then
        request.info.breakpointsAfter record.results registry
      else registry := by
  cases request with
  | raw line => exact (ite_self _).symm
  | structured command =>
      rcases command with ⟨operation, options, parameters⟩
      rw [ofAnswer]
      by_cases succeeds : record.resultClass.isSuccess = true
      · simp only [succeeds, true_and, if_true, SubmitRequest.info, PendingInfo.breakpointsAfter]
        fun_cases Operation.fromName operation parameters
        case case1 =>
          rw [if_pos (Or.inl rfl), elim_ofBkpt]
          cases getTuple record.results "bkpt" <;> rfl
        case case2 =>
          rw [if_pos (Or.inr rfl), elim_ofBkpt]
          cases getTuple record.results "bkpt" <;> rfl
        case case10 notBreakInsert notBreakInfo _ _ _ _ _ _ _ =>
          have other : ¬ (operation = "break-insert" ∨ operation = "break-info") := by
            rintro (isInsert | isInfo)
            · exact notBreakInsert isInsert
            · exact notBreakInfo isInfo
          rw [if_neg other]
          rfl
        all_goals rfl
      · simp [succeeds]

end BreakpointNote

section Breakpoints

variable {current next : Remembering Session (AnswerLog (List BreakpointNote))}
  {label : SessionLabel}

/-- A step adds at most one note, and the registry follows it. -/
theorem breakpointNote_of_step
    (tracks : current.memory.outstanding.Tracks current.state.pending)
    (stepped : remember Session.step (AnswerLog.note followBreakpointNotes) current label =
      some next) :
    ∃ note : Option BreakpointNote, next.memory.memory = current.memory.memory ++ note.toList ∧
      next.state.breakpoints =
        note.elim current.state.breakpoints (BreakpointNote.apply current.state.breakpoints) := by
  obtain ⟨stepped, noted⟩ := remember_eq_some stepped
  rw [noted, AnswerLog.note]
  cases isAnswer : current.memory.outstanding.answer? label with
  | some answer =>
      refine ⟨BreakpointNote.ofAnswer answer, rfl, ?_⟩
      rw [(tracks.step_answered stepped isAnswer).breakpoints, BreakpointNote.elim_ofAnswer]
  | none =>
      have unanswered := (tracks.step_unanswered stepped isAnswer).2.2
      cases isRecord : label.record? with
      | none =>
          refine ⟨none, ?_, ?_⟩
          · simp [followBreakpointNotes, isRecord]
          · rw [unanswered, SessionLabel.notifiedBreakpoints, isRecord]
            rfl
      | some record =>
          cases record with
          | notify record =>
              refine ⟨BreakpointNote.ofNotification record, ?_, ?_⟩
              · simp [followBreakpointNotes, isRecord]
              · rw [unanswered, BreakpointNote.elim_ofNotification label _ isRecord]
          | _ =>
              refine ⟨none, ?_, ?_⟩
              · simp [followBreakpointNotes, isRecord]
              · rw [unanswered, SessionLabel.notifiedBreakpoints, isRecord]
                rfl

/-- In every state of a session a breakpoint is there as the last report about it
has described it, unless that was its deletion. -/
theorem breakpoints_are_last_described (miVersion : MiVersion) (labels : List SessionLabel) :
    Always (remember Session.step (AnswerLog.note followBreakpointNotes))
      ⟨.withVersionHint miVersion, .empty, []⟩
      (fun current => ∀ id, current.state.breakpoints.byId[id]? =
        BreakpointNote.last current.memory.memory id) labels := by
  intro before isPrefix current ran id
  have reachable := reachable_of_run ran
  clear ran
  induction reachable with
  | refl => exact Std.ExtTreeMap.getElem?_empty
  | @tail current next label reachable _ stepped ih =>
      obtain ⟨note, notes, breakpoints⟩ :=
        breakpointNote_of_step (AnswerLog.tracks_of_reachable reachable) stepped
      rw [notes, breakpoints]
      cases note with
      | none =>
          rw [Option.toList_none, List.append_nil]
          exact ih
      | some note =>
          change (note.apply current.state.breakpoints).byId[id]? =
            BreakpointNote.last (current.memory.memory ++ [note]) id
          rw [note.apply_getElem?, ih, BreakpointNote.last, BreakpointNote.last,
            lastDescribed_about_append]

end Breakpoints

/-- What GDB reports of a variable object; an entry of a change list has its
fields. -/
inductive VarObjNote where
  | created (name : VarObjName) (expression : Option String) (results : Results)
  | changed (name : VarObjName) (entries : Results)
  | deleted (name : VarObjName)

namespace VarObjNote

def ofEntry : Value → Option VarObjNote
  | .tuple entries => (getStr entries "name").map fun name => .changed name entries
  | _ => none

def ofResults (command : MiCommand) (results : Results) : List VarObjNote :=
  match command.operation with
  | "var-create" =>
      ((getStr results "name").map fun name =>
        .created name command.parameters.getLast? results).toList
  | "var-update" =>
      match getList results "changelist" with
      | some (.values items) => items.filterMap ofEntry
      | _ => []
  | "var-delete" => [.deleted (command.parameters.head?.getD "")]
  | _ => []

/-- What an answer to a submitted command tells; answers to raw lines are not
interpreted. -/
def ofAnswer : Answer → List VarObjNote
  | ⟨.structured command, record⟩ =>
      if record.resultClass.isSuccess then ofResults command record.results else []
  | ⟨.raw _, _⟩ => []

def varobj (name : VarObjName) (expression : Option String) (results : Results) : VarObj where
  name
  expression
  typeName := getStr results "type"
  value := getStr results "value"
  numchild := getU32 results "numchild"
  inScope := none

/-- The fields that an entry reports replace the old ones. -/
def amend (entries : Results) (varobj : VarObj) : VarObj :=
  { varobj with
    value := (getStr entries "value").or varobj.value
    inScope := (getBool entries "in_scope").or varobj.inScope
    typeName := (getStr entries "new_type").or varobj.typeName }

/-- What a note says of one object. -/
def about (name : VarObjName) : VarObjNote → Option (Report VarObj Results)
  | .created other expression results =>
      if other = name then some (.describe (varobj name expression results)) else none
  | .changed other entries => if other = name then some (.amend entries) else none
  | .deleted other => if other = name then some .finish else none

/-- An object is there since it was last created, or since its first change after
it was last deleted.  Each field is as last reported since then. -/
def last (notes : List VarObjNote) (name : VarObjName) : Option VarObj :=
  let reports := notes.filterMap (about name)
  let first := (origin reports).getD (.new name)
  let later := changes reports
  if (origin reports).isNone && later.isEmpty then none
  else
    some
      { name
        expression := first.expression
        typeName := (later.filterMap (getStr · "new_type")).getLast?.or first.typeName
        value := (later.filterMap (getStr · "value")).getLast?.or first.value
        numchild := first.numchild
        inScope := (later.filterMap (getBool · "in_scope")).getLast?.or first.inScope }

def nameField : Field amend VarObjName where
  read varobj := some varobj.name
  tells _ := none
  read_apply _ _ := rfl

def expressionField : Field amend String where
  read := VarObj.expression
  tells _ := none
  read_apply _ _ := rfl

def typeNameField : Field amend String where
  read := VarObj.typeName
  tells := (getStr · "new_type")
  read_apply _ _ := rfl

def valueField : Field amend String where
  read := VarObj.value
  tells := (getStr · "value")
  read_apply _ _ := rfl

def numchildField : Field amend UInt32 where
  read := VarObj.numchild
  tells _ := none
  read_apply _ _ := rfl

def inScopeField : Field amend Bool where
  read := VarObj.inScope
  tells := (getBool · "in_scope")
  read_apply _ _ := rfl

attribute [ext] VarObj

theorem name_of_origin {notes : List VarObjNote} {name : VarObjName} {first : VarObj}
    (isOrigin : origin (notes.filterMap (about name)) = some first) : first.name = name := by
  obtain ⟨note, _, isAbout⟩ := List.mem_filterMap.mp (mem_of_origin isOrigin)
  cases note with
  | created other expression results =>
      simp only [about] at isAbout
      split_ifs at isAbout
      cases isAbout
      rfl
  | changed | deleted =>
      simp only [about] at isAbout
      split_ifs at isAbout
      cases isAbout

theorem last_of_untold {β : Type} (field : Field amend β)
    (untold : ∀ entries, field.tells entries = none) (later : List Results) (first : VarObj) :
    field.last later first = field.read first := by
  have noneTold : later.filterMap field.tells = [] :=
    List.filterMap_eq_nil_iff.mpr fun entries _ => untold entries
  rw [Field.last, noneTold]
  rfl

theorem lookup_eq_last (notes : List VarObjNote) (name : VarObjName) :
    lookup (.new name) amend (notes.filterMap (about name)) = last notes name := by
  unfold lookup last
  simp only
  split_ifs with absent
  · rfl
  · generalize isFirst : (origin (notes.filterMap (about name))).getD (.new name) = first
    have isNamed : first.name = name := by
      cases isOrigin : origin (notes.filterMap (about name)) with
      | none =>
          rw [isOrigin] at isFirst
          exact isFirst ▸ rfl
      | some described =>
          rw [isOrigin] at isFirst
          exact isFirst ▸ name_of_origin isOrigin
    congr 1
    ext1
    · have sameName := nameField.read_foldl (changes (notes.filterMap (about name))) first
      rw [last_of_untold nameField (fun _ => rfl)] at sameName
      exact (Option.some.inj sameName).trans isNamed
    · exact (expressionField.read_foldl _ first).trans
        (last_of_untold expressionField (fun _ => rfl) _ first)
    · exact typeNameField.read_foldl _ first
    · exact valueField.read_foldl _ first
    · exact (numchildField.read_foldl _ first).trans
        (last_of_untold numchildField (fun _ => rfl) _ first)
    · exact inScopeField.read_foldl _ first

def apply (registry : VarObjRegistry) : VarObjNote → VarObjRegistry
  | .created name expression results =>
      ⟨registry.byName.insert name (varobj name expression results)⟩
  | .changed name entries =>
      ⟨registry.byName.alter name fun found => some (amend entries (found.getD (.new name)))⟩
  | .deleted name => registry.onVarDelete name

theorem apply_getElem? (registry : VarObjRegistry) (name : VarObjName) (note : VarObjNote) :
    (note.apply registry).byName[name]? =
      (note.about name).elim registry.byName[name]? fun report =>
        report.follow (.new name) amend registry.byName[name]? := by
  cases note with
  | created other expression results =>
      simp only [apply, about, Std.ExtTreeMap.getElem?_insert, Std.LawfulEqCmp.compare_eq_iff_eq]
      by_cases same : other = name
      · subst same
        rw [if_pos rfl, if_pos rfl]
        rfl
      · rw [if_neg same, if_neg same]
        rfl
  | changed other entries =>
      simp only [apply, about, Std.ExtTreeMap.getElem?_alter, Std.LawfulEqCmp.compare_eq_iff_eq]
      by_cases same : other = name
      · subst same
        rw [if_pos rfl, if_pos rfl]
        rfl
      · rw [if_neg same, if_neg same]
        rfl
  | deleted other =>
      simp only [apply, about, VarObjRegistry.onVarDelete, Std.ExtTreeMap.getElem?_erase,
        Std.LawfulEqCmp.compare_eq_iff_eq]
      by_cases same : other = name
      · rw [if_pos same, if_pos same]
        rfl
      · rw [if_neg same, if_neg same]
        rfl

theorem updateEntry_eq (registry : VarObjRegistry) (item : Value) :
    registry.updateEntry item = (ofEntry item).elim registry (apply registry) := by
  cases item with
  | tuple entries =>
      simp only [VarObjRegistry.updateEntry, ofEntry]
      cases getStr entries "name" <;> rfl
  | const | list => rfl

theorem foldl_updateEntry (items : List Value) (registry : VarObjRegistry) :
    items.foldl VarObjRegistry.updateEntry registry =
      (items.filterMap ofEntry).foldl apply registry := by
  induction items generalizing registry with
  | nil => rfl
  | cons item items ih =>
      rw [List.foldl_cons, updateEntry_eq, ih]
      cases isEntry : ofEntry item with
      | none => rw [List.filterMap_cons_none isEntry]; rfl
      | some note => rw [List.filterMap_cons_some isEntry]; rfl

theorem foldl_ofAnswer (request : SubmitRequest) (record : ResultRecord)
    (registry : VarObjRegistry) :
    (ofAnswer ⟨request, record⟩).foldl apply registry =
      if record.resultClass.isSuccess then request.info.varobjsAfter record.results registry
      else registry := by
  cases request with
  | raw line => exact (ite_self _).symm
  | structured command =>
      rcases command with ⟨operation, options, parameters⟩
      rw [ofAnswer]
      split_ifs with succeeds
      · simp only [SubmitRequest.info, PendingInfo.varobjsAfter, ofResults]
        fun_cases Operation.fromName operation parameters
        case case3 =>
          simp only [VarObjRegistry.onVarCreate]
          cases getStr record.results "name" <;> rfl
        case case4 =>
          simp only [VarObjRegistry.onVarUpdate]
          cases getList record.results "changelist" with
          | none => rfl
          | some list =>
              cases list with
              | values items => exact (foldl_updateEntry items registry).symm
              | results | empty => rfl
        case case5 => rfl
        case case10 _ _ notCreate notUpdate notDelete _ _ _ _ =>
          split
          · exact absurd rfl notCreate
          · exact absurd rfl notUpdate
          · exact absurd rfl notDelete
          · rfl
        all_goals rfl
      · rfl

end VarObjNote

def followVarObjNotes (notes : List VarObjNote) (_ : Session) (_ : SessionLabel) :
    Option Answer → List VarObjNote
  | some answer => notes ++ VarObjNote.ofAnswer answer
  | none => notes

/-- The registry has the objects that the notes leave. -/
def VarObjRegistry.Follows (registry : VarObjRegistry) (notes : List VarObjNote) : Prop :=
  ∀ name, registry.byName[name]? = VarObjNote.last notes name

theorem VarObjRegistry.Follows.foldl {registry : VarObjRegistry} {notes : List VarObjNote}
    (follows : registry.Follows notes) (more : List VarObjNote) :
    (more.foldl VarObjNote.apply registry).Follows (notes ++ more) := by
  induction more generalizing registry notes with
  | nil => exact (List.append_nil notes).symm ▸ follows
  | cons note more ih =>
      rw [List.foldl_cons, List.append_cons]
      apply ih
      intro name
      rw [note.apply_getElem?, follows name, ← VarObjNote.lookup_eq_last,
        ← VarObjNote.lookup_eq_last, lookup_about_append]

/-- In every state of a session each field of a variable object is what was last
reported of it in the object's life. -/
theorem varobjs_are_last_reported (miVersion : MiVersion) (labels : List SessionLabel) :
    Always (remember Session.step (AnswerLog.note followVarObjNotes))
      ⟨.withVersionHint miVersion, .empty, []⟩
      (fun current => current.state.varobjs.Follows current.memory.memory) labels := by
  intro before isPrefix current ran
  have reachable := reachable_of_run ran
  clear ran
  induction reachable with
  | refl => exact fun name => Std.ExtTreeMap.getElem?_empty
  | @tail current next label reachable _ stepped ih =>
      have tracks := AnswerLog.tracks_of_reachable reachable
      obtain ⟨stepped, noted⟩ := remember_eq_some stepped
      rw [noted, AnswerLog.note]
      cases isAnswer : current.memory.outstanding.answer? label with
      | none =>
          rw [(tracks.step_unanswered stepped isAnswer).2.1]
          exact ih
      | some answer =>
          rw [(tracks.step_answered stepped isAnswer).varobjs, ← VarObjNote.foldl_ofAnswer]
          exact ih.foldl (VarObjNote.ofAnswer answer)

end Framewalk
