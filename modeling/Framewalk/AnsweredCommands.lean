import Framewalk.ResultRouting

/-!
# Answers and the requests they answer

The pending table keeps of a request only what routing needs.  Beside a run
stands here what it forgets: the whole unanswered request under each token.  A
step then either brings an answer, whose effect the request prescribes, or
changes no registry but by a notification.
-/

namespace Framewalk

open ResultsView TransitionSystem

/-- The unanswered request under each token. -/
abbrev Outstanding := Token → Option SubmitRequest

/-- A result record and the request it answers. -/
structure Answer where
  request : SubmitRequest
  record : ResultRecord

/-- The record that a label brings. -/
def SessionLabel.record? : SessionLabel → Option Record
  | .line streamLine => lineRecord streamLine
  | _ => none

/-- The request is a structured command with this operation. -/
def SubmitRequest.runs : SubmitRequest → String → Bool
  | .structured command, operation => command.operation == operation
  | .raw _, _ => false

namespace Outstanding

def empty : Outstanding :=
  fun _ => none

def answer? (outstanding : Outstanding) (label : SessionLabel) : Option Answer :=
  match label.record? with
  | some (.result record) =>
      (record.token.bind outstanding).map fun request => ⟨request, record⟩
  | _ => none

/-- Nothing is outstanding any more under the token of a result. -/
def settle (outstanding : Outstanding) (record : ResultRecord) : Outstanding :=
  match record.token with
  | some token => Function.update outstanding token none
  | none => outstanding

/-- A request is outstanding from its submission to the first result under its
token. -/
def note (outstanding : Outstanding) (session : Session) (label : SessionLabel) : Outstanding :=
  match label with
  | .submit request => Function.update outstanding session.tokens.allocate.1 (some request)
  | .line streamLine =>
      match lineRecord streamLine with
      | some (.result record) => outstanding.settle record
      | _ => outstanding
  | .poll | .consume _ => outstanding

/-- The pending table holds what is outstanding. -/
def Tracks (outstanding : Outstanding) (pending : PendingCommands) : Prop :=
  ∀ token : Token, pending.byToken[token]? = (outstanding token).map SubmitRequest.info

theorem tracks_empty : empty.Tracks .empty := by
  intro token
  exact Std.ExtTreeMap.getElem?_empty

theorem answered?_eq {outstanding : Outstanding} {session : Session}
    (tracks : outstanding.Tracks session.pending) (record : ResultRecord) :
    session.answered? record = (record.token.bind outstanding).map SubmitRequest.info := by
  rw [Session.answered?]
  cases record.token with
  | none => rfl
  | some token => exact tracks token

theorem Tracks.submit {outstanding : Outstanding} {session : Session}
    (tracks : outstanding.Tracks session.pending) (request : SubmitRequest) :
    (outstanding.note session (.submit request)).Tracks (session.submit request).pending := by
  intro token
  change (session.pending.byToken.insert session.tokens.allocate.1 request.info)[token]? =
    (Function.update outstanding session.tokens.allocate.1 (some request) token).map _
  simp only [Std.ExtTreeMap.getElem?_insert, Std.LawfulEqCmp.compare_eq_iff_eq]
  by_cases same : session.tokens.allocate.1 = token
  · rw [if_pos same, same, Function.update_self]
    rfl
  · rw [if_neg same, Function.update_of_ne (Ne.symm same)]
    exact tracks token

theorem Tracks.classifyResult {outstanding : Outstanding} {session : Session}
    (tracks : outstanding.Tracks session.pending) (record : ResultRecord) :
    (outstanding.settle record).Tracks (session.classifyResult record).pending := by
  intro token
  unfold settle
  cases hasToken : record.token with
  | none =>
      have noEntry : session.answered? record = none := by
        rw [Session.answered?, hasToken]
        rfl
      rw [(Session.classifyResult_of_none noEntry).2.2]
      exact tracks token
  | some answered =>
      change _ = (Function.update outstanding answered none token).map SubmitRequest.info
      cases found : session.pending.byToken[answered]? with
      | none =>
          have noEntry : session.answered? record = none := by
            rw [Session.answered?, hasToken]
            exact found
          rw [(Session.classifyResult_of_none noEntry).2.2, tracks token]
          by_cases same : token = answered
          · rw [same, Function.update_self, ← tracks answered, found]
            rfl
          · rw [Function.update_of_ne same]
      | some info =>
          rw [(Session.classifyResult_of_some hasToken found).2.2, tracks token]
          by_cases same : answered = token
          · rw [if_pos same, same, Function.update_self]
            rfl
          · rw [if_neg same, Function.update_of_ne (Ne.symm same)]

theorem Tracks.step {outstanding : Outstanding} {session next : Session} {label : SessionLabel}
    (tracks : outstanding.Tracks session.pending) (stepped : session.step label = some next) :
    (outstanding.note session label).Tracks next.pending := by
  rcases Session.step_cases stepped with
    ⟨streamLine, record, rfl, isRecord, rfl⟩ | ⟨request, rfl, rfl⟩ |
    ⟨isSilent, events, outbound, rfl⟩
  · rw [note, isRecord]
    cases record with
    | result record => exact tracks.classifyResult record
    | _ =>
        rw [(Session.classifyRecord_pending _ (by simp)).1]
        exact tracks
  · exact tracks.submit request
  · cases label with
    | line streamLine =>
        have noRecord : lineRecord streamLine = none := isSilent
        rw [note, noRecord]
        exact tracks
    | submit => exact isSilent.elim
    | poll | consume => exact tracks

end Outstanding

/-- The breakpoints after a notification. -/
def SessionLabel.notifiedBreakpoints (label : SessionLabel) (registry : BreakpointRegistry) :
    BreakpointRegistry :=
  match label.record? with
  | some (.notify record) =>
      match record.asyncClass with
      | "breakpoint-created" => registry.onBreakpointCreated record.results
      | "breakpoint-modified" => registry.onBreakpointModified record.results
      | "breakpoint-deleted" => registry.onBreakpointDeleted record.results
      | _ => registry
  | _ => registry

namespace Session

theorem classifyRecord_features (session : Session) {record : Record}
    (notResult : ∀ result, record ≠ .result result) :
    (session.classifyRecord record).features = session.features ∧
      (session.classifyRecord record).varobjs = session.varobjs := by
  cases record with
  | result result => exact absurd rfl (notResult result)
  | exec record =>
      simp only [classifyRecord, classifyExec]
      split
      · exact ⟨rfl, rfl⟩
      · simp only [classifyStopped, enterStopped]
        split <;> exact ⟨rfl, rfl⟩
      · exact ⟨rfl, rfl⟩
  | notify record =>
      simp only [classifyRecord, classifyNotify]
      split <;> exact ⟨rfl, rfl⟩
  | status record | console record | target record | log record => exact ⟨rfl, rfl⟩

theorem classifyExec_breakpoints (session : Session) (record : AsyncRecord) :
    (session.classifyExec record).breakpoints = session.breakpoints := by
  unfold classifyExec
  split
  · rfl
  · simp only [classifyStopped, enterStopped]
    split <;> rfl
  · rfl

theorem classifyNotify_breakpoints (session : Session) {record : AsyncRecord}
    {label : SessionLabel} (isRecord : label.record? = some (.notify record)) :
    (session.classifyNotify record).breakpoints =
      label.notifiedBreakpoints session.breakpoints := by
  rw [SessionLabel.notifiedBreakpoints, isRecord]
  simp only [classifyNotify, pushEvent]
  split
  · next isClass =>
      rw [isClass]
      rfl
  · next isClass =>
      rw [isClass]
      rfl
  · next isClass =>
      rw [isClass]
      rfl
  · next isClass =>
      rw [isClass]
      rfl
  · next isClass =>
      rw [isClass]
      rfl
  · next _ _ notCreated notModified notDeleted =>
      split
      · next isClass => exact absurd isClass notCreated
      · next isClass => exact absurd isClass notModified
      · next isClass => exact absurd isClass notDeleted
      · rfl

end Session

/-- A step that brings no answer changes of these registries only what a
notification does. -/
theorem Outstanding.Tracks.step_unanswered {outstanding : Outstanding} {session next : Session}
    {label : SessionLabel} (tracks : outstanding.Tracks session.pending)
    (stepped : session.step label = some next) (noAnswer : outstanding.answer? label = none) :
    next.features = session.features ∧ next.varobjs = session.varobjs ∧
      next.breakpoints = label.notifiedBreakpoints session.breakpoints := by
  rcases Session.step_cases stepped with
    ⟨streamLine, record, rfl, isRecord, rfl⟩ | ⟨request, rfl, rfl⟩ |
    ⟨isSilent, events, outbound, rfl⟩
  · have isLabelRecord : (SessionLabel.line streamLine).record? = some record := isRecord
    cases record with
    | result record =>
        have noEntry : session.answered? record = none := by
          rw [answer?, isLabelRecord, Option.map_eq_none_iff] at noAnswer
          rw [answered?_eq tracks, noAnswer]
          rfl
        have same := (Session.classifyResult_of_none noEntry).1
        refine ⟨same.features, same.varobjs, ?_⟩
        rw [SessionLabel.notifiedBreakpoints, isLabelRecord]
        exact same.breakpoints
    | exec record =>
        have same := @Session.classifyRecord_features session (.exec record) (by simp)
        refine ⟨same.1, same.2, ?_⟩
        rw [SessionLabel.notifiedBreakpoints, isLabelRecord]
        exact session.classifyExec_breakpoints record
    | notify record =>
        have same := @Session.classifyRecord_features session (.notify record) (by simp)
        exact ⟨same.1, same.2, session.classifyNotify_breakpoints isLabelRecord⟩
    | status record | console record | target record | log record =>
        refine ⟨rfl, rfl, ?_⟩
        rw [SessionLabel.notifiedBreakpoints, isLabelRecord]
        rfl
  · exact ⟨rfl, rfl, rfl⟩
  · refine ⟨rfl, rfl, ?_⟩
    cases label with
    | line streamLine =>
        have noRecord : (SessionLabel.line streamLine).record? = none := isSilent
        rw [SessionLabel.notifiedBreakpoints, noRecord]
    | submit => exact isSilent.elim
    | poll | consume => rfl

theorem Outstanding.Tracks.step_answered {outstanding : Outstanding} {session next : Session}
    {label : SessionLabel} {answer : Answer} (tracks : outstanding.Tracks session.pending)
    (stepped : session.step label = some next)
    (isAnswer : outstanding.answer? label = some answer) :
    Session.ChangesAsPrescribed answer.request.info answer.record session next := by
  unfold answer? at isAnswer
  split at isAnswer
  · next record isRecord =>
      rw [Option.map_eq_some_iff] at isAnswer
      rcases isAnswer with ⟨request, isOutstanding, rfl⟩
      rw [Option.bind_eq_some_iff] at isOutstanding
      rcases isOutstanding with ⟨token, hasToken, isOutstanding⟩
      have found : session.pending.byToken[token]? = some request.info := by
        rw [tracks token, isOutstanding]
        rfl
      rcases Session.step_cases stepped with
        ⟨streamLine, other, rfl, isOther, rfl⟩ | ⟨request, rfl, rfl⟩ | ⟨isSilent, _⟩
      · obtain rfl : other = .result record := Option.some.inj (isOther.symm.trans isRecord)
        exact (Session.classifyResult_of_some hasToken found).1
      · cases isRecord
      · cases label with
        | line streamLine =>
            have noRecord : (SessionLabel.line streamLine).record? = none := isSilent
            rw [noRecord] at isRecord
            cases isRecord
        | submit | poll | consume => cases isRecord
  · cases isAnswer

/-- What is outstanding, and a memory of the answers so far. -/
structure AnswerLog (Memory : Type) where
  outstanding : Outstanding
  memory : Memory

section Following

variable {Memory : Type}

/-- Follow the answers of a run. -/
def AnswerLog.note (follow : Memory → Session → SessionLabel → Option Answer → Memory)
    (log : AnswerLog Memory) (session : Session) (label : SessionLabel) (_ : Session) :
    AnswerLog Memory where
  outstanding := log.outstanding.note session label
  memory := follow log.memory session label (log.outstanding.answer? label)

theorem AnswerLog.tracks_of_reachable
    {follow : Memory → Session → SessionLabel → Option Answer → Memory} {miVersion : MiVersion}
    {memory : Memory} {current : Remembering Session (AnswerLog Memory)}
    (reachable : Reachable (remember Session.step (note follow))
      ⟨.withVersionHint miVersion, .empty, memory⟩ current) :
    current.memory.outstanding.Tracks current.state.pending := by
  apply reachable.invariant
  · exact Outstanding.tracks_empty
  · intro current next label tracks _ stepped
    rcases remember_eq_some stepped with ⟨stepped, noted⟩
    rw [noted]
    exact tracks.step stepped

end Following

end Framewalk
