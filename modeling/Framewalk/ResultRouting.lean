import Framewalk.RawGuard
import Framewalk.SessionRuns
import Mathlib.Data.List.Nodup

/-!
# Results and the commands they answer

A result record reaches the registries only through the pending entry of its
token, and taking the entry removes it.  So every submitted command is answered
at most once, whatever replies come in whatever order.
-/

namespace Framewalk

open ResultsView TransitionSystem

/-- The classes whose payload goes to the registries. -/
def ResultClass.isSuccess : ResultClass → Bool
  | .done | .connected => true
  | _ => false

namespace PendingInfo

/-- The breakpoints after a successful answer. -/
def breakpointsAfter (info : PendingInfo) (results : Results) (registry : BreakpointRegistry) :
    BreakpointRegistry :=
  match info.operation, getTuple results "bkpt" with
  | .breakInsert, some tuple | .breakInfo, some tuple => registry.upsertFromBkptTuple tuple
  | _, _ => registry

/-- The variable objects after a successful answer. -/
def varobjsAfter (info : PendingInfo) (results : Results) (registry : VarObjRegistry) :
    VarObjRegistry :=
  match info.operation with
  | .varCreate expression => registry.onVarCreate results expression
  | .varUpdate => registry.onVarUpdate results
  | .varDelete name => registry.onVarDelete name
  | _ => registry

/-- The features after a successful answer. -/
def featuresAfter (info : PendingInfo) (results : Results) (features : FeatureSet) : FeatureSet :=
  match info.operation with
  | .listFeatures => features.onListFeatures results
  | .listTargetFeatures => features.onListTargetFeatures results
  | .targetSelect | .execRun => features.invalidateTargetFeatures
  | _ => features

end PendingInfo

namespace Session

structure SameRegistries (before after : Session) : Prop where
  target : after.target = before.target
  threads : after.threads = before.threads
  frames : after.frames = before.frames
  breakpoints : after.breakpoints = before.breakpoints
  varobjs : after.varobjs = before.varobjs
  features : after.features = before.features

/-- The registries change as the operation behind the answer prescribes: a
success goes to the one registry of the operation, the error of an execution
command resets the target and the frames, and nothing else happens. -/
structure ChangesAsPrescribed (info : PendingInfo) (record : ResultRecord)
    (before after : Session) : Prop where
  threads : after.threads = before.threads
  target : after.target =
    if record.resultClass = .error ∧ info.isExecCommand then .unknown else before.target
  frames : after.frames =
    if record.resultClass = .error ∧ info.isExecCommand then .empty else before.frames
  breakpoints : after.breakpoints =
    if record.resultClass.isSuccess then info.breakpointsAfter record.results before.breakpoints
    else before.breakpoints
  varobjs : after.varobjs =
    if record.resultClass.isSuccess then info.varobjsAfter record.results before.varobjs
    else before.varobjs
  features : after.features =
    if record.resultClass.isSuccess then info.featuresAfter record.results before.features
    else before.features

theorem routeDone_eq (session : Session) (info : PendingInfo) (results : Results) :
    session.routeDone info results = { session with
      breakpoints := info.breakpointsAfter results session.breakpoints
      varobjs := info.varobjsAfter results session.varobjs
      features := info.featuresAfter results session.features } := by
  rcases info with ⟨operation, operationName⟩
  cases operation with
  | breakInsert | breakInfo =>
      simp only [routeDone, PendingInfo.breakpointsAfter, PendingInfo.varobjsAfter,
        PendingInfo.featuresAfter]
      cases getTuple results "bkpt" <;> rfl
  | _ => rfl

theorem routeResult_some (session : Session) (info : PendingInfo) (record : ResultRecord) :
    ChangesAsPrescribed info record session (session.routeResult (some info) record) ∧
      (session.routeResult (some info) record).pending = session.pending ∧
      (session.routeResult (some info) record).tokens = session.tokens := by
  unfold routeResult
  cases resultClass : record.resultClass with
  | done | connected =>
      dsimp only
      rw [routeDone_eq]
      refine ⟨?_, rfl, rfl⟩
      constructor <;> simp [resultClass, ResultClass.isSuccess]
  | error =>
      dsimp only
      by_cases isExec : info.isExecCommand = true
      · rw [if_pos isExec]
        refine ⟨?_, rfl, rfl⟩
        constructor <;> simp [resultClass, isExec, ResultClass.isSuccess, FrameRegistry.clear]
      · rw [if_neg isExec]
        refine ⟨?_, rfl, rfl⟩
        constructor <;> simp [resultClass, isExec, ResultClass.isSuccess]
  | running | exit =>
      refine ⟨?_, rfl, rfl⟩
      constructor <;> simp [resultClass, ResultClass.isSuccess]

theorem routeResult_none (session : Session) (record : ResultRecord) :
    session.routeResult none record = session := by
  unfold routeResult
  cases record.resultClass <;> rfl

theorem ChangesAsPrescribed.sameRegistries {info : PendingInfo} {record : ResultRecord}
    {before after : Session} (changes : ChangesAsPrescribed info record before after)
    (noPayload : record.resultClass = .running ∨ record.resultClass = .exit) :
    SameRegistries before after := by
  rcases changes with ⟨threads, target, frames, breakpoints, varobjs, features⟩
  rcases noPayload with isRunning | isExit
  · simp only [isRunning, ResultClass.isSuccess, reduceCtorEq, false_and, if_false,
      Bool.false_eq_true] at *
    exact ⟨target, threads, frames, breakpoints, varobjs, features⟩
  · simp only [isExit, ResultClass.isSuccess, reduceCtorEq, false_and, if_false,
      Bool.false_eq_true] at *
    exact ⟨target, threads, frames, breakpoints, varobjs, features⟩

/-- The entry that a result record takes out of the pending table. -/
def answered? (session : Session) (record : ResultRecord) : Option PendingInfo :=
  record.token.bind fun token => session.pending.byToken[token]?

theorem classifyResult_of_none {session : Session} {record : ResultRecord}
    (noEntry : session.answered? record = none) :
    SameRegistries session (session.classifyResult record) ∧
      (session.classifyResult record).tokens = session.tokens ∧
      ∀ token : Token, (session.classifyResult record).pending.byToken[token]? =
        session.pending.byToken[token]? := by
  unfold classifyResult
  cases hasToken : record.token with
  | none => exact ⟨⟨rfl, rfl, rfl, rfl, rfl, rfl⟩, rfl, fun _ => rfl⟩
  | some token =>
      have noEntry : session.pending.byToken[token]? = none := by
        rw [answered?, hasToken] at noEntry
        exact noEntry
      simp only [PendingCommands.remove, noEntry, routeResult_none]
      refine ⟨⟨rfl, rfl, rfl, rfl, rfl, rfl⟩, rfl, ?_⟩
      intro other
      simp only [pushEvent, Std.ExtTreeMap.getElem?_erase]
      split_ifs with same
      · rw [← Std.LawfulEqCmp.compare_eq_iff_eq.mp same, noEntry]
      · rfl

theorem classifyResult_of_some {session : Session} {record : ResultRecord} {token : Token}
    {info : PendingInfo} (hasToken : record.token = some token)
    (found : session.pending.byToken[token]? = some info) :
    ChangesAsPrescribed info record session (session.classifyResult record) ∧
      (session.classifyResult record).tokens = session.tokens ∧
      ∀ other : Token, (session.classifyResult record).pending.byToken[other]? =
        if token = other then none else session.pending.byToken[other]? := by
  simp only [classifyResult, hasToken, PendingCommands.remove, found]
  rcases routeResult_some { session with pending := ⟨session.pending.byToken.erase token⟩ } info
    record with ⟨changes, pending, tokens⟩
  refine ⟨⟨changes.1, changes.2, changes.3, changes.4, changes.5, changes.6⟩, tokens, ?_⟩
  intro other
  simp only [pushEvent, pending, Std.ExtTreeMap.getElem?_erase,
    Std.LawfulEqCmp.compare_eq_iff_eq]

theorem classifyRecord_pending (session : Session) {record : Record}
    (notResult : ∀ result, record ≠ .result result) :
    (session.classifyRecord record).pending = session.pending ∧
      (session.classifyRecord record).tokens = session.tokens := by
  cases record with
  | result result => exact absurd rfl (notResult result)
  | exec record =>
      simp only [classifyRecord, classifyExec]
      split
      · exact ⟨rfl, rfl⟩
      · simp only [classifyStopped, enterStopped]
        split <;> exact ⟨rfl, rfl⟩
      · exact ⟨rfl, rfl⟩
  | notify record =>
      simp only [classifyRecord, classifyNotify]
      split <;> exact ⟨rfl, rfl⟩
  | status record | console record | target record | log record => exact ⟨rfl, rfl⟩

end Session

/-- What a run remembers of its commands: every request with its token, the
latest request under each token, and which requests have been answered. -/
structure CommandLog where
  issued : List (Token × SubmitRequest)
  latest : Token → Option Nat
  answered : List Nat

namespace CommandLog

def empty : CommandLog :=
  ⟨[], fun _ => none, []⟩

def issue (log : CommandLog) (token : Token) (request : SubmitRequest) : CommandLog where
  issued := log.issued ++ [(token, request)]
  latest := Function.update log.latest token (some log.issued.length)
  answered := log.answered

/-- A result that finds an entry answers the latest request under its token. -/
def answer (log : CommandLog) (session : Session) (record : ResultRecord) : CommandLog :=
  match session.answered? record with
  | some _ => { log with answered := log.answered ++ (record.token.bind log.latest).toList }
  | none => log

/-- Follow one step of a session. -/
def note (log : CommandLog) (session : Session) (label : SessionLabel) (_ : Session) :
    CommandLog :=
  match label with
  | .submit request => log.issue session.tokens.allocate.1 request
  | .line streamLine =>
      match lineRecord streamLine with
      | some (.result record) => log.answer session record
      | _ => log
  | _ => log

/-- The request with this index is the last one issued under its token. -/
structure IsLatest (log : CommandLog) (token : Token) (index : Nat)
    (request : SubmitRequest) : Prop where
  isLatest : log.latest token = some index
  issuedAt : log.issued[index]? = some (token, request)
  isLast : ∀ later other, index < later → log.issued[later]? ≠ some (token, other)

/-- Every outstanding entry is that of the latest request under its token, which
has not been answered; and no request has been answered twice. -/
structure Tracks (log : CommandLog) (pending : PendingCommands) : Prop where
  outstanding : ∀ token info, pending.byToken[token]? = some info →
    ∃ index request, log.IsLatest token index request ∧ info = request.info ∧
      index ∉ log.answered
  nodup : log.answered.Nodup
  inRange : ∀ index ∈ log.answered, index < log.issued.length

theorem IsLatest.issue_other {log : CommandLog} {token other : Token} {index : Nat}
    {request : SubmitRequest} (latest : log.IsLatest token index request)
    (differs : other ≠ token) (added : SubmitRequest) :
    (log.issue other added).IsLatest token index request where
  isLatest := (Function.update_of_ne (Ne.symm differs) _ _).trans latest.isLatest
  issuedAt := by
    have inRange := (List.getElem?_eq_some_iff.mp latest.issuedAt).1
    rw [issue, List.getElem?_append_left inRange]
    exact latest.issuedAt
  isLast := by
    intro later found after
    simp only [issue, List.getElem?_append]
    split_ifs
    · exact latest.isLast later found after
    · rw [List.getElem?_singleton]
      split_ifs
      · intro same
        cases same
        exact differs rfl
      · simp

theorem isLatest_issue (log : CommandLog) (token : Token) (request : SubmitRequest) :
    (log.issue token request).IsLatest token log.issued.length request where
  isLatest := Function.update_self _ _ _
  issuedAt := by simp [issue]
  isLast := by
    intro later other after
    have beyond : (log.issued ++ [(token, request)]).length ≤ later := by
      rw [List.length_append, List.length_singleton]
      omega
    rw [issue, List.getElem?_eq_none beyond]
    simp

theorem Tracks.issue {log : CommandLog} {pending : PendingCommands} (tracks : log.Tracks pending)
    (token : Token) (request : SubmitRequest) :
    (log.issue token request).Tracks (pending.insert token request.info) where
  outstanding := by
    intro other info found
    by_cases same : token = other
    · subst same
      have found : (pending.byToken.insert token request.info)[token]? = some info := found
      rw [Std.ExtTreeMap.getElem?_insert_self] at found
      refine ⟨_, request, log.isLatest_issue token request, (Option.some.inj found).symm, ?_⟩
      intro member
      exact Nat.lt_irrefl _ (tracks.inRange _ member)
    · rw [PendingCommands.insert, Std.ExtTreeMap.getElem?_insert,
        if_neg (by rwa [Std.LawfulEqCmp.compare_eq_iff_eq])] at found
      rcases tracks.outstanding other info found with ⟨index, known, latest, infoEq, open_⟩
      exact ⟨index, known, latest.issue_other same request, infoEq, open_⟩
  nodup := tracks.nodup
  inRange := by
    intro index member
    have := tracks.inRange index member
    rw [CommandLog.issue, List.length_append]
    omega

theorem Tracks.mono {log : CommandLog} {pending fewer : PendingCommands}
    (tracks : log.Tracks pending)
    (kept : ∀ (token : Token) (info : PendingInfo), fewer.byToken[token]? = some info →
      pending.byToken[token]? = some info) : log.Tracks fewer where
  outstanding token info found := tracks.outstanding token info (kept token info found)
  nodup := tracks.nodup
  inRange := tracks.inRange

theorem Tracks.answer {log : CommandLog} {session : Session} (tracks : log.Tracks session.pending)
    (record : ResultRecord) :
    (log.answer session record).Tracks (session.classifyResult record).pending := by
  unfold CommandLog.answer
  cases entry : session.answered? record with
  | none =>
      apply tracks.mono
      intro token info found
      rwa [(Session.classifyResult_of_none entry).2.2] at found
  | some info =>
      rw [Session.answered?, Option.bind_eq_some_iff] at entry
      rcases entry with ⟨token, hasToken, found⟩
      rcases tracks.outstanding token info found with ⟨index, request, latest, infoEq, unanswered⟩
      have pending := (Session.classifyResult_of_some hasToken found).2.2
      simp only [hasToken, Option.bind_some, latest.isLatest, Option.toList_some]
      refine ⟨?_, ?_, ?_⟩
      · intro other otherInfo otherFound
        rw [pending] at otherFound
        split_ifs at otherFound with same
        rcases tracks.outstanding other otherInfo otherFound with
          ⟨otherIndex, otherRequest, otherLatest, otherInfoEq, otherUnanswered⟩
        refine ⟨otherIndex, otherRequest, ⟨otherLatest.1, otherLatest.2, otherLatest.3⟩,
          otherInfoEq, ?_⟩
        rw [List.mem_append, List.mem_singleton, not_or]
        refine ⟨otherUnanswered, ?_⟩
        rintro rfl
        have sameToken := latest.issuedAt.symm.trans otherLatest.issuedAt
        cases sameToken
        exact same rfl
      · rw [List.nodup_append]
        refine ⟨tracks.nodup, List.nodup_singleton _, ?_⟩
        intro earlier member answeredIndex isIndex
        rw [List.mem_singleton.mp isIndex]
        rintro rfl
        exact unanswered member
      · intro member inAnswered
        rcases List.mem_append.mp inAnswered with before | isIndex
        · exact tracks.inRange member before
        · rw [List.mem_singleton.mp isIndex]
          exact (List.getElem?_eq_some_iff.mp latest.issuedAt).1

theorem tracks_step {current next : Remembering Session CommandLog} {label : SessionLabel}
    (tracks : current.memory.Tracks current.state.pending)
    (stepped : remember Session.step note current label = some next) :
    next.memory.Tracks next.state.pending := by
  rcases remember_eq_some stepped with ⟨stepped, noted⟩
  rw [noted]
  rcases Session.step_cases stepped with
    ⟨streamLine, record, rfl, isRecord, nextEq⟩ | ⟨request, rfl, nextEq⟩ |
    ⟨isSilent, events, outbound, nextEq⟩
  · rw [nextEq, note, isRecord]
    cases record with
    | result record => exact tracks.answer record
    | _ =>
        rw [(Session.classifyRecord_pending _ (by simp)).1]
        exact tracks
  · rw [nextEq]
    exact tracks.issue current.state.tokens.allocate.1 request
  · rw [nextEq]
    cases label with
    | line streamLine =>
        have noRecord : lineRecord streamLine = none := isSilent
        rw [note, noRecord]
        exact tracks
    | submit => exact isSilent.elim
    | poll | consume => exact tracks

theorem tracks_of_reachable {miVersion : MiVersion} {current : Remembering Session CommandLog}
    (reachable : Reachable (remember Session.step note) ⟨.withVersionHint miVersion, empty⟩
      current) : current.memory.Tracks current.state.pending := by
  apply reachable.invariant
  · refine ⟨?_, List.nodup_nil, by simp [empty]⟩
    intro token info found
    have found : (∅ : Std.ExtTreeMap Token PendingInfo)[token]? = some info := found
    rw [Std.ExtTreeMap.getElem?_empty] at found
    cases found
  · intro current next label tracks _ stepped
    exact tracks_step tracks stepped

end CommandLog

/-- A result that answers nothing, or carries no payload, leaves every registry
alone.  One that answers takes out exactly its own entry, for the first time for
the request it belongs to, and changes what that request prescribes. -/
structure ResultsTouchOnlyTheirCommand (current : Remembering Session CommandLog) : Prop where
  unrelated : ∀ record : ResultRecord,
    current.state.answered? record = none ∨ record.resultClass = .running ∨
        record.resultClass = .exit →
      Session.SameRegistries current.state (current.state.classifyRecord (.result record))
  related : ∀ (record : ResultRecord) (token : Token) (info : PendingInfo),
    record.token = some token → current.state.pending.byToken[token]? = some info →
      Session.ChangesAsPrescribed info record current.state
          (current.state.classifyRecord (.result record)) ∧
        (∀ other : Token,
          (current.state.classifyRecord (.result record)).pending.byToken[other]? =
            if token = other then none else current.state.pending.byToken[other]?) ∧
        ∃ index request, current.memory.IsLatest token index request ∧ info = request.info ∧
          index ∉ current.memory.answered ∧
          (current.memory.answer current.state record).answered =
            current.memory.answered ++ [index]
  atMostOnce : current.memory.answered.Nodup

/-- This holds in every state of every run, whatever is answered in whatever
order. -/
theorem results_touch_only_their_command (miVersion : MiVersion) (labels : List SessionLabel) :
    Always (remember Session.step CommandLog.note) ⟨.withVersionHint miVersion, .empty⟩
      ResultsTouchOnlyTheirCommand labels := by
  intro before isPrefix current ran
  have tracks := CommandLog.tracks_of_reachable (reachable_of_run ran)
  refine ⟨?_, ?_, tracks.nodup⟩
  · intro record noEffect
    cases entry : current.state.answered? record with
    | none => exact (Session.classifyResult_of_none entry).1
    | some info =>
        rw [Session.answered?, Option.bind_eq_some_iff] at entry
        rcases entry with ⟨token, hasToken, found⟩
        have noPayload : record.resultClass = .running ∨ record.resultClass = .exit := by
          apply noEffect.resolve_left
          simp [Session.answered?, hasToken, found]
        exact (Session.classifyResult_of_some hasToken found).1.sameRegistries noPayload
  · intro record token info hasToken found
    have classified := Session.classifyResult_of_some hasToken found
    rcases tracks.outstanding token info found with ⟨index, request, latest, infoEq, unanswered⟩
    refine ⟨classified.1, classified.2.2, index, request, latest, infoEq, unanswered, ?_⟩
    simp [CommandLog.answer, Session.answered?, hasToken, found, latest.isLatest]

/-- The operation that a request asks GDB for; of a raw line it is the word that
the raw-MI guard reads. -/
def SubmitRequest.operation? : SubmitRequest → Option String
  | .structured command => some command.operation
  | .raw line => (RawGuard.rawMiOperation line).toOption

def SubmitRequest.isExec (request : SubmitRequest) : Bool :=
  request.operation?.any fun operation => "exec-".toList.isPrefixOf operation.toList

def SubmitRequest.isStructured : SubmitRequest → Bool
  | .structured _ => true
  | .raw _ => false

/-- The target is unknown and has no frames. -/
structure Session.IsReset (session : Session) : Prop where
  target : session.target = .unknown
  frames : session.frames = .empty

/-- The error of an outstanding execution command resets the session exactly
when the command was submitted as a structured one, or nothing was left to
reset. -/
def ErrorResetsStructured (current : Remembering Session CommandLog) : Prop :=
  ∀ (record : ResultRecord) (token : Token) (index : Nat) (request : SubmitRequest),
    record.token = some token → record.resultClass = .error →
      token ∈ current.state.pending.byToken → current.memory.IsLatest token index request →
        request.isExec = true →
          ((current.state.classifyRecord (.result record)).IsReset ↔
            request.isStructured = true ∨ current.state.IsReset)

/-- Of the two ways to submit, only the structured one records what the guard
and GDB take the command for. -/
theorem SubmitRequest.info_isExecCommand {request : SubmitRequest}
    (isExec : request.isExec = true) :
    request.info.isExecCommand = request.isStructured := by
  cases request with
  | structured command => exact isExec
  | raw line =>
      change PendingInfo.isExecCommand ⟨.raw, "_raw"⟩ = false
      decide

/-- In every state of every run. -/
theorem execution_errors_reset_structured (miVersion : MiVersion) (labels : List SessionLabel) :
    Always (remember Session.step CommandLog.note) ⟨.withVersionHint miVersion, .empty⟩
      ErrorResetsStructured labels := by
  intro before isPrefix current ran record token index request hasToken isError outstanding latest
    isExec
  have tracks := CommandLog.tracks_of_reachable (reachable_of_run ran)
  rw [Std.ExtTreeMap.mem_iff_isSome_getElem?, Option.isSome_iff_exists] at outstanding
  rcases outstanding with ⟨info, found⟩
  rcases tracks.outstanding token info found with ⟨otherIndex, other, otherLatest, rfl, _⟩
  -- The latest request under a token is unique.
  have sameIndex : otherIndex = index :=
    Option.some.inj (otherLatest.isLatest.symm.trans latest.isLatest)
  subst sameIndex
  have sameRequest := otherLatest.issuedAt.symm.trans latest.issuedAt
  obtain rfl : other = request := by
    cases sameRequest
    rfl
  have changes := (Session.classifyResult_of_some hasToken found).1
  have target := changes.target
  have frames := changes.frames
  rw [isError, other.info_isExecCommand isExec] at target frames
  cases structured : other.isStructured with
  | true =>
      simp only [structured, and_self, if_true] at target frames
      exact iff_of_true ⟨target, frames⟩ (Or.inl rfl)
  | false =>
      simp only [structured, Bool.false_eq_true, and_false, if_false] at target frames
      simp only [Bool.false_eq_true, false_or]
      constructor
      · intro isReset
        exact ⟨target.symm.trans isReset.target, frames.symm.trans isReset.frames⟩
      · intro isReset
        exact ⟨target.trans isReset.target, frames.trans isReset.frames⟩

/-- A running target and the error of a raw execution command. -/
def rawExecError : List SessionLabel :=
  [.submit (.raw "-exec-continue"), .line (Utf8Text.asBytes "*running,thread-id=\"all\""),
    .line (Utf8Text.asBytes "1^error,msg=\"Cannot execute this command\"")]

theorem rawExecError_keeps_running :
    (SubmitRequest.raw "-exec-continue").isExec = true ∧
      ∃ final, run Session.step (.withVersionHint .unknown) rawExecError = some final ∧
        final.target = .running (some "all") ∧ final.pending.byToken[(1 : Token)]? = none :=
  ⟨rfl, _, rfl, rfl, rfl⟩

end Framewalk
