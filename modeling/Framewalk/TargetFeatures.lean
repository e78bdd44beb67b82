import Framewalk.AnsweredCommands

/-!
# Target features after a new target

Starting a program or selecting a target may leave GDB with another target, and
what was known of the old one's features must be forgotten.  A `^running` answer
does not reach the features, so they stay.
-/

namespace Framewalk

open TransitionSystem

def SubmitRequest.changesTarget (request : SubmitRequest) : Bool :=
  request.runs "exec-run" || request.runs "target-select"

def ResultClass.isCompletion : ResultClass → Bool
  | .done | .connected | .running => true
  | .error | .exit => false

/-- Whether the target has changed since its features were last listed. -/
def followTarget (changed : Bool) (_ : Session) (_ : SessionLabel) : Option Answer → Bool
  | some answer =>
      if answer.request.changesTarget && answer.record.resultClass.isCompletion then true
      else if answer.request.runs "list-target-features" &&
        answer.record.resultClass == .done then false
      else changed
  | none => changed

/-- Nothing is known of the features of a target that has changed. -/
def TargetFeaturesFresh (current : Remembering Session (AnswerLog Bool)) : Prop :=
  current.memory.memory = true → current.state.features.targetFeatures = ∅

/-- A command that changes the target is not answered with `^running` while
target features are known, and no list of them comes with `^connected` after the
target has changed. -/
def ForgetsTarget (current : Remembering Session (AnswerLog Bool)) (label : SessionLabel) :
    Prop :=
  ∀ answer, current.memory.outstanding.answer? label = some answer →
    (answer.request.changesTarget = true → answer.record.resultClass = .running →
      current.state.features.targetFeatures = ∅) ∧
    (answer.request.runs "list-target-features" = true →
      answer.record.resultClass = .connected → current.memory.memory = true →
        FeatureSet.extractStringList answer.record.results "features" = ∅)

theorem targetFeatures_after (request : SubmitRequest) (results : Results)
    (features : FeatureSet) :
    (request.info.featuresAfter results features).targetFeatures =
      if request.changesTarget then ∅
      else if request.runs "list-target-features" then
        FeatureSet.extractStringList results "features"
      else features.targetFeatures := by
  cases request with
  | raw line => rfl
  | structured command =>
      rcases command with ⟨operation, options, parameters⟩
      simp only [SubmitRequest.info, PendingInfo.featuresAfter]
      fun_cases Operation.fromName operation parameters
      case case10 notBreakInsert notBreakInfo notVarCreate notVarUpdate notVarDelete
          notListFeatures notListTargetFeatures notTargetSelect notExecRun =>
        have lists : (operation == "list-target-features") = false :=
          beq_false_of_ne notListTargetFeatures
        have selects : (operation == "target-select") = false := beq_false_of_ne notTargetSelect
        have runs : (operation == "exec-run") = false := beq_false_of_ne notExecRun
        simp only [SubmitRequest.changesTarget, SubmitRequest.runs, lists, selects, runs,
          Bool.or_self, Bool.false_eq_true, if_false]
      all_goals rfl

section Steps

variable {current next : Remembering Session (AnswerLog Bool)} {label : SessionLabel}

theorem targetFeatures_unanswered
    (tracks : current.memory.outstanding.Tracks current.state.pending)
    (stepped : remember Session.step (AnswerLog.note followTarget) current label = some next)
    (noAnswer : current.memory.outstanding.answer? label = none) :
    next.state.features.targetFeatures = current.state.features.targetFeatures ∧
      next.memory.memory = current.memory.memory := by
  rcases remember_eq_some stepped with ⟨stepped, noted⟩
  constructor
  · rw [(tracks.step_unanswered stepped noAnswer).1]
  · rw [noted, AnswerLog.note, noAnswer]
    rfl

theorem targetFeatures_answered {answer : Answer}
    (tracks : current.memory.outstanding.Tracks current.state.pending)
    (stepped : remember Session.step (AnswerLog.note followTarget) current label = some next)
    (isAnswer : current.memory.outstanding.answer? label = some answer) :
    next.state.features.targetFeatures =
        (if answer.record.resultClass.isSuccess then
          if answer.request.changesTarget then ∅
          else if answer.request.runs "list-target-features" then
            FeatureSet.extractStringList answer.record.results "features"
          else current.state.features.targetFeatures
        else current.state.features.targetFeatures) ∧
      next.memory.memory =
        followTarget current.memory.memory current.state label (some answer) := by
  rcases remember_eq_some stepped with ⟨stepped, noted⟩
  constructor
  · rw [(tracks.step_answered stepped isAnswer).features, ← targetFeatures_after]
    exact apply_ite FeatureSet.targetFeatures _ _ _
  · rw [noted, AnswerLog.note, isAnswer]

theorem targetFeaturesFresh_step
    (tracks : current.memory.outstanding.Tracks current.state.pending)
    (fresh : TargetFeaturesFresh current) (forgets : ForgetsTarget current label)
    (stepped : remember Session.step (AnswerLog.note followTarget) current label = some next) :
    TargetFeaturesFresh next := by
  cases isAnswer : current.memory.outstanding.answer? label with
  | none =>
      rcases targetFeatures_unanswered tracks stepped isAnswer with ⟨sameFeatures, sameMemory⟩
      intro changed
      rw [sameFeatures]
      exact fresh (sameMemory ▸ changed)
  | some answer =>
      rcases targetFeatures_answered tracks stepped isAnswer with ⟨features, memory⟩
      rcases forgets answer isAnswer with ⟨notRunning, notConnected⟩
      intro changed
      rw [memory] at changed
      rw [features]
      cases newTarget : answer.request.changesTarget with
      | true =>
          cases resultClass : answer.record.resultClass with
          | done | connected => rfl
          | running => exact notRunning newTarget resultClass
          | error | exit =>
              simp only [followTarget, newTarget, resultClass, ResultClass.isCompletion] at changed
              exact fresh (by simpa using changed)
      | false =>
          cases lists : answer.request.runs "list-target-features" with
          | true =>
              cases resultClass : answer.record.resultClass with
              | done => simp [followTarget, newTarget, lists, resultClass] at changed
              | connected =>
                  simp only [followTarget, newTarget, resultClass] at changed
                  exact notConnected lists resultClass (by simpa using changed)
              | running | error | exit =>
                  simp only [followTarget, newTarget, resultClass] at changed
                  exact fresh (by simpa using changed)
          | false =>
              simp only [followTarget, newTarget, lists, Bool.false_and, Bool.false_eq_true,
                if_false] at changed
              simp only [Bool.false_eq_true, if_false, ite_self]
              exact fresh changed

theorem forgetsTarget_of_step
    (tracks : current.memory.outstanding.Tracks current.state.pending)
    (stepped : remember Session.step (AnswerLog.note followTarget) current label = some next)
    (fresh : TargetFeaturesFresh next) : ForgetsTarget current label := by
  intro answer isAnswer
  rcases targetFeatures_answered tracks stepped isAnswer with ⟨features, memory⟩
  constructor
  · intro newTarget isRunning
    have changed : next.memory.memory = true := by
      rw [memory]
      simp [followTarget, newTarget, isRunning, ResultClass.isCompletion]
    have empty := fresh changed
    rw [features, isRunning] at empty
    exact empty
  · intro lists isConnected changedBefore
    have changed : next.memory.memory = true := by
      rw [memory]
      simp [followTarget, isConnected, changedBefore]
    have empty := fresh changed
    have sameTarget : answer.request.changesTarget = false := by
      cases isRequest : answer.request with
      | raw line => rfl
      | structured command =>
          rw [isRequest] at lists
          have isOperation : command.operation = "list-target-features" := eq_of_beq lists
          simp [SubmitRequest.changesTarget, SubmitRequest.runs, isOperation]
    simpa [features, isConnected, sameTarget, lists, ResultClass.isSuccess] using empty

end Steps

/-- In a run, target features are never those of an old target exactly when
every step forgets them. -/
theorem targetFeatures_fresh_iff (miVersion : MiVersion) (labels : List SessionLabel) :
    Always (remember Session.step (AnswerLog.note followTarget))
        ⟨.withVersionHint miVersion, .empty, false⟩ TargetFeaturesFresh labels ↔
      EachStep (remember Session.step (AnswerLog.note followTarget))
        ⟨.withVersionHint miVersion, .empty, false⟩ ForgetsTarget labels := by
  apply always_iff_eachStep_of_step_iff
  · intro changed
    cases changed
  · intro current next label reachable fresh stepped
    have tracks := AnswerLog.tracks_of_reachable reachable
    constructor
    · exact forgetsTarget_of_step tracks stepped
    · intro forgets
      exact targetFeaturesFresh_step tracks fresh forgets stepped

def startAfterList : List SessionLabel :=
  [.submit (.structured ⟨"list-target-features", [], []⟩),
    .line (Utf8Text.asBytes "1^done,features=[\"async\"]"),
    .submit (.structured ⟨"exec-run", [], []⟩), .line (Utf8Text.asBytes "2^running")]

/-- The features of the old target stay. -/
theorem startAfterList_keeps_features :
    ∃ final, run (remember Session.step (AnswerLog.note followTarget))
        ⟨.withVersionHint .mi3, .empty, false⟩ startAfterList = some final ∧
      "async" ∈ final.state.features.targetFeatures ∧ ¬ TargetFeaturesFresh final := by
  have kept : ((run (remember Session.step (AnswerLog.note followTarget))
      ⟨.withVersionHint .mi3, .empty, false⟩ startAfterList).any fun final =>
        final.memory.memory && final.state.features.targetFeatures.contains "async") = true := by
    decide +kernel
  rcases (Option.any_eq_true _ _).mp kept with ⟨final, ran, stale⟩
  rw [Bool.and_eq_true] at stale
  have known : "async" ∈ final.state.features.targetFeatures :=
    Std.ExtTreeSet.contains_iff_mem.mp stale.2
  refine ⟨final, ran, known, ?_⟩
  intro fresh
  rw [fresh stale.1] at known
  exact Std.ExtTreeSet.not_mem_empty known

end Framewalk
