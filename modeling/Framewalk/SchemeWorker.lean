import Framewalk.DisplayTruncation
import Framewalk.TransitionSystem

/-!
# The Scheme worker

One thread owns the script engine and takes requests from a bounded channel in
order.  A panicking evaluation is caught and the engine rebuilt.  A run is
scripted: every request says what evaluating it and rebuilding the engine would
come to.
-/

namespace Framewalk

open TransitionSystem

/-- What evaluating code comes to.  Values are given by their renderings and by
the renderings of their parts that have no structured form; a panic by the text that
`panic_message` makes of its payload, which is always "unknown panic". -/
inductive Evaluation where
  | values (renderings fallbacks : List String)
  | error (message : String)
  | panic (message : String)

def Evaluation.isPanic : Evaluation → Bool
  | .panic _ => true
  | _ => false

structure SchemeRequest where
  code : String
  evaluation : Evaluation
  rebuild : Except String Unit

/-- Evaluating this request leaves a panicked engine that cannot be replaced. -/
def SchemeRequest.losesEngine (request : SchemeRequest) : Bool :=
  request.evaluation.isPanic && !request.rebuild.isOk

/-- Builds of the engine are numbered; the responses are those sent to callers. -/
structure SchemeWorker where
  engine : Nat
  builds : Nat
  running : Bool
  queue : List SchemeRequest
  responses : List (SchemeRequest × Except String String)

def evalChannelCapacity : Nat := 32

def workerExited : Except String String :=
  .error "scheme worker thread has exited"

def replyDropped : Except String String :=
  .error "scheme worker dropped the reply channel"

def rebuildFailed (error : String) : Except String String :=
  .error ("scheme engine panicked and rebuild failed: " ++ error)

inductive WorkerLabel where
  | eval (request : SchemeRequest)
  | receive

namespace SchemeWorker

/-- The thread starts with its first engine. -/
def new : SchemeWorker :=
  ⟨0, 1, true, [], []⟩

def respond (worker : SchemeWorker) (request : SchemeRequest)
    (response : Except String String) : SchemeWorker :=
  { worker with responses := worker.responses ++ [(request, response)] }

/-- A panic outside the evaluation ends the thread, and with it the channel. -/
def unwind (worker : SchemeWorker) (request : SchemeRequest) : SchemeWorker :=
  { worker with
    running := false
    queue := []
    responses := worker.responses ++
      (request :: worker.queue).map fun waiting => (waiting, replyDropped) }

/-- Evaluate one request.  Whether the rebuild succeeds or not, the loop goes on
afterwards; the message of a panic is whatever `panic_message` gives. -/
def processOne (worker : SchemeWorker) (request : SchemeRequest) : SchemeWorker :=
  match request.evaluation with
  | .panic message =>
      match request.rebuild with
      | .ok () =>
          { worker with engine := worker.builds, builds := worker.builds + 1 }.respond request
            (.error ("scheme engine panicked: " ++ message))
      | .error rebuildError => worker.respond request (rebuildFailed rebuildError)
  | .error message => worker.respond request (.error message)
  | .values renderings fallbacks =>
      match steelToDisplayString renderings, fallbacks.mapM truncateDisplayString with
      | some display, some _ => worker.respond request (.ok display)
      | _, _ => worker.unwind request

/-- A caller sends a request, waiting while the channel is full, or the worker
takes one. -/
def step (worker : SchemeWorker) : WorkerLabel → Option SchemeWorker
  | .eval request =>
      if !worker.running then some (worker.respond request workerExited)
      else if worker.queue.length < evalChannelCapacity then
        some { worker with queue := worker.queue ++ [request] }
      else none
  | .receive =>
      match worker.running, worker.queue with
      | true, request :: queue => some (processOne { worker with queue } request)
      | _, _ => none

theorem processOne_engine (worker : SchemeWorker) (request : SchemeRequest) :
    ((worker.processOne request).engine = worker.engine ∧
        (worker.processOne request).builds = worker.builds ∧
        (request.evaluation.isPanic = true → request.rebuild.isOk = false)) ∨
      (worker.processOne request).engine = worker.builds ∧
        (worker.processOne request).builds = worker.builds + 1 := by
  rcases request with ⟨code, evaluation, rebuild⟩
  cases evaluation with
  | values renderings fallbacks =>
      left
      simp only [processOne]
      split
      · exact ⟨rfl, rfl, Bool.noConfusion⟩
      · exact ⟨rfl, rfl, Bool.noConfusion⟩
  | error message => exact Or.inl ⟨rfl, rfl, Bool.noConfusion⟩
  | panic message =>
      cases rebuild with
      | ok fresh => exact Or.inr ⟨rfl, rfl⟩
      | error rebuildError => exact Or.inl ⟨rfl, rfl, fun _ => rfl⟩

theorem processOne_losesEngine (worker : SchemeWorker) {request : SchemeRequest}
    (loses : request.losesEngine = true) :
    ∃ error, request.rebuild = .error error ∧
      worker.processOne request = worker.respond request (rebuildFailed error) := by
  rcases request with ⟨code, evaluation, rebuild⟩
  cases evaluation with
  | values renderings fallbacks => cases loses
  | error message => cases loses
  | panic message =>
      cases rebuild with
      | ok fresh => cases loses
      | error rebuildError => exact ⟨rebuildError, rfl, rfl⟩

theorem step_cases {worker next : SchemeWorker} {label : WorkerLabel}
    (stepped : worker.step label = some next) :
    (∃ request, label = .eval request ∧ worker.running = false ∧
        next = worker.respond request workerExited) ∨
      (∃ request, label = .eval request ∧ worker.running = true ∧
        next = { worker with queue := worker.queue ++ [request] }) ∨
      ∃ request queue, label = .receive ∧ worker.running = true ∧
        worker.queue = request :: queue ∧
        next = processOne { worker with queue } request := by
  cases label with
  | eval request =>
      simp only [step] at stepped
      split_ifs at stepped with stopped
      · left
        exact ⟨request, rfl, by simpa using stopped, (Option.some.inj stepped).symm⟩
      · right
        left
        exact ⟨request, rfl, by simpa using stopped, (Option.some.inj stepped).symm⟩
  | receive =>
      simp only [step] at stepped
      split at stepped
      · next request queue running isQueue =>
          right
          right
          exact ⟨request, queue, rfl, running, isQueue, (Option.some.inj stepped).symm⟩
      · cases stepped

end SchemeWorker

/-- The requests evaluated, each with the engine it was evaluated on, and the
requests sent after an engine was lost. -/
structure WorkerMemory where
  evaluated : List (Nat × SchemeRequest)
  later : List SchemeRequest

namespace WorkerMemory

def empty : WorkerMemory :=
  ⟨[], []⟩

/-- An engine has been lost. -/
def lostEngine (memory : WorkerMemory) : Bool :=
  memory.evaluated.any fun evaluation => evaluation.2.losesEngine

def note (memory : WorkerMemory) (worker : SchemeWorker) (label : WorkerLabel)
    (_ : SchemeWorker) : WorkerMemory :=
  match label with
  | .eval request =>
      if memory.lostEngine then { memory with later := memory.later ++ [request] } else memory
  | .receive =>
      match worker.queue with
      | request :: _ =>
          { memory with evaluated := memory.evaluated ++ [(worker.engine, request)] }
      | [] => memory

end WorkerMemory

/-- No engine is used again after it panicked; and once one cannot be replaced,
the request says so, the worker has stopped, and every later request learns
that. -/
structure NeverReusesPanicked (current : Remembering SchemeWorker WorkerMemory) : Prop where
  freshEngines : current.memory.evaluated.Pairwise fun earlier later =>
    earlier.1 = later.1 → earlier.2.evaluation.isPanic = false
  reportsFailure : ∀ evaluation ∈ current.memory.evaluated, evaluation.2.evaluation.isPanic →
    ∀ error, evaluation.2.rebuild = .error error →
      (evaluation.2, rebuildFailed error) ∈ current.state.responses
  stops : current.memory.lostEngine = true → current.state.running = false
  reportsExit : ∀ request ∈ current.memory.later, (request, workerExited) ∈ current.state.responses

/-- If evaluating the next request panics, the rebuild succeeds. -/
def RebuildsAfterPanic (current : Remembering SchemeWorker WorkerMemory) : WorkerLabel → Prop
  | .receive => ∀ request, current.state.queue.head? = some request →
      request.evaluation.isPanic = true → request.rebuild.isOk = true
  | .eval _ => True

/-- While no engine is lost, every engine that panicked has been replaced by one
with a higher number. -/
structure ReplacesEngines (current : Remembering SchemeWorker WorkerMemory) : Prop where
  built : current.state.engine < current.state.builds
  earlier : ∀ evaluation ∈ current.memory.evaluated, evaluation.1 ≤ current.state.engine
  notPanicked : ∀ evaluation ∈ current.memory.evaluated, evaluation.1 = current.state.engine →
    evaluation.2.evaluation.isPanic = false
  keepsEngine : ∀ evaluation ∈ current.memory.evaluated, evaluation.2.losesEngine = false
  noneLater : current.memory.later = []
  freshEngines : current.memory.evaluated.Pairwise fun earlier later =>
    earlier.1 = later.1 → earlier.2.evaluation.isPanic = false

theorem ReplacesEngines.lostEngine_eq_false
    {current : Remembering SchemeWorker WorkerMemory} (replaces : ReplacesEngines current) :
    current.memory.lostEngine = false := by
  rw [WorkerMemory.lostEngine, List.any_eq_false]
  intro evaluation member
  rw [replaces.keepsEngine evaluation member]
  exact Bool.false_ne_true

theorem ReplacesEngines.neverReusesPanicked
    {current : Remembering SchemeWorker WorkerMemory} (replaces : ReplacesEngines current) :
    NeverReusesPanicked current := by
  constructor
  · exact replaces.freshEngines
  · intro evaluation member panicked error failed
    have kept := replaces.keepsEngine evaluation member
    rw [SchemeRequest.losesEngine, failed, panicked] at kept
    cases kept
  · intro lost
    rw [replaces.lostEngine_eq_false] at lost
    cases lost
  · intro request member
    rw [replaces.noneLater] at member
    cases member

theorem replacesEngines_new : ReplacesEngines ⟨.new, .empty⟩ where
  built := Nat.zero_lt_one
  earlier := by
    intro evaluation member
    cases member
  notPanicked := by
    intro evaluation member
    cases member
  keepsEngine := by
    intro evaluation member
    cases member
  noneLater := rfl
  freshEngines := .nil

/-- If every panic is followed by a successful rebuild, a request keeps the engine
without a panic or leaves the worker on one never used before. -/
theorem SchemeWorker.processOne_rebuilds (worker : SchemeWorker) {request : SchemeRequest}
    (rebuilds : request.evaluation.isPanic = true → request.rebuild.isOk = true) :
    ((worker.processOne request).engine = worker.engine ∧
        (worker.processOne request).builds = worker.builds ∧
        request.evaluation.isPanic = false) ∨
      ((worker.processOne request).engine = worker.builds ∧
        (worker.processOne request).builds = worker.builds + 1) := by
  rcases worker.processOne_engine request with ⟨sameEngine, sameBuilds, failed⟩ | replaced
  · left
    refine ⟨sameEngine, sameBuilds, ?_⟩
    by_contra panicked
    rw [Bool.not_eq_false] at panicked
    have contradiction := (rebuilds panicked).symm.trans (failed panicked)
    cases contradiction
  · exact Or.inr replaced

theorem ReplacesEngines.receive {current next : Remembering SchemeWorker WorkerMemory}
    (replaces : ReplacesEngines current) {request : SchemeRequest} {queue : List SchemeRequest}
    (rebuilds : request.evaluation.isPanic = true → request.rebuild.isOk = true)
    (nextEq : next.state = SchemeWorker.processOne { current.state with queue } request)
    (evaluatedEq : next.memory.evaluated =
      current.memory.evaluated ++ [(current.state.engine, request)])
    (laterEq : next.memory.later = current.memory.later) : ReplacesEngines next := by
  have built := replaces.built
  have engines : (next.state.engine = current.state.engine ∧
        next.state.builds = current.state.builds ∧ request.evaluation.isPanic = false) ∨
      (next.state.engine = current.state.builds ∧
        next.state.builds = current.state.builds + 1) := by
    rw [nextEq]
    exact SchemeWorker.processOne_rebuilds { current.state with queue } rebuilds
  constructor
  · omega
  · intro evaluation member
    rw [evaluatedEq] at member
    rcases List.mem_append.mp member with before | isLast
    · have := replaces.earlier evaluation before
      omega
    · rw [List.mem_singleton.mp isLast]
      change current.state.engine ≤ next.state.engine
      omega
  · intro evaluation member onEngine
    rw [evaluatedEq] at member
    rcases engines with ⟨sameEngine, _, noPanic⟩ | ⟨newEngine, _⟩
    · rcases List.mem_append.mp member with before | isLast
      · exact replaces.notPanicked evaluation before (onEngine.trans sameEngine)
      · rw [List.mem_singleton.mp isLast]
        exact noPanic
    · -- No evaluation is on the new engine yet.
      rcases List.mem_append.mp member with before | isLast
      · have := replaces.earlier evaluation before
        omega
      · rw [List.mem_singleton.mp isLast] at onEngine
        have : current.state.engine = next.state.engine := onEngine
        omega
  · intro evaluation member
    rw [evaluatedEq] at member
    rcases List.mem_append.mp member with before | isLast
    · exact replaces.keepsEngine evaluation before
    · rw [List.mem_singleton.mp isLast, SchemeRequest.losesEngine]
      cases panicked : request.evaluation.isPanic with
      | false => rfl
      | true => rw [rebuilds panicked, Bool.not_true, Bool.and_false]
  · rw [laterEq]
    exact replaces.noneLater
  · rw [evaluatedEq, List.pairwise_append]
    refine ⟨replaces.freshEngines, List.pairwise_singleton _ _, ?_⟩
    intro earlier before later isLast
    rw [List.mem_singleton.mp isLast]
    exact replaces.notPanicked earlier before

theorem replacesEngines_step {current next : Remembering SchemeWorker WorkerMemory}
    {label : WorkerLabel} (replaces : ReplacesEngines current)
    (rebuilds : RebuildsAfterPanic current label)
    (stepped : remember SchemeWorker.step WorkerMemory.note current label = some next) :
    ReplacesEngines next := by
  rcases remember_eq_some stepped with ⟨stepped, noted⟩
  rcases SchemeWorker.step_cases stepped with ⟨request, rfl, _, nextEq⟩ |
    ⟨request, rfl, _, nextEq⟩ | ⟨request, queue, rfl, _, isQueue, nextEq⟩
  · have sameMemory : next.memory = current.memory := by
      rw [noted, WorkerMemory.note, replaces.lostEngine_eq_false]
      rfl
    rcases next with ⟨state, memory⟩
    cases sameMemory
    cases nextEq
    exact ⟨replaces.built, replaces.earlier, replaces.notPanicked, replaces.keepsEngine,
      replaces.noneLater, replaces.freshEngines⟩
  · have sameMemory : next.memory = current.memory := by
      rw [noted, WorkerMemory.note, replaces.lostEngine_eq_false]
      rfl
    rcases next with ⟨state, memory⟩
    cases sameMemory
    cases nextEq
    exact ⟨replaces.built, replaces.earlier, replaces.notPanicked, replaces.keepsEngine,
      replaces.noneLater, replaces.freshEngines⟩
  · have isHead : current.state.queue.head? = some request := by
      rw [isQueue]
      rfl
    have evaluated : next.memory = { current.memory with
        evaluated := current.memory.evaluated ++ [(current.state.engine, request)] } := by
      rw [noted, WorkerMemory.note, isQueue]
    exact replaces.receive (rebuilds request isHead) nextEq (evaluated ▸ rfl) (evaluated ▸ rfl)

/-- The worker never reuses a panicked engine throughout a run exactly when every
panic in it is followed by a successful rebuild. -/
theorem never_reuses_panicked_iff (labels : List WorkerLabel) :
    Always (remember SchemeWorker.step WorkerMemory.note) ⟨.new, .empty⟩ NeverReusesPanicked
        labels ↔
      EachStep (remember SchemeWorker.step WorkerMemory.note) ⟨.new, .empty⟩ RebuildsAfterPanic
        labels := by
  apply always_iff_eachStep
  · intro current reaches
    apply ReplacesEngines.neverReusesPanicked
    apply reaches.invariant
    · exact replacesEngines_new
    · intro current next label replaces rebuilds stepped
      exact replacesEngines_step replaces rebuilds stepped
  · intro current next label reachable stepped fails never
    rcases remember_eq_some stepped with ⟨stepped, noted⟩
    rcases SchemeWorker.step_cases stepped with ⟨request, rfl, _, nextEq⟩ |
      ⟨request, rfl, _, nextEq⟩ | ⟨request, queue, rfl, running, isQueue, nextEq⟩
    · exact fails trivial
    · exact fails trivial
    · have loses : request.losesEngine = true := by
        by_contra keeps
        apply fails
        intro other isHead panicked
        rw [isQueue, List.head?_cons, Option.some.injEq] at isHead
        rw [← isHead] at panicked ⊢
        simpa [SchemeRequest.losesEngine, panicked] using keeps
      rcases SchemeWorker.processOne_losesEngine { current.state with queue } loses with
        ⟨error, _, processed⟩
      have stillRunning : next.state.running = true := by
        rw [nextEq, processed]
        exact running
      have lost : next.memory.lostEngine = true := by
        rw [noted, WorkerMemory.note, isQueue, WorkerMemory.lostEngine, List.any_append]
        simp [loses]
      have stopped := never.stops lost
      rw [stillRunning] at stopped
      cases stopped

/-- A panic, a failing rebuild, and then another request. -/
def lostEngineRun : List WorkerLabel :=
  [.eval ⟨"(boom)", .panic "boom", .error "no prelude"⟩, .receive,
    .eval ⟨"1", .values ["1"] [], .ok ()⟩, .receive]

/-- The other request is evaluated on the engine that panicked. -/
theorem lostEngineRun_reuses :
    ∃ final, run (remember SchemeWorker.step WorkerMemory.note) ⟨.new, .empty⟩ lostEngineRun =
        some final ∧
      final.memory.evaluated.map Prod.fst = [0, 0] ∧
      (final.state.responses.map Prod.snd).getLast? = some (.ok "1") ∧
      ¬ NeverReusesPanicked final := by
  refine ⟨_, rfl, rfl, rfl, ?_⟩
  intro never
  have stopped := never.stops rfl
  cases stopped

end Framewalk
