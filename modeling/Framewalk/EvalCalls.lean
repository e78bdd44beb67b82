import Framewalk.SchemeWorker
import Framewalk.SerialHistory
import Framewalk.Transport
import Mathlib.Data.List.Nodup

/-!
# Concurrent evaluations

Any number of `scheme_eval` calls are in progress at once.  Each sends its
request through the bounded channel, waits for the reply on a channel of its
own and gives up when its budget has run out; a client may drop its call at any
time.  The worker thread takes the requests one by one.  Whatever the
interleaving, the calls are answered as if the evaluations had happened one
after the other, each in a moment between its call and its answer.
-/

namespace Framewalk

open TransitionSystem SerialHistory

def maxBudgetSecs : Nat := 3600

structure SchemeEvalArgs where
  code : String
  budgetSecs : Option Nat
  includeStreams : Bool

/-- The arguments as the tool hands them to the worker's handle, unless the
budget is refused. -/
def SchemeEvalArgs.checked (args : SchemeEvalArgs) : Option SchemeEvalArgs :=
  match args.budgetSecs with
  | some 0 => none
  | some secs => some { args with budgetSecs := some (min secs maxBudgetSecs) }
  | none => some args

/-- How evaluating a request ends: with values or an error of the script, with
a panic (and whatever text `panic_message` gives for it) and an attempt to build a
fresh engine, or with a panic while the values are rendered, which the thread does
not survive. -/
inductive EngineRun (Engine Reply : Type) where
  | returned (engine : Engine) (response : Except String Reply)
  | panicked (message : String) (rebuilt : Except String Engine)
  | unwound

/-- What the caller is sent. -/
def EngineRun.response {Engine Reply : Type} :
    EngineRun Engine Reply → Option (Except String Reply)
  | .returned _ response => some response
  | .panicked message (.ok _) => some (.error ("scheme engine panicked: " ++ message))
  | .panicked _ (.error rebuildError) =>
      some (.error ("scheme engine panicked and rebuild failed: " ++ rebuildError))
  | .unwound => none

/-- The engine that the next request runs on. -/
def EngineRun.leave {Engine Reply : Type} (engine : Engine) : EngineRun Engine Reply → Engine
  | .returned engine _ => engine
  | .panicked _ (.ok fresh) => fresh
  -- The old engine stays in its place when no fresh one could be built.
  | .panicked _ (.error _) => engine
  | .unwound => engine

structure EvalRequest where
  call : CallId
  args : SchemeEvalArgs

/-- The receiving end of a reply channel. -/
inductive ReplySlot (Reply : Type) where
  | pending
  | sent (response : Except String Reply)
  | dropped

inductive EvalCall (Reply : Type) where
  | fresh
  | refused
  | sending (args : SchemeEvalArgs)
  | awaiting (args : SchemeEvalArgs) (slot : ReplySlot Reply)
  | done (result : Except String Reply)
  | cancelled

inductive WorkerPhase (Reply : Type) where
  | waiting
  | evaluating (request : EvalRequest)
  | replying (request : EvalRequest) (response : Except String Reply)
  | exited

structure EvalService (Engine Reply : Type) where
  engine : Engine
  worker : WorkerPhase Reply
  queue : List EvalRequest
  closed : Bool
  evalTimeout : Nat
  calls : CallId → EvalCall Reply

inductive EvalLabel (Engine Reply : Type) where
  | start (i : CallId) (args : SchemeEvalArgs)
  | send (i : CallId)
  | poll (i : CallId)
  | timeout (i : CallId)
  | cancel (i : CallId)
  | take
  | finish (outcome : EngineRun Engine Reply)
  | reply
  | join

/-- The reply reaches a caller that still waits for it. -/
def EvalCall.settle {Reply : Type} (slot : ReplySlot Reply) : EvalCall Reply → EvalCall Reply
  | .awaiting args .pending => .awaiting args slot
  | call => call

def exitedMessage : String :=
  "scheme worker thread has exited"

def droppedMessage : String :=
  "scheme worker dropped the reply channel"

namespace EvalService

variable {Engine Reply : Type}

/-- The handle of a thread that has built its first engine. -/
def new (engine : Engine) (evalTimeout : Nat) : EvalService Engine Reply :=
  ⟨engine, .waiting, [], false, evalTimeout, fun _ => .fresh⟩

def setCall (service : EvalService Engine Reply) (i : CallId) (call : EvalCall Reply) :
    EvalService Engine Reply :=
  { service with calls := Function.update service.calls i call }

def timedOut (service : EvalService Engine Reply) (args : SchemeEvalArgs) : Except String Reply :=
  .error ("scheme_eval timed out after " ++
    toString (args.budgetSecs.getD service.evalTimeout) ++ "s")

/-- The request that a call hands over when it takes its next step. -/
def accepts (service : EvalService Engine Reply) (i : CallId) : Option EvalRequest :=
  match service.calls i, service.worker with
  | .sending _, .exited => none
  | .sending args, _ =>
      if service.queue.length < evalChannelCapacity then some ⟨i, args⟩ else none
  | _, _ => none

def sendRequest (service : EvalService Engine Reply) (i : CallId) :
    Option (EvalService Engine Reply) :=
  match service.accepts i with
  | some request =>
      some ({ service with queue := service.queue ++ [request] }.setCall i
        (.awaiting request.args .pending))
  | none =>
      match service.calls i, service.worker with
      | .sending _, .exited => some (service.setCall i (.done (.error exitedMessage)))
      | _, _ => none

def pollReply (service : EvalService Engine Reply) (i : CallId) :
    Option (EvalService Engine Reply) :=
  match service.calls i with
  | .awaiting _ (.sent response) => some (service.setCall i (.done response))
  | .awaiting _ .dropped => some (service.setCall i (.done (.error droppedMessage)))
  | _ => none

/-- Ending the evaluation of a request.  When the thread unwinds, the channel
and the requests in it are dropped, and with each its reply channel. -/
def finishRun (service : EvalService Engine Reply) (request : EvalRequest)
    (outcome : EngineRun Engine Reply) : EvalService Engine Reply :=
  match outcome.response with
  | some response =>
      { service with
        engine := outcome.leave service.engine
        worker := .replying request response }
  | none =>
      { service with
        worker := .exited
        queue := []
        calls := fun i =>
          if i ∈ (request :: service.queue).map EvalRequest.call then
            (service.calls i).settle .dropped
          else service.calls i }

def step (service : EvalService Engine Reply) :
    EvalLabel Engine Reply → Option (EvalService Engine Reply)
  | .start i args =>
      match service.calls i, service.closed with
      | .fresh, false =>
          some (service.setCall i (args.checked.elim .refused .sending))
      | _, _ => none
  | .send i => service.sendRequest i
  | .poll i => service.pollReply i
  -- The reply is looked for before the clock.
  | .timeout i =>
      match service.calls i with
      | .awaiting args .pending => some (service.setCall i (.done (service.timedOut args)))
      | _ => none
  | .cancel i =>
      match service.calls i with
      | .sending _ | .awaiting _ _ => some (service.setCall i .cancelled)
      | _ => none
  | .take =>
      match service.worker, service.queue with
      | .waiting, request :: queue =>
          some { service with worker := .evaluating request, queue }
      | .waiting, [] => if service.closed then some { service with worker := .exited } else none
      | _, _ => none
  | .finish outcome =>
      match service.worker with
      | .evaluating request => some (service.finishRun request outcome)
      | _ => none
  | .reply =>
      match service.worker with
      | .replying request response =>
          some ({ service with worker := .waiting }.setCall request.call
            ((service.calls request.call).settle (.sent response)))
      | _ => none
  | .join => some { service with closed := true }

end EvalService

namespace EvalService

variable {Engine Reply : Type}

inductive Transition (service : EvalService Engine Reply) :
    EvalLabel Engine Reply → EvalService Engine Reply → Prop
  | refuse {i : CallId} {args : SchemeEvalArgs} (fresh : service.calls i = .fresh)
      (isRefused : args.checked = none) :
      Transition service (.start i args) (service.setCall i .refused)
  | ask {i : CallId} {args checked : SchemeEvalArgs} (fresh : service.calls i = .fresh)
      (isChecked : args.checked = some checked) :
      Transition service (.start i args) (service.setCall i (.sending checked))
  | accept {i : CallId} {args : SchemeEvalArgs} (sending : service.calls i = .sending args)
      (running : service.worker ≠ .exited) (accepted : service.accepts i = some ⟨i, args⟩) :
      Transition service (.send i)
        ({ service with queue := service.queue ++ [EvalRequest.mk i args] }.setCall i
          (.awaiting args .pending))
  | turnAway {i : CallId} {args : SchemeEvalArgs} (sending : service.calls i = .sending args)
      (exited : service.worker = .exited) (notAccepted : service.accepts i = none) :
      Transition service (.send i) (service.setCall i (.done (.error exitedMessage)))
  | answer {i : CallId} {args : SchemeEvalArgs} {response : Except String Reply}
      (awaiting : service.calls i = .awaiting args (.sent response)) :
      Transition service (.poll i) (service.setCall i (.done response))
  | lose {i : CallId} {args : SchemeEvalArgs}
      (awaiting : service.calls i = .awaiting args .dropped) :
      Transition service (.poll i) (service.setCall i (.done (.error droppedMessage)))
  | expire {i : CallId} {args : SchemeEvalArgs}
      (awaiting : service.calls i = .awaiting args .pending) :
      Transition service (.timeout i) (service.setCall i (.done (service.timedOut args)))
  | cancel {i : CallId} : Transition service (.cancel i) (service.setCall i .cancelled)
  | take {request : EvalRequest} {queue : List EvalRequest} (waiting : service.worker = .waiting)
      (isQueue : service.queue = request :: queue) :
      Transition service .take { service with worker := .evaluating request, queue }
  | close (waiting : service.worker = .waiting) (isEmpty : service.queue = []) :
      Transition service .take { service with worker := .exited }
  | finish {request : EvalRequest} {outcome : EngineRun Engine Reply}
      {response : Except String Reply} (evaluating : service.worker = .evaluating request)
      (isResponse : outcome.response = some response) :
      Transition service (.finish outcome)
        { service with
          engine := outcome.leave service.engine
          worker := .replying request response }
  | unwind {request : EvalRequest} {outcome : EngineRun Engine Reply}
      (evaluating : service.worker = .evaluating request) (isNone : outcome.response = none) :
      Transition service (.finish outcome)
        { service with
          worker := .exited
          queue := []
          calls := fun i =>
            if i ∈ (request :: service.queue).map EvalRequest.call then
              (service.calls i).settle .dropped
            else service.calls i }
  | reply {request : EvalRequest} {response : Except String Reply}
      (replying : service.worker = .replying request response) :
      Transition service .reply
        ({ service with worker := .waiting }.setCall request.call
          ((service.calls request.call).settle (.sent response)))
  | join : Transition service .join { service with closed := true }

variable {service next : EvalService Engine Reply}

theorem accepts_eq_some {i : CallId} {request : EvalRequest}
    (accepted : service.accepts i = some request) :
    ∃ args, service.calls i = .sending args ∧ service.worker ≠ .exited ∧ request = ⟨i, args⟩ := by
  simp only [accepts] at accepted
  split at accepted
  · cases accepted
  · next args sending running =>
      split_ifs at accepted
      exact ⟨args, sending, running,
        (Option.some.inj accepted).symm⟩
  · cases accepted

theorem transition_of_send {i : CallId} (stepped : service.sendRequest i = some next) :
    Transition service (.send i) next := by
  unfold sendRequest at stepped
  split at stepped
  · next request accepted =>
      obtain ⟨args, sending, running, rfl⟩ := accepts_eq_some accepted
      cases stepped
      exact .accept sending running accepted
  · next notAccepted =>
      split at stepped
      · next args sending exited =>
          cases stepped
          exact .turnAway sending exited notAccepted
      · cases stepped

theorem transition_of_step {label : EvalLabel Engine Reply}
    (stepped : service.step label = some next) : Transition service label next := by
  cases label with
  | start i args =>
      simp only [step] at stepped
      split at stepped
      · next fresh _ =>
          cases checked : args.checked with
          | none =>
              rw [checked] at stepped
              cases stepped
              exact .refuse fresh checked
          | some found =>
              rw [checked] at stepped
              cases stepped
              exact .ask fresh checked
      · cases stepped
  | send i => exact transition_of_send stepped
  | poll i =>
      simp only [step, pollReply] at stepped
      split at stepped
      · next awaiting =>
          cases stepped
          exact .answer awaiting
      · next awaiting =>
          cases stepped
          exact .lose awaiting
      · cases stepped
  | timeout i =>
      simp only [step] at stepped
      split at stepped
      · next awaiting =>
          cases stepped
          exact .expire awaiting
      · cases stepped
  | cancel i =>
      simp only [step] at stepped
      split at stepped
      · cases stepped
        exact .cancel
      · cases stepped
        exact .cancel
      · cases stepped
  | take =>
      simp only [step] at stepped
      split at stepped
      · next waiting isQueue =>
          cases stepped
          exact .take waiting isQueue
      · next waiting isEmpty =>
          split_ifs at stepped
          cases stepped
          exact .close waiting isEmpty
      · cases stepped
  | finish outcome =>
      simp only [step] at stepped
      split at stepped
      · next request evaluating =>
          cases stepped
          unfold finishRun
          split
          · next isResponse => exact .finish evaluating isResponse
          · next isNone => exact .unwind evaluating isNone
      · cases stepped
  | reply =>
      simp only [step] at stepped
      split at stepped
      · next replying =>
          cases stepped
          exact .reply replying
      · cases stepped
  | join =>
      cases stepped
      exact .join

end EvalService

/-- The evaluations that were asked for, those whose requests entered the
channel, and those that were run, each with how it ended. -/
structure EvalLog (Engine Reply : Type) where
  asked : List EvalRequest
  accepted : List EvalRequest
  served : List (Served CallId SchemeEvalArgs (EngineRun Engine Reply))

/-- The request of an entry of the history. -/
def requestOf {Engine Reply : Type}
    (entry : Served CallId SchemeEvalArgs (EngineRun Engine Reply)) :
    EvalRequest :=
  ⟨entry.caller, entry.request⟩

namespace EvalLog

variable {Engine Reply : Type}

def empty : EvalLog Engine Reply :=
  ⟨[], [], []⟩

def note (log : EvalLog Engine Reply) (service : EvalService Engine Reply)
    (label : EvalLabel Engine Reply) (_ : EvalService Engine Reply) : EvalLog Engine Reply :=
  match label with
  | .start i args => { log with asked := log.asked ++ (args.checked.map (EvalRequest.mk i)).toList }
  | .send i => { log with accepted := log.accepted ++ (service.accepts i).toList }
  | .finish outcome =>
      match service.worker with
      | .evaluating request =>
          { log with served := log.served ++ [⟨request.call, request.args, outcome⟩] }
      | _ => log
  | _ => log

/-- The request was run and its caller was sent this. -/
def Answers (log : EvalLog Engine Reply) (request : EvalRequest)
    (response : Except String Reply) : Prop :=
  ∃ entry ∈ log.served, requestOf entry = request ∧ entry.outcome.response = some response

/-- Some run ended the thread. -/
def Unwound (log : EvalLog Engine Reply) : Prop :=
  ∃ entry ∈ log.served, entry.outcome.response = none

end EvalLog

variable {Engine Reply : Type}

/-- The requests that were accepted and not answered yet. -/
def EvalService.owed (service : EvalService Engine Reply) : List EvalRequest :=
  match service.worker with
  | .evaluating request | .replying request _ => request :: service.queue
  | _ => service.queue

/-- How a call may end: with the answer to its own request; after its budget;
because the thread was lost with its request; or because the thread had exited
before the request was sent. -/
inductive Concludes (log : EvalLog Engine Reply) (service : EvalService Engine Reply) (i : CallId) :
    Except String Reply → Prop
  | answered {args : SchemeEvalArgs} {response : Except String Reply}
      (answers : log.Answers ⟨i, args⟩ response) : Concludes log service i response
  | timedOut {args : SchemeEvalArgs} (accepted : ⟨i, args⟩ ∈ log.accepted) :
      Concludes log service i (service.timedOut args)
  | dropped {args : SchemeEvalArgs} (accepted : ⟨i, args⟩ ∈ log.accepted) (unwound : log.Unwound) :
      Concludes log service i (.error droppedMessage)
  | turnedAway (exited : service.worker = .exited)
      (notAccepted : i ∉ log.accepted.map EvalRequest.call) :
      Concludes log service i (.error exitedMessage)

/-- What the state of a call says about the run. -/
def CallFits (log : EvalLog Engine Reply) (service : EvalService Engine Reply) (i : CallId) :
    EvalCall Reply → Prop
  | .fresh => i ∉ log.asked.map EvalRequest.call
  | .refused | .cancelled => True
  | .sending args => ⟨i, args⟩ ∈ log.asked ∧ i ∉ log.accepted.map EvalRequest.call
  | .awaiting args .pending => ⟨i, args⟩ ∈ log.accepted ∧ ⟨i, args⟩ ∈ service.owed
  | .awaiting args (.sent response) => log.Answers ⟨i, args⟩ response
  | .awaiting args .dropped => ⟨i, args⟩ ∈ log.accepted ∧ log.Unwound
  | .done result => Concludes log service i result

/-- What a step that does not concern a call leaves to it. -/
structure Spares (log later : EvalLog Engine Reply) (service next : EvalService Engine Reply)
    (i : CallId) : Prop where
  asked : i ∈ later.asked.map EvalRequest.call → i ∈ log.asked.map EvalRequest.call
  stillAsked : log.asked ⊆ later.asked
  accepted : i ∈ later.accepted.map EvalRequest.call → i ∈ log.accepted.map EvalRequest.call
  stillAccepted : log.accepted ⊆ later.accepted
  served : log.served ⊆ later.served
  exited : service.worker = .exited → next.worker = .exited
  evalTimeout : next.evalTimeout = service.evalTimeout

variable {log later : EvalLog Engine Reply} {service next : EvalService Engine Reply} {i : CallId}

theorem EvalLog.Answers.mono {request : EvalRequest} {response : Except String Reply}
    (answers : log.Answers request response) (served : log.served ⊆ later.served) :
    later.Answers request response := by
  obtain ⟨entry, member, isRequest, isResponse⟩ := answers
  exact ⟨entry, served member, isRequest, isResponse⟩

theorem EvalLog.Unwound.mono (unwound : log.Unwound) (served : log.served ⊆ later.served) :
    later.Unwound := by
  obtain ⟨entry, member, isNone⟩ := unwound
  exact ⟨entry, served member, isNone⟩

theorem Concludes.mono {result : Except String Reply} (concludes : Concludes log service i result)
    (spares : Spares log later service next i) : Concludes later next i result := by
  cases concludes with
  | answered answers => exact .answered (answers.mono spares.served)
  | @timedOut args accepted =>
      have sameText : service.timedOut args = next.timedOut args := by
        rw [EvalService.timedOut, EvalService.timedOut, spares.evalTimeout]
      rw [sameText]
      exact .timedOut (spares.stillAccepted accepted)
  | dropped accepted unwound =>
      exact .dropped (spares.stillAccepted accepted) (unwound.mono spares.served)
  | turnedAway exited notAccepted =>
      exact .turnedAway (spares.exited exited) fun accepted =>
        notAccepted (spares.accepted accepted)

theorem CallFits.mono {call : EvalCall Reply} (fits : CallFits log service i call)
    (spares : Spares log later service next i)
    (owed : ∀ args, call = .awaiting args .pending → ⟨i, args⟩ ∈ service.owed →
      ⟨i, args⟩ ∈ next.owed) : CallFits later next i call := by
  cases call with
  | fresh => exact fun asked => fits (spares.asked asked)
  | refused | cancelled => trivial
  | sending args =>
      exact ⟨spares.stillAsked fits.1, fun accepted => fits.2 (spares.accepted accepted)⟩
  | awaiting args slot =>
      cases slot with
      | pending => exact ⟨spares.stillAccepted fits.1, owed args rfl fits.2⟩
      | sent response => exact EvalLog.Answers.mono fits spares.served
      | dropped => exact ⟨spares.stillAccepted fits.1, fits.2.mono spares.served⟩
  | done result => exact Concludes.mono fits spares

/-- How the channel stands to the history: requests are run in the order in
which they were accepted, and only a thread that was lost leaves some of them
unserved for good. -/
structure RunsInOrder (log : EvalLog Engine Reply) (service : EvalService Engine Reply) : Prop where
  waiting : service.worker = .waiting →
    log.accepted = log.served.map requestOf ++ service.queue
  evaluating : ∀ request, service.worker = .evaluating request →
    log.accepted = log.served.map requestOf ++ request :: service.queue
  replying : ∀ request response, service.worker = .replying request response →
    log.accepted = log.served.map requestOf ++ service.queue ∧ log.Answers request response
  exited : service.worker = .exited → service.queue = [] ∧
    log.served.map requestOf <+: log.accepted ∧
      (log.Unwound ∨ log.accepted = log.served.map requestOf)

variable (evaluates : Engine → SchemeEvalArgs → EngineRun Engine Reply → Prop) (engine : Engine)

/-- What holds of a service along its runs. -/
structure ServesCalls (log : EvalLog Engine Reply) (service : EvalService Engine Reply) :
    Prop where
  legal : Legal evaluates EngineRun.leave engine log.served
  current : service.engine = stateAfter EngineRun.leave engine log.served
  inOrder : RunsInOrder log service
  askedOnce : (log.asked.map EvalRequest.call).Nodup
  asked : log.accepted ⊆ log.asked
  acceptedOnce : (log.accepted.map EvalRequest.call).Nodup
  calls : ∀ i, CallFits log service i (service.calls i)

/-- The script decides what the engine comes to. -/
def Evaluates (current : Remembering (EvalService Engine Reply) (EvalLog Engine Reply)) :
    EvalLabel Engine Reply → Prop
  | .finish outcome =>
      ∀ request, current.state.worker = .evaluating request →
        evaluates current.state.engine request.args outcome
  | _ => True

open EvalService

variable {evaluates : Engine → SchemeEvalArgs → EngineRun Engine Reply → Prop} {engine : Engine}

theorem fits_of_setCall (calls : ∀ j, CallFits log service j (service.calls j))
    {call : EvalCall Reply} (nextCalls : next.calls = Function.update service.calls i call)
    (own : CallFits later next i call) (others : ∀ j, j ≠ i → Spares log later service next j)
    (owed : ∀ j, j ≠ i → ∀ args, ⟨j, args⟩ ∈ service.owed → ⟨j, args⟩ ∈ next.owed) :
    ∀ j, CallFits later next j (next.calls j) := by
  intro j
  rw [nextCalls]
  by_cases isCall : j = i
  · subst isCall
    rwa [Function.update_self]
  · rw [Function.update_of_ne isCall]
    exact (calls j).mono (others j isCall) fun args _ => owed j isCall args

theorem spares_setCall (call : EvalCall Reply) (j : CallId) :
    Spares log log service (service.setCall i call) j where
  asked := id
  stillAsked := List.Subset.refl _
  accepted := id
  stillAccepted := List.Subset.refl _
  served := List.Subset.refl _
  exited := id
  evalTimeout := rfl

namespace ServesCalls

theorem new (evalTimeout : Nat) :
    ServesCalls evaluates engine (.empty : EvalLog Engine Reply) (.new engine evalTimeout) where
  legal := trivial
  current := rfl
  inOrder := by
    refine ⟨fun _ => rfl, ?_, ?_, ?_⟩
    · intro request evaluating
      cases evaluating
    · intro request response replying
      cases replying
    · intro exited
      cases exited
  askedOnce := List.nodup_nil
  asked := List.Subset.refl _
  acceptedOnce := List.nodup_nil
  calls := fun _ asked => by cases asked

theorem setCall (serves : ServesCalls evaluates engine log service) {call : EvalCall Reply}
    (own : CallFits log service i call) :
    ServesCalls evaluates engine log (service.setCall i call) where
  legal := serves.legal
  current := serves.current
  inOrder := ⟨serves.inOrder.waiting, serves.inOrder.evaluating, serves.inOrder.replying,
    serves.inOrder.exited⟩
  askedOnce := serves.askedOnce
  asked := serves.asked
  acceptedOnce := serves.acceptedOnce
  calls := fits_of_setCall serves.calls rfl (own.mono (spares_setCall call i) fun _ _ => id)
    (fun j _ => spares_setCall call j) fun _ _ _ => id

/-- What is accepted is in the channel or has been taken out of it. -/
theorem owed_eq (serves : ServesCalls evaluates engine log service)
    (running : service.worker ≠ .exited) : service.owed ⊆ log.accepted := by
  intro request owed
  unfold EvalService.owed at owed
  cases worker : service.worker with
  | waiting =>
      rw [worker] at owed
      rw [serves.inOrder.waiting worker]
      exact List.mem_append_right _ owed
  | evaluating current =>
      rw [worker] at owed
      rw [serves.inOrder.evaluating current worker]
      exact List.mem_append_right _ owed
  | replying current response =>
      rw [worker] at owed
      obtain ⟨acceptedEq, entry, member, rfl, _⟩ := serves.inOrder.replying current response worker
      rw [acceptedEq]
      rcases List.mem_cons.mp owed with rfl | waits
      · exact List.mem_append_left _ (List.mem_map_of_mem member)
      · exact List.mem_append_right _ waits
  | exited => exact absurd worker running

theorem eq_of_asked (serves : ServesCalls evaluates engine log service)
    {args other : SchemeEvalArgs}
    (first : ⟨i, args⟩ ∈ log.accepted) (second : ⟨i, other⟩ ∈ log.accepted) : args = other := by
  have same := List.inj_on_of_nodup_map serves.acceptedOnce first second rfl
  exact congrArg EvalRequest.args same

theorem ask (serves : ServesCalls evaluates engine log service) {args : SchemeEvalArgs}
    (fresh : service.calls i = .fresh) :
    ServesCalls evaluates engine { log with asked := log.asked ++ [⟨i, args⟩] }
      (service.setCall i (.sending args)) := by
  have isNew : i ∉ log.asked.map EvalRequest.call := by
    have fits := serves.calls i
    rwa [fresh] at fits
  have notAccepted : i ∉ log.accepted.map EvalRequest.call := by
    intro accepted
    obtain ⟨request, member, rfl⟩ := List.mem_map.mp accepted
    exact isNew (List.mem_map_of_mem (serves.asked member))
  refine ⟨serves.legal, serves.current, ⟨serves.inOrder.waiting, serves.inOrder.evaluating,
    serves.inOrder.replying, serves.inOrder.exited⟩, ?_, ?_, serves.acceptedOnce, ?_⟩
  · rw [List.map_append, List.nodup_append]
    refine ⟨serves.askedOnce, List.nodup_singleton _, ?_⟩
    rintro call asked _ (_ | ⟨_, ⟨⟩⟩) rfl
    exact isNew asked
  · exact List.Subset.trans serves.asked (List.subset_append_left _ _)
  · refine fits_of_setCall serves.calls rfl ?_ ?_ fun _ _ _ => id
    · exact ⟨List.mem_append_right _ List.mem_cons_self, notAccepted⟩
    · intro j other
      refine ⟨?_, List.subset_append_left _ _, id, List.Subset.refl _, List.Subset.refl _, id, rfl⟩
      intro asked
      rw [List.map_append, List.mem_append] at asked
      rcases asked with before | isNew
      · exact before
      · exact absurd (List.mem_singleton.mp isNew) other

theorem accept (serves : ServesCalls evaluates engine log service) {args : SchemeEvalArgs}
    (sending : service.calls i = .sending args) (running : service.worker ≠ .exited) :
    ServesCalls evaluates engine { log with accepted := log.accepted ++ [⟨i, args⟩] }
      ({ service with queue := service.queue ++ [EvalRequest.mk i args] }.setCall i
        (.awaiting args .pending)) := by
  have fits := serves.calls i
  rw [sending] at fits
  obtain ⟨asked, notAccepted⟩ := fits
  have inOwed (request : EvalRequest) : request ∈ ({ service with
      queue := service.queue ++ [EvalRequest.mk i args] }.setCall i
        (.awaiting args .pending)).owed ↔ request ∈ service.owed ++ [⟨i, args⟩] := by
    unfold EvalService.owed EvalService.setCall
    cases service.worker with
    | waiting | exited => rfl
    | evaluating | replying => rw [List.cons_append]
  refine ⟨serves.legal, serves.current, ⟨?_, ?_, ?_, ?_⟩, serves.askedOnce, ?_, ?_, ?_⟩
  · intro waiting
    change log.accepted ++ [_] = _ ++ (service.queue ++ [_])
    rw [serves.inOrder.waiting waiting, List.append_assoc]
  · intro request evaluating
    change log.accepted ++ [_] = _ ++ request :: (service.queue ++ [_])
    rw [serves.inOrder.evaluating request evaluating, List.append_assoc, List.cons_append]
  · intro request response replying
    obtain ⟨acceptedEq, answers⟩ := serves.inOrder.replying request response replying
    refine ⟨?_, answers⟩
    change log.accepted ++ [_] = _ ++ (service.queue ++ [_])
    rw [acceptedEq, List.append_assoc]
  · intro exited
    exact absurd exited running
  · intro request accepted
    rcases List.mem_append.mp accepted with before | isNew
    · exact serves.asked before
    · rwa [List.mem_singleton.mp isNew]
  · rw [List.map_append, List.nodup_append]
    refine ⟨serves.acceptedOnce, List.nodup_singleton _, ?_⟩
    rintro call accepted _ (_ | ⟨_, ⟨⟩⟩) rfl
    exact notAccepted accepted
  · refine fits_of_setCall serves.calls rfl ?_ ?_ ?_
    · refine ⟨List.mem_append_right _ List.mem_cons_self, ?_⟩
      exact (inOwed _).mpr (List.mem_append_right _ List.mem_cons_self)
    · intro j other
      refine ⟨id, List.Subset.refl _, ?_, List.subset_append_left _ _, List.Subset.refl _, id, rfl⟩
      intro accepted
      rw [List.map_append, List.mem_append] at accepted
      rcases accepted with before | isNew
      · exact before
      · exact absurd (List.mem_singleton.mp isNew) other
    · intro j _ found owed
      exact (inOwed _).mpr (List.mem_append_left _ owed)

theorem take (serves : ServesCalls evaluates engine log service) {request : EvalRequest}
    {queue : List EvalRequest} (waiting : service.worker = .waiting)
    (isQueue : service.queue = request :: queue) :
    ServesCalls evaluates engine log { service with worker := .evaluating request, queue } := by
  have acceptedEq := serves.inOrder.waiting waiting
  rw [isQueue] at acceptedEq
  refine ⟨serves.legal, serves.current, ⟨?_, ?_, ?_, ?_⟩, serves.askedOnce, serves.asked,
    serves.acceptedOnce, ?_⟩
  · intro isWaiting
    cases isWaiting
  · rintro _ ⟨⟩
    exact acceptedEq
  · intro other response replying
    cases replying
  · intro exited
    cases exited
  · intro j
    refine (serves.calls j).mono ⟨id, List.Subset.refl _, id, List.Subset.refl _,
      List.Subset.refl _, ?_, rfl⟩ ?_
    · intro exited
      rw [waiting] at exited
      cases exited
    · intro args _ owed
      rw [EvalService.owed, waiting] at owed
      rwa [isQueue] at owed

theorem close (serves : ServesCalls evaluates engine log service)
    (waiting : service.worker = .waiting) (isEmpty : service.queue = []) :
    ServesCalls evaluates engine log { service with worker := .exited } := by
  have acceptedEq := serves.inOrder.waiting waiting
  rw [isEmpty, List.append_nil] at acceptedEq
  refine ⟨serves.legal, serves.current, ⟨?_, ?_, ?_, ?_⟩, serves.askedOnce, serves.asked,
    serves.acceptedOnce, ?_⟩
  · intro isWaiting
    cases isWaiting
  · intro request evaluating
    cases evaluating
  · intro request response replying
    cases replying
  · intro _
    exact ⟨isEmpty, by rw [acceptedEq], .inr acceptedEq⟩
  · intro j
    refine (serves.calls j).mono ⟨id, List.Subset.refl _, id, List.Subset.refl _,
      List.Subset.refl _, fun _ => rfl, rfl⟩ ?_
    intro args _ owed
    rwa [EvalService.owed, waiting] at owed

theorem legal_finish (serves : ServesCalls evaluates engine log service) {request : EvalRequest}
    {outcome : EngineRun Engine Reply}
    (evaluated : evaluates service.engine request.args outcome) :
    Legal evaluates EngineRun.leave engine
        (log.served ++ [⟨request.call, request.args, outcome⟩]) ∧
      outcome.leave service.engine = stateAfter EngineRun.leave engine
        (log.served ++ [⟨request.call, request.args, outcome⟩]) := by
  rw [legal_append_singleton, stateAfter_append_singleton, ← serves.current]
  exact ⟨⟨serves.legal, evaluated⟩, rfl⟩

theorem finish (serves : ServesCalls evaluates engine log service) {request : EvalRequest}
    {outcome : EngineRun Engine Reply} {response : Except String Reply}
    (evaluating : service.worker = .evaluating request)
    (isResponse : outcome.response = some response)
    (evaluated : evaluates service.engine request.args outcome) :
    ServesCalls evaluates engine
      { log with served := log.served ++ [⟨request.call, request.args, outcome⟩] }
      { service with
        engine := outcome.leave service.engine
        worker := .replying request response } := by
  obtain ⟨legal, current⟩ := serves.legal_finish evaluated
  have acceptedEq := serves.inOrder.evaluating request evaluating
  refine ⟨legal, current, ⟨?_, ?_, ?_, ?_⟩, serves.askedOnce, serves.asked, serves.acceptedOnce, ?_⟩
  · intro waiting
    cases waiting
  · intro other isOther
    cases isOther
  · rintro _ _ ⟨⟩
    refine ⟨?_, _, List.mem_append_right _ List.mem_cons_self, rfl, isResponse⟩
    rw [List.map_append, List.append_assoc]
    exact acceptedEq
  · intro exited
    cases exited
  · intro j
    refine (serves.calls j).mono ⟨id, List.Subset.refl _, id, List.Subset.refl _,
      List.subset_append_left _ _, ?_, rfl⟩ ?_
    · intro exited
      rw [evaluating] at exited
      cases exited
    · intro args _ owed
      rwa [EvalService.owed, evaluating] at owed

/-- The thread is lost, and with it every request that it owed an answer. -/
theorem unwind (serves : ServesCalls evaluates engine log service) {request : EvalRequest}
    {outcome : EngineRun Engine Reply} (evaluating : service.worker = .evaluating request)
    (isNone : outcome.response = none)
    (evaluated : evaluates service.engine request.args outcome) :
    ServesCalls evaluates engine
      { log with served := log.served ++ [⟨request.call, request.args, outcome⟩] }
      { service with
        worker := .exited
        queue := []
        calls := fun i =>
          if i ∈ (request :: service.queue).map EvalRequest.call then
            (service.calls i).settle .dropped
          else service.calls i } := by
  obtain ⟨legal, current⟩ := serves.legal_finish evaluated
  have isUnwound : outcome = .unwound := by
    cases outcome with
    | returned => cases isNone
    | panicked message rebuilt => cases rebuilt <;> cases isNone
    | unwound => rfl
  have acceptedEq := serves.inOrder.evaluating request evaluating
  have unwound : EvalLog.Unwound
      { log with served := log.served ++ [⟨request.call, request.args, outcome⟩] } :=
    ⟨_, List.mem_append_right _ List.mem_cons_self, isNone⟩
  refine ⟨legal, ?_, ⟨?_, ?_, ?_, ?_⟩, serves.askedOnce, serves.asked, serves.acceptedOnce, ?_⟩
  · rw [← current, isUnwound]
    rfl
  · intro waiting
    cases waiting
  · intro other isOther
    cases isOther
  · intro other response replying
    cases replying
  · intro _
    refine ⟨rfl, ?_, .inl unwound⟩
    rw [List.map_append, acceptedEq]
    exact (List.prefix_append_right_inj _).mpr ⟨service.queue, rfl⟩
  · intro j
    by_cases waits : ∃ args, service.calls j = .awaiting args .pending
    · obtain ⟨args, pending⟩ := waits
      have fits := serves.calls j
      rw [pending] at fits
      obtain ⟨accepted, owed⟩ := fits
      rw [EvalService.owed, evaluating] at owed
      have isOwed : j ∈ (request :: service.queue).map EvalRequest.call :=
        List.mem_map_of_mem owed
      change CallFits _ _ j (if _ then _ else _)
      rw [if_pos isOwed, pending]
      exact ⟨accepted, unwound⟩
    · have settled : (service.calls j).settle .dropped = service.calls j := by
        unfold EvalCall.settle
        split
        · next args pending => exact absurd ⟨args, pending⟩ waits
        · rfl
      change CallFits _ _ j (if _ then _ else _)
      rw [settled, ite_self]
      refine (serves.calls j).mono ⟨id, List.Subset.refl _, id, List.Subset.refl _,
        List.subset_append_left _ _, fun _ => rfl, rfl⟩ ?_
      intro args pending
      exact absurd ⟨args, pending⟩ waits

/-- A caller that still waits for the reply is given that of its own request. -/
theorem fits_settle (serves : ServesCalls evaluates engine log service)
    (running : service.worker ≠ .exited) {request : EvalRequest} (isOwed : request ∈ service.owed)
    {response : Except String Reply} (answers : log.Answers request response)
    (spares : Spares log log service next request.call) :
    CallFits log next request.call ((service.calls request.call).settle (.sent response)) := by
  have fits := serves.calls request.call
  unfold EvalCall.settle
  split
  · next args pending =>
      rw [pending] at fits
      have sameArgs : args = request.args :=
        serves.eq_of_asked fits.1 (serves.owed_eq running isOwed)
      rw [sameArgs]
      exact answers
  · next notPending =>
      refine fits.mono spares ?_
      intro args pending
      exact absurd pending (notPending args)

theorem reply (serves : ServesCalls evaluates engine log service) {request : EvalRequest}
    {response : Except String Reply} (replying : service.worker = .replying request response) :
    ServesCalls evaluates engine log
      ({ service with worker := .waiting }.setCall request.call
        ((service.calls request.call).settle (.sent response))) := by
  obtain ⟨acceptedEq, answers⟩ := serves.inOrder.replying request response replying
  have running : service.worker ≠ .exited := by
    rw [replying]
    rintro ⟨⟩
  have isOwed : service.owed = request :: service.queue := by
    rw [EvalService.owed, replying]
  have spares (j : CallId) : Spares log log service
      ({ service with worker := .waiting }.setCall request.call
        ((service.calls request.call).settle (.sent response))) j :=
    ⟨id, List.Subset.refl _, id, List.Subset.refl _, List.Subset.refl _,
      fun exited => absurd exited running, rfl⟩
  refine ⟨serves.legal, serves.current, ⟨?_, ?_, ?_, ?_⟩, serves.askedOnce, serves.asked,
    serves.acceptedOnce, ?_⟩
  · intro _
    exact acceptedEq
  · intro other evaluating
    cases evaluating
  · intro other found isOther
    cases isOther
  · intro exited
    cases exited
  · refine fits_of_setCall serves.calls rfl (serves.fits_settle running ?_ answers (spares _))
      (fun j _ => spares j) ?_
    · rw [isOwed]
      exact List.mem_cons_self
    · intro j other args owed
      rw [isOwed] at owed
      rcases List.mem_cons.mp owed with isRequest | waits
      · exact absurd (congrArg EvalRequest.call isRequest) other
      · exact waits

theorem join (serves : ServesCalls evaluates engine log service) :
    ServesCalls evaluates engine log { service with closed := true } where
  legal := serves.legal
  current := serves.current
  inOrder := ⟨serves.inOrder.waiting, serves.inOrder.evaluating, serves.inOrder.replying,
    serves.inOrder.exited⟩
  askedOnce := serves.askedOnce
  asked := serves.asked
  acceptedOnce := serves.acceptedOnce
  calls := fun j => (serves.calls j).mono ⟨id, List.Subset.refl _, id, List.Subset.refl _,
    List.Subset.refl _, id, rfl⟩ fun _ _ => id

theorem step {current after : Remembering (EvalService Engine Reply) (EvalLog Engine Reply)}
    {label : EvalLabel Engine Reply}
    (serves : ServesCalls evaluates engine current.memory current.state)
    (evaluated : Evaluates evaluates current label)
    (stepped : remember EvalService.step EvalLog.note current label = some after) :
    ServesCalls evaluates engine after.memory after.state := by
  obtain ⟨moved, noted⟩ := remember_eq_some stepped
  rw [noted]
  clear stepped noted
  obtain ⟨service, log⟩ := current
  obtain ⟨next, later⟩ := after
  dsimp only at *
  cases transition_of_step moved with
  | refuse fresh isRefused =>
      simp only [EvalLog.note, isRefused, Option.map_none, Option.toList_none, List.append_nil]
      exact serves.setCall trivial
  | ask fresh isChecked =>
      simp only [EvalLog.note, isChecked, Option.map_some, Option.toList_some]
      exact serves.ask fresh
  | accept sending running accepted =>
      simp only [EvalLog.note, accepted, Option.toList_some]
      exact serves.accept sending running
  | @turnAway i args sending exited notAccepted =>
      simp only [EvalLog.note, notAccepted, Option.toList_none, List.append_nil]
      have fits := serves.calls i
      rw [sending] at fits
      exact serves.setCall (.turnedAway exited fits.2)
  | @answer i args response awaiting =>
      have fits := serves.calls i
      rw [awaiting] at fits
      exact serves.setCall (.answered fits)
  | @lose i args awaiting =>
      have fits := serves.calls i
      rw [awaiting] at fits
      exact serves.setCall (.dropped fits.1 fits.2)
  | @expire i args awaiting =>
      have fits := serves.calls i
      rw [awaiting] at fits
      exact serves.setCall (.timedOut fits.1)
  | cancel => exact serves.setCall trivial
  | take waiting isQueue => exact serves.take waiting isQueue
  | close waiting isEmpty => exact serves.close waiting isEmpty
  | finish evaluating isResponse =>
      simp only [EvalLog.note, evaluating]
      exact serves.finish evaluating isResponse (evaluated _ evaluating)
  | unwind evaluating isNone =>
      simp only [EvalLog.note, evaluating]
      exact serves.unwind evaluating isNone (evaluated _ evaluating)
  | reply replying => exact serves.reply replying
  | join => exact serves.join

end ServesCalls

/-- The runs of a service whose engine follows the script. -/
abbrev ReachesEvaluating (evaluates : Engine → SchemeEvalArgs → EngineRun Engine Reply → Prop)
    (before after : Remembering (EvalService Engine Reply) (EvalLog Engine Reply)) : Prop :=
  Reaches (remember EvalService.step EvalLog.note) (Evaluates evaluates) before after

variable {before after : Remembering (EvalService Engine Reply) (EvalLog Engine Reply)}

theorem servesCalls_of_reaches
    (serves : ServesCalls evaluates engine before.memory before.state)
    (reaches : ReachesEvaluating evaluates before after) :
    ServesCalls evaluates engine after.memory after.state := by
  apply reaches.invariant
  · exact serves
  · intro current next label serves evaluated stepped
    exact serves.step evaluated stepped

theorem accepted_of_reaches (reaches : ReachesEvaluating evaluates before after) :
    before.memory.accepted <+: after.memory.accepted := by
  apply reaches.invariant
  · exact List.prefix_refl _
  · intro current next label isPrefix _ stepped
    refine isPrefix.trans ?_
    rw [(remember_eq_some stepped).2]
    unfold EvalLog.note
    split
    · exact List.prefix_refl _
    · exact List.prefix_append _ _
    · split
      · exact List.prefix_refl _
      · exact List.prefix_refl _
    · exact List.prefix_refl _

theorem ServesCalls.served_prefix (serves : ServesCalls evaluates engine log service) :
    log.served.map requestOf <+: log.accepted := by
  cases worker : service.worker with
  | waiting => exact ⟨_, (serves.inOrder.waiting worker).symm⟩
  | evaluating request => exact ⟨_, (serves.inOrder.evaluating request worker).symm⟩
  | replying request response => exact ⟨_, (serves.inOrder.replying request response worker).1.symm⟩
  | exited => exact (serves.inOrder.exited worker).2.1

/-- The evaluations up to a moment form one legal history of the engine, in the
order in which the requests were accepted; no request is run twice, every call
ends as it may, and a call without a reply is still owed one.  What was accepted
by an earlier moment is run before whatever was accepted later, as every call is
that had not begun. -/
structure EvaluatesSerially (evaluates : Engine → SchemeEvalArgs → EngineRun Engine Reply → Prop)
    (engine : Engine)
    (before after : Remembering (EvalService Engine Reply) (EvalLog Engine Reply)) : Prop where
  legal : Legal evaluates EngineRun.leave engine after.memory.served
  inOrder : after.memory.served.map requestOf <+: after.memory.accepted
  once : (after.memory.accepted.map EvalRequest.call).Nodup
  asked : after.memory.accepted ⊆ after.memory.asked
  concludes : ∀ i result, after.state.calls i = .done result →
    Concludes after.memory after.state i result
  owed : ∀ i args, after.state.calls i = .awaiting args .pending →
    ⟨i, args⟩ ∈ after.memory.accepted ∧ ⟨i, args⟩ ∈ after.state.owed
  drained : after.state.worker = .exited →
    after.memory.Unwound ∨ after.memory.accepted = after.memory.served.map requestOf
  notBegun : ∀ i, before.state.calls i = .fresh → i ∉ before.memory.accepted.map EvalRequest.call
  realTime : ∀ i j, i ∈ before.memory.accepted.map EvalRequest.call →
    j ∉ before.memory.accepted.map EvalRequest.call →
      j ∈ after.memory.served.map Served.caller → Precedes after.memory.served i j

theorem callers_eq (served : List (Served CallId SchemeEvalArgs (EngineRun Engine Reply))) :
    (served.map requestOf).map EvalRequest.call = served.map Served.caller := by
  rw [List.map_map]
  rfl

/-- Whatever the interleaving of the calls, their timeouts and cancellations and
the worker, evaluations happen one after the other, each between its call and
the answer of that call. -/
theorem scheme_eval_linearizable {evalTimeout : Nat}
    (earlier : ReachesEvaluating evaluates ⟨.new engine evalTimeout, .empty⟩ before)
    (later : ReachesEvaluating evaluates before after) :
    EvaluatesSerially evaluates engine before after := by
  have servedBefore := servesCalls_of_reaches (.new evalTimeout) earlier
  have serves := servesCalls_of_reaches servedBefore later
  refine ⟨serves.legal, serves.served_prefix, serves.acceptedOnce, serves.asked, ?_, ?_, ?_, ?_, ?_⟩
  · intro i result isDone
    have fits := serves.calls i
    rwa [isDone] at fits
  · intro i args pending
    have fits := serves.calls i
    rwa [pending] at fits
  · intro exited
    exact (serves.inOrder.exited exited).2.2
  · intro i fresh accepted
    have fits := servedBefore.calls i
    rw [fresh] at fits
    obtain ⟨request, member, rfl⟩ := List.mem_map.mp accepted
    exact fits (List.mem_map_of_mem (servedBefore.asked member))
  · intro i j isEarlier isLater isServed
    obtain ⟨more, acceptedEq⟩ := accepted_of_reaches later
    have inOrder := serves.served_prefix.map EvalRequest.call
    rw [callers_eq, ← acceptedEq, List.map_append] at inOrder
    exact precedes_of_accepted inOrder isEarlier isLater isServed

/-- An engine with a counter that every request increments and returns. -/
def countsUp (counter : Nat) (_ : SchemeEvalArgs) (outcome : EngineRun Nat Nat) : Prop :=
  outcome = .returned (counter + 1) (.ok (counter + 1))

def increment : SchemeEvalArgs :=
  ⟨"(begin (set! n (+ n 1)) n)", none, false⟩

/-- The first of two calls gives up, yet its evaluation still comes first. -/
theorem scheme_eval_linearizable_timedOut :
    ∃ before after, EvaluatesSerially countsUp 0 before after ∧
      before.memory.accepted.map EvalRequest.call = [0] ∧
      after.state.calls 0 = .done (.error "scheme_eval timed out after 60s") ∧
      after.state.calls 1 = .done (.ok 2) := by
  have accepted : ReachesEvaluating countsUp ⟨.new 0 60, .empty⟩ _ :=
    .tail (.send 0) (.tail (.start 1 increment) (.tail (.start 0 increment) .refl trivial rfl)
      trivial rfl) trivial rfl
  have counted (counter : Nat) (current : Remembering (EvalService Nat Nat) (EvalLog Nat Nat))
      (isCounter : current.state.engine = counter) :
      Evaluates countsUp current (.finish (.returned (counter + 1) (.ok (counter + 1)))) := by
    rintro request _
    rw [isCounter]
    rfl
  refine ⟨_, _, scheme_eval_linearizable accepted
    (.tail (.poll 1) (.tail .reply (.tail (.finish (.returned 2 (.ok 2)))
      (.tail .take (.tail .reply (.tail (.finish (.returned 1 (.ok 1)))
        (.tail (.timeout 0) (.tail .take (.tail (.send 1) .refl
          trivial rfl) trivial rfl) trivial rfl) (counted 0 _ rfl) rfl) trivial rfl)
            trivial rfl) (counted 1 _ rfl) rfl) trivial rfl) trivial rfl), rfl, rfl, rfl⟩

end Framewalk
