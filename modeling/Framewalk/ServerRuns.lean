import Framewalk.ConfinedHandlers
import Framewalk.OwnOutcomes
import Framewalk.StdinStream

/-!
# Runs of the whole server

Beside a run of the server stands what GDB reads.  Each command there goes back to
the call that some handler made for it, so only permitted commands arrive, and the
remembered selection is one that GDB has acknowledged.
-/

namespace Framewalk

open SharedPrograms TransitionSystem Transport Utf8Text RawGuard

theorem Transport.calls_done_of_step {transport next : Transport} {label : Label}
    (stepped : transport.step label = some next) {i : CallId} {result : CallResult}
    (returned : transport.calls i = .done result) : next.calls i = .done result := by
  by_cases isOwn : label.caller? = some i
  · cases label with
    | start j call =>
        cases isOwn
        obtain ⟨isIdle, _⟩ := step_cases stepped
        rw [returned] at isIdle
        cases isIdle
    | call j =>
        cases isOwn
        simp [step, stepCall, returned, advance] at stepped
    | cancel j =>
        cases isOwn
        obtain ⟨suspended, _⟩ := step_cases stepped
        rw [returned] at suspended
        cases suspended
    | timeout j =>
        cases isOwn
        obtain ⟨_, isParked, _⟩ := step_cases stepped
        rw [returned] at isParked
        cases isParked
    | _ => cases isOwn
  · rcases calls_of_step_of_ne stepped isOwn with stays | notified
    · exact stays.trans returned
    · rw [notified, returned]
      rfl

theorem answer_eq_some {transport : Transport} {i : CallId} {reply : CallResult}
    (answered : transport.answer i = some reply) : transport.calls i = .done reply := by
  unfold Transport.answer at answered
  split at answered
  · next result returned =>
      rw [returned]
      cases result <;> cases answered <;> rfl
  · cases answered

theorem server_keepsAnswers (config : Config) (formatters : Formatters) :
    (server config formatters).KeepsAnswers := by
  intro transport next label i reply stepped answered
  have returned := answer_eq_some answered
  change next.answer i = some reply
  rw [Transport.answer, calls_done_of_step stepped returned]
  change transport.answer i = some reply at answered
  rwa [Transport.answer, returned] at answered

def Call.request? : Call → Option SubmitRequest
  | .submit request => some request
  | .submitAndAwaitStop line => some (.raw line)
  | .nextStopAfter _ | .currentOrNextStop | .recordSyntheticLog _ => none

/-- The request that a call has yet to encode. -/
def CallState.request? : CallState → Option SubmitRequest
  | .submitting request _ | .tested request _ => some request
  | .triggering line => some (.raw line)
  | _ => none

theorem CallState.request?_wake (state : CallState) : state.wake.request? = state.request? := by
  cases state <;> rfl

theorem Transport.CallStep.request? {transport : Transport} {label : Label} {i : CallId}
    {state after : CallState} (takes : CallStep transport i label state after)
    {request : SubmitRequest} (requests : after.request? = some request) :
    state.request? = some request ∨
      ∃ call : Call, label = .start i call ∧ call.request? = some request := by
  cases takes with
  | start call => cases call <;> exact .inr ⟨_, rfl, requests⟩
  | testSubmit | trigger => exact .inl requests
  | _ => cases requests

theorem Transport.request?_of_step {transport next : Transport} {label : Label}
    (stepped : transport.step label = some next) {i : CallId} {request : SubmitRequest}
    (requests : (next.calls i).request? = some request) :
    (transport.calls i).request? = some request ∨
      ∃ call : Call, label = .start i call ∧ call.request? = some request := by
  rcases (transition_of_step stepped).calls i with stays | notified | takes
  · exact .inl (stays ▸ requests)
  · rw [notified, CallState.request?_wake] at requests
    exact .inl requests
  · exact takes.request? requests

abbrev ServerState :=
  HostState Transport Call CallResult (Option String) Job Response

/-- The calls that were made, beside what GDB reads. -/
abbrev ServerRun :=
  Remembering ServerState (HostLog Call CallResult Job StdinLog)

namespace ServerRun

variable (run : ServerRun)

def start : ServerRun :=
  ⟨.start .new none, [], [], .empty⟩

/-- The transport and the pipe to GDB. -/
def service : Remembering Transport StdinLog :=
  ⟨run.state.service, run.memory.service⟩

def memo : Option String :=
  run.state.cell

/-- The request was made by a call of some handler. -/
def Asked (i : CallId) (request : SubmitRequest) : Prop :=
  ∃ call : Call, (i, call) ∈ run.memory.asked ∧ call.request? = some request

/-- GDB was sent the request by this call, and the outcome is the first that came
back for its line. -/
def AnswersLine (i : CallId) (request : SubmitRequest) (outcome : CommandOutcome) : Prop :=
  ∃ sent ∈ run.memory.service.pipe.sent, ∃ index, sent.call = i ∧
    sent.bytes = request.encode sent.token ∧
    run.state.service.wire[index]? = some (.commandCompleted sent.token outcome) ∧
    NotCompleted run.state.service.wire index sent.token

end ServerRun

section Runs

variable {config : Config} {formatters : Formatters}

abbrev serverStep (config : Config) (formatters : Formatters) :
    ServerRun → HostLabel Transport.Label Job → Option ServerRun :=
  remember (server config formatters).step ((server config formatters).note StdinLog.note)

/-- In every step of the transport, a command fits in memory and is given a fresh
token. -/
def serverIssues (config : Config) (formatters : Formatters) (current : ServerRun)
    (label : HostLabel Transport.Label Job) : Bool :=
  ((server config formatters).serviceLabel? current.state label).all
    fun serviceLabel => issuesCommands current.service serviceLabel

theorem asked_of_start {state next : ServerState} {label : HostLabel Transport.Label Job}
    (stepped : (server config formatters).step state label = some next) {i : CallId} {call : Call}
    (starts : (server config formatters).serviceLabel? state label = some (.start i call)) :
    Host.asks? state label = some call ∧ state.tickets = i := by
  have asked : ∀ {asks : Option Call},
      asks.map ((server config formatters).call state.tickets) = some (.start i call) →
        asks = some call ∧ state.tickets = i := by
    rintro (_ | other) isCall
    · cases isCall
    · obtain ⟨rfl, rfl⟩ := Transport.Label.start.inj (Option.some.inj isCall)
      exact ⟨rfl, rfl⟩
  cases label with
  | serve serviceLabel =>
      obtain rfl := Option.some.inj starts
      cases Host.transition_of_step stepped with
      | served isCall _ => cases isCall
  | begin | perform | resume | lapse | abandon | tick => exact asked starts

/-- Every request on its way was asked by a handler, under the same number. -/
structure AsksRequests (run : ServerRun) : Prop where
  calls : ∀ i request, (run.state.service.calls i).request? = some request → run.Asked i request
  requests : ∀ i token request, run.memory.service.requests i = some (token, request) →
    run.Asked i request

theorem AsksRequests.step {current next : ServerRun} (asks : AsksRequests current)
    {label : HostLabel Transport.Label Job}
    (stepped : serverStep config formatters current label = some next) : AsksRequests next := by
  obtain ⟨stepped, noted⟩ := remember_eq_some stepped
  have keeps : ∀ {i : CallId} {request : SubmitRequest}, current.Asked i request →
      next.Asked i request := by
    rintro i request ⟨call, isAsked, requests⟩
    refine ⟨call, ?_, requests⟩
    rw [noted]
    exact List.mem_append_left _ isAsked
  have served := (server config formatters).serve_of_step stepped
  cases isLabel : (server config formatters).serviceLabel? current.state label with
  | none =>
      simp only [isLabel] at served
      have sameLog : next.memory.service = current.memory.service := by
        rw [noted, Host.note]
        simp only [isLabel]
      refine ⟨?_, ?_⟩
      · intro i request requests
        rw [served] at requests
        exact keeps (asks.calls i request requests)
      · intro i token request isRequest
        rw [sameLog] at isRequest
        exact keeps (asks.requests i token request isRequest)
  | some serviceLabel =>
      simp only [isLabel] at served
      have log : next.memory.service =
          current.memory.service.note current.state.service serviceLabel next.state.service := by
        rw [noted, Host.note]
        simp only [isLabel]
      refine ⟨?_, ?_⟩
      · intro i request requests
        rcases Transport.request?_of_step served requests with before | ⟨call, rfl, isRequest⟩
        · exact keeps (asks.calls i request before)
        · obtain ⟨isAsked, isTicket⟩ := asked_of_start stepped isLabel
          refine ⟨call, ?_, isRequest⟩
          rw [noted, Host.note, isAsked]
          simp [isTicket]
      · intro i token request isRequest
        rw [log] at isRequest
        change StdinLog.noteRequest _ _ serviceLabel i = _ at isRequest
        by_cases allocates : current.state.service.Allocates serviceLabel i
        · obtain ⟨rfl, other, after, isTested⟩ := allocates
          rw [FeedsStdin.requests_of_allocates _ isTested, Function.update_self] at isRequest
          cases isRequest
          exact keeps (asks.calls i request (by rw [isTested]; rfl))
        · rw [FeedsStdin.requests_kept _ allocates] at isRequest
          exact keeps (asks.requests i token request isRequest)

abbrev ReachesServing (config : Config) (formatters : Formatters) : ServerRun → Prop :=
  Reaches (serverStep config formatters)
    (fun current label => serverIssues config formatters current label = true) .start

variable {current : ServerRun}

theorem asksRequests_of_reaches (reaches : ReachesServing config formatters current) :
    AsksRequests current := by
  apply reaches.invariant
  · constructor
    · intro i request requests
      cases requests
    · intro i token request isRequest
      cases isRequest
  · intro current next label asks _ stepped
    exact asks.step stepped

theorem feedsStdin_of_reaches (reaches : ReachesServing config formatters current) :
    FeedsStdin current.service := by
  have served : Reaches (remember Transport.step StdinLog.note)
      (fun run label => issuesCommands run label = true) ServerRun.start.service
        current.service := by
    apply service_reaches _ reaches
    intro run label serviceLabel issues isLabel
    simp only [serverIssues, isLabel, Option.all_some] at issues
    exact issues
  apply served.invariant
  · exact .start
  · intro current next label delivers issues stepped
    exact delivers.step issues stepped

theorem disciplined_of_serving (reaches : ReachesServing config formatters current) :
    Disciplined (server config formatters) config.discipline current.memory.asked
      current.state := by
  apply disciplined_of_reaches (server_keepsAnswers config formatters)
    (server_obeys config formatters) _ reaches
  rintro line ⟨⟩

theorem permits_of_asked (reaches : ReachesServing config formatters current) {i : CallId}
    {request : SubmitRequest} (asked : current.Asked i request) : config.Permits request := by
  obtain ⟨call, isAsked, requests⟩ := asked
  have granted := (disciplined_of_serving reaches).granted i call isAsked
  cases call with
  | submit other =>
      cases requests
      exact granted
  | submitAndAwaitStop line =>
      cases requests
      exact granted
  | nextStopAfter | currentOrNextStop | recordSyntheticLog => cases requests

/-- How GDB reads a line: as the token and a permitted command, or as a token and
the text that has passed the guard. -/
def Config.Admits (config : Config) (line : SentLine) : Prop :=
  (∃ command, config.Permits (.structured command) ∧
    readCommand line.bytes.dropLast = .ok (some line.token, command)) ∨
  ∃ text, config.Permits (.raw text) ∧
    line.bytes.dropLast = asBytes (toString line.token.toNat) ++ asBytes text

/-- GDB's input is the delivered lines, which are commands of handlers, permitted
and under distinct tokens.  If no raw command breaks its line, then GDB reads
exactly these lines, each as what was permitted. -/
structure ConfinesCommands (config : Config) (run : ServerRun) : Prop where
  stdin : run.memory.service.stdin = run.memory.service.delivered.flatMap SentLine.bytes
  commands : ∀ line ∈ run.memory.service.pipe.sent, ∃ request,
    run.Asked line.call request ∧ config.Permits request ∧ line.bytes = request.encode line.token
  tokens : (run.memory.service.pipe.sent.map SentLine.token).Nodup
  lines : (∀ i text, run.Asked i (.raw text) → '\n' ∉ text.toList) →
    LineSplitting.completeLines Ascii.newline run.memory.service.stdin =
        run.memory.service.delivered.map (fun line => line.bytes.dropLast) ∧
      LineSplitting.unfinishedLine Ascii.newline run.memory.service.stdin = [] ∧
      ∀ line ∈ run.memory.service.delivered, config.Admits line

theorem isOneLine_of_encoded {request : SubmitRequest} {line : SentLine}
    (permitted : config.Permits request) (encoded : line.bytes = request.encode line.token)
    (unbroken : ∀ text, request = .raw text → '\n' ∉ text.toList) :
    line.IsOneLine ∧ config.Admits line := by
  cases permitted with
  | @structured command fits isListed =>
      obtain ⟨text, isText, notMember, reads⟩ := fits.reads_back line.token
      rw [isText] at encoded
      refine ⟨⟨text, encoded, notMember⟩, Or.inl ⟨command, .structured fits isListed, ?_⟩⟩
      rw [encoded, List.dropLast_concat]
      exact reads
  | @raw text passes =>
      have token := newline_not_mem_of_isToken (toString_isToken line.token)
      have notMember : Ascii.newline ∉ asBytes (toString line.token.toNat) ++ asBytes text := by
        rw [List.mem_append, newline_mem_asBytes_iff text, not_or]
        exact ⟨token, unbroken text rfl⟩
      rw [SubmitRequest.encode] at encoded
      refine ⟨⟨_, encoded, notMember⟩, Or.inr ⟨text, .raw passes, ?_⟩⟩
      rw [encoded, List.dropLast_concat]

/-- Whatever the clients begin and however the handlers interleave, no command
reaches GDB that the configuration does not permit. -/
theorem server_confines_commands (reaches : ReachesServing config formatters current) :
    ConfinesCommands config current := by
  have feeds := feedsStdin_of_reaches reaches
  have asks := asksRequests_of_reaches reaches
  have commands : ∀ line ∈ current.memory.service.pipe.sent, ∃ request,
      current.Asked line.call request ∧ config.Permits request ∧
        line.bytes = request.encode line.token := by
    intro line isSent
    obtain ⟨request, isRequest, encoded⟩ := feeds.sent line isSent
    have asked := asks.requests line.call line.token request isRequest
    exact ⟨request, asked, permits_of_asked reaches asked, encoded⟩
  refine ⟨feeds.stdin, commands, feeds.tokens_nodup, ?_⟩
  intro unbroken
  have each : ∀ line ∈ current.memory.service.delivered, line.IsOneLine ∧ config.Admits line := by
    intro line isDelivered
    obtain ⟨request, asked, permitted, encoded⟩ := commands line (List.mem_of_mem_take isDelivered)
    apply isOneLine_of_encoded permitted encoded
    rintro text rfl
    exact unbroken line.call text asked
  have stdin : current.memory.service.stdin =
      current.memory.service.delivered.flatMap SentLine.bytes := feeds.stdin
  obtain ⟨complete, unfinished⟩ :=
    lines_of_flatMap fun line isDelivered => (each line isDelivered).1
  rw [← stdin] at complete unfinished
  exact ⟨complete, unfinished, fun line isDelivered => (each line isDelivered).2⟩

end Runs

/-- Texts that no reader parses. -/
def plainFormatters : Formatters :=
  ⟨fun _ => "outcome", id, fun _ => "error"⟩

def schemeConfig : Config :=
  ⟨.scheme, none, true, false, .fromSecs 30⟩

/-- An evaluation tries a shell command while a client selects a target. -/
def selectsTargetLabels : List (HostLabel Transport.Label Job) :=
  [.begin (.scheme (some (Duration.fromSecs 60)) (.mi "-interpreter-exec console \"shell ls\"")),
    .begin (.tool (.targetSelect "remote" "localhost:1234")), .perform 0, .perform 1,
    .serve (.call 0), .serve (.call 0), .serve (.call 0), .serve (.call 0), .serve .writerTake,
    .serve .writerFinish]

theorem server_confines_commands_shell :
    ∃ final, run (serverStep schemeConfig plainFormatters) .start selectsTargetLabels =
        some final ∧
      final.memory.service.stdin = asBytes "1-target-select remote localhost:1234\n" ∧
      ConfinesCommands schemeConfig final := by
  have delivers :
      ((run (restrict (serverStep schemeConfig plainFormatters)
        (serverIssues schemeConfig plainFormatters)) .start selectsTargetLabels).any fun final =>
          final.memory.service.stdin == asBytes "1-target-select remote localhost:1234\n") =
        true := by
    decide +kernel
  obtain ⟨final, ran, stdin⟩ := (Option.any_eq_true _ _).mp delivers
  have reaches := reaches_of_run (eachStep_of_run_restrict ran) (run_of_run_restrict ran)
  exact ⟨final, run_of_run_restrict ran, beq_iff_eq.mp stdin, server_confines_commands reaches⟩

section Runs

variable {config : Config} {formatters : Formatters} {current : ServerRun}

/-- GDB answers only what it may have received, besides. -/
def serverAnswers (config : Config) (formatters : Formatters) (current : ServerRun)
    (label : HostLabel Transport.Label Job) : Bool :=
  ((server config formatters).serviceLabel? current.state label).all fun serviceLabel =>
    issuesCommands current.service serviceLabel &&
      answersReceived ⟨current.state.service, current.memory.service.pipe⟩ serviceLabel

abbrev ReachesAnswered (config : Config) (formatters : Formatters) : ServerRun → Prop :=
  Reaches (serverStep config formatters)
    (fun current label => serverAnswers config formatters current label = true) .start

theorem serving_of_answered (reaches : ReachesAnswered config formatters current) :
    ReachesServing config formatters current := by
  induction reaches with
  | refl => exact .refl
  | @tail current next label _ answers stepped ih =>
      refine .tail label ih ?_ stepped
      simp only [serverAnswers, Option.all_eq_true] at answers
      simp only [serverIssues, Option.all_eq_true]
      intro serviceLabel isLabel
      exact (Bool.and_eq_true_iff.mp (answers serviceLabel isLabel)).1

theorem keepsOutcomes_of_answered (reaches : ReachesAnswered config formatters current) :
    KeepsOutcomes ⟨current.state.service, current.memory.service.pipe⟩ := by
  have served : Reaches (remember Transport.step StdinLog.note)
      (fun run label => answersReceived ⟨run.state, run.memory.pipe⟩ label = true)
        ServerRun.start.service current.service := by
    apply service_reaches _ reaches
    intro run label serviceLabel answers isLabel
    simp only [serverAnswers, isLabel, Option.all_some, Bool.and_eq_true] at answers
    exact answers.2
  let keeps (run : Remembering Transport StdinLog) : Prop :=
    KeepsOutcomes ⟨run.state, run.memory.pipe⟩
  suffices keeps current.service from this
  apply served.invariant
  · exact keepsOutcomes_start
  · intro current next label keeps answers stepped
    obtain ⟨stepped, noted⟩ := remember_eq_some stepped
    apply keepsOutcomes_step keeps answers
    rw [remember, stepped, noted]
    rfl

/-- A command that GDB was sent, whose first result reported success, selected a
target, and this line selects it again. -/
def Acknowledged (run : ServerRun) (line : String) : Prop :=
  ∃ sent ∈ run.memory.service.pipe.sent, ∃ request outcome index,
    sent.bytes = request.encode sent.token ∧ Reselects request line ∧
      outcome.isSuccess = true ∧
      run.state.service.wire[index]? = some (.commandCompleted sent.token outcome) ∧
      NotCompleted run.state.service.wire index sent.token

theorem call_unique (reaches : ReachesServing config formatters current) {i : CallId}
    {first second : Call} (isFirst : (i, first) ∈ current.memory.asked)
    (isSecond : (i, second) ∈ current.memory.asked) : first = second := by
  have numbered := asked_numbered reaches
  have distinct : (current.memory.asked.map Prod.fst).Nodup := numbered ▸ List.nodup_range
  exact (Prod.mk.inj (List.inj_on_of_nodup_map distinct isFirst isSecond rfl)).2

theorem answersLine_of_answered (reaches : ReachesAnswered config formatters current) {i : CallId}
    {request : SubmitRequest} {outcome : CommandOutcome}
    (isAsked : (i, .submit request) ∈ current.memory.asked)
    (answered : current.state.service.answer i = some (.outcome outcome)) :
    current.AnswersLine i request outcome := by
  have serving := serving_of_answered reaches
  have keeps := keepsOutcomes_of_answered reaches
  obtain ⟨token, index, own⟩ := keeps.returned i outcome (answer_eq_some answered)
  obtain ⟨sent, isSent, sameToken⟩ := keeps.matching.wire index token outcome own.completed
  -- The line under this token is the one that this very call has sent.
  have sameCall : sent.call = i := by
    have issued := (keeps.matching.sent sent isSent).1
    rw [sameToken] at issued
    exact keeps.matching.issues.unique issued own.issued
  obtain ⟨encodedRequest, isRequest, encoded⟩ := (feedsStdin_of_reaches serving).sent sent isSent
  obtain ⟨call, isCall, requests⟩ :=
    (asksRequests_of_reaches serving).requests sent.call sent.token encodedRequest isRequest
  rw [sameCall] at isCall
  obtain rfl := call_unique serving isCall isAsked
  obtain rfl := Option.some.inj requests
  exact ⟨sent, isSent, index, sameCall, encoded, sameToken ▸ own.completed, sameToken ▸ own.first⟩

/-- Whatever is remembered passes the guard, and GDB has acknowledged it. -/
theorem memo_is_acknowledged (reaches : ReachesAnswered config formatters current) {line : String}
    (isMemo : current.memo = some line) :
    validateRawMiCommand line config.allowShell = .ok () ∧ Acknowledged current line := by
  obtain ⟨passes, request, outcome, ⟨i, isAsked, answered⟩, succeeds, reselects⟩ :=
    (disciplined_of_serving (serving_of_answered reaches)).justified line isMemo
  obtain ⟨sent, isSent, index, _, encoded, completed, first⟩ :=
    answersLine_of_answered reaches isAsked answered
  exact ⟨passes, sent, isSent, request, outcome, index, encoded, reselects, succeeds, completed,
    first⟩

end Runs

/-- GDB connects, and the line is remembered. -/
def connectsTargetLabels : List (HostLabel Transport.Label Job) :=
  selectsTargetLabels ++
    [.serve (.receive (asBytes "1^connected\n")), .serve .reader, .serve .reader, .serve .reader,
      .serve .reader, .serve .reader, .serve (.call 0), .resume 1, .perform 1]

theorem memo_is_acknowledged_connected :
    ∃ final, run (serverStep schemeConfig plainFormatters) .start connectsTargetLabels =
        some final ∧
      final.memo = some "-target-select remote localhost:1234" ∧
      Acknowledged final "-target-select remote localhost:1234" := by
  have remembers :
      ((run (restrict (serverStep schemeConfig plainFormatters)
        (serverAnswers schemeConfig plainFormatters)) .start connectsTargetLabels).any fun final =>
          final.memo == some "-target-select remote localhost:1234") = true := by
    decide +kernel
  obtain ⟨final, ran, isMemo⟩ := (Option.any_eq_true _ _).mp remembers
  have reaches := reaches_of_run (eachStep_of_run_restrict ran) (run_of_run_restrict ran)
  exact ⟨final, run_of_run_restrict ran, beq_iff_eq.mp isMemo,
    (memo_is_acknowledged reaches (beq_iff_eq.mp isMemo)).2⟩

end Framewalk
