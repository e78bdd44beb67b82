import Framewalk.AbandonedSubmits
import Framewalk.CommandTexts
import Framewalk.OutboundQueue
import Framewalk.RawCommandLines

/-!
# What GDB reads on its standard input

Callers encode their commands under the connection lock and the writer task
writes them one after the other.  Beside a run stand here the request behind
every token and the bytes of all completed writes.  Whatever the callers do,
those bytes are whole commands, each under the token of the one call that sent
it, in the order in which the writer's channel accepted them.
-/

namespace Framewalk

open TransitionSystem Transport Utf8Text RawGuard

/-- The pipe of commands, the request each call was given a token for, and the
bytes of the writes that were completed. -/
structure StdinLog where
  pipe : CommandPipe
  requests : CallId → Option (Token × SubmitRequest)
  stdin : List UInt8

namespace StdinLog

def empty : StdinLog :=
  ⟨.empty, fun _ => none, []⟩

def noteRequest (requests : CallId → Option (Token × SubmitRequest)) (transport : Transport) :
    Transport.Label → CallId → Option (Token × SubmitRequest)
  | .call i =>
      match transport.calls i with
      | .tested request _ =>
          Function.update requests i (some (transport.connection.tokens.next, request))
      | _ => requests
  | _ => requests

/-- The bytes that a completed write delivers; a write that fails may leave part of
its line in the pipe, which counts as not delivered. -/
def finished (transport : Transport) (label : Transport.Label) : List UInt8 :=
  match label, transport.writer with
  | .writerFinish, .writing bytes => bytes
  | _, _ => []

def note (log : StdinLog) (transport : Transport) (label : Transport.Label) (next : Transport) :
    StdinLog where
  pipe := log.pipe.note transport label next
  requests := noteRequest log.requests transport label
  stdin := log.stdin ++ finished transport label

/-- The lines whose write was completed. -/
def delivered (log : StdinLog) : List SentLine :=
  log.pipe.sent.take log.pipe.written

end StdinLog

namespace CallState

/-- The token and the bytes of a call that has encoded its command and not yet
sent it. -/
def encoded? : CallState → Option (Token × List UInt8)
  | .allocated token bytes _ | .registered token bytes _ => some (token, bytes)
  | _ => none

theorem encoded?_wake (state : CallState) : state.wake.encoded? = state.encoded? := by
  cases state <;> rfl

end CallState

theorem Transport.CallStep.encoded? {transport : Transport} {label : Label} {i : CallId}
    {state after : CallState} (takes : CallStep transport i label state after)
    {carried : Token × List UInt8} (holds : after.encoded? = some carried) :
    state.encoded? = some carried ∨
      label = .call i ∧ ∃ request cursor, state = .tested request cursor := by
  cases takes with
  | start call => cases call <;> cases holds
  | allocate request cursor => exact .inr ⟨rfl, request, cursor, rfl⟩
  | register => exact .inl holds
  | _ => cases holds

theorem Transport.encoded?_of_step {transport next : Transport} {label : Label}
    (stepped : transport.step label = some next) {i : CallId} {carried : Token × List UInt8}
    (holds : (next.calls i).encoded? = some carried) :
    (transport.calls i).encoded? = some carried ∨ transport.Allocates label i := by
  rcases (transition_of_step stepped).calls i with stays | notified | takes
  · exact .inl (stays ▸ holds)
  · rw [notified, CallState.encoded?_wake] at holds
    exact .inl holds
  · exact takes.encoded? holds

/-- A command's line fits in a byte vector (encoding a longer one panics), and
fewer commands are issued than there are tokens. -/
def issuesCommands (current : Remembering Transport StdinLog) : Transport.Label → Bool
  | .call i =>
      match current.state.calls i with
      | .tested request _ =>
          decide ((request.encode current.state.connection.tokens.next).length ≤ maxVecLength) &&
            decide (current.memory.pipe.issued.length + 1 < 2 ^ 64 - 1)
      | _ => true
  | _ => true

theorem fits_of_issuesCommands {current : Remembering Transport StdinLog} {i : CallId}
    {request : SubmitRequest} {after : Option Nat}
    (issues : issuesCommands current (.call i) = true)
    (isTested : current.state.calls i = .tested request after) :
    (request.encode current.state.connection.tokens.next).length ≤ maxVecLength ∧
      current.memory.pipe.issued.length + 1 < 2 ^ 64 - 1 := by
  simpa only [issuesCommands, isTested, Bool.and_eq_true, decide_eq_true_eq] using issues

theorem OutboundBuffer.consume_length {buffer : OutboundBuffer}
    (short : buffer.bytes.length ≤ maxVecLength) :
    ∃ drained, buffer.consume buffer.length = .ok drained ∧ drained.bytes = [] := by
  have inBounds := buffer.inBounds
  have exactSum : (buffer.consumed + buffer.length) % 2 ^ 64 = buffer.bytes.length := by
    rw [maxVecLength] at short
    rw [OutboundBuffer.length]
    omega
  unfold consume
  rw [dif_pos (Nat.le_of_eq exactSum)]
  split_ifs with large
  · exact ⟨_, rfl, List.drop_eq_nil_of_le (Nat.le_of_eq exactSum.symm)⟩
  · have nothing : buffer.bytes.length = 0 := by omega
    exact ⟨_, rfl, List.eq_nil_of_length_eq_zero nothing⟩

/-- With nothing left over, an allocation carries exactly its own command and
leaves nothing over. -/
theorem Transport.allocate_encodes {transport : Transport} {request : SubmitRequest}
    (nothingLeft : transport.connection.outbound.bytes = [])
    (fits : (request.encode transport.connection.tokens.next).length ≤ maxVecLength)
    (i : CallId) (after : Option Nat) :
    (transport.allocate i request after).calls i =
        .allocated transport.connection.tokens.next
          (request.encode transport.connection.tokens.next) after ∧
      (transport.allocate i request after).connection.outbound.bytes = [] := by
  have token : (submitRequest transport.connection request).1 =
      transport.connection.tokens.next := by
    cases request <;> rfl
  have outbound : (submitRequest transport.connection request).2.outbound =
      transport.connection.outbound.append (request.encode transport.connection.tokens.next) := by
    cases request <;> rfl
  have bytes : (submitRequest transport.connection request).2.outbound.bytes =
      request.encode transport.connection.tokens.next := by
    rw [outbound]
    change transport.connection.outbound.bytes ++ _ = _
    rw [nothingLeft, List.nil_append]
  have available : (submitRequest transport.connection request).2.outbound.available =
      request.encode transport.connection.tokens.next := by
    have consumed := transport.connection.outbound.inBounds
    rw [nothingLeft, List.length_nil, Nat.le_zero] at consumed
    rw [OutboundBuffer.available, bytes, outbound, OutboundBuffer.append, consumed, List.drop_zero]
  obtain ⟨drained, consumed, emptied⟩ := OutboundBuffer.consume_length (bytes ▸ fits)
  have drainedEq : drainOutbound (submitRequest transport.connection request).2 =
      .ok (request.encode transport.connection.tokens.next,
        { (submitRequest transport.connection request).2 with outbound := drained }) := by
    rw [drainOutbound, Connection.consumeOutbound, consumed, available]
  unfold allocate
  simp only [drainedEq, token]
  exact ⟨setCall_calls_self _ _ _, emptied⟩

theorem Transport.outbound_of_step {transport next : Transport} {label : Label}
    (stepped : transport.step label = some next) (none : ∀ i, ¬ transport.Allocates label i) :
    next.connection.outbound = transport.connection.outbound := by
  cases label with
  | call i =>
      rcases (stepCall_keeps stepped).2 with same | ⟨request, after, isTested, _⟩
      · rw [same]
      · exact absurd ⟨rfl, request, after, isTested⟩ (none i)
  | reader => rw [(stepReader_keeps stepped).2.1]
  | receive chunk =>
      obtain ⟨_, rfl⟩ := step_cases stepped
      rcases transport.receive_eq chunk with ⟨_, _, _, received⟩
      rw [received]
      exact transport.connection.receiveBytes_outbound chunk
  | start | cancel | endOfInput =>
      obtain ⟨_, rfl⟩ := step_cases stepped
      rfl
  | timeout | writerFinish | writerFail =>
      obtain ⟨_, _, rfl⟩ := step_cases stepped
      rfl
  | writerTake =>
      obtain ⟨_, _, _, _, rfl⟩ := step_cases stepped
      rfl

/-- The bytes are the encoding of the request that the call was given this
token for. -/
def StdinLog.Encodes (log : StdinLog) (i : CallId) (token : Token) (bytes : List UInt8) : Prop :=
  ∃ request, log.requests i = some (token, request) ∧ bytes = request.encode token

/-- Nothing is left over between steps, every encoded line is its own call's
command, no call sends twice, and what was written is the lines in front. -/
structure FeedsStdin (current : Remembering Transport StdinLog) : Prop where
  follows : current.memory.pipe.Follows current.state
  matching : current.memory.pipe.MatchesSends current.state
  issues : current.memory.pipe.Issues current.state
  issued : ∀ line ∈ current.memory.pipe.sent,
    (line.call, line.token) ∈ current.memory.pipe.issued
  nothingLeft : current.state.connection.outbound.bytes = []
  encoded : ∀ i token bytes, (current.state.calls i).encoded? = some (token, bytes) →
    current.memory.Encodes i token bytes
  sent : ∀ line ∈ current.memory.pipe.sent,
    current.memory.Encodes line.call line.token line.bytes
  once : (current.memory.pipe.sent.map SentLine.call).Nodup
  stdin : current.memory.stdin = current.memory.delivered.flatMap SentLine.bytes

namespace FeedsStdin

variable {current next : Remembering Transport StdinLog} {label : Label}

theorem start : FeedsStdin ⟨.new, .empty⟩ where
  follows := CommandPipe.follows_new
  matching := CommandPipe.matchesSends_new
  issues := CommandPipe.issues_new
  issued := by
    intro line isSent
    cases isSent
  nothingLeft := rfl
  encoded := by
    intro i token bytes holds
    cases holds
  sent := by
    intro line isSent
    cases isSent
  once := List.nodup_nil
  stdin := rfl

theorem requests_of_allocates {i : CallId} {request : SubmitRequest} {after : Option Nat}
    (requests : CallId → Option (Token × SubmitRequest)) {transport : Transport}
    (isTested : transport.calls i = .tested request after) :
    StdinLog.noteRequest requests transport (.call i) =
      Function.update requests i (some (transport.connection.tokens.next, request)) := by
  simp only [StdinLog.noteRequest, isTested]

theorem requests_of_not_allocates (requests : CallId → Option (Token × SubmitRequest))
    {transport : Transport} (none : ∀ i, ¬ transport.Allocates label i) :
    StdinLog.noteRequest requests transport label = requests := by
  unfold StdinLog.noteRequest
  split
  · next i =>
      split
      · next request after isTested => exact absurd ⟨rfl, request, after, isTested⟩ (none i)
      · rfl
  · rfl

/-- The request of a call that is past its allocation is not replaced. -/
theorem requests_kept (requests : CallId → Option (Token × SubmitRequest))
    {transport : Transport} {i : CallId} (none : ¬ transport.Allocates label i) :
    StdinLog.noteRequest requests transport label i = requests i := by
  by_cases allocates : ∃ j, transport.Allocates label j
  · obtain ⟨j, rfl, request, after, isTested⟩ := allocates
    have other : i ≠ j := by
      rintro rfl
      exact none ⟨rfl, request, after, isTested⟩
    rw [requests_of_allocates requests isTested, Function.update_of_ne other]
  · rw [requests_of_not_allocates requests (not_exists.mp allocates)]

theorem Encodes.note {log : StdinLog} {transport nextTransport : Transport} {i : CallId}
    {token : Token} {bytes : List UInt8} (encodes : log.Encodes i token bytes)
    (none : ¬ transport.Allocates label i) :
    (log.note transport label nextTransport).Encodes i token bytes := by
  obtain ⟨request, isRequest, bytesEq⟩ := encodes
  refine ⟨request, ?_, bytesEq⟩
  exact (requests_kept log.requests none).trans isRequest

theorem encoded_step (delivers : FeedsStdin current)
    (issuesFits : issuesCommands current label = true)
    (stepped : current.state.step label = some next.state)
    (noted : next.memory = current.memory.note current.state label next.state)
    {i : CallId} {token : Token} {bytes : List UInt8}
    (holds : (next.state.calls i).encoded? = some (token, bytes)) :
    next.memory.Encodes i token bytes := by
  rw [noted]
  by_cases allocates : current.state.Allocates label i
  · obtain ⟨rfl, request, after, isTested⟩ := allocates
    have short := (fits_of_issuesCommands issuesFits isTested).1
    obtain ⟨given, _⟩ := allocate_encodes delivers.nothingLeft short i after
    simp only [step, stepCall, isTested] at stepped
    rw [← Option.some.inj stepped, given] at holds
    cases holds
    refine ⟨request, ?_, rfl⟩
    rw [StdinLog.note, requests_of_allocates _ isTested]
    exact Function.update_self _ _ _
  · have before := (encoded?_of_step stepped holds).resolve_right allocates
    exact Encodes.note (delivers.encoded i token bytes before) allocates

theorem not_allocates_of_sent (delivers : FeedsStdin current) {line : SentLine}
    (isSent : line ∈ current.memory.pipe.sent) : ¬ current.state.Allocates label line.call := by
  rintro ⟨_, request, after, isTested⟩
  have unsent : (current.state.calls line.call).isUnsent = true := by
    rw [isTested]
    rfl
  exact delivers.matching.unsent _ unsent line.token ⟨line, isSent, rfl, rfl⟩

theorem sent_step (delivers : FeedsStdin current)
    (noted : next.memory = current.memory.note current.state label next.state)
    {line : SentLine} (isSent : line ∈ next.memory.pipe.sent) :
    next.memory.Encodes line.call line.token line.bytes := by
  rw [noted] at isSent ⊢
  rcases current.memory.pipe.sent_note current.state next.state label with
    same | ⟨i, token, bytes, after, _, _, rfl, isRegistered, _, grown⟩
  · have before : line ∈ current.memory.pipe.sent := same ▸ isSent
    exact Encodes.note (delivers.sent line before) (delivers.not_allocates_of_sent before)
  · rw [StdinLog.note, grown, List.mem_append, List.mem_singleton] at isSent
    rcases isSent with before | rfl
    · exact Encodes.note (delivers.sent line before) (delivers.not_allocates_of_sent before)
    · apply Encodes.note
      · exact delivers.encoded i token bytes (by rw [isRegistered]; rfl)
      · rintro ⟨_, request, cursor, isTested⟩
        rw [isRegistered] at isTested
        cases isTested

theorem once_step (delivers : FeedsStdin current)
    (noted : next.memory = current.memory.note current.state label next.state) :
    (next.memory.pipe.sent.map SentLine.call).Nodup := by
  rw [noted]
  rcases current.memory.pipe.sent_note current.state next.state label with
    same | ⟨i, token, bytes, after, _, _, _, isRegistered, _, grown⟩
  · rw [StdinLog.note, same]
    exact delivers.once
  · rw [StdinLog.note, grown, List.map_append, List.map_singleton, List.nodup_append]
    refine ⟨delivers.once, List.nodup_singleton _, ?_⟩
    rintro j isSent _ (_ | ⟨_, ⟨⟩⟩) rfl
    obtain ⟨line, isSent, isCall⟩ := List.mem_map.mp isSent
    have unsent : (current.state.calls line.call).isUnsent = true := by
      rw [isCall, isRegistered]
      rfl
    exact delivers.matching.unsent _ unsent line.token ⟨line, isSent, rfl, rfl⟩

/-- The line that the writer finishes is the next one that was accepted. -/
theorem stdin_step (delivers : FeedsStdin current)
    (stepped : current.state.step label = some next.state)
    (noted : next.memory = current.memory.note current.state label next.state) :
    next.memory.stdin = next.memory.delivered.flatMap SentLine.bytes := by
  have before := delivers.stdin
  rw [noted, StdinLog.delivered]
  by_cases finishes : label = .writerFinish
  · subst finishes
    obtain ⟨bytes, phase, _⟩ := step_cases stepped
    obtain ⟨_, unwritten⟩ := delivers.follows.writing bytes phase
    obtain ⟨line, rest, unwrittenEq, bytesEq, _⟩ := List.map_eq_cons_iff.mp unwritten
    have split : current.memory.pipe.sent = current.memory.delivered ++ line :: rest := by
      rw [StdinLog.delivered, ← unwrittenEq]
      exact (List.take_append_drop _ _).symm
    have length : current.memory.delivered.length = current.memory.pipe.written := by
      have within := delivers.follows.written_le (by rw [phase]; simp)
      rw [StdinLog.delivered, List.length_take]
      omega
    simp only [StdinLog.note, StdinLog.finished, phase, CommandPipe.note, before]
    have taken : current.memory.pipe.sent.take (current.memory.pipe.written + 1) =
        current.memory.delivered ++ [line] := by
      rw [split, ← length, List.take_length_add_append]
      rfl
    rw [taken, List.flatMap_append, List.flatMap_singleton, bytesEq]
  · have nothing : StdinLog.finished current.state label = [] := by
      unfold StdinLog.finished
      split
      · exact absurd rfl finishes
      · rfl
    have written : (current.memory.pipe.note current.state label next.state).written =
        current.memory.pipe.written :=
      (current.memory.pipe.written_note current.state next.state label).resolve_right finishes
    simp only [StdinLog.note, nothing, List.append_nil, written]
    rw [before, StdinLog.delivered]
    rcases current.memory.pipe.sent_note current.state next.state label with
      same | ⟨i, token, bytes, after, _, _, rfl, isRegistered, isAwaiting, grown⟩
    · rw [same]
    · -- A line is accepted only while the writer runs.
      have notEnded : current.state.writer ≠ .ended := by
        intro ended
        simp only [step, stepCall, isRegistered, send, ended] at stepped
        rw [← Option.some.inj stepped, setCall_calls_self] at isAwaiting
        cases isAwaiting
      rw [grown, List.take_append_of_le_length (delivers.follows.written_le notEnded)]

theorem issued_step (delivers : FeedsStdin current)
    (noted : next.memory = current.memory.note current.state label next.state)
    {line : SentLine} (isSent : line ∈ next.memory.pipe.sent) :
    (line.call, line.token) ∈ next.memory.pipe.issued := by
  rw [noted] at isSent ⊢
  apply CommandPipe.mem_issued_note
  rcases current.memory.pipe.sent_note current.state next.state label with
    same | ⟨i, token, bytes, after, _, _, _, isRegistered, _, grown⟩
  · exact delivers.issued line (same ▸ isSent)
  · rw [StdinLog.note, grown, List.mem_append, List.mem_singleton] at isSent
    rcases isSent with before | rfl
    · exact delivers.issued line before
    · exact delivers.issues.own i token (by rw [isRegistered]; rfl)

theorem step (delivers : FeedsStdin current) (issuesFits : issuesCommands current label = true)
    (stepped : remember Transport.step StdinLog.note current label = some next) :
    FeedsStdin next := by
  obtain ⟨stepped, noted⟩ := remember_eq_some stepped
  have few : current.memory.pipe.IssuesFew current.state label := by
    rintro i ⟨rfl, request, after, isTested⟩
    exact (fits_of_issuesCommands issuesFits isTested).2
  refine ⟨?_, ?_, ?_, ?_, ?_, ?_, ?_, delivers.once_step noted,
    delivers.stdin_step stepped noted⟩
  · rw [noted]
    exact CommandPipe.follows_step delivers.follows stepped
  · rw [noted]
    exact delivers.matching.step stepped
  · rw [noted]
    exact delivers.issues.step few stepped
  · intro line isSent
    exact delivers.issued_step noted isSent
  · by_cases allocates : ∃ i, current.state.Allocates label i
    · obtain ⟨i, rfl, request, after, isTested⟩ := allocates
      have short := (fits_of_issuesCommands issuesFits isTested).1
      simp only [Transport.step, stepCall, isTested] at stepped
      rw [← Option.some.inj stepped]
      exact (allocate_encodes delivers.nothingLeft short i after).2
    · rw [outbound_of_step stepped (not_exists.mp allocates)]
      exact delivers.nothingLeft
  · intro i token bytes holds
    exact delivers.encoded_step issuesFits stepped noted holds
  · intro line isSent
    exact delivers.sent_step noted isSent

theorem tokens_nodup (delivers : FeedsStdin current) :
    (current.memory.pipe.sent.map SentLine.token).Nodup := by
  have calls := delivers.once
  rw [List.Nodup, List.pairwise_map] at calls ⊢
  refine calls.imp_of_mem ?_
  intro first second isFirst isSecond differ sameToken
  have own := delivers.issued second isSecond
  rw [← sameToken] at own
  exact differ (delivers.issues.unique (delivers.issued first isFirst) own)

end FeedsStdin

/-- The line is terminated and holds no other newline. -/
def SentLine.IsOneLine (line : SentLine) : Prop :=
  ∃ text, line.bytes = text ++ [Ascii.newline] ∧ Ascii.newline ∉ text

/-- The words that go into the request's line as they are hold no newline;
parameters and option values are quoted where they hold one. -/
def SubmitRequest.StaysOnLine : SubmitRequest → Prop
  | .structured command =>
      '\n' ∉ command.operation.toList ∧ ∀ option ∈ command.options, '\n' ∉ option.name.toList
  | .raw line => '\n' ∉ line.toList

theorem newline_not_mem_encodeParameter (parameter : String) :
    Ascii.newline ∉ encodeParameter parameter :=
  (encodeParameter_isField parameter).newline_not_mem

theorem newline_mem_encodeOption_iff (option : CommandOption) :
    Ascii.newline ∈ encodeOption option ↔ '\n' ∈ option.name.toList := by
  have dash : Ascii.newline ≠ Ascii.minus := by decide
  have space : Ascii.newline ≠ Ascii.space := by decide
  rcases option with ⟨name, value⟩
  cases value with
  | none => simp [encodeOption, dash, newline_mem_asBytes_iff]
  | some value =>
      simp [encodeOption, dash, space, newline_mem_asBytes_iff,
        newline_not_mem_encodeParameter value]

theorem newline_mem_commandBody_iff (command : MiCommand) :
    Ascii.newline ∈ commandBody command ↔
      '\n' ∈ command.operation.toList ∨ ∃ option ∈ command.options, '\n' ∈ option.name.toList := by
  have dash : Ascii.newline ≠ Ascii.minus := by decide
  have space : Ascii.newline ≠ Ascii.space := by decide
  have separator :
      Ascii.newline ∉ (if shouldEmitDoubleDash command then asBytes " --" else []) := by
    split_ifs
    · decide
    · exact List.not_mem_nil
  have parameters : Ascii.newline ∉ command.parameters.flatMap fun parameter =>
      Ascii.space :: encodeParameter parameter := by
    simp [space, newline_not_mem_encodeParameter]
  rw [commandBody, List.mem_append, List.mem_append, List.cons_append, List.mem_cons,
    List.mem_append, newline_mem_asBytes_iff]
  simp [dash, space, separator, parameters, newline_mem_encodeOption_iff]

/-- A request is sent as one line exactly when none of its bare words breaks it. -/
theorem isOneLine_encode_iff (token : Token) (request : SubmitRequest) :
    IsOneLine (request.encode token) ↔ request.StaysOnLine := by
  have noNewline := newline_not_mem_of_isToken (toString_isToken token)
  cases request with
  | raw line =>
      rw [SubmitRequest.encode, isOneLine_append_newline_iff, List.mem_append,
        newline_mem_asBytes_iff line, not_or]
      exact and_iff_right noNewline
  | structured command =>
      rw [SubmitRequest.encode, encodeCommand_commandBody, encodeToken, writeU64_eq_toString,
        isOneLine_append_newline_iff, List.mem_append, newline_mem_commandBody_iff, not_or,
        and_iff_right noNewline]
      simp [SubmitRequest.StaysOnLine]

/-- What GDB finds on its standard input is the delivered commands and nothing
else; every accepted command is whole, of one call and under one token, and
behind the delivered ones stand the one being written and the queued ones.  If no
delivered command breaks its line, then splitting the input gives the lines back. -/
structure ReadsWholeCommands (current : Remembering Transport StdinLog) : Prop where
  stdin : current.memory.stdin = current.memory.delivered.flatMap SentLine.bytes
  encodes : ∀ line ∈ current.memory.pipe.sent,
    current.memory.Encodes line.call line.token line.bytes
  calls : (current.memory.pipe.sent.map SentLine.call).Nodup
  tokens : (current.memory.pipe.sent.map SentLine.token).Nodup
  waiting : current.state.writer = .waiting →
    current.memory.pipe.sent.map SentLine.bytes =
      current.memory.delivered.map SentLine.bytes ++ current.state.queue
  writing : ∀ bytes, current.state.writer = .writing bytes →
    current.memory.pipe.sent.map SentLine.bytes =
      current.memory.delivered.map SentLine.bytes ++ bytes :: current.state.queue
  oneLine : ∀ line ∈ current.memory.pipe.sent, ∀ request,
    current.memory.requests line.call = some (line.token, request) →
      (line.IsOneLine ↔ request.StaysOnLine)
  lines : (∀ line ∈ current.memory.delivered, ∀ request,
      current.memory.requests line.call = some (line.token, request) → request.StaysOnLine) →
    LineSplitting.completeLines Ascii.newline current.memory.stdin =
        current.memory.delivered.map (fun line => line.bytes.dropLast) ∧
      LineSplitting.unfinishedLine Ascii.newline current.memory.stdin = []

theorem lines_of_flatMap {sent : List SentLine} (oneLine : ∀ line ∈ sent, line.IsOneLine) :
    LineSplitting.completeLines Ascii.newline (sent.flatMap SentLine.bytes) =
        sent.map (fun line => line.bytes.dropLast) ∧
      LineSplitting.unfinishedLine Ascii.newline (sent.flatMap SentLine.bytes) = [] := by
  induction sent with
  | nil => exact ⟨rfl, rfl⟩
  | cons line sent ih =>
      obtain ⟨text, bytesEq, notMember⟩ := oneLine line List.mem_cons_self
      have rest := ih fun other member => oneLine other (List.mem_cons_of_mem line member)
      have split : (line :: sent).flatMap SentLine.bytes =
          text ++ Ascii.newline :: sent.flatMap SentLine.bytes := by
        rw [List.flatMap_cons, bytesEq, List.append_assoc, List.singleton_append]
      rw [split, LineSplitting.completeLines_line_append notMember,
        LineSplitting.unfinishedLine_line_append notMember, rest.1, rest.2, List.map_cons,
        bytesEq, List.dropLast_concat]
      exact ⟨rfl, rfl⟩

theorem FeedsStdin.readsWholeCommands {current : Remembering Transport StdinLog}
    (delivers : FeedsStdin current) : ReadsWholeCommands current := by
  have split : current.memory.pipe.sent.map SentLine.bytes =
      current.memory.delivered.map SentLine.bytes ++
        current.memory.pipe.unwritten.map SentLine.bytes := by
    rw [← List.map_append, StdinLog.delivered, CommandPipe.unwritten, List.take_append_drop]
  have oneLine : ∀ line ∈ current.memory.pipe.sent, ∀ request,
      current.memory.requests line.call = some (line.token, request) →
        (line.IsOneLine ↔ request.StaysOnLine) := by
    intro line isSent request isRequest
    obtain ⟨own, isOwn, encoded⟩ := delivers.sent line isSent
    rw [isOwn] at isRequest
    cases isRequest
    rw [← isOneLine_encode_iff line.token, ← encoded]
    exact Iff.rfl
  refine ⟨delivers.stdin, delivers.sent, delivers.once, delivers.tokens_nodup, ?_, ?_, oneLine, ?_⟩
  · intro phase
    rw [split, (delivers.follows.waiting phase).2]
  · intro bytes phase
    rw [split, (delivers.follows.writing bytes phase).2]
  · intro stays
    rw [delivers.stdin]
    apply lines_of_flatMap
    intro line isDelivered
    have isSent := List.mem_of_mem_take isDelivered
    obtain ⟨request, isRequest, _⟩ := delivers.sent line isSent
    exact (oneLine line isSent request isRequest).mpr (stays line isDelivered request isRequest)

/-- In every run, whatever the interleaving of the calls, their cancellations
and the failures of the writer, GDB reads whole commands. -/
theorem stdin_holds_whole_commands {labels : List Transport.Label}
    (issues : EachStep (remember Transport.step StdinLog.note) ⟨.new, .empty⟩
      (fun current label => issuesCommands current label = true) labels) :
    Always (remember Transport.step StdinLog.note) ⟨.new, .empty⟩ ReadsWholeCommands
      labels := by
  refine always_of_eachStep ?_ issues
  intro current reaches
  apply FeedsStdin.readsWholeCommands
  apply reaches.invariant
  · exact .start
  · intro current next label delivers issues stepped
    exact delivers.step issues stepped

/-- Three submits: the second one overtakes the first, and the third is dropped
before its line is accepted. -/
def overtakingSubmits : List Transport.Label :=
  [.start 0 (.submit (.structured ⟨"gdb-version", [], []⟩)),
    .start 1 (.submit (.raw "-list-features")), .start 2 (.submit (.raw "-exec-run")), .call 0,
    .call 1, .call 2, .call 0, .call 1, .call 2, .call 2, .call 1, .call 1, .cancel 2, .call 0,
    .call 0, .writerTake, .writerFinish, .writerTake, .writerFinish]

theorem overtakingSubmits_delivered :
    ∃ final, run (remember Transport.step StdinLog.note) ⟨.new, .empty⟩ overtakingSubmits =
        some final ∧
      final.memory.stdin = Utf8Text.asBytes "2-list-features\n1-gdb-version\n" ∧
      ReadsWholeCommands final := by
  have delivers :
      ((run (restrict (remember Transport.step StdinLog.note) issuesCommands) ⟨.new, .empty⟩
        overtakingSubmits).any fun final =>
          final.memory.stdin == Utf8Text.asBytes "2-list-features\n1-gdb-version\n") = true := by
    decide +kernel
  rcases (Option.any_eq_true _ _).mp delivers with ⟨final, ran, stdin⟩
  have always := stdin_holds_whole_commands (eachStep_of_run_restrict ran)
  exact ⟨final, run_of_run_restrict ran, beq_iff_eq.mp stdin,
    always _ (List.prefix_refl _) final (run_of_run_restrict ran)⟩

end Framewalk
