import Framewalk.ServerHandlers

/-!
# Handlers against scripted replies

Here a handler runs alone on a handle that holds what was submitted and logged, the
memo and the probes, and the reply to each submit is given by the submits so far.
The selection and the reconnect of the server then do what the functions of the same
names do on such a handle.
-/

namespace Framewalk

open SharedPrograms
open SubmitRequest (structured raw)

namespace Handlers

/-- On this handle and with these replies the handler ends in the postcondition. -/
def Plays {α : Type} (replies : Replies) (post : α → TransportHandle → Prop) :
    Handler α → TransportHandle → Prop
  | .finish result, handle => post result handle
  | .ask (.submit request) resume, handle =>
      ∀ result, submitResult result = (handle.request replies request).1 →
        Plays replies post (resume result) (handle.request replies request).2
  | .ask (.recordSyntheticLog text) resume, handle =>
      ∀ result, Plays replies post (resume result) (handle.recordSyntheticLog text)
  | .load resume, handle => Plays replies post (resume handle.lastTargetSelectionCommand) handle
  | .store memo rest, handle =>
      Plays replies post rest { handle with lastTargetSelectionCommand := memo }
  | .fork .vmlinuxProbe rest, handle => Plays replies post rest handle.spawnVmlinuxProbe
  | _, _ => False

section Rules

variable {α β : Type} {replies : Replies} {handle : TransportHandle}

theorem plays_bind_iff {post : β → TransportHandle → Prop} {first : Handler α}
    {second : α → Handler β} :
    Plays replies post (first.bind second) handle ↔
      Plays replies (fun result handle => Plays replies post (second result) handle) first
        handle := by
  induction first generalizing handle with
  | ask call resume ih =>
      cases call with
      | submit request =>
          exact forall_congr' fun result => imp_congr_right fun _ => ih result
      | recordSyntheticLog text => exact forall_congr' fun result => ih result
      | nextStopAfter | currentOrNextStop | submitAndAwaitStop => exact Iff.rfl
  | load resume ih => exact ih _
  | store memo rest ih => exact ih
  | fork job rest ih =>
      cases job with
      | vmlinuxProbe => exact ih
      | bootstrap | connectStartupTarget | tool | scheme | shutdown => exact Iff.rfl
  | finish | askWithin | look | time => exact Iff.rfl

theorem plays_weaken {post weaker : α → TransportHandle → Prop} {handler : Handler α}
    (plays : Plays replies post handler handle)
    (implies : ∀ result final, post result final → weaker result final) :
    Plays replies weaker handler handle := by
  induction handler generalizing handle with
  | finish result => exact implies result handle plays
  | ask call resume ih =>
      cases call with
      | submit request => exact fun result isReply => ih result (plays result isReply)
      | recordSyntheticLog text => exact fun result => ih result (plays result)
      | nextStopAfter | currentOrNextStop | submitAndAwaitStop => exact plays
  | load resume ih => exact ih _ plays
  | store memo rest ih => exact ih plays
  | fork job rest ih =>
      cases job with
      | vmlinuxProbe => exact ih plays
      | bootstrap | connectStartupTarget | tool | scheme | shutdown => exact plays
  | askWithin | look | time => exact plays

@[simp]
theorem plays_do_iff {post : β → TransportHandle → Prop} {first : Handler α}
    {second : α → Handler β} :
    Plays replies post (first >>= second) handle ↔
      Plays replies (fun result handle => Plays replies post (second result) handle) first handle :=
  plays_bind_iff

@[simp]
theorem plays_pure_iff {post : α → TransportHandle → Prop} {result : α} :
    Plays replies post (pure result) handle ↔ post result handle :=
  Iff.rfl

@[simp]
theorem plays_loading_iff {post : Option String → TransportHandle → Prop} :
    Plays replies post Program.loading handle ↔ post handle.lastTargetSelectionCommand handle :=
  Iff.rfl

theorem submitRequest_plays {request : SubmitRequest}
    {post : Except TransportError CommandOutcome → TransportHandle → Prop}
    (holds : post (handle.request replies request).1 (handle.request replies request).2) :
    Plays replies post (submitRequest request) handle := by
  intro result isReply
  rw [← isReply] at holds
  exact holds

@[simp]
theorem plays_recordSyntheticLog_iff {text : String} {post : Unit → TransportHandle → Prop} :
    Plays replies post (recordSyntheticLog text) handle ↔
      post () (handle.recordSyntheticLog text) := by
  constructor
  · intro plays
    exact plays .timedOut
  · exact fun holds _ => holds

end Rules

section Selecting

variable {α : Type} {replies : Replies} {formatters : Formatters} {handle : TransportHandle}

/-- The handler ends as a function does on the same handle. -/
abbrev PlaysAs (replies : Replies) (handler : Handler α) (handle : TransportHandle)
    (ran : α × TransportHandle) : Prop :=
  Plays replies (fun result final => (result, final) = ran) handler handle

theorem downgradeNonStopAndRetry_plays (originalMsg : String) (rebuild : MiCommand) :
    PlaysAs replies (downgradeNonStopAndRetry formatters originalMsg rebuild) handle
      (Framewalk.downgradeNonStopAndRetry replies formatters.debugOutcome handle originalMsg
        rebuild) := by
  simp only [PlaysAs, downgradeNonStopAndRetry, Framewalk.downgradeNonStopAndRetry, plays_do_iff,
    plays_recordSyntheticLog_iff]
  apply submitRequest_plays
  rw [TransportHandle.submit]
  rcases (handle.recordSyntheticLog _).request replies (structured gdbSetNonStopOff) with
    ⟨err | other, handle⟩
  · simp
  · simp only
    split_ifs
    · simp only [plays_do_iff]
      apply submitRequest_plays
      rw [TransportHandle.submit]
      rcases handle.request replies (structured rebuild) with ⟨err | outcome, handle⟩ <;> rfl
    · simp

theorem settleTargetSelect_plays (rebuild : MiCommand) (initial : CommandOutcome) :
    PlaysAs replies (settleTargetSelect formatters rebuild initial) handle
      (Framewalk.settleTargetSelect replies formatters.debugOutcome handle rebuild initial) := by
  cases initial with
  | error msg code =>
      simp only [PlaysAs, settleTargetSelect, Framewalk.settleTargetSelect]
      split_ifs
      · exact downgradeNonStopAndRetry_plays msg rebuild
      · rfl
  | done | connected | running | exit => rfl

theorem rememberSuccessfulTargetSelectCommand_plays (command : MiCommand)
    (outcome : CommandOutcome) :
    PlaysAs replies (rememberSuccessfulTargetSelectCommand command outcome) handle
      ((), Framewalk.rememberSuccessfulTargetSelectCommand handle command outcome) := by
  unfold PlaysAs rememberSuccessfulTargetSelectCommand
    Framewalk.rememberSuccessfulTargetSelectCommand
  split_ifs <;> rfl

theorem rememberSuccessfulRawTargetSelect_plays (rawCommand : String) (outcome : CommandOutcome) :
    PlaysAs replies (rememberSuccessfulRawTargetSelect rawCommand outcome) handle
      ((), Framewalk.rememberSuccessfulRawTargetSelect handle rawCommand outcome) := by
  unfold PlaysAs rememberSuccessfulRawTargetSelect Framewalk.rememberSuccessfulRawTargetSelect
  split_ifs
  · rfl
  · cases RawGuard.rawMiOperation rawCommand with
    | error rejection => rfl
    | ok operation =>
        simp only
        split_ifs <;> rfl

/-- The server selects a target as the function does. -/
theorem performTargetSelect_plays (transportName parameters : String) :
    PlaysAs replies (performTargetSelect formatters transportName parameters) handle
      (Framewalk.performTargetSelect replies formatters.debugOutcome handle transportName
        parameters) := by
  simp only [PlaysAs, performTargetSelect, Framewalk.performTargetSelect, plays_do_iff]
  apply submitRequest_plays
  rw [TransportHandle.submit]
  rcases handle.request replies (structured (targetSelect transportName parameters)) with
    ⟨err | initial, handle⟩
  · rfl
  · simp only [plays_do_iff]
    refine plays_weaken (settleTargetSelect_plays _ initial) ?_
    intro settled handle isSettled
    rw [← isSettled]
    cases settled with
    | error err => rfl
    | ok outcome =>
        simp only [plays_do_iff]
        refine plays_weaken (rememberSuccessfulTargetSelectCommand_plays _ outcome) ?_
        intro _ final remembered
        rw [← (Prod.mk.inj remembered).2]
        split_ifs <;> rfl

/-- What the tool replies after a reconnect. -/
def reconnectResponse : Except McpError (CommandOutcome × CommandOutcome) → Response
  | .ok (disconnect, reconnect) => .reconnected disconnect reconnect
  | .error err => .failed err

/-- The server reconnects as the function does. -/
theorem reconnectTarget_plays :
    PlaysAs replies reconnectTarget handle
      ((Framewalk.reconnectTarget replies handle).map reconnectResponse id) := by
  simp only [PlaysAs, reconnectTarget, Framewalk.reconnectTarget, plays_do_iff, plays_loading_iff]
  cases handle.lastTargetSelectionCommand with
  | none => rfl
  | some selection =>
      simp only [plays_do_iff]
      apply submitRequest_plays
      rw [TransportHandle.submit]
      rcases handle.request replies (structured (.new "target-disconnect")) with
        ⟨err | disconnect, handle⟩
      · rfl
      · simp only [plays_do_iff]
        apply submitRequest_plays
        rw [TransportHandle.submitRaw]
        rcases handle.request replies (raw selection) with ⟨err | reconnect, handle⟩
        · rfl
        · simp only [plays_do_iff]
          refine plays_weaken (rememberSuccessfulRawTargetSelect_plays selection reconnect) ?_
          intro _ final remembered
          rw [← (Prod.mk.inj remembered).2]
          rfl

end Selecting

end Handlers

end Framewalk
