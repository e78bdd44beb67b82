import Framewalk.IssuedTokens
import Mathlib.Data.List.Nodup

/-!
# Outbound bytes are a queue of whole commands

A submit appends one encoded command, and the transport takes bytes from the
front in whatever amounts its pipe accepts.  The cursor is advanced by a machine
addition, which is exact as long as the sum fits a machine word.
-/

namespace Framewalk

open TransitionSystem

namespace OutboundBuffer

/-- The machine sum is exact, or it still exceeds the buffer. -/
def ConsumeFits (buffer : OutboundBuffer) (n : Nat) : Prop :=
  buffer.consumed + n < 2 ^ 64 ∨ buffer.bytes.length < (buffer.consumed + n) % 2 ^ 64

instance (buffer : OutboundBuffer) (n : Nat) : Decidable (buffer.ConsumeFits n) :=
  inferInstanceAs (Decidable (_ ∨ _))

/-- Exactly the available bytes can be consumed, and they go from the front. -/
structure ChecksConsume (buffer : OutboundBuffer) (n : Nat) : Prop where
  accepts_iff : (∃ next, buffer.consume n = .ok next) ↔ n ≤ buffer.length
  advances : ∀ next, buffer.consume n = .ok next → next.available = buffer.available.drop n

theorem available_append (buffer : OutboundBuffer) (bytes : List UInt8) :
    (buffer.append bytes).available = buffer.available ++ bytes := by
  rw [available, append, List.drop_append_of_le_length buffer.inBounds]
  rfl

theorem consume_eq_ok {buffer next : OutboundBuffer} {n : Nat}
    (consumed : buffer.consume n = .ok next) :
    (buffer.consumed + n) % 2 ^ 64 ≤ buffer.bytes.length ∧
      next.available = buffer.bytes.drop ((buffer.consumed + n) % 2 ^ 64) ∧
      next.bytes.length ≤ buffer.bytes.length ∧ next.bytes.length ≤ 2 * next.length := by
  unfold consume at consumed
  split_ifs at consumed with fits compacts
  · obtain rfl := Except.ok.inj consumed
    refine ⟨fits, rfl, by simp, ?_⟩
    simp only [length]
    omega
  · obtain rfl := Except.ok.inj consumed
    refine ⟨fits, rfl, le_refl _, ?_⟩
    simp only [length]
    omega

theorem consume_isOk_iff (buffer : OutboundBuffer) (n : Nat) :
    (∃ next, buffer.consume n = .ok next) ↔
      (buffer.consumed + n) % 2 ^ 64 ≤ buffer.bytes.length := by
  constructor
  · rintro ⟨next, consumed⟩
    exact (consume_eq_ok consumed).1
  · intro fits
    unfold consume
    rw [dif_pos fits]
    split_ifs
    · exact ⟨_, rfl⟩
    · exact ⟨_, rfl⟩

theorem checksConsume_of_fits {buffer : OutboundBuffer} {n : Nat} (fits : buffer.ConsumeFits n) :
    buffer.ChecksConsume n := by
  have inBounds := buffer.inBounds
  rcases fits with exact | exceeds
  · have sum : (buffer.consumed + n) % 2 ^ 64 = buffer.consumed + n := Nat.mod_eq_of_lt exact
    constructor
    · rw [consume_isOk_iff, sum, length]
      omega
    · intro next consumed
      rw [(consume_eq_ok consumed).2.1, sum, available, List.drop_drop]
  · have wraps : (buffer.consumed + n) % 2 ^ 64 ≤ buffer.consumed + n := Nat.mod_le _ _
    have refused : ¬ ∃ next, buffer.consume n = .ok next := by
      rw [consume_isOk_iff]
      omega
    constructor
    · apply iff_of_false refused
      rw [length]
      omega
    · exact fun next consumed => absurd ⟨next, consumed⟩ refused

theorem fits_of_checksConsume {buffer : OutboundBuffer} {n : Nat}
    (checks : buffer.ChecksConsume n) : buffer.ConsumeFits n := by
  by_contra wraps
  have inBounds := buffer.inBounds
  rw [ConsumeFits, not_or, not_lt, not_lt] at wraps
  rcases (consume_isOk_iff buffer n).mpr wraps.2 with ⟨next, consumed⟩
  have enough : n ≤ buffer.bytes.length - buffer.consumed :=
    checks.accepts_iff.mp ⟨next, consumed⟩
  have sameLength := congrArg List.length (checks.advances next consumed)
  rw [(consume_eq_ok consumed).2.1, available, List.length_drop, List.length_drop,
    List.length_drop] at sameLength
  omega

theorem checksConsume_iff (buffer : OutboundBuffer) (n : Nat) :
    buffer.ChecksConsume n ↔ buffer.ConsumeFits n :=
  ⟨fits_of_checksConsume, checksConsume_of_fits⟩

theorem take_append_available {buffer next : OutboundBuffer} {n : Nat}
    (fits : buffer.ConsumeFits n) (consumed : buffer.consume n = .ok next) :
    buffer.available.take n ++ next.available = buffer.available := by
  rw [(checksConsume_of_fits fits).advances next consumed]
  exact List.take_append_drop n _

end OutboundBuffer

theorem Session.receiveLine_outbound (session : Session) (streamLine : List UInt8) :
    (session.receiveLine streamLine).outbound = session.outbound := by
  rcases session.receiveLine_withQueues session.events session.outbound streamLine with
    ⟨more, received⟩
  have keeps : session.receiveLine streamLine =
      (session.receiveLine streamLine).withQueues more session.outbound := received
  rw [keeps]
  rfl

theorem Connection.receiveBytes_outbound (connection : Connection) (chunk : List UInt8) :
    (connection.receiveBytes chunk).outbound = connection.outbound := by
  apply receiveBytes_invariant (motive := fun session => session.outbound = connection.outbound)
  · intro session streamLine same
    rw [session.receiveLine_outbound, same]
  · rfl

/-- A call of a connection; a refused consume leaves it as it was. -/
def Connection.call (connection : Connection) : ConnectionLabel → Option Connection
  | .consume n =>
      match connection.consumeOutbound n with
      | .ok next => some next
      | .error _ => some connection
  | label => connection.step label

/-- The commands submitted so far, each under the token it was given, and the
bytes consumed so far. -/
structure Delivery where
  submitted : List (Token × SubmitRequest)
  consumed : List UInt8

namespace Delivery

def empty : Delivery :=
  ⟨[], []⟩

def note (delivery : Delivery) (connection : Connection) (label : ConnectionLabel)
    (_ : Connection) : Delivery :=
  match label with
  | .submit request =>
      { delivery with
        submitted := delivery.submitted ++ [(connection.tokens.allocate.1, request)] }
  | .consume n =>
      match connection.consumeOutbound n with
      | .ok _ =>
          { delivery with
            consumed := delivery.consumed ++ connection.outbound.available.take n }
      | .error _ => delivery
  | .receive _ | .poll => delivery

/-- The encodings of the submitted commands, one after the other. -/
def sent (delivery : Delivery) : List UInt8 :=
  delivery.submitted.flatMap fun entry => entry.2.encode entry.1

end Delivery

section Steps

variable {current next : Remembering Connection Delivery}

theorem delivery_submit {request : SubmitRequest}
    (stepped : remember Connection.call Delivery.note current (.submit request) = some next) :
    next.state.outbound = current.state.outbound.append
        (request.encode current.state.tokens.allocate.1) ∧
      next.state.tokens = current.state.tokens.allocate.2 ∧
      next.memory.submitted =
        current.memory.submitted ++ [(current.state.tokens.allocate.1, request)] ∧
      next.memory.consumed = current.memory.consumed := by
  rcases remember_eq_some stepped with ⟨called, noted⟩
  have submitted : next.state.outbound = current.state.outbound.append
        (request.encode current.state.tokens.allocate.1) ∧
      next.state.tokens = current.state.tokens.allocate.2 := by
    cases request with
    | structured command =>
        rw [← Option.some.inj called]
        exact ⟨rfl, rfl⟩
    | raw line =>
        rw [← Option.some.inj called]
        exact ⟨rfl, rfl⟩
  rw [noted]
  exact ⟨submitted.1, submitted.2, rfl, rfl⟩

/-- A consume is accepted and noted, or it is refused and nothing changes. -/
theorem delivery_consume {n : Nat}
    (stepped : remember Connection.call Delivery.note current (.consume n) = some next) :
    (∃ outbound, current.state.outbound.consume n = .ok outbound ∧
        next.state = { current.state with outbound } ∧
        next.memory = { current.memory with
          consumed := current.memory.consumed ++ current.state.outbound.available.take n }) ∨
      (¬ ∃ outbound, current.state.outbound.consume n = .ok outbound) ∧ next = current := by
  rcases current with ⟨connection, delivery⟩
  rcases next with ⟨nextConnection, nextDelivery⟩
  rcases remember_eq_some stepped with ⟨called, noted⟩
  simp only [Connection.call, Delivery.note, Connection.consumeOutbound] at called noted ⊢
  cases consumed : connection.outbound.consume n with
  | ok outbound =>
      rw [consumed] at called noted
      exact Or.inl ⟨outbound, rfl, (Option.some.inj called).symm, noted⟩
  | error error =>
      rw [consumed] at called noted
      obtain rfl := Option.some.inj called
      subst noted
      refine Or.inr ⟨?_, rfl⟩
      rintro ⟨outbound, isOk⟩
      cases isOk

theorem delivery_other {label : ConnectionLabel}
    (stepped : remember Connection.call Delivery.note current label = some next)
    (other : (∃ chunk, label = .receive chunk) ∨ label = .poll) :
    next.state.outbound = current.state.outbound ∧
      next.state.tokens = current.state.tokens ∧ next.memory = current.memory := by
  rcases remember_eq_some stepped with ⟨called, noted⟩
  rcases other with ⟨chunk, rfl⟩ | rfl
  · rw [noted, ← Option.some.inj called]
    exact ⟨current.state.receiveBytes_outbound chunk, current.state.receiveBytes_tokens chunk, rfl⟩
  · rw [noted, ← Option.some.inj called]
    exact ⟨rfl, rfl, rfl⟩

end Steps

/-- A consume is accepted exactly within what is on offer, takes that many bytes
from the front, and changes nothing when it is refused. -/
structure Connection.ChecksConsume (connection : Connection) (n : Nat) : Prop where
  accepts_iff :
    (∃ next, connection.consumeOutbound n = .ok next) ↔ n ≤ connection.outbound.length
  advances : ∀ next, connection.consumeOutbound n = .ok next →
    next.outbound.available = connection.outbound.available.drop n
  refused : ∀ error, connection.consumeOutbound n = .error error →
    connection.call (.consume n) = some connection

theorem Connection.consumeOutbound_eq_ok_iff {connection next : Connection} {n : Nat} :
    connection.consumeOutbound n = .ok next ↔
      ∃ outbound, connection.outbound.consume n = .ok outbound ∧
        { connection with outbound } = next := by
  rw [consumeOutbound]
  cases connection.outbound.consume n with
  | ok outbound => simp
  | error error => simp

theorem Connection.checksConsume_iff (connection : Connection) (n : Nat) :
    connection.ChecksConsume n ↔ connection.outbound.ConsumeFits n := by
  rw [← OutboundBuffer.checksConsume_iff]
  have accepted : (∃ next, connection.consumeOutbound n = .ok next) ↔
      ∃ outbound, connection.outbound.consume n = .ok outbound := by
    constructor
    · rintro ⟨next, consumed⟩
      rcases consumeOutbound_eq_ok_iff.mp consumed with ⟨outbound, isOk, _⟩
      exact ⟨outbound, isOk⟩
    · rintro ⟨outbound, isOk⟩
      exact ⟨_, consumeOutbound_eq_ok_iff.mpr ⟨outbound, isOk, rfl⟩⟩
  constructor
  · intro checks
    refine ⟨accepted.symm.trans checks.accepts_iff, ?_⟩
    intro outbound isOk
    exact checks.advances _ (consumeOutbound_eq_ok_iff.mpr ⟨outbound, isOk, rfl⟩)
  · intro checks
    refine ⟨accepted.trans checks.accepts_iff, ?_, ?_⟩
    · intro next consumed
      rcases consumeOutbound_eq_ok_iff.mp consumed with ⟨outbound, isOk, rfl⟩
      exact checks.advances outbound isOk
    · intro error refused
      rw [call, refused]

/-- What was consumed and what is on offer are what was sent: no byte is lost,
and none is offered again. -/
def OffersOnce (current : Remembering Connection Delivery) : Prop :=
  current.memory.consumed ++ current.state.outbound.available = current.memory.sent

def ChecksConsumes (current : Remembering Connection Delivery) (label : ConnectionLabel) :
    Prop :=
  ∀ n, label = .consume n → current.state.ChecksConsume n

/-- The cursor and the number of bytes to consume add up within a machine word,
or to a sum that still exceeds the buffer after wrapping. -/
def ConsumesFit (current : Remembering Connection Delivery) (label : ConnectionLabel) : Prop :=
  ∀ n, label = .consume n → current.state.outbound.ConsumeFits n

theorem offersOnce_step {current next : Remembering Connection Delivery}
    {label : ConnectionLabel} (offers : OffersOnce current) (fit : ConsumesFit current label)
    (stepped : remember Connection.call Delivery.note current label = some next) :
    OffersOnce next := by
  unfold OffersOnce at offers ⊢
  cases label with
  | receive chunk =>
      rcases delivery_other stepped (Or.inl ⟨chunk, rfl⟩) with ⟨outbound, _, memory⟩
      rwa [outbound, memory]
  | poll =>
      rcases delivery_other stepped (Or.inr rfl) with ⟨outbound, _, memory⟩
      rwa [outbound, memory]
  | submit request =>
      rcases delivery_submit stepped with ⟨outbound, _, submitted, consumed⟩
      have sent : next.memory.sent =
          current.memory.sent ++ request.encode current.state.tokens.allocate.1 := by
        rw [Delivery.sent, submitted, List.flatMap_append, List.flatMap_singleton]
        rfl
      rw [outbound, consumed, sent, OutboundBuffer.available_append, ← List.append_assoc, offers]
  | consume n =>
      rcases delivery_consume stepped with ⟨outbound, isOk, state, memory⟩ | ⟨_, rfl⟩
      · have split := OutboundBuffer.take_append_available (fit n rfl) isOk
        have sent : next.memory.sent = current.memory.sent := by
          rw [memory]
          rfl
        rw [sent, ← offers, ← split, ← List.append_assoc, memory, state]
      · exact offers

theorem offersOnce_of_reaches {miVersion : MiVersion}
    {current : Remembering Connection Delivery}
    (reaches : Reaches (remember Connection.call Delivery.note) ConsumesFit
      ⟨.withVersionHint miVersion, .empty⟩ current) : OffersOnce current := by
  apply reaches.invariant
  · rfl
  · intro state next label offers fits stepped
    exact offersOnce_step offers fits stepped

/-- In a run, every consume is checked exactly when every one fits, and then no
byte is offered again. -/
theorem consumes_checked_iff (miVersion : MiVersion) (labels : List ConnectionLabel) :
    EachStep (remember Connection.call Delivery.note) ⟨.withVersionHint miVersion, .empty⟩
          ChecksConsumes labels ∧
        Always (remember Connection.call Delivery.note) ⟨.withVersionHint miVersion, .empty⟩
          OffersOnce labels ↔
      EachStep (remember Connection.call Delivery.note) ⟨.withVersionHint miVersion, .empty⟩
        ConsumesFit labels := by
  constructor
  · rintro ⟨checks, _⟩ before label isPrefix current next ran stepped n isConsume
    apply (Connection.checksConsume_iff _ n).mp
    exact checks before label isPrefix current next ran stepped n isConsume
  · intro fit
    constructor
    · intro before label isPrefix current next ran stepped n isConsume
      apply (Connection.checksConsume_iff _ n).mpr
      exact fit before label isPrefix current next ran stepped n isConsume
    · exact always_of_eachStep (fun _ reaches => offersOnce_of_reaches reaches) fit

/-- One byte of a command is consumed, and then almost a full machine word of
bytes. -/
def wrappingConsume : List ConnectionLabel :=
  [.submit (.raw "-gdb-version"), .consume 1, .consume (2 ^ 64 - 1)]

/-- The second consume is accepted, and the first byte is on offer again. -/
theorem wrappingConsume_offers_again :
    ∃ before final,
      run (remember Connection.call Delivery.note) ⟨.new, .empty⟩
        (wrappingConsume.take 2) = some before ∧
      remember Connection.call Delivery.note before (.consume (2 ^ 64 - 1)) = some final ∧
      before.state.outbound.length < 2 ^ 64 - 1 ∧
      ¬ before.state.ChecksConsume (2 ^ 64 - 1) ∧
      before.state.outbound.available = Utf8Text.asBytes "-gdb-version\n" ∧
      final.state.outbound.available = Utf8Text.asBytes "1-gdb-version\n" ∧
      ¬ OffersOnce final := by
  have wrapped : ((run (remember Connection.call Delivery.note) ⟨.new, .empty⟩
      (wrappingConsume.take 2)).any fun before =>
        (remember Connection.call Delivery.note before (.consume (2 ^ 64 - 1))).any fun final =>
          decide (before.state.outbound.length < 2 ^ 64 - 1) &&
          !decide (before.state.outbound.ConsumeFits (2 ^ 64 - 1)) &&
          before.state.outbound.available == Utf8Text.asBytes "-gdb-version\n" &&
          final.state.outbound.available == Utf8Text.asBytes "1-gdb-version\n" &&
          !decide (final.memory.consumed ++ final.state.outbound.available =
            final.memory.sent)) = true := by
    decide +kernel
  rcases (Option.any_eq_true _ _).mp wrapped with ⟨before, ran, wrapped⟩
  rcases (Option.any_eq_true _ _).mp wrapped with ⟨final, stepped, wrapped⟩
  simp only [Bool.and_eq_true, Bool.not_eq_true', decide_eq_true_eq, decide_eq_false_iff_not,
    beq_iff_eq] at wrapped
  rcases wrapped with ⟨⟨⟨⟨short, notFits⟩, onOffer⟩, offered⟩, again⟩
  refine ⟨before, final, ran, stepped, short, ?_, onOffer, offered, again⟩
  rwa [Connection.checksConsume_iff]

/-- The bytes that a `Vec` can hold; an append beyond them panics. -/
def maxVecLength : Nat :=
  2 ^ 63 - 1

/-- A submit finds room for its command, and no more is consumed than is on
offer. -/
def withinBounds (current : Remembering Connection Delivery) : ConnectionLabel → Bool
  | .submit request =>
      decide (current.state.outbound.bytes.length +
        (request.encode current.state.tokens.allocate.1).length ≤ maxVecLength)
  | .consume n => decide (n ≤ current.state.outbound.length)
  | .receive _ | .poll => true

def ConnectionLabel.request? : ConnectionLabel → Option SubmitRequest
  | .submit request => some request
  | .receive _ | .poll | .consume _ => none

/-- The buffer holds what is left of the commands sent, and the tokens count
them until the allocator wraps around. -/
structure IsQueue (current : Remembering Connection Delivery) : Prop where
  bounded : current.state.outbound.bytes.length ≤ maxVecLength
  offers : OffersOnce current
  next : current.memory.submitted.length < 2 ^ 64 - 1 →
    current.state.tokens.next.toNat = current.memory.submitted.length + 1
  numbered : current.memory.submitted.length < 2 ^ 64 - 1 →
    ∀ (index : Nat) (token : Token) (request : SubmitRequest),
      current.memory.submitted[index]? = some (token, request) → token.toNat = index + 1

namespace IsQueue

variable {current next : Remembering Connection Delivery}

theorem new (miVersion : MiVersion) :
    IsQueue ⟨.withVersionHint miVersion, .empty⟩ where
  bounded := Nat.zero_le _
  offers := rfl
  next _ := rfl
  numbered := by
    intro _ index token request found
    cases found

theorem fits (isQueue : IsQueue current) {n : Nat} (within : n ≤ current.state.outbound.length) :
    current.state.outbound.ConsumeFits n := by
  have bounded := isQueue.bounded
  have inBounds := current.state.outbound.inBounds
  rw [OutboundBuffer.length] at within
  rw [maxVecLength] at bounded
  apply Or.inl
  omega

theorem submit (isQueue : IsQueue current) {request : SubmitRequest}
    (within : withinBounds current (.submit request) = true)
    (stepped : remember Connection.call Delivery.note current (.submit request) = some next) :
    IsQueue next := by
  have offers : OffersOnce next := by
    apply offersOnce_step isQueue.offers _ stepped
    rintro n ⟨⟩
  rcases delivery_submit stepped with ⟨outbound, tokens, submitted, _⟩
  have grown : next.memory.submitted.length = current.memory.submitted.length + 1 := by
    rw [submitted, List.length_append, List.length_singleton]
  refine ⟨?_, offers, ?_, ?_⟩
  · rw [outbound, OutboundBuffer.append, List.length_append]
    exact of_decide_eq_true within
  · intro few
    rw [grown] at few
    have before := isQueue.next (by omega)
    have notWrapped : current.state.tokens.next.toNat + 1 < 2 ^ 64 := by omega
    rw [tokens, TokenAllocator.allocate, if_pos notWrapped, UInt64.toNat_add, grown, ← before]
    exact Nat.mod_eq_of_lt notWrapped
  · intro few index token request found
    rw [grown] at few
    rw [submitted] at found
    by_cases old : index < current.memory.submitted.length
    · rw [List.getElem?_append_left old] at found
      exact isQueue.numbered (by omega) index token request found
    · rw [List.getElem?_append_right (Nat.le_of_not_lt old)] at found
      rcases List.getElem?_eq_some_iff.mp found with ⟨isFirst, entry⟩
      rw [List.length_singleton] at isFirst
      have isLast : index = current.memory.submitted.length := by omega
      subst isLast
      rw [Nat.sub_self] at found
      cases found
      exact isQueue.next (by omega)

theorem other (isQueue : IsQueue current) {label : ConnectionLabel}
    (stepped : remember Connection.call Delivery.note current label = some next)
    (isOther : (∃ chunk, label = .receive chunk) ∨ label = .poll) : IsQueue next := by
  rcases delivery_other stepped isOther with ⟨outbound, tokens, memory⟩
  refine ⟨outbound ▸ isQueue.bounded, ?_, ?_, ?_⟩
  · rw [OffersOnce, outbound, memory]
    exact isQueue.offers
  · rw [tokens, memory]
    exact isQueue.next
  · rw [memory]
    exact isQueue.numbered

theorem step (isQueue : IsQueue current) {label : ConnectionLabel}
    (within : withinBounds current label = true)
    (stepped : remember Connection.call Delivery.note current label = some next) :
    IsQueue next := by
  cases label with
  | submit request => exact isQueue.submit within stepped
  | consume n =>
      have fits := isQueue.fits (of_decide_eq_true within)
      have offers : OffersOnce next := by
        apply offersOnce_step isQueue.offers _ stepped
        rintro _ ⟨⟩
        exact fits
      rcases delivery_consume stepped with ⟨outbound, isOk, state, memory⟩ | ⟨_, rfl⟩
      · refine ⟨?_, offers, ?_, ?_⟩
        · rw [state]
          exact (OutboundBuffer.consume_eq_ok isOk).2.2.1.trans isQueue.bounded
        · rw [state, memory]
          exact isQueue.next
        · rw [memory]
          exact isQueue.numbered
      · exact isQueue
  | receive chunk => exact isQueue.other stepped (Or.inl ⟨chunk, rfl⟩)
  | poll => exact isQueue.other stepped (Or.inr rfl)

/-- Before the allocator wraps around, every command has a token of its own. -/
theorem nodup (isQueue : IsQueue current)
    (few : current.memory.submitted.length < 2 ^ 64 - 1) :
    (current.memory.submitted.map Prod.fst).Nodup := by
  rw [List.nodup_iff_getElem?_ne_getElem?]
  intro first second ordered inBounds same
  rw [List.length_map] at inBounds
  rw [List.getElem?_map, List.getElem?_map, List.getElem?_eq_getElem inBounds,
    List.getElem?_eq_getElem (ordered.trans inBounds)] at same
  have sameToken : current.memory.submitted[first].1 = current.memory.submitted[second].1 :=
    Option.some.inj same
  have firstNumber : current.memory.submitted[first].1.toNat = first + 1 :=
    isQueue.numbered few first _ _ (List.getElem?_eq_getElem (ordered.trans inBounds))
  have secondNumber : current.memory.submitted[second].1.toNat = second + 1 :=
    isQueue.numbered few second _ _ (List.getElem?_eq_getElem inBounds)
  rw [sameToken] at firstNumber
  omega

end IsQueue

theorem submitted_of_run {start final : Remembering Connection Delivery}
    {labels : List ConnectionLabel}
    (ran : run (remember Connection.call Delivery.note) start labels = some final) :
    final.memory.submitted.map Prod.snd =
      start.memory.submitted.map Prod.snd ++ labels.filterMap ConnectionLabel.request? := by
  induction labels using List.reverseRecOn generalizing final with
  | nil =>
      obtain rfl : start = final := Option.some.inj ran
      exact (List.append_nil _).symm
  | append_singleton labels label ih =>
      rcases run_append_singleton ran with ⟨current, first, last⟩
      rw [List.filterMap_append, ← List.append_assoc, ← ih first]
      cases label with
      | submit request =>
          rw [(delivery_submit last).2.2.1, List.map_append]
          rfl
      | consume n =>
          rcases delivery_consume last with ⟨outbound, _, _, memory⟩ | ⟨_, rfl⟩
          · rw [memory]
            exact (List.append_nil _).symm
          · exact (List.append_nil _).symm
      | receive chunk =>
          rw [(delivery_other last (Or.inl ⟨chunk, rfl⟩)).2.2]
          exact (List.append_nil _).symm
      | poll =>
          rw [(delivery_other last (Or.inr rfl)).2.2]
          exact (List.append_nil _).symm

theorem isQueue_of_run {miVersion : MiVersion} {labels : List ConnectionLabel}
    {final : Remembering Connection Delivery}
    (ran : run (restrict (remember Connection.call Delivery.note) withinBounds)
      ⟨.withVersionHint miVersion, .empty⟩ labels = some final) : IsQueue final := by
  induction labels using List.reverseRecOn generalizing final with
  | nil =>
      obtain rfl := Option.some.inj ran
      exact .new miVersion
  | append_singleton labels label ih =>
      rcases run_append_singleton ran with ⟨current, first, last⟩
      rcases restrict_eq_some last with ⟨within, stepped⟩
      exact (ih first).step within stepped

/-- Whatever is consumed in whatever amounts, the bytes consumed and those on
offer are the submitted commands in order, each under a token of its own; what
is on offer can be consumed, and then the buffer is compact. -/
theorem outbound_is_queue {miVersion : MiVersion} {labels : List ConnectionLabel}
    {final : Remembering Connection Delivery}
    (ran : run (restrict (remember Connection.call Delivery.note) withinBounds)
      ⟨.withVersionHint miVersion, .empty⟩ labels = some final) :
    final.memory.consumed ++ final.state.outbound.available =
        final.memory.submitted.flatMap (fun entry => entry.2.encode entry.1) ∧
      final.memory.submitted.map Prod.snd = labels.filterMap ConnectionLabel.request? ∧
      (final.memory.submitted.length < 2 ^ 64 - 1 →
        (final.memory.submitted.map Prod.fst).Nodup) ∧
      (∀ n ≤ final.state.outbound.length, ∃ next, final.state.consumeOutbound n = .ok next) ∧
      ∀ before n, labels = before ++ [.consume n] →
        final.state.outbound.bytes.length ≤ 2 * final.state.outbound.length := by
  have isQueue := isQueue_of_run ran
  refine ⟨isQueue.offers, submitted_of_run (run_of_run_restrict ran), isQueue.nodup, ?_, ?_⟩
  · intro n within
    have checks := (Connection.checksConsume_iff final.state n).mpr (isQueue.fits within)
    exact checks.accepts_iff.mpr within
  · rintro before n rfl
    rcases run_append_singleton ran with ⟨current, first, last⟩
    rcases restrict_eq_some last with ⟨within, stepped⟩
    have fits := (isQueue_of_run first).fits (of_decide_eq_true within)
    rcases delivery_consume stepped with ⟨outbound, isOk, state, _⟩ | ⟨refused, _⟩
    · rw [state]
      exact (OutboundBuffer.consume_eq_ok isOk).2.2.2
    · have checks := OutboundBuffer.checksConsume_of_fits fits
      exact absurd (checks.accepts_iff.mpr (of_decide_eq_true within)) refused

/-- Two commands, taken in three parts. -/
def partsTaken : List ConnectionLabel :=
  [.submit (.structured ⟨"exec-run", [], []⟩), .consume 3,
    .submit (.raw "-gdb-version"), .consume 9, .consume 2]

theorem outbound_is_queue_partsTaken :
    ∃ final, run (restrict (remember Connection.call Delivery.note) withinBounds)
        ⟨.withVersionHint .mi3, .empty⟩ partsTaken = some final ∧
      final.memory.consumed = Utf8Text.asBytes "1-exec-run\n2-g" ∧
      final.memory.consumed ++ final.state.outbound.available =
        final.memory.submitted.flatMap (fun entry => entry.2.encode entry.1) := by
  have taken : ((run (restrict (remember Connection.call Delivery.note) withinBounds)
      ⟨.withVersionHint .mi3, .empty⟩ partsTaken).any fun final =>
        final.memory.consumed == Utf8Text.asBytes "1-exec-run\n2-g") = true := by
    decide +kernel
  rcases (Option.any_eq_true _ _).mp taken with ⟨final, ran, consumed⟩
  exact ⟨final, ran, eq_of_beq consumed, (outbound_is_queue ran).1⟩

end Framewalk
