import Framewalk.TransportTransitions

/-!
# Submits and the exit of the reader

A submit tests the reader, registers its sender and sends its bytes in separate
steps, and the exit of the reader empties the pending map only once.  A sender
registered after that is never dropped, and its call never answered.
-/

namespace Framewalk

namespace Transport

open TransitionSystem

/-- Once the reader's guard is done, a submit that awaits its reply has no
sender left in the pending map, so without a reply it returns at its next step. -/
def NoOrphanedSubmit (transport : Transport) : Prop :=
  transport.reader = .exited → ∀ i token after,
    transport.calls i = .awaiting token after →
      transport.pending[token]? ≠ some i ∧
        (transport.replies i = none →
          transport.step (.call i) = some (transport.setCall i (.done (.failed .exited))))

/-- The writer channel takes no bytes of a call that put its sender into the
pending map after the reader's guard had emptied it. -/
def RegisteredInTime (transport : Transport) (label : Label) : Prop :=
  ∀ i token bytes after, label = .call i →
    transport.calls i = .registered token bytes after →
      transport.reader = .exited → transport.pending[token]? = some i →
        transport.writer = .ended

theorem CallStep.send_of_awaiting {transport : Transport} {i : CallId} {label : Label}
    {state next : CallState} {token : Token} {after : Option Nat}
    (takes : CallStep transport i label state next) (isAwaiting : next = .awaiting token after) :
    label = .call i ∧ transport.writer ≠ .ended ∧
      ∃ bytes, state = .registered token bytes after := by
  cases takes with
  | start call => cases call <;> cases isAwaiting
  | send token bytes after notEnded =>
      cases isAwaiting
      exact ⟨rfl, notEnded, bytes, rfl⟩
  | _ => cases isAwaiting

/-- The part of the property that steps have to keep. -/
def NoSenderLeft (transport : Transport) : Prop :=
  transport.reader = .exited → ∀ i token after,
    transport.calls i = .awaiting token after → transport.pending[token]? ≠ some i

theorem noSenderLeft_step {transport next : Transport} {label : Label}
    (noSender : transport.NoSenderLeft) (inTime : transport.RegisteredInTime label)
    (stepped : transport.step label = some next) : next.NoSenderLeft := by
  intro exited i token after isAwaiting holds
  have transition := transition_of_step stepped
  have wasExited : transport.reader = .exited := by
    rcases transition.exited exited with before | empty
    · exact before
    · rw [empty, Std.ExtTreeMap.getElem?_empty] at holds
      cases holds
  have wasHeld : transport.pending[token]? = some i := by
    rcases transition.pending holds with before | ⟨bytes, after, _, isRegistered⟩
    · exact before
    · rw [isAwaiting] at isRegistered
      cases isRegistered
  rcases transition.calls i with stays | notified | takes
  · exact noSender wasExited i token after (stays ▸ isAwaiting) wasHeld
  · have wasAwaiting := eq_of_wake (notified.symm.trans isAwaiting) rfl
    exact noSender wasExited i token after wasAwaiting wasHeld
  · rcases takes.send_of_awaiting isAwaiting with ⟨own, notEnded, bytes, isRegistered⟩
    exact notEnded (inTime i token bytes after own isRegistered wasExited wasHeld)

theorem noOrphanedSubmit_of_reaches {transport : Transport}
    (reaches : Reaches step RegisteredInTime new transport) : transport.NoOrphanedSubmit := by
  have noSender : transport.NoSenderLeft := by
    apply reaches.invariant
    · intro exited
      cases exited
    · intro transport next label noSender inTime stepped
      exact noSenderLeft_step noSender inTime stepped
  intro exited i token after isAwaiting
  have notHeld := noSender exited i token after isAwaiting
  refine ⟨notHeld, ?_⟩
  intro noReply
  have noSenderHeld : transport.holdsSender i token = false := by
    simp only [holdsSender, exited, Bool.or_false, beq_eq_false_iff_ne]
    exact notHeld
  simp [step, stepCall, isAwaiting, advance, noReply, noSenderHeld]

theorem orphaned_of_late_send {transport next : Transport} {label : Label}
    (stepped : transport.step label = some next) (late : ¬ transport.RegisteredInTime label) :
    ¬ next.NoOrphanedSubmit := by
  unfold RegisteredInTime at late
  push Not at late
  rcases late with ⟨i, token, bytes, after, rfl, isRegistered, exited, held, notEnded⟩
  have sent : next = { transport with queue := transport.queue ++ [bytes] }.setCall i
      (.awaiting token after) := by
    simp only [step, stepCall, isRegistered] at stepped
    unfold send at stepped
    split at stepped
    · next ended => exact absurd ended notEnded
    · split_ifs at stepped
      exact (Option.some.inj stepped).symm
  subst sent
  intro noOrphan
  exact (noOrphan exited i token after (setCall_calls_self _ _ _)).1 held

/-- No submit is orphaned throughout a run exactly when no step of the run
accepts the bytes of a call that registered too late. -/
theorem noOrphanedSubmit_iff_registeredInTime (labels : List Label) :
    Always step new NoOrphanedSubmit labels ↔ EachStep step new RegisteredInTime labels :=
  always_iff_eachStep (fun _ => noOrphanedSubmit_of_reaches)
    (fun _ _ => orphaned_of_late_send) labels

/-- One submit tests the reader, the reader sees the end of its input and exits
completely, and the submit goes on. -/
def lateSubmit : List Label :=
  [.start 0 (.submit (.structured ⟨"gdb-version", [], []⟩)), .call 0,
    .endOfInput, .reader, .reader, .reader, .call 0, .call 0, .call 0]

theorem lateSubmit_orphaned :
    ∃ final, run step new lateSubmit = some final ∧ ¬ final.NoOrphanedSubmit := by
  have ran : ∃ final, run step new lateSubmit = some final ∧ final.reader = .exited ∧
      final.calls 0 = .awaiting 1 none ∧ final.pending[(1 : Token)]? = some 0 :=
    ⟨_, rfl, rfl, rfl, rfl⟩
  rcases ran with ⟨final, ran, exited, isAwaiting, held⟩
  refine ⟨final, ran, ?_⟩
  intro noOrphan
  exact (noOrphan exited 0 1 none isAwaiting).1 held

end Transport

end Framewalk
