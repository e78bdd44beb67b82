import Framewalk.TransitionSystem

/-!
# Agents that settle

An agent of a system takes the steps of one label.  When each of its steps uses
up some measure, it can be left to run on its own and comes to rest within as
many steps as the measure says.
-/

namespace TransitionSystem

variable {State Label : Type} {step : State → Label → Option State} {label : Label}

def UsesUp (step : State → Label → Option State) (label : Label) (measure : State → Nat) : Prop :=
  ∀ state next, step state label = some next → measure next < measure state

theorem UsesUp.settles {measure : State → Nat} (usesUp : UsesUp step label measure)
    (state : State) :
    ∃ count settled, count ≤ measure state ∧
      run step state (List.replicate count label) = some settled ∧ step settled label = none := by
  suffices bounded : ∀ bound state, measure state ≤ bound → ∃ count settled,
      count ≤ measure state ∧ run step state (List.replicate count label) = some settled ∧
        step settled label = none from bounded _ state (Nat.le_refl _)
  intro bound
  induction bound with
  | zero =>
      intro state within
      refine ⟨0, state, Nat.zero_le _, rfl, ?_⟩
      cases stepped : step state label with
      | none => rfl
      | some next =>
          have less := usesUp state next stepped
          omega
  | succ bound ih =>
      intro state within
      cases stepped : step state label with
      | none => exact ⟨0, state, Nat.zero_le _, rfl, stepped⟩
      | some next =>
          have less := usesUp state next stepped
          obtain ⟨count, settled, few, ran, rests⟩ := ih next (by omega)
          refine ⟨count + 1, settled, by omega, ?_, rests⟩
          rw [List.replicate_succ, run, List.foldlM_cons, stepped]
          exact ran

/-- The steps of the agent are allowed steps, so what they lead to is reached. -/
theorem Reaches.run_replicate {allowed : State → Label → Prop} {initial state settled : State}
    (reaches : Reaches step allowed initial state) (isAllowed : ∀ state, allowed state label)
    {count : Nat}
    (ran : TransitionSystem.run step state (List.replicate count label) = some settled) :
    Reaches step allowed initial settled := by
  induction count generalizing state with
  | zero =>
      obtain rfl : state = settled := Option.some.inj ran
      exact reaches
  | succ count ih =>
      rw [List.replicate_succ, TransitionSystem.run, List.foldlM_cons, Option.bind_eq_bind,
        Option.bind_eq_some_iff] at ran
      obtain ⟨next, stepped, rest⟩ := ran
      exact ih (.tail label reaches (isAllowed state) stepped) rest

variable {Memory : Type} {note : Memory → State → Label → State → Memory}

theorem Reaches.exists_memory {initial state : State} (memory : Memory)
    (reachable : Reachable step initial state) :
    ∃ remembered, Reachable (remember step note) ⟨initial, memory⟩ ⟨state, remembered⟩ := by
  induction reachable with
  | refl => exact ⟨memory, .refl⟩
  | @tail state next label _ _ stepped ih =>
      obtain ⟨remembered, reached⟩ := ih
      refine ⟨note remembered state label next, .tail label reached trivial ?_⟩
      rw [remember, stepped]
      rfl

end TransitionSystem
