import Mathlib.Data.List.Infix
import Mathlib.Tactic.Common

/-!
# Labelled transition systems

A system is a partial step function on states and labels; a run is a list of
labels that are all enabled where they stand.  A condition on steps is
sufficient for a property of states when every run whose steps meet it stays
inside the property, and exact when moreover every step that fails it leaves
the property.
-/

namespace TransitionSystem

variable {State Label : Type} (step : State → Label → Option State)

/-- Take the steps of a run in order. -/
def run (initial : State) (labels : List Label) : Option State :=
  labels.foldlM step initial

/-- The states reached from the initial one through allowed steps. -/
inductive Reaches (allowed : State → Label → Prop) (initial : State) : State → Prop
  | refl : Reaches allowed initial initial
  | tail {state next : State} (label : Label) :
      Reaches allowed initial state → allowed state label → step state label = some next →
        Reaches allowed initial next

/-- Reached through any steps at all. -/
abbrev Reachable (initial : State) : State → Prop :=
  Reaches step (fun _ _ => True) initial

/-- The property holds in every state that a run passes through. -/
def Always (initial : State) (property : State → Prop) (labels : List Label) : Prop :=
  ∀ before, before <+: labels → ∀ state, run step initial before = some state → property state

/-- The condition holds at every step that a run takes. -/
def EachStep (initial : State) (condition : State → Label → Prop) (labels : List Label) : Prop :=
  ∀ before label, before ++ [label] <+: labels → ∀ state next,
    run step initial before = some state → step state label = some next → condition state label

variable {step} {initial : State}

theorem run_append_singleton {labels : List Label} {label : Label} {final : State}
    (ran : run step initial (labels ++ [label]) = some final) :
    ∃ state, run step initial labels = some state ∧ step state label = some final := by
  rw [run, List.foldlM_append, Option.bind_eq_bind, Option.bind_eq_some_iff] at ran
  rcases ran with ⟨state, first, last⟩
  exact ⟨state, first, by simpa using last⟩

theorem run_snoc {labels : List Label} {label : Label} {state next : State}
    (ran : run step initial labels = some state) (stepped : step state label = some next) :
    run step initial (labels ++ [label]) = some next := by
  rw [run] at ran
  rw [run, List.foldlM_append, ran]
  simp [stepped]

/-- What holds initially and is preserved by every allowed step holds of every
state reached through allowed steps. -/
theorem Reaches.invariant {allowed : State → Label → Prop} {property : State → Prop}
    (start : property initial)
    (preserved : ∀ {state next : State} (label : Label), property state → allowed state label →
      step state label = some next → property next)
    {state : State} (reaches : Reaches step allowed initial state) : property state := by
  induction reaches with
  | refl => exact start
  | tail label _ allowed stepped ih => exact preserved label ih allowed stepped

theorem Reaches.reachable {allowed : State → Label → Prop} {state : State}
    (reaches : Reaches step allowed initial state) : Reachable step initial state := by
  induction reaches with
  | refl => exact .refl
  | tail label _ _ stepped ih => exact .tail label ih trivial stepped

theorem Reaches.run {state final : State} {labels : List Label}
    (reachable : Reachable step initial state)
    (ran : TransitionSystem.run step state labels = some final) :
    Reachable step initial final := by
  induction labels generalizing state with
  | nil =>
      obtain rfl : state = final := Option.some.inj ran
      exact reachable
  | cons label labels ih =>
      rw [TransitionSystem.run, List.foldlM_cons, Option.bind_eq_bind,
        Option.bind_eq_some_iff] at ran
      rcases ran with ⟨next, stepped, rest⟩
      exact ih (.tail label reachable trivial stepped) rest

/-- If every step of a system is a run of another one, the other one reaches the
image of whatever the first reaches. -/
theorem Reaches.map {Other OtherLabel : Type} {other : Other → OtherLabel → Option Other}
    (project : State → Other)
    (simulates : ∀ {state next : State} (label : Label), step state label = some next →
      ∃ labels, TransitionSystem.run other (project state) labels = some (project next))
    {state : State} (reachable : Reachable step initial state) :
    Reachable other (project initial) (project state) := by
  induction reachable with
  | refl => exact .refl
  | tail label _ _ stepped ih =>
      rcases simulates label stepped with ⟨labels, ran⟩
      exact ih.run ran

/-- A run whose steps meet a condition ends in a state reached through it. -/
theorem reaches_of_run {condition : State → Label → Prop} {labels : List Label} {final : State}
    (meets : EachStep step initial condition labels)
    (ran : run step initial labels = some final) : Reaches step condition initial final := by
  induction labels using List.reverseRecOn generalizing final with
  | nil =>
      obtain rfl : initial = final := Option.some.inj ran
      exact .refl
  | append_singleton labels label ih =>
      rcases run_append_singleton ran with ⟨state, first, last⟩
      have earlier : EachStep step initial condition labels := by
        intro before other isPrefix
        exact meets before other (isPrefix.trans (List.prefix_append labels [label]))
      exact .tail label (ih earlier first)
        (meets labels label (List.prefix_refl _) state final first last) last

theorem reachable_of_run {labels : List Label} {final : State}
    (ran : run step initial labels = some final) : Reachable step initial final :=
  reaches_of_run (fun _ _ _ _ _ _ _ => trivial) ran

/-- A condition under which a property is invariant is sufficient in every
run. -/
theorem always_of_eachStep {condition : State → Label → Prop} {property : State → Prop}
    (holds : ∀ state, Reaches step condition initial state → property state)
    {labels : List Label} (meets : EachStep step initial condition labels) :
    Always step initial property labels := by
  intro before isPrefix state ran
  have earlier : EachStep step initial condition before := by
    intro first label firstPrefix
    exact meets first label (firstPrefix.trans isPrefix)
  exact holds state (reaches_of_run earlier ran)

/-- If moreover a step that fails the condition breaks the property where it
held, then the condition says exactly in which runs the property holds
throughout. -/
theorem always_iff_eachStep_of_property {condition : State → Label → Prop}
    {property : State → Prop}
    (holds : ∀ state, Reaches step condition initial state → property state)
    (breaks : ∀ {state next : State} (label : Label), Reachable step initial state →
      property state → step state label = some next → ¬ condition state label → ¬ property next)
    (labels : List Label) :
    Always step initial property labels ↔ EachStep step initial condition labels := by
  constructor
  · intro always before label isPrefix state next ran stepped
    have earlier : property state :=
      always before ((List.prefix_append before [label]).trans isPrefix) state ran
    by_contra fails
    apply breaks label (reachable_of_run ran) earlier stepped fails
    exact always (before ++ [label]) isPrefix next (run_snoc ran stepped)
  · exact always_of_eachStep holds

/-- The same where such a step breaks the property in any case. -/
theorem always_iff_eachStep {condition : State → Label → Prop} {property : State → Prop}
    (holds : ∀ state, Reaches step condition initial state → property state)
    (breaks : ∀ {state next : State} (label : Label), Reachable step initial state →
      step state label = some next → ¬ condition state label → ¬ property next)
    (labels : List Label) :
    Always step initial property labels ↔ EachStep step initial condition labels := by
  apply always_iff_eachStep_of_property holds
  intro state next label reachable _ stepped fails
  exact breaks label reachable stepped fails

/-- A property that each step of the system keeps exactly when it meets the
condition. -/
theorem always_iff_eachStep_of_step_iff {condition : State → Label → Prop}
    {property : State → Prop} (start : property initial)
    (keeps_iff : ∀ {state next : State} (label : Label), Reachable step initial state →
      property state → step state label = some next → (property next ↔ condition state label))
    (labels : List Label) :
    Always step initial property labels ↔ EachStep step initial condition labels := by
  apply always_iff_eachStep_of_property
  · intro state reaches
    induction reaches with
    | refl => exact start
    | tail label earlier allowed stepped ih =>
        exact (keeps_iff label earlier.reachable ih stepped).mpr allowed
  · intro state next label reachable holds stepped fails nextHolds
    exact fails ((keeps_iff label reachable holds stepped).mp nextHolds)

/-- The same system where only allowed steps are enabled. -/
def restrict (step : State → Label → Option State) (allowed : State → Label → Bool)
    (state : State) (label : Label) : Option State :=
  if allowed state label then step state label else none

theorem restrict_eq_some {allowed : State → Label → Bool} {state next : State} {label : Label}
    (stepped : restrict step allowed state label = some next) :
    allowed state label = true ∧ step state label = some next := by
  unfold restrict at stepped
  split_ifs at stepped with isAllowed
  exact ⟨isAllowed, stepped⟩

theorem run_of_run_restrict {allowed : State → Label → Bool} {labels : List Label}
    {final : State} (ran : run (restrict step allowed) initial labels = some final) :
    run step initial labels = some final := by
  induction labels using List.reverseRecOn generalizing final with
  | nil => exact ran
  | append_singleton labels label ih =>
      rcases run_append_singleton ran with ⟨state, first, last⟩
      exact run_snoc (ih first) (restrict_eq_some last).2

/-- Every step of a restricted run is allowed. -/
theorem eachStep_of_run_restrict {allowed : State → Label → Bool} {labels : List Label}
    {final : State} (ran : run (restrict step allowed) initial labels = some final) :
    EachStep step initial (fun state label => allowed state label = true) labels := by
  induction labels using List.reverseRecOn generalizing final with
  | nil =>
      intro before label isPrefix
      simp at isPrefix
  | append_singleton labels label ih =>
      rcases run_append_singleton ran with ⟨state, first, last⟩
      intro before other isPrefix reached next ranBefore _
      rcases List.prefix_concat_iff.mp isPrefix with whole | earlier
      · obtain ⟨rfl, sameLabel⟩ := List.append_inj' whole rfl
        cases sameLabel
        rw [run_of_run_restrict first] at ranBefore
        obtain rfl := Option.some.inj ranBefore
        exact (restrict_eq_some last).1
      · exact ih first before other earlier reached next ranBefore (by assumption)

/-- A state beside what is remembered of the run that led to it. -/
structure Remembering (State Memory : Type) where
  state : State
  memory : Memory

section Memory

variable {Memory : Type}

/-- The same system beside a memory that notes every step and that no step
reads. -/
def remember (step : State → Label → Option State)
    (note : Memory → State → Label → State → Memory) (current : Remembering State Memory)
    (label : Label) : Option (Remembering State Memory) :=
  (step current.state label).map fun next =>
    ⟨next, note current.memory current.state label next⟩

variable {note : Memory → State → Label → State → Memory}

theorem remember_eq_some {current next : Remembering State Memory} {label : Label}
    (stepped : remember step note current label = some next) :
    step current.state label = some next.state ∧
      next.memory = note current.memory current.state label next.state := by
  rw [remember, Option.map_eq_some_iff] at stepped
  rcases stepped with ⟨state, stepped, rfl⟩
  exact ⟨stepped, rfl⟩

/-- What is reached with a memory is reached without it. -/
theorem Reaches.forget {start current : Remembering State Memory}
    (reachable : Reachable (remember step note) start current) :
    Reachable step start.state current.state := by
  induction reachable with
  | refl => exact .refl
  | tail label _ _ stepped ih => exact .tail label ih trivial (remember_eq_some stepped).1

end Memory

end TransitionSystem
