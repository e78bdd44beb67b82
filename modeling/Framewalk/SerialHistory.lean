import Mathlib.Data.List.Infix
import Mathlib.Tactic.Common

/-!
# Histories of a serial server

A server takes one request at a time.  What it answers may depend on its state,
and what it comes to decides the state that the next request is served in.  A
history is legal when it is one run of the server from its initial state; its
order is the order in which the callers were served.
-/

namespace SerialHistory

variable {State Caller Request Outcome : Type}

structure Served (Caller Request Outcome : Type) where
  caller : Caller
  request : Request
  outcome : Outcome

variable (serves : State → Request → Outcome → Prop) (leave : State → Outcome → State)

def stateAfter (initial : State) (served : List (Served Caller Request Outcome)) : State :=
  served.foldl (fun state entry => leave state entry.outcome) initial

/-- Every outcome is possible for its request in the state that the requests
before it have left. -/
def Legal : State → List (Served Caller Request Outcome) → Prop
  | _, [] => True
  | state, entry :: later =>
      serves state entry.request entry.outcome ∧ Legal (leave state entry.outcome) later

variable {serves leave} {initial : State} {served : List (Served Caller Request Outcome)}

theorem stateAfter_append_singleton (entry : Served Caller Request Outcome) :
    stateAfter leave initial (served ++ [entry]) =
      leave (stateAfter leave initial served) entry.outcome := by
  rw [stateAfter, List.foldl_append]
  rfl

theorem legal_append_singleton {entry : Served Caller Request Outcome} :
    Legal serves leave initial (served ++ [entry]) ↔
      Legal serves leave initial served ∧
        serves (stateAfter leave initial served) entry.request entry.outcome := by
  induction served generalizing initial with
  | nil => exact ⟨fun legal => ⟨trivial, legal.1⟩, fun legal => ⟨legal.2, trivial⟩⟩
  | cons first served ih =>
      have rest := @ih (leave initial first.outcome)
      constructor
      · rintro ⟨isPossible, legal⟩
        obtain ⟨legal, last⟩ := rest.mp legal
        exact ⟨⟨isPossible, legal⟩, last⟩
      · rintro ⟨⟨isPossible, legal⟩, last⟩
        exact ⟨isPossible, rest.mpr ⟨legal, last⟩⟩

/-- In the history, one caller was served before another one. -/
def Precedes (served : List (Served Caller Request Outcome)) (first second : Caller) : Prop :=
  ∃ earlier later, served = earlier ++ later ∧ first ∈ earlier.map Served.caller ∧
    second ∈ later.map Served.caller

/-- Callers are served in the order in which they were accepted: what was served
is a beginning of what was accepted, and of two accepted callers the earlier one
comes first. -/
theorem precedes_of_accepted {accepted more : List Caller} {first second : Caller}
    (inOrder : served.map Served.caller <+: accepted ++ more) (isEarlier : first ∈ accepted)
    (isLater : second ∉ accepted) (isServed : second ∈ served.map Served.caller) :
    Precedes served first second := by
  have covers : accepted.length < served.length := by
    by_contra short
    have within : served.map Served.caller <+: accepted := by
      apply List.prefix_of_prefix_length_le inOrder (List.prefix_append accepted more)
      rw [List.length_map]
      exact Nat.le_of_not_lt short
    exact isLater (within.subset isServed)
  have earlierEq : (served.take accepted.length).map Served.caller = accepted := by
    rw [List.map_take]
    have isPrefix : accepted <+: served.map Served.caller := by
      apply List.prefix_of_prefix_length_le (List.prefix_append accepted more) inOrder
      rw [List.length_map]
      exact Nat.le_of_lt covers
    exact (List.prefix_iff_eq_take.mp isPrefix).symm
  refine ⟨_, _, (List.take_append_drop accepted.length served).symm, ?_, ?_⟩
  · rwa [earlierEq]
  · rw [← List.take_append_drop accepted.length served, List.map_append, earlierEq] at isServed
    exact (List.mem_append.mp isServed).resolve_left isLater

end SerialHistory
