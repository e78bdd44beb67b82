import Framewalk.ExecutionReports
import Mathlib.Data.List.DropRight

/-!
# Threads as their history

What the thread registry should hold is said here by looking back over the
reports alone: a thread's life begins at its first mention after its last exit.
The registry is exactly that, and the target agrees with it as far as one thread
goes on living.
-/

namespace Framewalk

open TransitionSystem LineSplitting

namespace ExecutionReport

def exits (id : ThreadId) : ExecutionReport → Bool
  | .exited other => other == id
  | _ => false

/-- The report names this thread individually. -/
def mentions (id : ThreadId) : ExecutionReport → Bool
  | .created other _ | .exited other => other == id
  | .running thread | .stopped thread _ _ => thread == some id && id != "all"
  | .failed => false

/-- The state that the report gives this thread: it names it, every thread, or
none. -/
def stateOf (id : ThreadId) : ExecutionReport → Option ThreadState
  | .running thread => if NamesAll thread ∨ thread = some id then some .running else none
  | .stopped thread _ _ => if NamesAll thread ∨ thread = some id then some .stopped else none
  | _ => none

/-- The group that the report gives this thread. -/
def groupOf (id : ThreadId) : ExecutionReport → Option String
  | .created other groupId => if other = id then groupId else none
  | _ => none

/-- The reports that say anew what the target does. -/
def movesTarget : ExecutionReport → Bool
  | .running _ | .stopped _ _ _ | .failed => true
  | _ => false

end ExecutionReport

namespace ThreadReference

/-- The last report that mentions the thread is not its exit. -/
def isKnown (reports : List ExecutionReport) (id : ThreadId) : Bool :=
  match (reports.filter (ExecutionReport.mentions id)).getLast? with
  | some report => !report.exits id
  | none => false

/-- The reports since the thread was last introduced. -/
def life (reports : List ExecutionReport) (id : ThreadId) : List ExecutionReport :=
  (reports.rtakeWhile fun report => !report.exits id).dropWhile fun report =>
    !report.mentions id

/-- A known thread has the first group and the last state of its life. -/
def lookup (reports : List ExecutionReport) (id : ThreadId) : Option ThreadInfo :=
  if isKnown reports id then
    some ⟨id, ((life reports id).filterMap (ExecutionReport.groupOf id)).head?,
      ((life reports id).filterMap (ExecutionReport.stateOf id)).getLast?, none⟩
  else none

variable {reports : List ExecutionReport} {report : ExecutionReport} {id : ThreadId}

theorem mentions_of_exits (exits : report.exits id = true) : report.mentions id = true := by
  cases report with
  | exited other => exact exits
  | _ => cases exits

theorem isKnown_append (reports : List ExecutionReport) (report : ExecutionReport)
    (id : ThreadId) :
    isKnown (reports ++ [report]) id =
      if report.mentions id then !report.exits id else isKnown reports id := by
  unfold isKnown
  rw [List.filter_append]
  by_cases mentioned : report.mentions id = true
  · rw [List.filter_singleton, mentioned, cond_true, List.getLast?_concat, if_pos rfl]
  · rw [List.filter_singleton]
    simp only [mentioned, cond_false, List.append_nil, Bool.false_eq_true, if_false]

theorem life_append_exit (exits : report.exits id = true) :
    life (reports ++ [report]) id = [] := by
  rw [life, List.rtakeWhile_concat_neg _ _ _ (by simp [exits])]
  rfl

theorem life_append (survives : report.exits id = false) :
    life (reports ++ [report]) id =
      if (life reports id).isEmpty then (if report.mentions id then [report] else [])
      else life reports id ++ [report] := by
  rw [life, List.rtakeWhile_concat_pos _ _ _ (by simp [survives]), List.dropWhile_append]
  by_cases mentioned : report.mentions id = true
  · simp only [List.dropWhile_cons, List.dropWhile_nil, mentioned, Bool.not_true, if_true,
      Bool.false_eq_true, if_false]
    rfl
  · simp only [List.dropWhile_cons, List.dropWhile_nil, mentioned, if_false, Bool.not_false,
      if_true, Bool.false_eq_true]
    rfl

theorem isKnown_eq (reports : List ExecutionReport) (id : ThreadId) :
    isKnown reports id = !(life reports id).isEmpty := by
  induction reports using List.reverseRecOn with
  | nil => rfl
  | append_singleton reports report ih =>
      rw [isKnown_append]
      by_cases exits : report.exits id = true
      · rw [life_append_exit exits, mentions_of_exits exits, exits]
        rfl
      · have survives : report.exits id = false := by simpa using exits
        rw [life_append survives, survives]
        by_cases ended : (life reports id).isEmpty = true
        · rw [if_pos ended, ih, ended]
          by_cases mentioned : report.mentions id = true <;> simp [mentioned]
        · rw [if_neg ended, ih]
          have notOver : (life reports id).isEmpty = false := by simpa using ended
          simp [notOver]

theorem lookup_append_exit (exits : report.exits id = true) :
    lookup (reports ++ [report]) id = none := by
  rw [lookup, isKnown_append, mentions_of_exits exits, exits]
  rfl

/-- A report that neither introduces nor mentions an unknown thread leaves it
unknown. -/
theorem lookup_append_unmentioned (unknown : lookup reports id = none)
    (unmentioned : report.mentions id = false) :
    lookup (reports ++ [report]) id = none := by
  have notKnown : ¬ isKnown reports id = true := by
    intro isKnown
    rw [lookup, if_pos isKnown] at unknown
    cases unknown
  rw [lookup, isKnown_append, unmentioned]
  simp only [Bool.false_eq_true, if_false, notKnown]

theorem lookup_append_introduced (unknown : lookup reports id = none)
    (survives : report.exits id = false) (mentioned : report.mentions id = true) :
    lookup (reports ++ [report]) id =
      some ⟨id, report.groupOf id, report.stateOf id, none⟩ := by
  have ended : (life reports id).isEmpty = true := by
    by_contra notOver
    have isKnown : isKnown reports id = true := by rw [isKnown_eq]; simpa using notOver
    rw [lookup, if_pos isKnown] at unknown
    cases unknown
  rw [lookup, isKnown_append, mentioned, survives, life_append survives, if_pos ended,
    if_pos mentioned]
  cases group : report.groupOf id <;> cases state : report.stateOf id <;>
    simp [group, state]

/-- A report that a known thread survives may give it a group, if it has none,
and a new state. -/
theorem lookup_append_known {info : ThreadInfo} (known : lookup reports id = some info)
    (survives : report.exits id = false) :
    lookup (reports ++ [report]) id =
      some ⟨info.id, info.groupId.or (report.groupOf id),
        (report.stateOf id).or info.state, info.name⟩ := by
  have isKnown : isKnown reports id = true := by
    by_contra notKnown
    rw [lookup, if_neg notKnown] at known
    cases known
  have alive : (life reports id).isEmpty = false := by simpa [isKnown_eq] using isKnown
  have stillKnown : ThreadReference.isKnown (reports ++ [report]) id = true := by
    rw [isKnown_append, survives, isKnown]
    simp
  rw [lookup, if_pos isKnown] at known
  obtain rfl := Option.some.inj known
  rw [lookup, if_pos stillKnown, life_append survives, alive]
  cases group : report.groupOf id <;> cases state : report.stateOf id <;>
    simp [group, state]

theorem lookup_append_silent (survives : report.exits id = false)
    (unmentioned : report.mentions id = false) (noGroup : report.groupOf id = none)
    (noState : report.stateOf id = none) :
    lookup (reports ++ [report]) id = lookup reports id := by
  cases known : lookup reports id with
  | none => exact lookup_append_unmentioned known unmentioned
  | some info =>
      rw [lookup_append_known known survives, noGroup, noState, Option.or_none, Option.none_or]

end ThreadReference

section Registry

open ThreadReference

variable {threads : ThreadRegistry} {reports : List ExecutionReport} {id : ThreadId}

theorem setState_follows {report : ExecutionReport} {thread : Option ThreadId}
    {state : ThreadState} (same : threads.byId[id]? = lookup reports id)
    (survives : report.exits id = false) (noGroup : report.groupOf id = none)
    (mentions : report.mentions id = (thread == some id && id != "all"))
    (stateOf : report.stateOf id =
      if NamesAll thread ∨ thread = some id then some state else none) :
    (threads.setState state thread).byId[id]? = lookup (reports ++ [report]) id := by
  by_cases namesAll : NamesAll thread
  · have unmentioned : report.mentions id = false := by
      rw [mentions]
      rcases namesAll with rfl | rfl
      · rfl
      · by_cases isAll : id = "all"
        · simp [isAll]
        · simp [Ne.symm isAll]
    rw [if_pos (Or.inl namesAll)] at stateOf
    rw [ThreadRegistry.setState_all namesAll, same]
    cases known : lookup reports id with
    | none => rw [lookup_append_unmentioned known unmentioned, Option.map_none]
    | some info =>
        rw [lookup_append_known known survives, noGroup, stateOf, Option.or_none, Option.some_or,
          Option.map_some]
  · by_cases named : thread = some id
    · subst named
      have notAll : id ≠ "all" := by
        rintro rfl
        exact namesAll (Or.inr rfl)
      have mentioned : report.mentions id = true := by simp [mentions, notAll]
      rw [if_pos (Or.inr rfl)] at stateOf
      rw [ThreadRegistry.setState_named notAll, same]
      cases known : lookup reports id with
      | none =>
          rw [lookup_append_introduced known survives mentioned, noGroup, stateOf]
          rfl
      | some info =>
          rw [lookup_append_known known survives, noGroup, stateOf, Option.or_none,
            Option.some_or, Option.getD_some]
    · have unmentioned : report.mentions id = false := by simp [mentions, named]
      rw [if_neg (not_or.mpr ⟨namesAll, named⟩)] at stateOf
      rw [ThreadRegistry.setState_other namesAll named, same,
        lookup_append_silent survives unmentioned noGroup stateOf]

theorem create_follows (same : threads.byId[id]? = lookup reports id) (other : ThreadId)
    (groupId : Option String) :
    (threads.create other groupId).byId[id]? = lookup (reports ++ [.created other groupId]) id := by
  by_cases named : other = id
  · subst named
    have mentioned : (ExecutionReport.created other groupId).mentions other = true :=
      beq_self_eq_true other
    have group : (ExecutionReport.created other groupId).groupOf other = groupId := if_pos rfl
    rw [ThreadRegistry.create_self, same]
    cases known : lookup reports other with
    | none =>
        rw [lookup_append_introduced known rfl mentioned, group]
        rfl
    | some info =>
        rw [lookup_append_known known rfl, group]
        rfl
  · have unmentioned : (ExecutionReport.created other groupId).mentions id = false :=
      beq_eq_false_iff_ne.mpr named
    rw [ThreadRegistry.create_other named, same,
      lookup_append_silent rfl unmentioned (if_neg named) rfl]

theorem remove_follows (same : threads.byId[id]? = lookup reports id) (other : ThreadId) :
    (threads.remove other).byId[id]? = lookup (reports ++ [.exited other]) id := by
  by_cases named : other = id
  · subst named
    have exits : (ExecutionReport.exited other).exits other = true := beq_self_eq_true other
    rw [ThreadRegistry.remove_self, lookup_append_exit exits]
  · have survives : (ExecutionReport.exited other).exits id = false :=
      beq_eq_false_iff_ne.mpr named
    rw [ThreadRegistry.remove_other named, same, lookup_append_silent survives survives rfl rfl]

/-- The registry knows exactly the threads whose life is not over, and of each
what its life says. -/
theorem threads_eq_lookup (reports : List ExecutionReport) (id : ThreadId) :
    (reports.foldl Execution.after .fresh).threads.byId[id]? = lookup reports id := by
  induction reports using List.reverseRecOn with
  | nil => exact Std.ExtTreeMap.getElem?_empty
  | append_singleton reports report ih =>
      rw [List.foldl_append, List.foldl_cons, List.foldl_nil]
      cases report with
      | running thread => exact setState_follows ih rfl rfl rfl rfl
      | stopped thread reason frame => exact setState_follows ih rfl rfl rfl rfl
      | created other groupId => exact create_follows ih other groupId
      | exited other => exact remove_follows ih other
      | failed => exact ih.trans (lookup_append_silent rfl rfl rfl rfl).symm

end Registry

end Framewalk
