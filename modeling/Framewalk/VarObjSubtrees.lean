import Framewalk.AnsweredCommands

/-!
# Deleting variable objects

GDB names the children of a variable object by its name, a dot and more text,
and deletes them with it, or without it when only the children are to go.  The
registry drops the one entry under the name.
-/

namespace Framewalk

open TransitionSystem

def IsChildOf (name key : VarObjName) : Prop :=
  (name ++ ".").toList <+: key.toList

/-- An acknowledged deletion, and the registry before it. -/
structure Deletion where
  name : VarObjName
  onlyChildren : Bool
  before : VarObjRegistry

/-- What a command deletes; the option `c` spares the object itself. -/
def MiCommand.deletion? (command : MiCommand) (registry : VarObjRegistry) : Option Deletion :=
  if command.operation = "var-delete" then
    command.parameters.head?.map fun name =>
      ⟨name, command.options.any fun option => option.name == "c", registry⟩
  else none

def followDeletion (_ : Option Deletion) (session : Session) (_ : SessionLabel) :
    Option Answer → Option Deletion
  | some ⟨.structured command, record⟩ =>
      if record.resultClass = .done then command.deletion? session.varobjs else none
  | some ⟨.raw _, _⟩ => none
  | none => none

/-- Nothing is left of the subtree but a spared object, and nothing else has
changed. -/
structure Deletion.IsCarriedOut (deletion : Deletion) (after : VarObjRegistry) : Prop where
  children : ∀ key : VarObjName, IsChildOf deletion.name key → after.byName[key]? = none
  itself : if deletion.onlyChildren then
      deletion.before.byName[deletion.name]? ≠ none → after.byName[deletion.name]? ≠ none
    else after.byName[deletion.name]? = none
  others : ∀ key : VarObjName, key ≠ deletion.name → ¬ IsChildOf deletion.name key →
    after.byName[key]? = deletion.before.byName[key]?

def DeletesSubtrees (current : Remembering Session (AnswerLog (Option Deletion))) : Prop :=
  ∀ deletion, current.memory.memory = some deletion →
    deletion.IsCarriedOut current.state.varobjs

/-- There are no children to delete, and no object to spare. -/
def Deletion.IsSingle (deletion : Deletion) : Prop :=
  (∀ key : VarObjName, IsChildOf deletion.name key → deletion.before.byName[key]? = none) ∧
    (deletion.onlyChildren = true → deletion.before.byName[deletion.name]? = none)

def DeletesOnlySingles (current : Remembering Session (AnswerLog (Option Deletion)))
    (label : SessionLabel) : Prop :=
  ∀ command record deletion,
    current.memory.outstanding.answer? label = some ⟨.structured command, record⟩ →
      record.resultClass = .done →
        command.deletion? current.state.varobjs = some deletion → deletion.IsSingle

theorem not_isChildOf_self (name : VarObjName) : ¬ IsChildOf name name := by
  intro isChild
  have lengths := isChild.length_le
  rw [String.toList_append, List.length_append] at lengths
  have dot : ".".toList.length = 1 := rfl
  omega

theorem isCarriedOut_onVarDelete_iff (deletion : Deletion) :
    deletion.IsCarriedOut (deletion.before.onVarDelete deletion.name) ↔ deletion.IsSingle := by
  rcases deletion with ⟨name, onlyChildren, before⟩
  have dropped : ∀ key : VarObjName, (before.onVarDelete name).byName[key]? =
      if name = key then none else before.byName[key]? := by
    intro key
    simp only [VarObjRegistry.onVarDelete, Std.ExtTreeMap.getElem?_erase,
      Std.LawfulEqCmp.compare_eq_iff_eq]
  have childDiffers : ∀ key, IsChildOf name key → name ≠ key := by
    rintro key isChild rfl
    exact not_isChildOf_self name isChild
  constructor
  · rintro ⟨children, itself, _⟩
    constructor
    · intro key isChild
      have gone := children key isChild
      rw [dropped, if_neg (childDiffers key isChild)] at gone
      exact gone
    · intro spares
      by_contra wasThere
      apply (if_pos spares).mp itself wasThere
      rw [dropped, if_pos rfl]
  · rintro ⟨noChildren, notThere⟩
    constructor
    · intro key isChild
      rw [dropped, if_neg (childDiffers key isChild)]
      exact noChildren key isChild
    · cases onlyChildren with
      | true =>
          intro wasThere
          exact absurd (notThere rfl) wasThere
      | false =>
          simp only [Bool.false_eq_true, if_false, dropped, if_true]
    · intro key differs _
      rw [dropped, if_neg (Ne.symm differs)]

theorem varobjs_deleted {command : MiCommand} {registry : VarObjRegistry} {deletion : Deletion}
    (deletes : command.deletion? registry = some deletion) (results : Results) :
    deletion.before = registry ∧
      (SubmitRequest.structured command).info.varobjsAfter results registry =
        registry.onVarDelete deletion.name := by
  rcases command with ⟨operation, options, parameters⟩
  unfold MiCommand.deletion? at deletes
  split_ifs at deletes with isDelete
  obtain rfl : operation = "var-delete" := isDelete
  rw [Option.map_eq_some_iff] at deletes
  rcases deletes with ⟨name, isFirst, rfl⟩
  constructor
  · rfl
  · change registry.onVarDelete (parameters.head?.getD "") = registry.onVarDelete name
    rw [isFirst, Option.getD_some]

theorem deletesSubtrees_step_iff
    {current next : Remembering Session (AnswerLog (Option Deletion))} {label : SessionLabel}
    (tracks : current.memory.outstanding.Tracks current.state.pending)
    (stepped : remember Session.step (AnswerLog.note followDeletion) current label =
      some next) :
    DeletesSubtrees next ↔ DeletesOnlySingles current label := by
  rcases remember_eq_some stepped with ⟨stepped, noted⟩
  rw [DeletesSubtrees, noted, AnswerLog.note, DeletesOnlySingles]
  cases isAnswer : current.memory.outstanding.answer? label with
  | none => simp [followDeletion]
  | some answer =>
      have changes := (tracks.step_answered stepped isAnswer).varobjs
      rcases answer with ⟨request, record⟩
      cases request with
      | raw line => simp [followDeletion]
      | structured command =>
          by_cases isDone : record.resultClass = .done
          · have isSuccess : record.resultClass.isSuccess = true := by
              rw [isDone]
              rfl
            rw [if_pos isSuccess] at changes
            simp only [followDeletion, if_pos isDone, Option.some.injEq, Answer.mk.injEq,
              SubmitRequest.structured.injEq, and_imp]
            constructor
            · rintro carriedOut _ _ deletion rfl rfl _ deletes
              rcases varobjs_deleted deletes record.results with ⟨beforeEq, afterEq⟩
              rw [← isCarriedOut_onVarDelete_iff, beforeEq, ← afterEq, ← changes]
              exact carriedOut deletion deletes
            · intro single deletion deletes
              rcases varobjs_deleted deletes record.results with ⟨beforeEq, afterEq⟩
              rw [changes, afterEq, ← beforeEq, isCarriedOut_onVarDelete_iff]
              exact single command record deletion rfl rfl isDone deletes
          · simp only [followDeletion, if_neg isDone, reduceCtorEq, false_implies, implies_true,
              true_iff]
            rintro _ _ deletion same isDoneOther
            cases same
            exact absurd isDoneOther isDone

/-- In a run, acknowledged deletions are carried out exactly when none has
children to delete or an object to spare. -/
theorem deletes_subtrees_iff (miVersion : MiVersion) (labels : List SessionLabel) :
    Always (remember Session.step (AnswerLog.note followDeletion))
        ⟨.withVersionHint miVersion, .empty, none⟩ DeletesSubtrees labels ↔
      EachStep (remember Session.step (AnswerLog.note followDeletion))
        ⟨.withVersionHint miVersion, .empty, none⟩ DeletesOnlySingles labels := by
  apply always_iff_eachStep_of_step_iff
  · intro deletion isLast
    cases isLast
  · intro current next label reachable _ stepped
    exact deletesSubtrees_step_iff (AnswerLog.tracks_of_reachable reachable) stepped

def deleteParent : List SessionLabel :=
  [.submit (.structured ⟨"var-create", [], ["v", "*", "point"]⟩),
    .line (Utf8Text.asBytes "1^done,name=\"v\",numchild=\"1\""),
    .submit (.structured ⟨"var-update", [], ["v"]⟩),
    .line (Utf8Text.asBytes "2^done,changelist=[\x7bname=\"v.x\",value=\"1\"\x7d]"),
    .submit (.structured ⟨"var-delete", [], ["v"]⟩),
    .line (Utf8Text.asBytes "3^done,ndeleted=\"2\"")]

/-- The child stays. -/
theorem deleteParent_keeps_child :
    ∃ final, run (remember Session.step (AnswerLog.note followDeletion))
        ⟨.withVersionHint .mi3, .empty, none⟩ deleteParent = some final ∧
      "v.x" ∈ final.state.varobjs.byName ∧ ¬ DeletesSubtrees final := by
  have kept : ((run (remember Session.step (AnswerLog.note followDeletion))
      ⟨.withVersionHint .mi3, .empty, none⟩ deleteParent).any fun final =>
        final.state.varobjs.byName.contains "v.x" &&
          (final.memory.memory.map Deletion.name == some "v")) = true := by
    decide +kernel
  rcases (Option.any_eq_true _ _).mp kept with ⟨final, ran, child⟩
  rw [Bool.and_eq_true, beq_iff_eq, Option.map_eq_some_iff] at child
  rcases child with ⟨child, deletion, isLast, name⟩
  have there : "v.x" ∈ final.state.varobjs.byName := Std.ExtTreeMap.contains_iff_mem.mp child
  refine ⟨final, ran, there, ?_⟩
  intro deletes
  have isChild : IsChildOf deletion.name "v.x" := by
    rw [name]
    exact ⟨['x'], rfl⟩
  have gone := (deletes deletion isLast).children "v.x" isChild
  rw [Std.ExtTreeMap.mem_iff_isSome_getElem?, gone] at there
  cases there

end Framewalk
