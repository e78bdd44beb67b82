import Mathlib.Data.List.DropRight

/-!
# Objects as their reports describe them

A report about an object describes it anew, changes some of its fields, or ends
it.  What the reports leave behind is said here by looking back: an object that
is there has come to be in the last description, or in the first change since its
last end, and each of its fields is what was last said of the field since then.
-/

namespace KeyedReports

theorem filterMap_append_toList {α β : Type} (select : α → Option β) (items : List α) (item : α) :
    (items ++ [item]).filterMap select = items.filterMap select ++ (select item).toList := by
  rw [List.filterMap_append]
  cases selected : select item with
  | none => rw [List.filterMap_cons_none selected]; rfl
  | some image => rw [List.filterMap_cons_some selected]; rfl

inductive Report (Object Change : Type) where
  | describe (object : Object)
  | amend (change : Change)
  | finish

section Reports

variable {Object Change : Type} (fresh : Object) (apply : Change → Object → Object)

namespace Report

/-- A change to an object that is not there is one to a fresh object. -/
def follow (found : Option Object) : Report Object Change → Option Object
  | .describe object => some object
  | .amend change => some (apply change (found.getD fresh))
  | .finish => none

def change? : Report Object Change → Option Change
  | .amend change => some change
  | .describe _ | .finish => none

def object? : Report Object Change → Option Object
  | .describe object => some object
  | .amend _ | .finish => none

def isChange : Report Object Change → Bool
  | .amend _ => true
  | .describe _ | .finish => false

end Report

/-- The object that the last report describes. -/
def lastDescribed (reports : List (Report Object Change)) : Option Object :=
  reports.getLast?.bind Report.object?

/-- The description that only changes have followed. -/
def origin (reports : List (Report Object Change)) : Option Object :=
  lastDescribed (reports.rdropWhile Report.isChange)

/-- The changes since the last report that is none. -/
def changes (reports : List (Report Object Change)) : List Change :=
  (reports.rtakeWhile Report.isChange).filterMap Report.change?

def lookup (reports : List (Report Object Change)) : Option Object :=
  if (origin reports).isNone && (changes reports).isEmpty then none
  else some ((changes reports).foldl (fun object change => apply change object)
    ((origin reports).getD fresh))

theorem mem_of_origin {reports : List (Report Object Change)} {object : Object}
    (isOrigin : origin reports = some object) : .describe object ∈ reports := by
  obtain ⟨report, isLast, describes⟩ := Option.bind_eq_some_iff.mp isOrigin
  cases report with
  | describe other =>
      cases describes
      exact (List.rdropWhile_prefix _ reports).subset (List.mem_of_getLast? isLast)
  | amend | finish => cases describes

section Append

variable (reports : List (Report Object Change))

theorem lastDescribed_append (report : Report Object Change) :
    lastDescribed (reports ++ [report]) = report.object? := by
  rw [lastDescribed, List.getLast?_concat, Option.bind_some]

theorem origin_append_describe (object : Object) :
    origin (reports ++ [.describe object]) = some object := by
  rw [origin, List.rdropWhile_concat_neg _ _ _ (by simp [Report.isChange]), lastDescribed_append]
  rfl

theorem origin_append_finish : origin (reports ++ [.finish]) = none := by
  rw [origin, List.rdropWhile_concat_neg _ _ _ (by simp [Report.isChange]), lastDescribed_append]
  rfl

theorem origin_append_amend (change : Change) :
    origin (reports ++ [.amend change]) = origin reports := by
  rw [origin, List.rdropWhile_concat_pos _ _ _ rfl, origin]

theorem changes_append_describe (object : Object) :
    changes (reports ++ [.describe object]) = [] := by
  rw [changes, List.rtakeWhile_concat_neg _ _ _ (by simp [Report.isChange])]
  rfl

theorem changes_append_finish : changes (reports ++ [.finish]) = [] := by
  rw [changes, List.rtakeWhile_concat_neg _ _ _ (by simp [Report.isChange])]
  rfl

theorem changes_append_amend (change : Change) :
    changes (reports ++ [.amend change]) = changes reports ++ [change] := by
  rw [changes, List.rtakeWhile_concat_pos _ _ _ rfl, filterMap_append_toList]
  rfl

/-- One more report is followed. -/
theorem lookup_append (report : Report Object Change) :
    lookup fresh apply (reports ++ [report]) =
      report.follow fresh apply (lookup fresh apply reports) := by
  cases report with
  | describe object =>
      rw [lookup, origin_append_describe, changes_append_describe]
      rfl
  | finish =>
      rw [lookup, origin_append_finish, changes_append_finish]
      rfl
  | amend change =>
      rw [lookup, origin_append_amend, changes_append_amend]
      have kept : ¬ ((origin reports).isNone && (changes reports ++ [change]).isEmpty) = true := by
        simp
      rw [if_neg kept, List.foldl_concat, Report.follow, lookup]
      split_ifs with absent
      · obtain ⟨noOrigin, noChange⟩ := Bool.and_eq_true_iff.mp absent
        rw [Option.isNone_iff_eq_none.mp noOrigin, List.isEmpty_iff.mp noChange]
        rfl
      · rfl

end Append

variable {Note : Type} (about : Note → Option (Report Object Change))

/-- A note that says nothing of the key leaves its object, another is followed. -/
theorem lookup_about_append (notes : List Note) (note : Note) :
    lookup fresh apply ((notes ++ [note]).filterMap about) =
      (about note).elim (lookup fresh apply (notes.filterMap about)) fun report =>
        report.follow fresh apply (lookup fresh apply (notes.filterMap about)) := by
  rw [filterMap_append_toList]
  cases about note with
  | none => rw [Option.toList_none, List.append_nil]; rfl
  | some report => exact lookup_append fresh apply (notes.filterMap about) report

theorem lastDescribed_about_append (notes : List Note) (note : Note) :
    lastDescribed ((notes ++ [note]).filterMap about) =
      (about note).elim (lastDescribed (notes.filterMap about)) Report.object? := by
  rw [filterMap_append_toList]
  cases about note with
  | none => rw [Option.toList_none, List.append_nil]; rfl
  | some report => exact lastDescribed_append (notes.filterMap about) report

end Reports

/-- A part of an object, and what a change says of it. -/
structure Field {Object Change : Type} (apply : Change → Object → Object) (β : Type) where
  read : Object → Option β
  tells : Change → Option β
  read_apply : ∀ change object, read (apply change object) = (tells change).or (read object)

namespace Field

variable {Object Change β : Type} {apply : Change → Object → Object} (field : Field apply β)

/-- What was last said of the field. -/
def last (changes : List Change) (object : Object) : Option β :=
  (changes.filterMap field.tells).getLast?.or (field.read object)

theorem read_foldl (changes : List Change) (object : Object) :
    field.read (changes.foldl (fun object change => apply change object) object) =
      field.last changes object := by
  induction changes using List.reverseRecOn with
  | nil => rfl
  | append_singleton changes change ih =>
      rw [List.foldl_concat, field.read_apply, ih, last, last, filterMap_append_toList]
      cases field.tells change with
      | none => rw [Option.toList_none, List.append_nil]; rfl
      | some value => rw [Option.toList_some, List.getLast?_concat]; rfl

end Field

end KeyedReports
