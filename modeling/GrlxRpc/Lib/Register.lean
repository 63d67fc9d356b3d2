import Mathlib.Data.List.Nodup
import Mathlib.Data.List.Induction

/-
  A set that one executor keeps: tasks are posted in some
  order and run in that order, each inserting or erasing one
  member, clearing the set, or leaving it.

  The set is a fold over the tasks that ran, so membership is
  a question of their order.

  Main declarations:
    * `SetOp` and `register`
    * `Register.mem_or_removed`
    * `Register.not_mem_of_erase`
    * `Register.mem_of_before`
-/

open scoped List

------------------------------------------------------------
-- Tasks
------------------------------------------------------------

/- What a task does to the set. -/
inductive SetOp (α : Type*)
  | insert (a : α)
  | erase (a : α)
  | clear
  | keep

variable {α : Type*} [DecidableEq α]

def SetOp.apply (members : List α) : SetOp α → List α
  | insert a => members.insert a
  | erase a => members.erase a
  | clear => []
  | keep => members

/- The members after these tasks. -/
def register (ops : List (SetOp α)) : List α :=
  ops.foldl SetOp.apply []

namespace Register

theorem register_concat
    (ops : List (SetOp α))
    (op : SetOp α) :
    register (ops ++ [op]) = op.apply (register ops) := by
  simp [register]

------------------------------------------------------------
-- Members
------------------------------------------------------------

theorem nodup (ops : List (SetOp α)) :
    (register ops).Nodup := by
  induction ops using List.reverseRecOn with
  | nil => exact List.nodup_nil
  | append_singleton ops op ih =>
      rw [register_concat]
      cases op with
      | insert a => exact ih.insert
      | erase a => exact ih.erase a
      | clear => exact List.nodup_nil
      | keep => exact ih

/- What was inserted is a member until it is removed. -/
theorem mem_or_removed
    {ops : List (SetOp α)}
    {a : α}
    (hInsert : .insert a ∈ ops) :
    a ∈ register ops ∨
      [.insert a, .erase a] <+ ops ∨
      [.insert a, .clear] <+ ops := by
  induction ops using List.reverseRecOn with
  | nil => cases hInsert
  | append_singleton ops op ih =>
      rw [register_concat]
      rcases List.mem_append.mp hInsert with hOld | hNew
      · have hBehind :
            [.insert a, op] <+ ops ++ [op] :=
          (List.singleton_sublist.mpr hOld).append
            (List.Sublist.refl [op])
        rcases ih hOld with hMem | hErased | hCleared
        · cases op with
          | insert b =>
              exact .inl (List.mem_insert_of_mem hMem)
          | erase b =>
              by_cases hSame : a = b
              · subst hSame
                exact .inr (.inl hBehind)
              · left
                exact (List.mem_erase_of_ne hSame).mpr hMem
          | clear => exact .inr (.inr hBehind)
          | keep => exact .inl hMem
        · right; left
          exact hErased.trans (List.sublist_append_left _ _)
        · right; right
          exact hCleared.trans (List.sublist_append_left _ _)
      · rcases List.mem_singleton.mp hNew with rfl
        exact .inl List.mem_insert_self

/-
  What a task removed is no member unless it is inserted
  behind that task.
-/
theorem not_mem_of_removed
    {ops : List (SetOp α)}
    {a : α}
    {removal : SetOp α}
    (hRemoves :
      ∀ members : List α, members.Nodup →
        a ∉ removal.apply members)
    (hRemoval : removal ∈ ops)
    (hNot : ¬ [removal, .insert a] <+ ops) :
    a ∉ register ops := by
  induction ops using List.reverseRecOn with
  | nil => cases hRemoval
  | append_singleton ops op ih =>
      rw [register_concat]
      rcases List.mem_append.mp hRemoval with hOld | hNew
      · have hBehind :
            [removal, op] <+ ops ++ [op] :=
          (List.singleton_sublist.mpr hOld).append
            (List.Sublist.refl [op])
        have hMem : a ∉ register ops :=
          ih hOld fun hSub =>
            hNot (hSub.trans (List.sublist_append_left _ _))
        cases op with
        | insert b =>
            intro hIn
            rcases List.mem_insert_iff.mp hIn with rfl | hIn
            · exact hNot hBehind
            · exact hMem hIn
        | erase b =>
            exact fun hIn => hMem (List.mem_of_mem_erase hIn)
        | clear => exact List.not_mem_nil
        | keep => exact hMem
      · rcases List.mem_singleton.mp hNew with rfl
        exact hRemoves _ (nodup ops)

theorem not_mem_of_erase
    {ops : List (SetOp α)}
    {a : α}
    (hErase : .erase a ∈ ops)
    (hNot : ¬ [.erase a, .insert a] <+ ops) :
    a ∉ register ops :=
  not_mem_of_removed
    (fun _ hNodup => hNodup.not_mem_erase) hErase hNot

------------------------------------------------------------
-- Tasks That Wait
------------------------------------------------------------

/-
  Of the tasks that ran and those that wait, one that is
  before the first that waits has run.
-/
theorem mem_of_before
    {τ : Type*}
    {ran waiting : List τ}
    {task next : τ}
    (hBefore : [task, next] <+ ran ++ next :: waiting)
    (hOnce : ¬ [next, next] <+ ran ++ next :: waiting) :
    task ∈ ran := by
  rcases List.sublist_append_iff.mp hBefore with
    ⟨front, back, hEq, hFront, hBack⟩
  rcases front with _ | ⟨first, front⟩
  · -- Both wait: then the next task waits twice.
    rw [List.nil_append] at hEq
    subst hEq
    have hTail : next ∈ waiting := by
      cases hBack with
      | cons _ hOld =>
          exact hOld.subset (by simp)
      | cons_cons _ hOld =>
          exact hOld.subset (by simp)
    refine absurd ?_ hOnce
    have hTwice : [next, next] <+ next :: waiting :=
      (List.singleton_sublist.mpr hTail).cons_cons next
    exact hTwice.trans (List.sublist_append_right _ _)
  · injection hEq with hHead _
    rw [hHead]
    exact hFront.subset List.mem_cons_self

end Register
