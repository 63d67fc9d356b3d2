import Mathlib.Logic.Function.Basic
import Mathlib.Data.List.Basic

/-
  Folds that lose nothing: each step can be cancelled in the
  state and in the item that it takes.

  Two such folds over sequences that differ in one place end
  in different states, however long the common rest is.

  Main declarations:
    * `Folding.Cancels`
    * `Folding.foldl_injective`
    * `Folding.foldl_ne_of_ne_at`
    * `BitVec.mul_injective_of_inverse`
-/

------------------------------------------------------------
-- Cancellable Steps
------------------------------------------------------------

namespace Folding

variable {α : Type*} {β : Type*}

/- Neither the state nor the item is lost in a step. -/
structure Cancels (step : β → α → β) : Prop where
  state : ∀ a, Function.Injective fun b => step b a
  item : ∀ b, Function.Injective (step b)

variable {step : β → α → β}

theorem foldl_injective
    (hState : ∀ a, Function.Injective fun b => step b a)
    (xs : List α) :
    Function.Injective fun b => xs.foldl step b := by
  induction xs with
  | nil => exact Function.injective_id
  | cons a rest ih =>
      intro b b' hEq
      exact hState a (ih hEq)

/- A difference at the head is carried through the rest. -/
theorem foldl_cons_ne
    (hCancels : Cancels step)
    {a a' : α}
    (hNe : a ≠ a')
    (rest : List α)
    (b : β) :
    (a :: rest).foldl step b ≠ (a' :: rest).foldl step b := by
  intro hEq
  have hStep : step b a = step b a' :=
    foldl_injective hCancels.state rest hEq
  exact hNe (hCancels.item b hStep)

/-
  Sequences of one length that differ at `i` and nowhere
  else. Before `i` the states are equal, after it different.
-/
theorem foldl_ne_of_ne_at
    (hCancels : Cancels step)
    {xs ys : List α}
    {i : Nat}
    (hAt : xs[i]? ≠ ys[i]?)
    (hElse : ∀ j, j ≠ i → xs[j]? = ys[j]?)
    (hLength : xs.length = ys.length)
    (b : β) :
    xs.foldl step b ≠ ys.foldl step b := by
  induction xs generalizing ys i b with
  | nil =>
      rcases List.length_eq_zero_iff.mp hLength.symm with rfl
      exact absurd rfl hAt
  | cons a rest ih =>
      cases ys with
      | nil => cases hLength
      | cons a' rest' =>
          have hRest : rest.length = rest'.length := by
            simpa using hLength
          cases i with
          | zero =>
              have hTail : rest = rest' := by
                apply List.ext_getElem?
                intro j
                simpa using hElse (j + 1) (Nat.succ_ne_zero j)
              subst hTail
              exact foldl_cons_ne hCancels
                (by simpa using hAt) rest b
          | succ i =>
              have hHead : a = a' := by
                simpa using hElse 0 (Nat.succ_ne_zero i).symm
              subst hHead
              refine ih (i := i) (by simpa using hAt) ?_
                hRest _
              intro j hNe
              simpa using hElse (j + 1) (by omega)

end Folding

------------------------------------------------------------
-- Multiplying Words
------------------------------------------------------------

/- A factor with an inverse can be cancelled. -/
theorem BitVec.mul_injective_of_inverse
    {w : Nat}
    {p q : BitVec w}
    (hInverse : p * q = 1) :
    Function.Injective fun a : BitVec w => a * p := by
  intro a b hEq
  have hTimes : a * p * q = b * p * q :=
    congrArg (· * q) hEq
  rw [BitVec.mul_assoc, BitVec.mul_assoc, hInverse] at hTimes
  simpa using hTimes
