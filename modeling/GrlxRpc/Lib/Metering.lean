import Mathlib.Algebra.Order.Ring.Defs
import Mathlib.Data.List.Pairwise
import Mathlib.Tactic.Linarith
import Mathlib.Tactic.Ring

/-
  Metered spending.

  An account of capacity `c` refills at rate `r` up to its
  capacity, and no charge takes more than it holds. Whatever
  the timing, what is spent in a window of time is at most
  the capacity and what the window refills.

  What a charge pays for may happen later. When each such
  event is over before the next charge, a window holds at
  most one event more than charges.

  Main declarations:
    * `Metering.Account`
    * `Metering.Metered`
    * `Metering.spent`
    * `Metering.Metered.spent_window`
    * `Metering.InTurn.countP_snd_le`
-/

------------------------------------------------------------
-- Accounts And Charges
------------------------------------------------------------

namespace Metering

variable {K : Type*}
variable [CommRing K] [LinearOrder K]
variable [IsStrictOrderedRing K]

/- What is left, and when that was reckoned. -/
@[ext]
structure Account (K : Type*) where
  level : K
  time : K

/-
  Charges, each with its time and its cost, that an account
  covers one after the other.
-/
inductive Metered
    (c r : K) : Account K → List (K × K) → Prop
  | nil (x : Account K) : Metered c r x []
  | cons
      {x y : Account K}
      {cost : K}
      {rest : List (K × K)} :
      x.time ≤ y.time →
      0 ≤ cost →
      0 ≤ y.level →
      y.level + cost ≤ c →
      y.level + cost ≤ x.level + r * (y.time - x.time) →
      Metered c r y rest →
      Metered c r x ((y.time, cost) :: rest)

/- The charges between two times, both included. -/
def spent (s t : K) : List (K × K) → K
  | [] => 0
  | (time, cost) :: rest =>
      (if s ≤ time ∧ time ≤ t then cost else 0) +
        spent s t rest

------------------------------------------------------------
-- The Window Law
------------------------------------------------------------

namespace Metered

variable {c r s t : K}
variable {x : Account K}
variable {charges : List (K × K)}

/- Nothing is spent before the account's own time. -/
omit [IsStrictOrderedRing K] in
theorem spent_of_late
    (hMetered : Metered c r x charges)
    (hLate : t < x.time) :
    spent s t charges = 0 := by
  induction hMetered with
  | nil x => rfl
  | cons hTime _ _ _ _ _ ih =>
      have hAfter := hLate.trans_le hTime
      have hOut := not_le_of_gt hAfter
      simp [spent, hOut, ih hAfter]

/-
  From the account's own time on, the level and the refill
  pay for all that is spent.
-/
theorem spent_le_level
    (hMetered : Metered c r x charges)
    (hRate : 0 ≤ r)
    (hLevel : 0 ≤ x.level)
    (hTime : x.time ≤ t) :
    spent s t charges ≤ x.level + r * (t - x.time) := by
  induction hMetered with
  | nil x =>
      have hRefill : 0 ≤ r * (t - x.time) :=
        mul_nonneg hRate (sub_nonneg.mpr hTime)
      simp only [spent]
      linarith
  | @cons x y cost rest hOrder hCost hNext _ hPaid hRest ih =>
      by_cases hIn : y.time ≤ t
      · have hTail := ih hNext hIn
        have hSplit :
            r * (t - x.time) =
              r * (y.time - x.time) + r * (t - y.time) := by
          ring
        simp only [spent]
        split <;> linarith
      · have hLate := lt_of_not_ge hIn
        have hRefill : 0 ≤ r * (t - x.time) :=
          mul_nonneg hRate (sub_nonneg.mpr hTime)
        simp only [spent, hIn, and_false, if_false,
          hRest.spent_of_late hLate]
        linarith

/- The window law: a full account and the window's refill. -/
theorem spent_window
    (hMetered : Metered c r x charges)
    (hCapacity : 0 ≤ c)
    (hRate : 0 ≤ r)
    (hWindow : s ≤ t) :
    spent s t charges ≤ c + r * (t - s) := by
  induction hMetered with
  | nil x =>
      have hRefill : 0 ≤ r * (t - s) :=
        mul_nonneg hRate (sub_nonneg.mpr hWindow)
      simp only [spent]
      linarith
  | @cons x y cost rest _ _ hNext hFull _ hRest ih =>
      simp only [spent]
      split
      · case isTrue hIn =>
          -- the first charge inside leaves at most `c - cost`
          have hTail :=
            hRest.spent_le_level (s := s) hRate hNext hIn.2
          have hLater :
              r * (t - y.time) ≤ r * (t - s) :=
            mul_le_mul_of_nonneg_left
              (sub_le_sub_left hIn.1 t) hRate
          linarith
      · case isFalse => linarith

end Metered

------------------------------------------------------------
-- Events Behind Their Charges
------------------------------------------------------------

section

variable {T : Type*} [LinearOrder T]

/- Each event follows its charge, and the event before it. -/
structure InTurn (dates : List (T × T)) : Prop where
  behind : ∀ date ∈ dates, date.1 ≤ date.2
  apart : dates.Pairwise fun date later => date.2 ≤ later.1

namespace InTurn

variable {dates : List (T × T)}

theorem concat
    (hTurn : InTurn dates)
    {charged happened : T}
    (hBehind : charged ≤ happened)
    (hApart : ∀ date ∈ dates, date.2 ≤ charged) :
    InTurn (dates ++ [(charged, happened)]) where
  behind := by
    intro date hMem
    rcases List.mem_append.mp hMem with hOld | hNew
    · exact hTurn.behind date hOld
    · rw [List.mem_singleton.mp hNew]
      exact hBehind
  apart := by
    apply List.pairwise_append.mpr
    refine ⟨hTurn.apart, List.pairwise_singleton _ _, ?_⟩
    intro date hMem later hLater
    rw [List.mem_singleton.mp hLater]
    exact hApart date hMem

/- Only the first event of a window was charged before it. -/
theorem countP_snd_le
    (hTurn : InTurn dates)
    (s t : T) :
    dates.countP (fun date => s ≤ date.2 ∧ date.2 ≤ t) ≤
      dates.countP (fun date => s ≤ date.1 ∧ date.1 ≤ t) +
        1 := by
  rcases hTurn with ⟨hBehind, hApart⟩
  induction dates with
  | nil => exact Nat.zero_le _
  | cons date rest ih =>
      rcases List.pairwise_cons.mp hApart with ⟨hFirst, hRest⟩
      have hTail := ih
        (fun later hMem =>
          hBehind later (List.mem_cons_of_mem _ hMem)) hRest
      by_cases hIn : s ≤ date.2 ∧ date.2 ≤ t
      · -- All later charges are in the window's time.
        have hLater :
            rest.countP
                (fun date => s ≤ date.2 ∧ date.2 ≤ t) ≤
              rest.countP
                (fun date => s ≤ date.1 ∧ date.1 ≤ t) := by
          apply List.countP_mono_left
          intro later hMem hInside
          have hOrder := hBehind later
            (List.mem_cons_of_mem _ hMem)
          have hEnd := (of_decide_eq_true hInside).2
          exact decide_eq_true
            ⟨hIn.1.trans (hFirst later hMem),
              hOrder.trans hEnd⟩
        simp only [List.countP_cons]
        split <;> split <;> omega
      · simp only [List.countP_cons, hIn, decide_false,
          Bool.false_eq_true, if_false]
        omega

end InTurn

end

end Metering
