import Mathlib.Data.List.Basic
import Mathlib.Order.WellFounded

/-
  Deterministic transition systems with labelled actions.

  A system is a partial function `step`: the action names
  the actor that moves and every choice its environment
  makes, so an interleaving is a list of actions. Runs may
  be restricted to steps that meet a condition `ok`.

  Main declarations:
    * `Transition.ReachableBy`
    * `Transition.ReachableBy.invariant`
    * `Transition.ReachableBy.invariant_of_guarded`
    * `Transition.exists_done`
    * `Transition.AtRest`
    * `Transition.run` and `Transition.reachable_of_run`
    * `Transition.runBy` and `Transition.reachableBy_of_runBy`
-/

------------------------------------------------------------
-- Reachability
------------------------------------------------------------

namespace Transition

variable {σ : Type*} {α : Type*}

/-
  States reached from `init` by steps that all meet `ok`,
  a condition on the action and the state before it.
-/
inductive ReachableBy
    (step : σ → α → Option σ)
    (ok : σ → α → Prop)
    (init : σ) : σ → Prop
  | start : ReachableBy step ok init init
  | next {s s' : σ} {a : α} :
      ReachableBy step ok init s →
      ok s a →
      step s a = some s' →
      ReachableBy step ok init s'

/- Reachability without a condition on the steps. -/
abbrev Reachable
    (step : σ → α → Option σ)
    (init : σ) : σ → Prop :=
  ReachableBy step (fun _ _ => True) init

/- No action that meets `works` can be taken. -/
def AtRest
    (step : σ → α → Option σ)
    (works : σ → α → Prop)
    (s : σ) : Prop :=
  ∀ a, works s a → step s a = none

variable {step : σ → α → Option σ}
variable {ok ok' : σ → α → Prop}
variable {init : σ}

theorem ReachableBy.mono
    (hMono : ∀ s a, ok s a → ok' s a)
    {s : σ}
    (hReach : ReachableBy step ok init s) :
    ReachableBy step ok' init s := by
  induction hReach with
  | start => exact .start
  | next _ hOk hStep ih =>
      exact .next ih (hMono _ _ hOk) hStep

theorem ReachableBy.reachable
    {s : σ}
    (hReach : ReachableBy step ok init s) :
    Reachable step init s :=
  hReach.mono fun _ _ _ => trivial

/- Reachability composes. -/
theorem ReachableBy.trans
    {mid s : σ}
    (hFirst : ReachableBy step ok init mid)
    (hSecond : ReachableBy step ok mid s) :
    ReachableBy step ok init s := by
  induction hSecond with
  | start => exact hFirst
  | next _ hOk hStep ih => exact .next ih hOk hStep

/-
  The invariant rule. The step premise may use that the
  state before the step is reachable, so an invariant can
  lean on those proved before it.
-/
theorem ReachableBy.invariant
    {inv : σ → Prop}
    (hInit : inv init)
    (hStep :
      ∀ s a s',
        ReachableBy step ok init s →
        inv s →
        ok s a →
        step s a = some s' →
        inv s')
    {s : σ}
    (hReach : ReachableBy step ok init s) :
    inv s := by
  induction hReach with
  | start => exact hInit
  | next hPrior hOk hNext ih =>
      exact hStep _ _ _ hPrior ih hOk hNext

/-
  The rule for systems whose steps are updates behind a
  guard. Every component of a program that says when an
  action is enabled and what it changes is one.
-/
theorem ReachableBy.invariant_of_guarded
    {inv : σ → Prop}
    {enabled : σ → α → Prop}
    {update : σ → α → σ}
    (hGuarded :
      ∀ s s' a,
        step s a = some s' ↔ enabled s a ∧ s' = update s a)
    (hInit : inv init)
    (hUpdate :
      ∀ s a,
        ReachableBy step ok init s →
        inv s →
        ok s a →
        enabled s a →
        inv (update s a))
    {s : σ}
    (hReach : ReachableBy step ok init s) :
    inv s := by
  refine hReach.invariant hInit ?_
  intro s a s' hPrior hInv hOk hStep
  rcases (hGuarded s s' a).mp hStep with ⟨hEnabled, rfl⟩
  exact hUpdate s a hPrior hInv hOk hEnabled

/-
  The progress rule. Where each state that is not done has a
  step that lowers its rank, some run of such steps is done.
-/
theorem exists_done
    {β : Type*} [Preorder β] [WellFoundedLT β]
    {inv done : σ → Prop}
    (rank : σ → β)
    (hProgress :
      ∀ s, inv s →
        done s ∨
          ∃ a s', ok s a ∧ step s a = some s' ∧ inv s' ∧
            rank s' < rank s)
    {s : σ}
    (hInv : inv s) :
    ∃ s', ReachableBy step ok s s' ∧ inv s' ∧ done s' := by
  induction hRank : rank s using WellFoundedLT.induction
    generalizing s with
  | ind r ih =>
      rcases hProgress s hInv with
        hDone | ⟨a, mid, hOk, hStep, hMid, hLess⟩
      · exact ⟨s, .start, hInv, hDone⟩
      · rcases ih (rank mid) (hRank ▸ hLess) hMid rfl with
          ⟨s', hRuns, hEnd⟩
        exact ⟨s', (ReachableBy.start.next hOk hStep).trans
          hRuns, hEnd⟩

------------------------------------------------------------
-- Executable Runs
------------------------------------------------------------

/- Run a list of actions, failing at a disabled one. -/
def run
    (step : σ → α → Option σ) :
    σ → List α → Option σ
  | s, [] => some s
  | s, a :: rest =>
      (step s a).bind fun s' => run step s' rest

/- Run a list of actions that all meet a condition. -/
def runBy
    (step : σ → α → Option σ)
    (ok : σ → α → Prop)
    [∀ s a, Decidable (ok s a)] :
    σ → List α → Option σ
  | s, [] => some s
  | s, a :: rest =>
      if ok s a then
        (step s a).bind fun s' => runBy step ok s' rest
      else
        none

theorem reachableBy_of_runBy
    [∀ s a, Decidable (ok s a)]
    {s s' : σ}
    {actions : List α}
    (hRun : runBy step ok s actions = some s') :
    ReachableBy step ok s s' := by
  induction actions generalizing s with
  | nil =>
      cases hRun
      exact .start
  | cons a rest ih =>
      simp only [runBy, Option.ite_none_right_eq_some,
        Option.bind_eq_some_iff] at hRun
      rcases hRun with ⟨hOk, mid, hStep, hRest⟩
      exact
        (ReachableBy.start.next hOk hStep).trans (ih hRest)

theorem reachable_of_run
    {s s' : σ}
    {actions : List α}
    (hRun : run step s actions = some s') :
    Reachable step s s' := by
  induction actions generalizing s with
  | nil =>
      cases hRun
      exact .start
  | cons a rest ih =>
      simp only [run, Option.bind_eq_some_iff] at hRun
      rcases hRun with ⟨mid, hStep, hRest⟩
      exact
        (ReachableBy.start.next trivial hStep).trans
          (ih hRest)

/- A computed run shows that a state of some kind is reached. -/
theorem exists_of_run
    (step : σ → α → Option σ)
    (init : σ)
    (actions : List α)
    (p : σ → Bool)
    (hRun : (run step init actions).any p = true) :
    ∃ s, Reachable step init s ∧ p s = true := by
  rw [Option.any_eq_true] at hRun
  rcases hRun with ⟨s, hEq, hP⟩
  exact ⟨s, reachable_of_run hEq, hP⟩

theorem exists_of_runBy
    (step : σ → α → Option σ)
    (ok : σ → α → Prop)
    [∀ s a, Decidable (ok s a)]
    (init : σ)
    (actions : List α)
    (p : σ → Bool)
    (hRun : (runBy step ok init actions).any p = true) :
    ∃ s, ReachableBy step ok init s ∧ p s = true := by
  rw [Option.any_eq_true] at hRun
  rcases hRun with ⟨s, hEq, hP⟩
  exact ⟨s, reachableBy_of_runBy hEq, hP⟩

end Transition
