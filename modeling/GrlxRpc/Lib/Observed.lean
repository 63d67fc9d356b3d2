import GrlxRpc.Lib.Transition

/-
  Runs with an observer.

  An observer notes at most one event a step, and the history
  of a run is the list of what it noted. It restricts no run:
  each has its history.

  Main declarations:
    * `Transition.observed`
    * `Transition.observedInvariant`
    * `Transition.reachable_of_observed` and
      `Transition.exists_history`
    * `History.append_unseen` and `History.concat_sublist`
-/

------------------------------------------------------------
-- Observers
------------------------------------------------------------

namespace Transition

variable {σ : Type*} {α : Type*} {ε : Type*}

/- The system whose states carry the history so far. -/
def observed
    (step : σ → α → Option σ)
    (observe : σ → α → Option ε) :
    σ × List ε → α → Option (σ × List ε)
  | (s, history), a =>
      (step s a).map fun s' =>
        (s', history ++ (observe s a).toList)

variable {step : σ → α → Option σ}
variable {observe : σ → α → Option ε}
variable {ok : σ × List ε → α → Prop}
variable {init : σ}

theorem observed_eq_some_iff
    {x y : σ × List ε}
    {a : α} :
    observed step observe x a = some y ↔
      step x.1 a = some y.1 ∧
        y.2 = x.2 ++ (observe x.1 a).toList := by
  rcases x with ⟨s, history⟩
  rcases y with ⟨s', history'⟩
  simp only [observed, Option.map_eq_some_iff,
    Prod.mk.injEq]
  constructor
  · rintro ⟨next, hStep, rfl, rfl⟩
    exact ⟨hStep, rfl⟩
  · rintro ⟨hStep, rfl⟩
    exact ⟨s', hStep, rfl, rfl⟩

/-
  The invariant rule for states and histories. The step
  premise may use that the state before is reachable.
-/
theorem observedInvariant
    (inv : σ → List ε → Prop)
    (hInit : inv init [])
    (hStep :
      ∀ s history a s',
        ReachableBy (observed step observe) ok (init, [])
          (s, history) →
        inv s history →
        ok (s, history) a →
        step s a = some s' →
        inv s' (history ++ (observe s a).toList))
    {s : σ}
    {history : List ε}
    (hReach :
      ReachableBy (observed step observe) ok (init, [])
        (s, history)) :
    inv s history := by
  have hAll :
      ∀ x,
        ReachableBy (observed step observe) ok (init, []) x →
          inv x.1 x.2 := by
    intro x hReach
    induction hReach with
    | start => exact hInit
    | next hPrior hOk hNext ih =>
        rcases observed_eq_some_iff.mp hNext with
          ⟨hNext, hHistory⟩
        rw [hHistory]
        exact hStep _ _ _ _ hPrior ih hOk hNext
  exact hAll (s, history) hReach

/- A run with its history forgotten. -/
theorem reachable_of_observed
    {x y : σ × List ε}
    (hReach : ReachableBy (observed step observe) ok x y) :
    Reachable step x.1 y.1 := by
  induction hReach with
  | start => exact .start
  | next _ _ hNext ih =>
      exact ih.next trivial (observed_eq_some_iff.mp hNext).1

/- What its steps were restricted to does not change. -/
theorem reachableBy_of_observed
    {ok : σ → α → Prop}
    {x y : σ × List ε}
    (hReach :
      ReachableBy (observed step observe)
        (fun x a => ok x.1 a) x y) :
    ReachableBy step ok x.1 y.1 := by
  induction hReach with
  | start => exact .start
  | next _ hOk hNext ih =>
      exact ih.next hOk (observed_eq_some_iff.mp hNext).1

/- Every run has a history. -/
theorem exists_history
    (observe : σ → α → Option ε)
    {ok : σ → α → Prop}
    {s : σ}
    (hReach : ReachableBy step ok init s) :
    ∃ history,
      ReachableBy (observed step observe)
        (fun x a => ok x.1 a) (init, []) (s, history) := by
  induction hReach with
  | start => exact ⟨[], .start⟩
  | next _ hOk hNext ih =>
      rcases ih with ⟨history, hPrior⟩
      exact ⟨_, hPrior.next hOk
        (observed_eq_some_iff.mpr ⟨hNext, rfl⟩)⟩

end Transition

------------------------------------------------------------
-- Events In Order
------------------------------------------------------------

namespace History

open scoped List

variable {ε : Type*}

/- A step of which nothing is noted leaves the history. -/
theorem append_unseen
    {history : List ε}
    {new : Option ε}
    (hNone : new = none) :
    history ++ new.toList = history := by
  rw [hNone, Option.toList_none, List.append_nil]

/-
  Events in order within a longer history: they are so in
  the old one, or the last of them is the new event.
-/
theorem concat_sublist
    {events history : List ε}
    {last : ε}
    {new : Option ε}
    (hSub : events ++ [last] <+ history ++ new.toList) :
    events ++ [last] <+ history ∨
      new = some last ∧ events <+ history := by
  cases new with
  | none =>
      rw [append_unseen rfl] at hSub
      exact .inl hSub
  | some event =>
      have hRev :
          last :: events.reverse <+
            event :: history.reverse := by
        simpa using hSub.reverse
      cases hRev with
      | cons _ hOld =>
          left
          simpa using hOld.reverse
      | cons_cons _ hOld =>
          right
          exact ⟨rfl, by simpa using hOld.reverse⟩

theorem mem_append_toList
    {event : ε}
    {history : List ε}
    {new : Option ε} :
    event ∈ history ++ new.toList ↔
      event ∈ history ∨ new = some event := by
  simp [Option.mem_toList]

/- What was in order stays in order. -/
theorem sublist_append
    {events history : List ε}
    (hSub : events <+ history)
    (new : Option ε) :
    events <+ history ++ new.toList :=
  hSub.trans (List.sublist_append_left _ _)

/- The new event is behind those that were there. -/
theorem sublist_concat
    {events history : List ε}
    {last : ε}
    (hSub : events <+ history) :
    events ++ [last] <+ history ++ (some last).toList :=
  hSub.append (List.Sublist.refl _)

theorem pair_sublist
    {first last : ε}
    {history : List ε}
    {new : Option ε}
    (hSub : [first, last] <+ history ++ new.toList) :
    [first, last] <+ history ∨
      new = some last ∧ first ∈ history := by
  have hSub : [first] ++ [last] <+ history ++ new.toList :=
    hSub
  rcases concat_sublist hSub with hOld | ⟨hNew, hFirst⟩
  · exact .inl hOld
  · exact .inr ⟨hNew, List.singleton_sublist.mp hFirst⟩

theorem pair_concat
    {first last : ε}
    {history : List ε}
    (hFirst : first ∈ history) :
    [first, last] <+ history ++ (some last).toList :=
  sublist_concat (List.singleton_sublist.mpr hFirst)

theorem triple_sublist
    {first second last : ε}
    {history : List ε}
    {new : Option ε}
    (hSub : [first, second, last] <+ history ++ new.toList) :
    [first, second, last] <+ history ∨
      new = some last ∧ [first, second] <+ history := by
  have hSub :
      [first, second] ++ [last] <+ history ++ new.toList :=
    hSub
  exact concat_sublist hSub

/- Two images in order come from two events in order. -/
theorem pair_of_filterMap
    {τ : Type*}
    {f : ε → Option τ}
    {x y : τ}
    {history : List ε}
    (hSub : [x, y] <+ history.filterMap f) :
    ∃ first last, [first, last] <+ history ∧
      f first = some x ∧ f last = some y := by
  induction history with
  | nil => cases hSub
  | cons event rest ih =>
      have hOld :
          [x, y] <+ rest.filterMap f →
            ∃ first last, [first, last] <+ event :: rest ∧
              f first = some x ∧ f last = some y := by
        intro hRest
        rcases ih hRest with ⟨first, last, hPair, hImages⟩
        exact ⟨first, last, hPair.cons event, hImages⟩
      cases hEvent : f event with
      | none =>
          rw [List.filterMap_cons_none hEvent] at hSub
          exact hOld hSub
      | some z =>
          rw [List.filterMap_cons_some hEvent] at hSub
          cases hSub with
          | cons _ hRest => exact hOld hRest
          | cons_cons _ hRest =>
              have hMem : y ∈ rest.filterMap f :=
                List.singleton_sublist.mp hRest
              rcases List.mem_filterMap.mp hMem with
                ⟨last, hLast, hImage⟩
              refine ⟨event, last, ?_, hEvent, hImage⟩
              exact (List.singleton_sublist.mpr hLast).cons_cons
                event

end History
