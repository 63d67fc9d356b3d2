import Mathlib.Data.List.Basic

/-
  Searching text for a separator from either end.

  Main declarations:
    * `Searching.find` and `Searching.rfind`
    * `Searching.rfind_append`
    * `Searching.find_eq_rfind_iff`
-/

------------------------------------------------------------
-- From Both Ends
------------------------------------------------------------

namespace Searching

variable {α : Type*} [DecidableEq α]

/- The first place of `c`, if there is one. -/
def find (text : List α) (c : α) : Option Nat :=
  text.idxOf? c

/- The last place of `c`, if there is one. -/
def rfind (text : List α) (c : α) : Option Nat :=
  (text.reverse.idxOf? c).map fun i => text.length - 1 - i

theorem idxOf?_append
    {before : List α}
    {c : α}
    (hBefore : c ∉ before)
    (rest : List α) :
    (before ++ c :: rest).idxOf? c = some before.length := by
  induction before with
  | nil => simp [List.idxOf?_cons]
  | cons a before ih =>
      have hHead : a ≠ c := by
        rintro rfl
        exact hBefore List.mem_cons_self
      have hTail : c ∉ before := fun hMem =>
        hBefore (List.mem_cons_of_mem _ hMem)
      simp [List.idxOf?_cons, hHead, ih hTail]

theorem find_append
    {before : List α}
    {c : α}
    (hBefore : c ∉ before)
    (rest : List α) :
    find (before ++ c :: rest) c = some before.length :=
  idxOf?_append hBefore rest

/- Behind the last separator there is none. -/
theorem rfind_append
    (before : List α)
    {c : α}
    {rest : List α}
    (hRest : c ∉ rest) :
    rfind (before ++ c :: rest) c = some before.length := by
  have hReverse :
      (before ++ c :: rest).reverse =
        rest.reverse ++ c :: before.reverse := by
    simp
  rw [rfind, hReverse,
    idxOf?_append (by simpa using hRest)]
  simp only [Option.map_some, List.length_append,
    List.length_cons, List.length_reverse]
  congr 1
  omega

theorem find_lt_of_mem
    {before : List α}
    {c : α}
    (hBefore : c ∈ before)
    (rest : List α) :
    ∃ i, find (before ++ rest) c = some i ∧
      i < before.length := by
  rcases List.eq_append_cons_of_mem hBefore with
    ⟨first, more, rfl, hFirst⟩
  refine ⟨first.length, ?_, by simp⟩
  rw [List.append_assoc, List.cons_append]
  exact find_append hFirst _

/- The separator is the only one when both ends find it. -/
theorem find_eq_rfind_iff
    (before : List α)
    {rest : List α}
    {c : α}
    (hRest : c ∉ rest) :
    find (before ++ c :: rest) c =
        rfind (before ++ c :: rest) c ↔
      c ∉ before := by
  rw [rfind_append before hRest]
  constructor
  · intro hFind hBefore
    rcases find_lt_of_mem hBefore (c :: rest) with
      ⟨i, hFirst, hLt⟩
    rw [hFind, Option.some.injEq] at hFirst
    omega
  · intro hBefore
    exact find_append hBefore rest

end Searching
