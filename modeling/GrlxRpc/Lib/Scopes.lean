import Mathlib.Data.List.Range
import Mathlib.Logic.Function.Basic

/-
  Cells that scopes save and restore.

  Each key has one cell. A scope opened on a key saves the
  cell and points it at itself; closing the scope puts the
  saved value back. As long as scopes are closed on the key
  they were opened on, the last opened first, a cell points
  at the innermost open scope of its key.

  Main declarations:
    * `Scopes.Scope` and `Scopes.openOn`
    * `Scopes.Nested`
    * `Scopes.Nested.enter` and `Scopes.Nested.exit`
    * `Scopes.Nested.live`
-/

------------------------------------------------------------
-- Scopes
------------------------------------------------------------

namespace Scopes

/- One scope, named by its place in a list of them. -/
structure Scope (κ : Type*) where
  key : κ
  prev : Option Nat
  isOpen : Bool

variable {κ : Type*} [DecidableEq κ]

/- Is this an open scope of key `k`? -/
def Scope.isOn
    (k : κ)
    (scope : Scope κ) : Bool :=
  scope.isOpen && decide (scope.key = k)

def Scope.close (scope : Scope κ) : Scope κ :=
  { scope with isOpen := false }

/- The open scopes of a key, the last opened first. -/
def openOn
    (scopes : List (Scope κ))
    (k : κ) : List Nat :=
  ((List.range scopes.length).filter fun d =>
    scopes[d]?.any (Scope.isOn k)).reverse

theorem mem_openOn
    {scopes : List (Scope κ)}
    {k : κ}
    {d : Nat} :
    d ∈ openOn scopes k ↔
      ∃ scope, scopes[d]? = some scope ∧
        scope.isOpen = true ∧ scope.key = k := by
  simp only [openOn, List.mem_reverse, List.mem_filter,
    List.mem_range, Option.any_eq_true, Scope.isOn,
    Bool.and_eq_true, decide_eq_true_eq]
  constructor
  · rintro ⟨_, scope, hGet, hOpen, hKey⟩
    exact ⟨scope, hGet, hOpen, hKey⟩
  · rintro ⟨scope, hGet, hOpen, hKey⟩
    exact ⟨(List.getElem?_eq_some_iff.mp hGet).1, scope, hGet,
      hOpen, hKey⟩

/- Later scopes come first. -/
theorem pairwise_openOn
    (scopes : List (Scope κ))
    (k : κ) :
    (openOn scopes k).Pairwise fun d d' => d' < d := by
  rw [openOn, List.pairwise_reverse]
  exact List.pairwise_lt_range.filter _

theorem openOn_concat
    (scopes : List (Scope κ))
    (scope : Scope κ)
    (k : κ) :
    openOn (scopes ++ [scope]) k =
      if scope.isOn k then
        scopes.length :: openOn scopes k
      else
        openOn scopes k := by
  have hOld :
      (List.range scopes.length).filter (fun d =>
          (scopes ++ [scope])[d]?.any (Scope.isOn k)) =
        (List.range scopes.length).filter fun d =>
          scopes[d]?.any (Scope.isOn k) := by
    apply List.filter_congr
    intro d hMem
    rw [List.getElem?_append_left (List.mem_range.mp hMem)]
  simp only [openOn, List.length_append, List.length_singleton,
    List.range_succ, List.filter_append, hOld]
  cases hOn : scope.isOn k <;> simp [hOn]

/- Closing a scope takes it out of its key's open ones. -/
theorem openOn_close
    (scopes : List (Scope κ))
    (d : Nat)
    (k : κ) :
    openOn (scopes.modify d Scope.close) k =
      (openOn scopes k).filter fun d' => decide (d' ≠ d) := by
  rw [openOn, openOn, List.filter_reverse, List.filter_filter,
    List.length_modify]
  congr 1
  apply List.filter_congr
  intro d' _
  by_cases hSame : d = d'
  · subst hSame
    rw [List.getElem?_modify_eq]
    cases scopes[d]? <;> simp [Scope.close, Scope.isOn]
  · rw [List.getElem?_modify_ne _ _ hSame]
    simp [Ne.symm hSame]

------------------------------------------------------------
-- Nesting
------------------------------------------------------------

/-
  Each cell points at the innermost open scope of its key,
  and each open scope saved the one below it.
-/
structure Nested
    (cell : κ → Option Nat)
    (scopes : List (Scope κ)) : Prop where
  cell_eq : ∀ k, cell k = (openOn scopes k).head?
  saved :
    ∀ (d : Nat) (scope : Scope κ), scopes[d]? = some scope →
      scope.isOpen = true →
        scope.prev =
          ((openOn scopes scope.key).filter
            fun d' => decide (d' < d)).head?

namespace Nested

variable {cell : κ → Option Nat}
variable {scopes : List (Scope κ)}

theorem nil : Nested (fun _ : κ => none) [] := by
  constructor
  · exact fun _ => rfl
  · intro d scope hGet
    cases hGet

/- A cell that points anywhere points at an open scope. -/
theorem live
    (hInv : Nested cell scopes)
    {k : κ}
    {d : Nat}
    (hCell : cell k = some d) :
    ∃ scope, scopes[d]? = some scope ∧
      scope.isOpen = true ∧ scope.key = k := by
  rw [hInv.cell_eq] at hCell
  exact mem_openOn.mp (List.mem_of_head? hCell)

/- With a scope open on the key, its cell is not null. -/
theorem cell_ne_none
    (hInv : Nested cell scopes)
    {k : κ}
    (hOpen : openOn scopes k ≠ []) :
    cell k ≠ none := by
  rw [hInv.cell_eq, ne_eq, List.head?_eq_none_iff]
  exact hOpen

/- Opening a scope. -/
theorem enter
    (hInv : Nested cell scopes)
    (k : κ) :
    Nested
      (Function.update cell k (some scopes.length))
      (scopes ++
        [{ key := k, prev := cell k, isOpen := true }]) := by
  have hFar :
      ∀ d ∈ openOn scopes k, d < scopes.length := by
    intro d hMem
    rcases mem_openOn.mp hMem with ⟨scope, hGet, _⟩
    exact (List.getElem?_eq_some_iff.mp hGet).1
  constructor
  case cell_eq =>
    intro k'
    rw [openOn_concat]
    by_cases hSame : k' = k
    · subst hSame
      simp [Scope.isOn]
    · rw [Function.update_of_ne hSame, hInv.cell_eq]
      simp [Scope.isOn, Ne.symm hSame]
  case saved =>
    intro d scope hGet hOpen
    rw [openOn_concat]
    by_cases hOld : d < scopes.length
    · rw [List.getElem?_append_left hOld] at hGet
      rw [hInv.saved d scope hGet hOpen]
      -- The new scope is above every old one.
      split
      · rw [List.filter_cons_of_neg (by simp; omega)]
      · rfl
    · rw [List.getElem?_append_right (Nat.le_of_not_lt hOld),
        List.getElem?_singleton] at hGet
      split at hGet
      · next hLast =>
          rcases Option.some.inj hGet with rfl
          obtain rfl : d = scopes.length := by omega
          rw [if_pos (by simp [Scope.isOn]),
            List.filter_cons_of_neg (by simp),
            List.filter_eq_self.mpr (by simpa using hFar)]
          exact hInv.cell_eq k
      · cases hGet

/- Closing the innermost scope of its key. -/
theorem exit
    (hInv : Nested cell scopes)
    {d : Nat}
    {scope : Scope κ}
    (hGet : scopes[d]? = some scope)
    (hOpen : scope.isOpen = true)
    (hInner : (openOn scopes scope.key).head? = some d) :
    Nested
      (Function.update cell scope.key scope.prev)
      (scopes.modify d Scope.close) := by
  have hSorted := pairwise_openOn scopes scope.key
  obtain ⟨rest, hCons⟩ :
      ∃ rest, openOn scopes scope.key = d :: rest := by
    cases hList : openOn scopes scope.key with
    | nil =>
        rw [hList] at hInner
        cases hInner
    | cons first rest =>
        rw [hList] at hInner
        exact ⟨rest, by rw [Option.some.inj hInner]⟩
  rw [hCons, List.pairwise_cons] at hSorted
  have hBelow : ∀ d' ∈ rest, d' < d := hSorted.1
  constructor
  case cell_eq =>
    intro k
    rw [openOn_close]
    by_cases hSame : k = scope.key
    · subst hSame
      rw [Function.update_self, hInv.saved d scope hGet hOpen,
        hCons, List.filter_cons_of_neg (by simp),
        List.filter_cons_of_neg (by simp)]
      congr 1
      apply List.filter_congr
      intro d' hMem
      have hLt := hBelow d' hMem
      simp [hLt, hLt.ne]
    · rw [Function.update_of_ne hSame, hInv.cell_eq]
      rw [List.filter_eq_self.mpr]
      intro d' hMem
      rw [decide_eq_true_eq]
      rintro rfl
      rcases mem_openOn.mp hMem with ⟨other, hOther, _, hKey⟩
      rcases Option.some.inj (hGet.symm.trans hOther) with
        rfl
      exact hSame hKey.symm
  case saved =>
    intro d' other hOther hOtherOpen
    by_cases hSame : d = d'
    · subst hSame
      rw [List.getElem?_modify_eq, hGet] at hOther
      rcases Option.some.inj hOther with rfl
      cases hOtherOpen
    · rw [List.getElem?_modify_ne _ _ hSame] at hOther
      rw [hInv.saved d' other hOther hOtherOpen, openOn_close,
        List.filter_filter]
      congr 1
      apply List.filter_congr
      intro d'' hMem
      by_cases hKey : other.key = scope.key
      · -- The innermost scope is not below another one.
        have hAmong : d' ∈ openOn scopes scope.key :=
          mem_openOn.mpr ⟨other, hOther, hOtherOpen, hKey⟩
        rw [hCons, List.mem_cons] at hAmong
        have hLt : d' < d :=
          hAmong.elim (fun h => absurd h.symm hSame) (hBelow d')
        by_cases hUnder : d'' < d'
        · have hNe : d'' ≠ d := by omega
          simp [hUnder, hNe]
        · simp [hUnder]
      · have hNe : d'' ≠ d := by
          rintro rfl
          rcases mem_openOn.mp hMem with ⟨at', hAt, _, hOn⟩
          rcases Option.some.inj (hGet.symm.trans hAt) with
            rfl
          exact hKey hOn.symm
        simp [hNe]

end Nested

end Scopes
