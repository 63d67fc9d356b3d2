import Mathlib.Algebra.GroupWithZero.Nat
import Mathlib.Data.List.AList

/-
  A finite map of counts, where an absent key counts zero.

  A program that counts what it holds for each key keeps
  such a map, adds an entry on the first of a kind and may
  drop an entry that reaches zero. The total is the sum over
  the entries.

  Main declarations:
    * `Tally` and `Tally.get`
    * `Tally.total` and how it changes
    * `Tally.NoZero` and `Tally.eq_empty_of_total`
-/

------------------------------------------------------------
-- Counts
------------------------------------------------------------

abbrev Tally (α : Type*) := AList fun _ : α => Nat

namespace Tally

variable {α : Type*}
variable [DecidableEq α]

def get
    (tally : Tally α)
    (key : α) : Nat :=
  (tally.lookup key).getD 0

def total (tally : Tally α) : Nat :=
  (tally.entries.map Sigma.snd).sum

/- No entry counts zero. -/
def NoZero (tally : Tally α) : Prop :=
  ∀ key, tally.lookup key ≠ some 0

@[simp] theorem get_empty (key : α) :
    get (∅ : Tally α) key = 0 := rfl

@[simp] theorem get_insert
    (tally : Tally α)
    (key : α)
    (count : Nat) :
    get (tally.insert key count) key = count := by
  simp [get]

theorem get_insert_ne
    (tally : Tally α)
    {key other : α}
    (count : Nat)
    (hNe : other ≠ key) :
    get (tally.insert key count) other =
      get tally other := by
  simp [get, AList.lookup_insert_ne hNe]

@[simp] theorem get_erase
    (tally : Tally α)
    (key : α) :
    get (tally.erase key) key = 0 := by
  simp [get]

theorem get_erase_ne
    (tally : Tally α)
    {key other : α}
    (hNe : other ≠ key) :
    get (tally.erase key) other = get tally other := by
  simp [get, AList.lookup_erase_ne hNe]

------------------------------------------------------------
-- Totals
------------------------------------------------------------

omit [DecidableEq α] in
@[simp] theorem total_empty :
    total (∅ : Tally α) = 0 := rfl

/- Dropping a key takes its count out of the sum. -/
theorem sum_kerase
    (key : α)
    (entries : List (Sigma fun _ : α => Nat))
    (hNodup : entries.NodupKeys) :
    ((entries.kerase key).map Sigma.snd).sum +
        (entries.dlookup key).getD 0 =
      (entries.map Sigma.snd).sum := by
  induction entries with
  | nil => rfl
  | cons entry rest ih =>
      rcases entry with ⟨key', count⟩
      rcases List.nodupKeys_cons.mp hNodup with
        ⟨hFresh, hRest⟩
      by_cases hSame : key = key'
      · subst hSame
        simp [Nat.add_comm]
      · have hSum := ih hRest
        simp only [List.kerase_cons_ne, List.dlookup_cons_ne,
          hSame, ne_eq, not_false_eq_true, List.map_cons,
          List.sum_cons]
        omega

theorem total_erase
    (tally : Tally α)
    (key : α) :
    total (tally.erase key) + get tally key =
      total tally :=
  sum_kerase key tally.entries tally.nodupKeys

theorem total_insert
    (tally : Tally α)
    (key : α)
    (count : Nat) :
    total (tally.insert key count) + get tally key =
      total tally + count := by
  have hErase := sum_kerase key tally.entries tally.nodupKeys
  simp only [total, get, AList.entries_insert,
    List.map_cons, List.sum_cons, AList.lookup]
  omega

------------------------------------------------------------
-- Entries That Count Nothing
------------------------------------------------------------

theorem noZero_empty : NoZero (∅ : Tally α) := by
  intro key
  simp

theorem NoZero.insert
    {tally : Tally α}
    (hNoZero : NoZero tally)
    (key : α)
    {count : Nat}
    (hPos : count ≠ 0) :
    NoZero (tally.insert key count) := by
  intro other
  by_cases hSame : other = key
  · subst hSame
    simpa using hPos
  · rw [AList.lookup_insert_ne hSame]
    exact hNoZero other

theorem NoZero.erase
    {tally : Tally α}
    (hNoZero : NoZero tally)
    (key : α) :
    NoZero (tally.erase key) := by
  intro other
  by_cases hSame : other = key
  · subst hSame
    simp
  · rw [AList.lookup_erase_ne hSame]
    exact hNoZero other

/- A key that counts has an entry with its count. -/
theorem lookup_of_get_pos
    {tally : Tally α}
    {key : α}
    (hPos : 0 < get tally key) :
    tally.lookup key = some (get tally key) := by
  cases hLookup : tally.lookup key with
  | none => simp [get, hLookup] at hPos
  | some count => simp [get, hLookup]

theorem eq_empty_of_total
    {tally : Tally α}
    (hNoZero : NoZero tally)
    (hTotal : total tally = 0) :
    tally = ∅ := by
  apply AList.ext
  cases hEntries : tally.entries with
  | nil => rfl
  | cons entry rest =>
      rcases entry with ⟨key, count⟩
      have hCount : count = 0 := by
        simp only [total, hEntries, List.map_cons,
          List.sum_cons] at hTotal
        omega
      refine absurd ?_ (hNoZero key)
      rw [AList.lookup, hEntries, List.dlookup_cons_eq,
        hCount]

end Tally
