import Mathlib.Data.List.Basic

/-
  Lists of records of which one is changed at a time.

  A concurrent program's actors are kept in a list, and an
  actor's step changes its own record. What holds of every
  record, and how many records have a property, follow from
  what the step does to that one.

  Main declarations:
    * `Records.forall_getElem?_modify`
    * `Records.forall_getElem?_concat`
    * `Records.mem_modify_of_getElem?`
    * `Records.countP_modify`
    * `Records.filterMap_getElem?_sublist`
    * `Records.Related`
-/

------------------------------------------------------------
-- Properties Of Every Record
------------------------------------------------------------

namespace Records

variable {α : Type*}
variable {xs : List α}
variable {i : Nat}

/- A place has one record. -/
theorem forall_of_getElem?
    {P : α → Prop}
    {a : α}
    (hGet : xs[i]? = some a)
    (hHolds : P a) :
    ∀ b, xs[i]? = some b → P b := by
  intro b hOther
  rw [hGet, Option.some.injEq] at hOther
  exact hOther ▸ hHolds

/- A property of every record, kept by changing one of them. -/
theorem forall_getElem?_modify
    {P : Nat → α → Prop}
    {f : α → α}
    (hAll : ∀ j a, xs[j]? = some a → j ≠ i → P j a)
    (hAt : ∀ a, xs[i]? = some a → P i (f a)) :
    ∀ j a, (xs.modify i f)[j]? = some a → P j a := by
  intro j a hGet
  by_cases hSame : i = j
  · subst hSame
    rw [List.getElem?_modify_eq, Option.map_eq_map,
      Option.map_eq_some_iff] at hGet
    rcases hGet with ⟨b, hB, rfl⟩
    exact hAt b hB
  · rw [List.getElem?_modify_ne _ _ hSame] at hGet
    exact hAll j a hGet (Ne.symm hSame)

/- A property of every record that the change keeps. -/
theorem forall_getElem?_modify_of_forall
    {P : Nat → α → Prop}
    {f : α → α}
    (hAll : ∀ j a, xs[j]? = some a → P j a)
    (hAt : ∀ a, xs[i]? = some a → P i a → P i (f a)) :
    ∀ j a, (xs.modify i f)[j]? = some a → P j a :=
  forall_getElem?_modify
    (fun j a hGet _ => hAll j a hGet)
    (fun a hGet => hAt a hGet (hAll i a hGet))

/- A property of every record, and of one that is added. -/
theorem forall_getElem?_concat
    {P : Nat → α → Prop}
    {a : α}
    (hAll : ∀ j b, xs[j]? = some b → P j b)
    (hLast : P xs.length a) :
    ∀ j b, (xs ++ [a])[j]? = some b → P j b := by
  intro j b hGet
  by_cases hOld : j < xs.length
  · rw [List.getElem?_append_left hOld] at hGet
    exact hAll j b hGet
  · rw [List.getElem?_append_right (Nat.le_of_not_lt hOld),
      List.getElem?_singleton] at hGet
    split at hGet
    · next hSame =>
        rcases Option.some.inj hGet with rfl
        obtain rfl : j = xs.length := by omega
        exact hLast
    · cases hGet

/- A record of a changed list is the changed one or an old. -/
theorem getElem?_modify_eq_some
    {f : α → α}
    {j : Nat}
    {b : α} :
    (xs.modify i f)[j]? = some b ↔
      (i ≠ j ∧ xs[j]? = some b) ∨
        (i = j ∧ ∃ a, xs[i]? = some a ∧ f a = b) := by
  by_cases hSame : i = j
  · subst hSame
    simp [List.getElem?_modify_eq]
  · simp [List.getElem?_modify_ne _ _ hSame, hSame]

theorem getElem?_concat_eq_some
    {a b : α}
    {j : Nat} :
    (xs ++ [a])[j]? = some b ↔
      xs[j]? = some b ∨ (j = xs.length ∧ a = b) := by
  by_cases hOld : j < xs.length
  · have hNe : j ≠ xs.length := Nat.ne_of_lt hOld
    simp [List.getElem?_append_left hOld, hNe]
  · have hOut : xs[j]? = none :=
      List.getElem?_eq_none_iff.mpr (Nat.le_of_not_lt hOld)
    rw [List.getElem?_append_right (Nat.le_of_not_lt hOld),
      List.getElem?_singleton, hOut]
    have hIff : j - xs.length = 0 ↔ j = xs.length := by omega
    simp [hIff]

/- What is at every place, when one record is changed. -/
theorem forall_lookup_modify
    {Q : Nat → Option α → Prop}
    {f : α → α}
    {a : α}
    (hGet : xs[i]? = some a)
    (hAt : Q i (some (f a)))
    (hOther : ∀ j, i ≠ j → Q j xs[j]?) :
    ∀ j, Q j (xs.modify i f)[j]? := by
  intro j
  by_cases hSame : i = j
  · subst hSame
    rw [List.getElem?_modify_eq, hGet]
    exact hAt
  · rw [List.getElem?_modify_ne _ _ hSame]
    exact hOther j hSame

/- The same when the change keeps what was there. -/
theorem forall_lookup_modify_of_forall
    {Q : Nat → Option α → Prop}
    {f : α → α}
    (hAll : ∀ j, Q j xs[j]?)
    (hAt :
      ∀ a, xs[i]? = some a →
        Q i (some a) → Q i (some (f a))) :
    ∀ j, Q j (xs.modify i f)[j]? := by
  intro j
  have hOld := hAll j
  by_cases hSame : i = j
  · subst hSame
    rw [List.getElem?_modify_eq]
    cases hGet : xs[i]? with
    | none =>
        rw [hGet] at hOld
        exact hOld
    | some a =>
        rw [hGet] at hOld
        exact hAt a hGet hOld
  · rw [List.getElem?_modify_ne _ _ hSame]
    exact hOld

/- What is at a place, when records are added. -/
theorem lookup_append
    {Q : Option α → Prop}
    {more : List α}
    {j : Nat}
    (hOld : Q xs[j]?)
    (hNew : ∀ a ∈ more, Q none → Q (some a)) :
    Q (xs ++ more)[j]? := by
  by_cases hIn : j < xs.length
  · rw [List.getElem?_append_left hIn]
    exact hOld
  · have hLe := Nat.le_of_not_lt hIn
    rw [List.getElem?_append_right hLe]
    rw [List.getElem?_eq_none_iff.mpr hLe] at hOld
    cases hGet : more[j - xs.length]? with
    | none => exact hOld
    | some a => exact hNew a (List.mem_of_getElem? hGet) hOld

/- A record stays in its place when others are added. -/
theorem getElem?_mono
    {ys : List α}
    (hPrefix : xs <+: ys)
    {j : Nat}
    {a : α}
    (hGet : xs[j]? = some a) :
    ys[j]? = some a := by
  rcases hPrefix with ⟨rest, rfl⟩
  rw [List.getElem?_append_left
    (List.getElem?_eq_some_iff.mp hGet).1]
  exact hGet

/- A view of the records, when one of them is changed. -/
theorem map_modify
    {β : Type*}
    {f : α → α}
    {g : α → β}
    {h : β → β}
    (hView : ∀ a, g (f a) = h (g a)) :
    (xs.modify i f).map g = (xs.map g).modify i h := by
  apply List.ext_getElem?
  intro j
  rw [List.getElem?_map, List.getElem?_modify,
    List.getElem?_modify, List.getElem?_map]
  cases xs[j]? with
  | none => rfl
  | some a => by_cases hSame : i = j <;> simp [hSame, hView]

/- A view that the change does not concern. -/
theorem map_modify_of_eq
    {β : Type*}
    {f : α → α}
    {g : α → β}
    (hSame : ∀ a, g (f a) = g a) :
    (xs.modify i f).map g = xs.map g := by
  rw [map_modify (h := id) hSame, List.modify_id]

theorem mem_modify_of_getElem?
    {a : α}
    (hGet : xs[i]? = some a)
    (f : α → α) :
    f a ∈ xs.modify i f :=
  List.mem_of_getElem? (i := i) (by simp [hGet])

/- A changed list has old records and the changed one. -/
theorem mem_of_mem_modify
    {f : α → α}
    {b : α}
    (hMem : b ∈ xs.modify i f) :
    b ∈ xs ∨ ∃ a, xs[i]? = some a ∧ f a = b := by
  rcases List.mem_iff_getElem?.mp hMem with ⟨j, hGet⟩
  by_cases hSame : i = j
  · subst hSame
    rw [List.getElem?_modify_eq, Option.map_eq_map,
      Option.map_eq_some_iff] at hGet
    exact .inr hGet
  · rw [List.getElem?_modify_ne _ _ hSame] at hGet
    exact .inl (List.mem_of_getElem? hGet)

/- A record other than the changed one stays in its place. -/
theorem getElem?_modify_of_ne
    {f : α → α}
    {a b : α}
    {j : Nat}
    (hAt : xs[j]? = some b)
    (hGet : xs[i]? = some a)
    (hNe : a ≠ b) :
    (xs.modify i f)[j]? = some b := by
  have hOther : i ≠ j := by
    rintro rfl
    exact hNe (Option.some.inj (hGet.symm.trans hAt))
  rw [List.getElem?_modify_ne _ _ hOther]
  exact hAt

theorem mem_modify_of_ne
    {f : α → α}
    {a b : α}
    (hMem : b ∈ xs)
    (hGet : xs[i]? = some a)
    (hNe : a ≠ b) :
    b ∈ xs.modify i f := by
  rcases List.mem_iff_getElem?.mp hMem with ⟨j, hAt⟩
  exact List.mem_of_getElem?
    (getElem?_modify_of_ne hAt hGet hNe)

------------------------------------------------------------
-- Counting Records
------------------------------------------------------------

/- A count changes by what changes at the record. -/
theorem countP_modify
    (p : α → Bool)
    {a : α}
    (hGet : xs[i]? = some a)
    (f : α → α) :
    (xs.modify i f).countP p + (p a).toNat =
      xs.countP p + (p (f a)).toNat := by
  induction xs generalizing i with
  | nil => simp at hGet
  | cons x xs ih =>
      cases i with
      | zero =>
          obtain rfl : x = a := by simpa using hGet
          cases hA : p x <;> cases hF : p (f x) <;>
            simp [hA, hF]
      | succ i =>
          have hRest := ih (i := i) (by simpa using hGet)
          cases hX : p x <;>
            simp only [List.modify_succ_cons, List.countP_cons,
              hX, Bool.false_eq_true, if_false, if_true] <;>
            omega

/- A count that the change does not concern. -/
theorem countP_modify_of_eq
    {p : α → Bool}
    {f : α → α}
    (hSame : ∀ a, xs[i]? = some a → p (f a) = p a) :
    (xs.modify i f).countP p = xs.countP p := by
  cases hGet : xs[i]? with
  | none =>
      have hOut := List.getElem?_eq_none_iff.mp hGet
      rw [List.modify_eq_self hOut]
  | some a =>
      have hCount := countP_modify p hGet f
      rw [hSame a hGet] at hCount
      omega

/- A count that the change can only lower. -/
theorem countP_modify_le
    {p : α → Bool}
    {f : α → α}
    (hImp : ∀ a, xs[i]? = some a → p (f a) = true → p a = true) :
    (xs.modify i f).countP p ≤ xs.countP p := by
  cases hGet : xs[i]? with
  | none =>
      have hOut := List.getElem?_eq_none_iff.mp hGet
      exact Nat.le_of_eq
        (congrArg _ (List.modify_eq_self hOut))
  | some a =>
      have hCount := countP_modify p hGet f
      have hLe : (p (f a)).toNat ≤ (p a).toNat := by
        have hBefore := hImp a hGet
        cases hAfter : p (f a) with
        | false => exact Nat.zero_le _
        | true => exact hBefore hAfter ▸ Nat.le_refl _
      omega

theorem countP_pos_of_getElem?
    {p : α → Bool}
    {a : α}
    (hGet : xs[i]? = some a)
    (hHolds : p a = true) :
    0 < xs.countP p :=
  List.countP_pos_iff.mpr
    ⟨a, List.mem_of_getElem? hGet, hHolds⟩

/- Two records that have it are counted twice. -/
theorem two_le_countP_of_lt
    {p : α → Bool}
    {j : Nat}
    {a b : α}
    (hLt : i < j)
    (hGet : xs[i]? = some a)
    (hGet' : xs[j]? = some b)
    (hA : p a = true)
    (hB : p b = true) :
    2 ≤ xs.countP p := by
  have hSplit :
      xs.countP p =
        (xs.take j).countP p + (xs.drop j).countP p := by
    rw [← List.countP_append, List.take_append_drop]
  have hTake : (xs.take j)[i]? = some a := by
    rw [List.getElem?_take_of_lt hLt]
    exact hGet
  have hDrop : (xs.drop j)[0]? = some b := by
    rw [List.getElem?_drop]
    exact hGet'
  have hFirst := countP_pos_of_getElem? hTake hA
  have hSecond := countP_pos_of_getElem? hDrop hB
  omega

theorem two_le_countP
    {p : α → Bool}
    {j : Nat}
    {a b : α}
    (hNe : i ≠ j)
    (hGet : xs[i]? = some a)
    (hGet' : xs[j]? = some b)
    (hA : p a = true)
    (hB : p b = true) :
    2 ≤ xs.countP p := by
  rcases Nat.lt_or_gt_of_ne hNe with hLt | hLt
  · exact two_le_countP_of_lt hLt hGet hGet' hA hB
  · exact two_le_countP_of_lt hLt hGet' hGet hB hA

------------------------------------------------------------
-- Subsequences
------------------------------------------------------------

/- What stands at rising places is a subsequence. -/
theorem filterMap_getElem?_sublist
    {places : List Nat}
    (hRising : places.Pairwise (· < ·)) :
    (places.filterMap fun j => xs[j]?).Sublist xs := by
  have hPlaces :
      (places.filterMap fun j => xs[j]?) =
        (places.filterMap fun j =>
          if hLt : j < xs.length then
            some (⟨j, hLt⟩ : Fin xs.length)
          else
            none).map fun place => xs[place] := by
    rw [List.map_filterMap]
    apply List.filterMap_congr
    intro j _
    by_cases hLt : j < xs.length
    · simp [hLt]
    · simp [hLt]
  rw [hPlaces]
  apply List.map_getElem_sublist
  rw [List.pairwise_filterMap]
  apply hRising.imp
  intro j j' hLt place hPlace place' hPlace'
  split at hPlace
  · split at hPlace'
    · cases hPlace
      cases hPlace'
      exact hLt
    · cases hPlace'
  · cases hPlace

------------------------------------------------------------
-- Two Lists Of Records
------------------------------------------------------------

variable {β : Type*}
variable {ys : List β}

/- The lists have related records, place by place. -/
def Related
    (R : α → β → Prop)
    (xs : List α)
    (ys : List β) : Prop :=
  ∀ j : Nat, Option.Rel R xs[j]? ys[j]?

theorem Related.some
    {R : α → β → Prop}
    (hAll : Related R xs ys)
    {a : α}
    (hGet : xs[i]? = .some a) :
    ∃ b, ys[i]? = .some b ∧ R a b := by
  have hAt := hAll i
  rw [hGet] at hAt
  cases hOther : ys[i]? with
  | none =>
      rw [hOther] at hAt
      cases hAt
  | some b =>
      rw [hOther] at hAt
      rcases hAt with hRel | _
      exact ⟨b, rfl, hRel⟩

theorem Related.some_right
    {R : α → β → Prop}
    (hAll : Related R xs ys)
    {b : β}
    (hGet : ys[i]? = .some b) :
    ∃ a, xs[i]? = .some a ∧ R a b := by
  have hAt := hAll i
  rw [hGet] at hAt
  cases hOther : xs[i]? with
  | none =>
      rw [hOther] at hAt
      cases hAt
  | some a =>
      rw [hOther] at hAt
      rcases hAt with hRel | _
      exact ⟨a, rfl, hRel⟩

theorem Related.length_eq
    {R : α → β → Prop}
    (hAll : Related R xs ys) :
    xs.length = ys.length := by
  have hIff : ∀ j, xs.length ≤ j ↔ ys.length ≤ j := by
    intro j
    have hAt := hAll j
    rw [← List.getElem?_eq_none_iff,
      ← List.getElem?_eq_none_iff]
    generalize xs[j]? = x at hAt ⊢
    generalize ys[j]? = y at hAt ⊢
    cases hAt with
    | some hRel => simp
    | none => simp
  exact Nat.le_antisymm ((hIff _).mpr (Nat.le_refl _))
    ((hIff _).mp (Nat.le_refl _))

/- The records at one place change together. -/
theorem Related.modify
    {R : α → β → Prop}
    (hAll : Related R xs ys)
    {f : α → α}
    {g : β → β}
    (hAt :
      ∀ a b, xs[i]? = .some a → ys[i]? = .some b → R a b →
        R (f a) (g b)) :
    Related R (xs.modify i f) (ys.modify i g) := by
  intro j
  have hRel := hAll j
  by_cases hSame : i = j
  · subst hSame
    rw [List.getElem?_modify_eq, List.getElem?_modify_eq]
    cases hX : xs[i]? with
    | none =>
        cases hY : ys[i]? with
        | none => exact .none
        | some b =>
            rw [hX, hY] at hRel
            cases hRel
    | some a =>
        rcases hAll.some hX with ⟨b, hY, hR⟩
        rw [hY]
        exact .some (hAt a b hX hY hR)
  · rw [List.getElem?_modify_ne _ _ hSame,
      List.getElem?_modify_ne _ _ hSame]
    exact hRel

/- Only the first list's record changes. -/
theorem Related.modify_left
    {R : α → β → Prop}
    (hAll : Related R xs ys)
    {f : α → α}
    (hAt :
      ∀ a b, xs[i]? = .some a → ys[i]? = .some b → R a b →
        R (f a) b) :
    Related R (xs.modify i f) ys := by
  have hBoth := hAll.modify (g := id) hAt
  rwa [List.modify_id] at hBoth

theorem Related.concat
    {R : α → β → Prop}
    (hAll : Related R xs ys)
    {a : α}
    {b : β}
    (hLast : R a b) :
    Related R (xs ++ [a]) (ys ++ [b]) := by
  intro j
  have hLength := hAll.length_eq
  by_cases hOld : j < xs.length
  · rw [List.getElem?_append_left hOld,
      List.getElem?_append_left (hLength ▸ hOld)]
    exact hAll j
  · have hLe := Nat.le_of_not_lt hOld
    rw [List.getElem?_append_right hLe,
      List.getElem?_append_right (hLength ▸ hLe), ← hLength]
    by_cases hZero : j - xs.length = 0
    · rw [hZero]
      exact .some hLast
    · obtain ⟨n, hN⟩ := Nat.exists_eq_succ_of_ne_zero hZero
      rw [hN]
      exact .none

end Records
