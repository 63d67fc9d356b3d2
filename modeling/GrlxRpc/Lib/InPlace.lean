import Mathlib.Algebra.GroupWithZero.Nat
import Mathlib.Data.List.Basic

/-
  Loading objects in place.

  A loader fills an object from a source. It may fail at any
  point, and then leaves the object as it was filled so far.
  Containers are loaded in the usual way: read the number of
  elements, resize, load the elements in order.

  What a composed loader does follows from its parts: what
  it reads back, what a success has read, what it pays for
  the elements it makes room for, and that two loaders
  succeed alike.

  Main declarations:
    * `InPlace.Loader` with `andThen`, `each`, `container`
    * `InPlace.Source` and `Loader.Reads`
    * `Source.Joins` and `Loader.Parses`
    * `Loader.Pays` and `Loader.Limits`
    * `Loader.Agrees`
-/

------------------------------------------------------------
-- Loaders
------------------------------------------------------------

namespace InPlace

/-
  How a load ends: the object as it was left, the element
  counts to which containers were resized, and the source
  after it, or `none` when the loader failed.
-/
structure Loaded (σ α : Type) where
  object : α
  resized : List Nat
  rest : Option σ

abbrev Loader (σ α : Type) :=
  σ → α → Loaded σ α

/- `xs` cut or filled up to `count` elements. -/
def resize
    {α : Type}
    (fill : α)
    (count : Nat)
    (xs : List α) : List α :=
  xs.take count ++ List.replicate (count - xs.length) fill

@[simp] theorem length_resize
    {α : Type}
    (fill : α)
    (count : Nat)
    (xs : List α) :
    (resize fill count xs).length = count := by
  simp only [resize, List.length_append, List.length_take,
    List.length_replicate]
  omega

namespace Loader

variable {σ α β : Type}

def unit : Loader σ Unit :=
  fun s object => ⟨object, [], some s⟩

/- The second object only after the first. -/
def andThen
    (first : Loader σ α)
    (second : Loader σ β) : Loader σ (α × β) :=
  fun s object =>
    match first s object.1 with
    | ⟨a, resized, none⟩ => ⟨(a, object.2), resized, none⟩
    | ⟨a, resized, some rest⟩ =>
        let tail := second rest object.2
        ⟨(a, tail.object), resized ++ tail.resized, tail.rest⟩

/- Every element in place, up to the first failure. -/
def each (load : Loader σ α) : Loader σ (List α)
  | s, [] => ⟨[], [], some s⟩
  | s, x :: xs =>
      match load s x with
      | ⟨y, resized, none⟩ => ⟨y :: xs, resized, none⟩
      | ⟨y, resized, some rest⟩ =>
          let tail := each load rest xs
          ⟨y :: tail.object, resized ++ tail.resized,
            tail.rest⟩

/- Read the number of elements, resize, load them. -/
def container
    (readSize : σ → Option (Nat × σ))
    (fill : α)
    (elements : Loader σ (List α)) : Loader σ (List α) :=
  fun s xs =>
    match readSize s with
    | none => ⟨xs, [], none⟩
    | some (count, rest) =>
        let result := elements rest (resize fill count xs)
        ⟨result.object, count :: result.resized, result.rest⟩

section Steps

variable {first : Loader σ α} {second : Loader σ β}
variable {load : Loader σ α}
variable {readSize : σ → Option (Nat × σ)}
variable {fill : α} {elements : Loader σ (List α)}
variable {s m : σ}

theorem andThen_of_none
    {object : α × β}
    (hRest : (first s object.1).rest = none) :
    andThen first second s object =
      ⟨((first s object.1).object, object.2),
        (first s object.1).resized, none⟩ := by
  unfold andThen
  rcases hFirst : first s object.1 with ⟨a, resized, rest⟩
  obtain rfl : rest = none := by simpa [hFirst] using hRest
  rfl

theorem andThen_of_some
    {object : α × β}
    (hRest : (first s object.1).rest = some m) :
    andThen first second s object =
      ⟨((first s object.1).object,
          (second m object.2).object),
        (first s object.1).resized ++
          (second m object.2).resized,
        (second m object.2).rest⟩ := by
  unfold andThen
  rcases hFirst : first s object.1 with ⟨a, resized, rest⟩
  obtain rfl : rest = some m := by simpa [hFirst] using hRest
  rfl

/- A pair that was loaded had its first half loaded. -/
theorem first_of_andThen
    {object : α × β}
    {s' : σ}
    (hRest :
      (andThen first second s object).rest = some s') :
    ∃ m, (first s object.1).rest = some m ∧
      (second m object.2).rest = some s' := by
  cases hMid : (first s object.1).rest with
  | none =>
      rw [andThen_of_none hMid] at hRest
      cases hRest
  | some m =>
      rw [andThen_of_some hMid] at hRest
      exact ⟨m, rfl, hRest⟩

theorem each_of_none
    {x : α}
    {xs : List α}
    (hRest : (load s x).rest = none) :
    each load s (x :: xs) =
      ⟨(load s x).object :: xs, (load s x).resized, none⟩ := by
  rw [each]
  rcases hLoad : load s x with ⟨y, resized, rest⟩
  obtain rfl : rest = none := by simpa [hLoad] using hRest
  rfl

theorem each_of_some
    {x : α}
    {xs : List α}
    (hRest : (load s x).rest = some m) :
    each load s (x :: xs) =
      ⟨(load s x).object :: (each load m xs).object,
        (load s x).resized ++ (each load m xs).resized,
        (each load m xs).rest⟩ := by
  rw [each]
  rcases hLoad : load s x with ⟨y, resized, rest⟩
  obtain rfl : rest = some m := by simpa [hLoad] using hRest
  rfl

/- A list that was loaded had its head loaded. -/
theorem load_of_each
    {x : α}
    {xs : List α}
    {s' : σ}
    (hRest : (each load s (x :: xs)).rest = some s') :
    ∃ m, (load s x).rest = some m ∧
      (each load m xs).rest = some s' := by
  cases hMid : (load s x).rest with
  | none =>
      rw [each_of_none hMid] at hRest
      cases hRest
  | some m =>
      rw [each_of_some hMid] at hRest
      exact ⟨m, rfl, hRest⟩

theorem container_of_none
    {xs : List α}
    (hSize : readSize s = none) :
    container readSize fill elements s xs =
      ⟨xs, [], none⟩ := by
  simp only [container, hSize]

theorem container_of_some
    {xs : List α}
    {count : Nat}
    (hSize : readSize s = some (count, m)) :
    container readSize fill elements s xs =
      ⟨(elements m (resize fill count xs)).object,
        count :: (elements m (resize fill count xs)).resized,
        (elements m (resize fill count xs)).rest⟩ := by
  simp only [container, hSize]

/- A container that was loaded had its size read. -/
theorem size_of_container
    {xs : List α}
    {s' : σ}
    (hRest :
      (container readSize fill elements s xs).rest =
        some s') :
    ∃ count m, readSize s = some (count, m) ∧
      (elements m (resize fill count xs)).rest =
        some s' := by
  cases hRead : readSize s with
  | none =>
      rw [container_of_none hRead] at hRest
      cases hRest
  | some sized =>
      rw [container_of_some hRead] at hRest
      exact ⟨sized.1, sized.2, rfl, hRest⟩

end Steps

end Loader

------------------------------------------------------------
-- Reading Back What Was Written
------------------------------------------------------------

/-
  What it means that reading `bytes` takes a source to
  another, which is read piece by piece.
-/
structure Source (σ β : Type) where
  Takes : σ → List β → σ → Prop
  takes_nil : ∀ {s s'}, Takes s [] s' → s = s'
  takes_append :
    ∀ {s s'} {front back : List β},
      Takes s (front ++ back) s' →
        ∃ m, Takes s front m ∧ Takes m back s'

namespace Loader

variable {σ α β γ : Type}
variable {source : Source σ γ}

/- The loader reads back what `write` writes. -/
def Reads
    (source : Source σ γ)
    (load : Loader σ α)
    (write : α → List γ) : Prop :=
  ∀ s s' value object,
    source.Takes s (write value) s' →
      (load s object).object = value ∧
        (load s object).rest = some s'

/- As `Reads`, into a container that has the right size. -/
def ReadsAll
    (source : Source σ γ)
    (elements : Loader σ (List α))
    (write : α → List γ) : Prop :=
  ∀ s s' values objects,
    objects.length = values.length →
    source.Takes s (values.flatMap write) s' →
      (elements s objects).object = values ∧
        (elements s objects).rest = some s'

theorem reads_unit (source : Source σ γ) :
    Reads source unit fun _ => [] := by
  intro s s' value object hTakes
  exact ⟨rfl, congrArg some (source.takes_nil hTakes)⟩

theorem Reads.andThen
    {first : Loader σ α}
    {second : Loader σ β}
    {write : α → List γ}
    {write' : β → List γ}
    (hFirst : Reads source first write)
    (hSecond : Reads source second write') :
    Reads source (Loader.andThen first second) fun value =>
      write value.1 ++ write' value.2 := by
  intro s s' value object hTakes
  rcases source.takes_append hTakes with ⟨m, hFront, hBack⟩
  rcases hFirst s m value.1 object.1 hFront with ⟨hA, hRest⟩
  rcases hSecond m s' value.2 object.2 hBack with ⟨hB, hRest'⟩
  rw [andThen_of_some hRest, hA, hB, hRest']
  exact ⟨rfl, rfl⟩

theorem Reads.each
    {load : Loader σ α}
    {write : α → List γ}
    (hLoad : Reads source load write) :
    ReadsAll source (Loader.each load) write := by
  intro s s' values objects hLength hTakes
  induction values generalizing s objects with
  | nil =>
      obtain rfl : objects = [] :=
        List.eq_nil_of_length_eq_zero hLength
      rcases source.takes_nil hTakes with rfl
      exact ⟨rfl, rfl⟩
  | cons value values ih =>
      rcases objects with _ | ⟨object, objects⟩
      · simp at hLength
      · rw [List.flatMap_cons] at hTakes
        rcases source.takes_append hTakes with
          ⟨m, hFront, hBack⟩
        rcases hLoad s m value object hFront with ⟨hA, hRest⟩
        rcases ih m objects (by simpa using hLength) hBack
          with ⟨hAs, hRests⟩
        rw [each_of_some hRest, hA, hAs, hRests]
        exact ⟨rfl, rfl⟩

theorem ReadsAll.container
    {elements : Loader σ (List α)}
    {write : α → List γ}
    (hElements : ReadsAll source elements write)
    {readSize : σ → Option (Nat × σ)}
    {header : Nat → List γ}
    (hSize :
      ∀ s s' (values : List α),
        source.Takes s
            (header values.length ++ values.flatMap write)
            s' →
          ∃ m, readSize s = some (values.length, m) ∧
            source.Takes m (values.flatMap write) s')
    (fill : α) :
    Reads source (Loader.container readSize fill elements)
      fun values =>
        header values.length ++ values.flatMap write := by
  intro s s' values objects hTakes
  rcases hSize s s' values hTakes with ⟨m, hRead, hBack⟩
  rw [container_of_some hRead]
  exact hElements m s' values _ (length_resize _ _ _) hBack

end Loader

------------------------------------------------------------
-- What A Successful Load Has Read
------------------------------------------------------------

/- Where `Good` holds, pieces that were read can be joined. -/
structure Source.Joins
    {σ β : Type}
    (source : Source σ β)
    (Good : σ → Prop) : Prop where
  takes_nil : ∀ {s}, Good s → source.Takes s [] s
  takes_append :
    ∀ {s m s'} {front back : List β},
      source.Takes s front m →
        source.Takes m back s' →
          source.Takes s (front ++ back) s'

namespace Loader

variable {σ α β γ : Type}
variable {source : Source σ γ}
variable {Good : σ → Prop}

/-
  A load that succeeds has read what `write` writes for the
  object that it leaves.
-/
def Parses
    (source : Source σ γ)
    (Good : σ → Prop)
    (load : Loader σ α)
    (write : α → List γ) : Prop :=
  ∀ s object s',
    Good s →
    (load s object).rest = some s' →
      Good s' ∧
        source.Takes s (write (load s object).object) s'

/- As `Parses`, into a container that keeps its size. -/
def ParsesAll
    (source : Source σ γ)
    (Good : σ → Prop)
    (elements : Loader σ (List α))
    (write : α → List γ) : Prop :=
  ∀ s objects s',
    Good s →
    (elements s objects).rest = some s' →
      Good s' ∧
        (elements s objects).object.length =
          objects.length ∧
        source.Takes s
          ((elements s objects).object.flatMap write) s'

theorem parses_unit
    (hJoins : source.Joins Good) :
    Parses source Good unit fun _ => [] := by
  intro s object s' hGood hRest
  obtain rfl : s = s' := Option.some.inj hRest
  exact ⟨hGood, hJoins.takes_nil hGood⟩

theorem Parses.andThen
    {first : Loader σ α}
    {second : Loader σ β}
    {write : α → List γ}
    {write' : β → List γ}
    (hJoins : source.Joins Good)
    (hFirst : Parses source Good first write)
    (hSecond : Parses source Good second write') :
    Parses source Good (Loader.andThen first second)
      fun value => write value.1 ++ write' value.2 := by
  intro s object s' hGood hRest
  rcases first_of_andThen hRest with ⟨m, hMid, hRest⟩
  rw [andThen_of_some hMid]
  rcases hFirst s object.1 m hGood hMid with
    ⟨hGoodMid, hFront⟩
  rcases hSecond m object.2 s' hGoodMid hRest with
    ⟨hGood', hBack⟩
  exact ⟨hGood', hJoins.takes_append hFront hBack⟩

theorem Parses.each
    {load : Loader σ α}
    {write : α → List γ}
    (hJoins : source.Joins Good)
    (hLoad : Parses source Good load write) :
    ParsesAll source Good (Loader.each load) write := by
  intro s objects s' hGood hRest
  induction objects generalizing s with
  | nil =>
      obtain rfl : s = s' := Option.some.inj hRest
      exact ⟨hGood, rfl, hJoins.takes_nil hGood⟩
  | cons object objects ih =>
      rcases load_of_each hRest with ⟨m, hMid, hRest⟩
      rw [each_of_some hMid]
      rcases hLoad s object m hGood hMid with
        ⟨hGoodMid, hFront⟩
      rcases ih m hGoodMid hRest with
        ⟨hGood', hLength, hBack⟩
      refine ⟨hGood', congrArg Nat.succ hLength, ?_⟩
      rw [List.flatMap_cons]
      exact hJoins.takes_append hFront hBack

theorem ParsesAll.container
    {elements : Loader σ (List α)}
    {write : α → List γ}
    (hJoins : source.Joins Good)
    (hElements : ParsesAll source Good elements write)
    {readSize : σ → Option (Nat × σ)}
    {header : Nat → List γ}
    (hSize :
      ∀ s count m,
        Good s →
        readSize s = some (count, m) →
          Good m ∧ source.Takes s (header count) m)
    (fill : α) :
    Parses source Good
      (Loader.container readSize fill elements)
      fun values =>
        header values.length ++ values.flatMap write := by
  intro s objects s' hGood hRest
  rcases size_of_container hRest with ⟨count, m, hRead, hRest⟩
  rw [container_of_some hRead]
  rcases hSize s count m hGood hRead with
    ⟨hGoodMid, hFront⟩
  rcases hElements m _ s' hGoodMid hRest with
    ⟨hGood', hLength, hBack⟩
  rw [length_resize] at hLength
  refine ⟨hGood', ?_⟩
  dsimp only
  rw [hLength]
  exact hJoins.takes_append hFront hBack

end Loader

------------------------------------------------------------
-- Paying For The Elements
------------------------------------------------------------

namespace Loader

variable {σ α β : Type}
variable {Good : σ → Prop}
variable {left : σ → Nat}

/-
  A load that succeeds takes from what is `left` of the
  source one unit for each element it made room for, and
  `weight` more.
-/
def Pays
    (Good : σ → Prop)
    (left : σ → Nat)
    (load : Loader σ α)
    (weight : α → Nat) : Prop :=
  ∀ s object s',
    Good s →
    (load s object).rest = some s' →
      Good s' ∧
        (load s object).resized.sum + weight object + left s' ≤
          left s

/- A load that fails is `slack` short of paying. -/
def Limits
    (Good : σ → Prop)
    (left : σ → Nat)
    (load : Loader σ α)
    (slack : Nat) : Prop :=
  ∀ s object,
    Good s →
    (load s object).rest = none →
      (load s object).resized.sum ≤ left s + slack

theorem Pays.mono
    {load : Loader σ α}
    {weight weight' : α → Nat}
    (hPays : Pays Good left load weight)
    (hLe : ∀ object, weight' object ≤ weight object) :
    Pays Good left load weight' := by
  intro s object s' hGood hRest
  rcases hPays s object s' hGood hRest with ⟨hGood', hPaid⟩
  have hLess := hLe object
  exact ⟨hGood', by omega⟩

theorem Limits.mono
    {load : Loader σ α}
    {slack slack' : Nat}
    (hLimits : Limits Good left load slack)
    (hLe : slack ≤ slack') :
    Limits Good left load slack' := by
  intro s object hGood hRest
  have hSum := hLimits s object hGood hRest
  omega

theorem pays_unit :
    Pays Good left unit fun _ => 0 := by
  intro s object s' hGood hRest
  obtain rfl : s = s' := Option.some.inj hRest
  exact ⟨hGood, by simp [unit]⟩

theorem limits_unit :
    Limits Good left unit 0 := by
  intro s object _ hRest
  simp [unit] at hRest

theorem Pays.andThen
    {first : Loader σ α}
    {second : Loader σ β}
    {weight : α → Nat}
    {weight' : β → Nat}
    (hFirst : Pays Good left first weight)
    (hSecond : Pays Good left second weight') :
    Pays Good left (Loader.andThen first second)
      fun object => weight object.1 + weight' object.2 := by
  intro s object s' hGood hRest
  rcases first_of_andThen hRest with ⟨m, hMid, hRest⟩
  rw [andThen_of_some hMid]
  rcases hFirst s object.1 m hGood hMid with
    ⟨hGoodMid, hPaid⟩
  rcases hSecond m object.2 s' hGoodMid hRest with
    ⟨hGood', hPaid'⟩
  simp only [List.sum_append]
  exact ⟨hGood', by omega⟩

theorem Limits.andThen
    {first : Loader σ α}
    {second : Loader σ β}
    {weight : α → Nat}
    {slack : Nat}
    (hPays : Pays Good left first weight)
    (hFirst : Limits Good left first slack)
    (hSecond : Limits Good left second slack) :
    Limits Good left (Loader.andThen first second) slack := by
  intro s object hGood hRest
  cases hMid : (first s object.1).rest with
  | none =>
      rw [andThen_of_none hMid]
      exact hFirst s object.1 hGood hMid
  | some m =>
      rw [andThen_of_some hMid] at hRest ⊢
      rcases hPays s object.1 m hGood hMid with
        ⟨hGoodMid, hPaid⟩
      have hShort := hSecond m object.2 hGoodMid hRest
      simp only [List.sum_append]
      omega

/- Elements that pay one unit each pay for their container. -/
theorem Pays.each
    {load : Loader σ α}
    (hLoad : Pays Good left load fun _ => 1) :
    Pays Good left (Loader.each load) List.length := by
  intro s objects s' hGood hRest
  induction objects generalizing s with
  | nil =>
      obtain rfl : s = s' := Option.some.inj hRest
      exact ⟨hGood, by simp [Loader.each]⟩
  | cons object objects ih =>
      rcases load_of_each hRest with ⟨m, hMid, hRest⟩
      rw [each_of_some hMid]
      rcases hLoad s object m hGood hMid with
        ⟨hGoodMid, hPaid⟩
      rcases ih m hGoodMid hRest with ⟨hGood', hPaid'⟩
      simp only [List.sum_append, List.length_cons]
      exact ⟨hGood', by dsimp only at hPaid; omega⟩

theorem Limits.each
    {load : Loader σ α}
    {weight : α → Nat}
    {slack : Nat}
    (hPays : Pays Good left load weight)
    (hLoad : Limits Good left load slack) :
    Limits Good left (Loader.each load) slack := by
  intro s objects hGood hRest
  induction objects generalizing s with
  | nil => cases hRest
  | cons object objects ih =>
      cases hMid : (load s object).rest with
      | none =>
          rw [each_of_none hMid]
          exact hLoad s object hGood hMid
      | some m =>
          rw [each_of_some hMid] at hRest ⊢
          rcases hPays s object m hGood hMid with
            ⟨hGoodMid, hPaid⟩
          have hShort := ih m hGoodMid hRest
          simp only [List.sum_append]
          omega

/- Reading a size takes a unit at least. -/
def ReadsSize
    (Good : σ → Prop)
    (left : σ → Nat)
    (readSize : σ → Option (Nat × σ)) : Prop :=
  ∀ s count m,
    Good s →
    readSize s = some (count, m) →
      Good m ∧ left m + 1 ≤ left s

section Container

variable {readSize : σ → Option (Nat × σ)}
variable {elements : Loader σ (List α)}

theorem Pays.container
    (hSize : ReadsSize Good left readSize)
    (hElements : Pays Good left elements List.length)
    (fill : α) :
    Pays Good left
      (Loader.container readSize fill elements)
      fun _ => 1 := by
  intro s objects s' hGood hRest
  rcases size_of_container hRest with ⟨count, m, hRead, hRest⟩
  rw [container_of_some hRead]
  rcases hSize s count m hGood hRead with
    ⟨hGoodMid, hRoom⟩
  rcases hElements m _ s' hGoodMid hRest with
    ⟨hGood', hPaid⟩
  rw [length_resize] at hPaid
  simp only [List.sum_cons]
  exact ⟨hGood', by omega⟩

/- A failed container is short by its own size at most. -/
theorem Limits.container
    (hSize : ReadsSize Good left readSize)
    {most : Nat}
    (hMost :
      ∀ s count m,
        Good s →
        readSize s = some (count, m) →
          count ≤ most)
    {slack : Nat}
    (hElements : Limits Good left elements slack)
    (fill : α) :
    Limits Good left
      (Loader.container readSize fill elements)
      (most + slack) := by
  intro s objects hGood hRest
  cases hRead : readSize s with
  | none =>
      rw [container_of_none hRead]
      exact Nat.zero_le _
  | some sized =>
      rcases sized with ⟨count, m⟩
      rw [container_of_some hRead] at hRest ⊢
      rcases hSize s count m hGood hRead with
        ⟨hGoodMid, hRoom⟩
      have hShort := hElements m _ hGoodMid hRest
      have hCount := hMost s count m hGood hRead
      simp only [List.sum_cons]
      omega

end Container

end Loader

------------------------------------------------------------
-- Loaders That Succeed Alike
------------------------------------------------------------

namespace Loader

variable {σ α β : Type}
variable {Good : σ → Prop}
variable {left : σ → Nat}

/- When one of them succeeds the other does the same. -/
def Agrees
    (Good : σ → Prop)
    (load load' : Loader σ α) : Prop :=
  ∀ s object,
    Good s →
    (load s object).rest.isSome = true ∨
        (load' s object).rest.isSome = true →
      load s object = load' s object

theorem Agrees.refl (load : Loader σ α) :
    Agrees Good load load :=
  fun _ _ _ _ => rfl

/- Parts that succeed alike differ only if both fail. -/
theorem Agrees.eq_or_none
    {load load' : Loader σ α}
    (hAgrees : Agrees Good load load')
    {s : σ}
    (hGood : Good s)
    (object : α) :
    load s object = load' s object ∨
      (load s object).rest = none ∧
        (load' s object).rest = none := by
  cases hRest : (load s object).rest with
  | some m =>
      left
      exact hAgrees s object hGood (.inl (by simp [hRest]))
  | none =>
      cases hRest' : (load' s object).rest with
      | none => exact .inr ⟨rfl, rfl⟩
      | some m =>
          left
          exact hAgrees s object hGood
            (.inr (by simp [hRest']))

theorem Agrees.andThen
    {first first' : Loader σ α}
    {second second' : Loader σ β}
    {weight : α → Nat}
    (hFirst : Agrees Good first first')
    (hPays : Pays Good left first' weight)
    (hSecond : Agrees Good second second') :
    Agrees Good (Loader.andThen first second)
      (Loader.andThen first' second') := by
  intro s object hGood hSome
  rcases hFirst.eq_or_none hGood object.1 with
    hEq | ⟨hNone, hNone'⟩
  · cases hMid : (first' s object.1).rest with
    | none =>
        rw [andThen_of_none (hEq ▸ hMid),
          andThen_of_none hMid, hEq]
    | some m =>
        rw [andThen_of_some (hEq ▸ hMid),
          andThen_of_some hMid] at hSome ⊢
        have hGoodMid := (hPays s object.1 m hGood hMid).1
        rw [hEq, hSecond m object.2 hGoodMid hSome]
  · rw [andThen_of_none hNone,
      andThen_of_none hNone'] at hSome
    simp at hSome

theorem Agrees.each
    {load load' : Loader σ α}
    {weight : α → Nat}
    (hLoad : Agrees Good load load')
    (hPays : Pays Good left load' weight) :
    Agrees Good (Loader.each load) (Loader.each load') := by
  intro s objects hGood hSome
  induction objects generalizing s with
  | nil => rfl
  | cons object objects ih =>
      rcases hLoad.eq_or_none hGood object with
        hEq | ⟨hNone, hNone'⟩
      · cases hMid : (load' s object).rest with
        | none =>
            rw [each_of_none (hEq ▸ hMid),
              each_of_none hMid, hEq]
        | some m =>
            rw [each_of_some (hEq ▸ hMid),
              each_of_some hMid] at hSome ⊢
            have hGoodMid := (hPays s object m hGood hMid).1
            rw [hEq, ih m hGoodMid hSome]
      · rw [each_of_none hNone, each_of_none hNone'] at hSome
        simp at hSome

/-
  A check of the size that turns away only sizes for which
  the source has too little left changes no success.
-/
theorem Agrees.container
    {readSize readSize' : σ → Option (Nat × σ)}
    {elements elements' : Loader σ (List α)}
    (hSize : ReadsSize Good left readSize')
    (hGuard :
      ∀ s sized,
        readSize s = some sized → readSize' s = some sized)
    (hRoom :
      ∀ s count m,
        Good s →
        readSize' s = some (count, m) →
        count ≤ left m →
          readSize s = some (count, m))
    (hElements : Agrees Good elements elements')
    (hPays : Pays Good left elements' List.length)
    (fill : α) :
    Agrees Good (Loader.container readSize fill elements)
      (Loader.container readSize' fill elements') := by
  intro s objects hGood hSome
  cases hRead' : readSize' s with
  | none =>
      have hRead : readSize s = none := by
        cases hRead : readSize s with
        | none => rfl
        | some sized =>
            rw [hGuard s sized hRead] at hRead'
            cases hRead'
      rw [container_of_none hRead, container_of_none hRead']
  | some sized =>
      rcases sized with ⟨count, m⟩
      have hGoodMid := (hSize s count m hGood hRead').1
      have hRead : readSize s = some (count, m) := by
        rcases hSome with hDone | hDone
        · cases hRead : readSize s with
          | none =>
              rw [container_of_none hRead] at hDone
              cases hDone
          | some sized =>
              rw [← hGuard s sized hRead, hRead']
        · rw [container_of_some hRead'] at hDone
          rcases Option.isSome_iff_exists.mp hDone with
            ⟨s', hRest⟩
          have hPaid := (hPays m _ s' hGoodMid hRest).2
          rw [length_resize] at hPaid
          exact hRoom s count m hGood hRead' (by omega)
      rw [container_of_some hRead,
        container_of_some hRead'] at hSome ⊢
      rw [hElements m _ hGoodMid hSome]

end Loader

end InPlace
