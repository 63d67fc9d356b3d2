import GrlxRpc.Buffers.Pool
import Mathlib.Data.List.Count
import Mathlib.Data.List.Nodup

/-
  Who owns the buffers.

  Every buffer that was allocated is in one place: in the
  pool, with one guard, or freed. What a guard lets go of
  goes back to the pool, except where a guard is overwritten:
  its `unique_ptr` deletes the buffer.

  Main declarations:
    * `BufferPool.places` and `BufferPool.OwnersInv`
    * `BufferPool.Conserved`
    * `BufferPool.GoesBack` and `BufferPool.Spares`
    * `BufferPool.guardsConserve`
    * `BufferPool.overwrite_loses`
-/

------------------------------------------------------------
-- Places
------------------------------------------------------------

namespace GrlxRpc

namespace BufferPool

variable {cfg : BufferPoolConfig}
variable {grants : Nat → Nat}
variable {s : BufferPool}
variable {a : PoolAction}
variable {b : PoolBuffer}

def hasId (id : Nat) (b : PoolBuffer) : Bool :=
  b.id = id

/- Does the guard hold the buffer? -/
def holds (id : Nat) (guard : Option BufferGuard) : Bool :=
  (guard.bind BufferGuard.buffer).any (hasId id)

/- How often the buffer is in the pool, held, or freed. -/
def places (s : BufferPool) (id : Nat) : Nat :=
  s.available.countP (hasId id) +
    s.guards.countP (holds id) +
      s.freed.countP (hasId id)

@[simp] theorem hasId_trim
    (cfg : BufferPoolConfig)
    (id granted : Nat)
    (b : PoolBuffer) :
    hasId id (trim cfg b granted) = hasId id b := by
  unfold trim
  split <;> simp [hasId]

@[simp] theorem holds_none (id : Nat) :
    holds id none = false := rfl

@[simp] theorem holds_moved (id : Nat) :
    holds id (some .moved) = false := rfl

/- A buffer held and a buffer freed are counted alike. -/
theorem countP_toList_heldBy
    (s : BufferPool)
    (g id : Nat) :
    (s.heldBy g).toList.countP (hasId id) =
      (holds id (s.guardAt g)).toNat := by
  unfold heldBy holds
  cases (s.guardAt g).bind BufferGuard.buffer with
  | none => rfl
  | some b => cases hId : hasId id b <;> simp [hId]

/- How a changed guard changes what the guards hold. -/
theorem countP_modify_guard
    {guard : BufferGuard}
    {g : Nat}
    (hGuard : s.guardAt g = some guard)
    (id : Nat)
    (f : Option BufferGuard → Option BufferGuard) :
    (s.guards.modify g f).countP (holds id) +
        (holds id (some guard)).toNat =
      s.guards.countP (holds id) +
        (holds id (f (some guard))).toNat :=
  Records.countP_modify (holds id)
    (Option.join_eq_some_iff.mp hGuard) f

------------------------------------------------------------
-- Conservation
------------------------------------------------------------

/- A buffer that a guard gives up is pooled or freed. -/
theorem places_destroyGuard
    (cfg : BufferPoolConfig)
    (s : BufferPool)
    (guard : BufferGuard)
    (granted id : Nat) :
    (s.destroyGuard cfg guard granted).available.countP
          (hasId id) +
        (s.destroyGuard cfg guard granted).freed.countP
          (hasId id) =
      s.available.countP (hasId id) +
        s.freed.countP (hasId id) +
          (holds id (some guard)).toNat := by
  unfold destroyGuard
  cases hBuffer : guard.buffer with
  | none => simp [holds, hBuffer]
  | some b =>
      have hHolds : holds id (some guard) = hasId id b := by
        simp [holds, hBuffer]
      rw [hHolds]
      cases hId : hasId id b <;> cases guard.pool <;>
        simp only [returnBuffer, if_true, if_false,
          Bool.false_eq_true] <;>
        (try split) <;>
        simp [hId, List.countP_append] <;> omega

/- A new buffer has its place, and no other changes. -/
theorem places_getBuffer
    (granted id : Nat) :
    (s.getBuffer cfg granted).places id =
      s.places id +
        (decide (s.available = [] ∧ s.made = id)).toNat := by
  unfold getBuffer places handOut
  cases hAvailable : s.available with
  | nil =>
      by_cases hId : s.made = id <;>
        simp [holds, hasId, hId, List.countP_append]
      omega
  | cons first rest =>
      by_cases hId : first.id = id <;>
        simp [holds, hasId, hId, List.countP_append]
      omega

theorem made_update
    (cfg : BufferPoolConfig)
    (s : BufferPool)
    (hNot : ∀ granted, a ≠ .getBuffer granted) :
    (s.update cfg a).made = s.made := by
  cases a with
  | getBuffer granted => exact absurd rfl (hNot granted)
  | moveAssign g other =>
      simp only [update]
      split <;> rfl
  | destroy g granted =>
      cases hGuard : s.guardAt g with
      | none => simp [update, hGuard]
      | some guard =>
          simp only [update, hGuard, Option.elim_some,
            destroyGuard, returnBuffer]
          split
          · rfl
          · split
            · split <;> rfl
            · rfl
  | write g size grown | moveConstruct g | release g => rfl

/- What is written into a buffer does not move it. -/
theorem places_write
    (g size grown id : Nat) :
    (s.update cfg (.write g size grown)).places id =
      s.places id := by
  have hHolds :
      (s.update cfg (.write g size grown)).guards.countP
          (holds id) =
        s.guards.countP (holds id) := by
    apply Records.countP_modify_of_eq
    intro guard _
    cases guard with
    | none => rfl
    | some guard =>
        cases hBuffer : guard.buffer with
        | none => simp [holds, hBuffer]
        | some b =>
            simp only [holds, hBuffer, Option.map_some,
              Option.bind_some, Option.any_some]
            rfl
  simp only [places, hHolds]
  rfl

/- A guard takes another's buffer, and its own is freed. -/
theorem places_moveAssign
    {g other : Nat}
    (hTarget : (s.guardAt g).isSome = true)
    (hSource : (s.guardAt other).isSome = true)
    (hOther : ¬ g = other)
    (id : Nat) :
    places
        { s with
          guards :=
            (s.guards.modify g fun _ =>
              s.guardAt other).modify other
                (Option.map fun _ => .moved)
          freed := s.freed ++ (s.heldBy g).toList } id =
      s.places id := by
  rcases Option.isSome_iff_exists.mp hTarget with
    ⟨guard, hGuard⟩
  rcases Option.isSome_iff_exists.mp hSource with
    ⟨source, hSource⟩
  -- First `g` takes what `other` has, then `other` is empty.
  have hTake := countP_modify_guard hGuard id
    fun _ => s.guardAt other
  have hStill :
      (s.guards.modify g fun _ => s.guardAt other)[other]? =
        some (some source) := by
    rw [List.getElem?_modify_ne _ _ hOther]
    exact Option.join_eq_some_iff.mp hSource
  have hEmpty := Records.countP_modify (holds id) hStill
    (Option.map fun _ => .moved)
  simp only [Option.map_some, holds_moved,
    Bool.toNat_false] at hEmpty
  simp only [hSource] at hTake hEmpty ⊢
  simp only [places, List.countP_append,
    countP_toList_heldBy, hGuard]
  omega

/- Every other step leaves each buffer its one place. -/
theorem places_update
    (hEnabled : s.Enabled a)
    (hNot : ∀ granted, a ≠ .getBuffer granted)
    (id : Nat) :
    (s.update cfg a).places id = s.places id := by
  cases a with
  | getBuffer granted => exact absurd rfl (hNot granted)
  | write g size grown => exact places_write g size grown id
  | moveConstruct g =>
      rcases Option.isSome_iff_exists.mp hEnabled with
        ⟨guard, hGuard⟩
      have hCount := countP_modify_guard hGuard id
        (Option.map fun _ => .moved)
      simp only [update, places, hGuard, List.countP_append,
        List.countP_singleton]
      simp only [Option.map_some, holds_moved,
        Bool.toNat_false] at hCount
      cases hHolds : holds id (some guard) <;>
        simp [hHolds] at hCount ⊢ <;> omega
  | moveAssign g other =>
      simp only [update]
      split
      · rfl
      · case isFalse hOther =>
          exact places_moveAssign hEnabled.1 hEnabled.2 hOther id
  | release g =>
      rcases Option.isSome_iff_exists.mp hEnabled with
        ⟨guard, hGuard⟩
      have hCount := countP_modify_guard hGuard id
        (Option.map fun _ => .moved)
      simp only [Option.map_some, holds_moved,
        Bool.toNat_false] at hCount
      simp only [update, places, List.countP_append,
        countP_toList_heldBy, hGuard]
      omega
  | destroy g granted =>
      rcases Option.isSome_iff_exists.mp hEnabled with
        ⟨guard, hGuard⟩
      have hCount := countP_modify_guard hGuard id
        fun _ => none
      have hGone := places_destroyGuard cfg s guard granted id
      simp only [holds_none, Bool.toNat_false] at hCount
      simp only [update, places, hGuard, Option.elim_some]
      omega

------------------------------------------------------------
-- Every Run
------------------------------------------------------------

/-
  A buffer has one place from the moment it is made. What
  entered the pool and was not taken is still there.
-/
structure OwnersInv (s : BufferPool) : Prop where
  one :
    ∀ id, s.places id = if id < s.made then 1 else 0
  queued :
    ∀ id, s.log.count (.entered id) =
      s.log.count (.taken id) +
        s.available.countP (hasId id)
  early :
    ∀ id early, early <+: s.log →
      early.count (.entered id) ≤ early.count (.taken id) + 1

theorem OwnersInv.start :
    OwnersInv (start cfg grants) := by
  have hPooled :
      ∀ id, (BufferPool.start cfg grants).available.countP
          (hasId id) =
        if id < cfg.initialSize then 1 else 0 := by
    intro id
    rw [← List.count_range, List.count_eq_countP]
    simp only [BufferPool.start, List.countP_map]
    congr 1
    funext i
    simp [hasId]
    rfl
  have hEntered :
      ∀ id, (BufferPool.start cfg grants).log.count
          (.entered id) =
        if id < cfg.initialSize then 1 else 0 := by
    intro id
    rw [← List.count_range]
    exact List.count_map_of_injective _ _
      (fun _ _ hSame => PoolEvent.entered.inj hSame) id
  constructor
  case one =>
    intro id
    simp only [places, hPooled]
    rfl
  case queued =>
    intro id
    have hTaken :
        (BufferPool.start cfg grants).log.count
          (.taken id) = 0 := by
      simp [BufferPool.start, List.count_eq_zero]
    rw [hEntered, hPooled, hTaken, Nat.zero_add]
  case early =>
    intro id early hEarly
    have hLe := hEarly.sublist.count_le (.entered id)
    rw [hEntered] at hLe
    split at hLe <;> omega

theorem one_update
    (cfg : BufferPoolConfig)
    (hInv : OwnersInv s)
    (hEnabled : s.Enabled a)
    (id : Nat) :
    (s.update cfg a).places id =
      if id < (s.update cfg a).made then 1 else 0 := by
  by_cases hGet : ∃ granted, a = .getBuffer granted
  · rcases hGet with ⟨granted, rfl⟩
    have hMade :
        (s.update cfg (.getBuffer granted)).made =
          s.made + (decide (s.available = [])).toNat := by
      simp only [update, getBuffer]
      cases s.available <;> rfl
    have hPlaces :
        (s.update cfg (.getBuffer granted)).places id = _ :=
      places_getBuffer granted id
    rw [hMade, hPlaces, hInv.one]
    by_cases hEmpty : s.available = []
    · by_cases hId : s.made = id
      · subst hId
        simp [hEmpty]
      · have hIff : id < s.made + 1 ↔ id < s.made := by omega
        simp [hEmpty, hId, hIff]
    · simp [hEmpty]
  · have hNot : ∀ granted, a ≠ .getBuffer granted :=
      fun granted hSame => hGet ⟨granted, hSame⟩
    rw [places_update hEnabled hNot, made_update cfg s hNot]
    exact hInv.one id

theorem queued_update
    (hInv : OwnersInv s)
    (id : Nat) :
    (s.update cfg a).log.count (.entered id) =
      (s.update cfg a).log.count (.taken id) +
        (s.update cfg a).available.countP (hasId id) := by
  have hBefore := hInv.queued id
  cases queueStep_update cfg s a with
  | same hAvailable hLog => rw [hAvailable, hLog, hBefore]
  | @taken first hAvailable hLog =>
      rw [hAvailable, List.countP_cons] at hBefore
      rw [hLog, List.count_append, List.count_append, hBefore]
      by_cases hId : first.id = id <;> simp [hasId, hId]
      omega
  | @entered g granted old _ _ _ hAvailable hLog =>
      rw [hLog, hAvailable, List.count_append,
        List.count_append, List.countP_append, hBefore]
      have hTrim : [trim cfg old granted].countP (hasId id) =
          (hasId id old).toNat := by
        rw [List.countP_singleton, hasId_trim]
        cases hasId id old <;> rfl
      rw [hTrim]
      by_cases hId : old.id = id <;> simp [hasId, hId]
      omega

theorem log_update
    (cfg : BufferPoolConfig)
    (s : BufferPool)
    (a : PoolAction) :
    (s.update cfg a).log = s.log ∨
      ∃ e, (s.update cfg a).log = s.log ++ [e] := by
  cases queueStep_update cfg s a with
  | same _ hLog => exact .inl hLog
  | taken _ hLog => exact .inr ⟨_, hLog⟩
  | entered _ _ _ _ hLog => exact .inr ⟨_, hLog⟩

theorem ownersInv_update
    (hInv : OwnersInv s)
    (hEnabled : s.Enabled a) :
    OwnersInv (s.update cfg a) := by
  refine ⟨one_update cfg hInv hEnabled, queued_update hInv, ?_⟩
  intro id early hEarly
  have hOld : early <+: s.log ∨ early = (s.update cfg a).log := by
    rcases log_update cfg s a with hSame | ⟨e, hNew⟩
    · exact .inl (hSame ▸ hEarly)
    · rw [hNew] at hEarly ⊢
      exact (List.prefix_concat_iff.mp hEarly).symm
  rcases hOld with hOld | rfl
  · exact hInv.early id early hOld
  · -- What entered is in the queue at most once.
    have hPlaces := one_update cfg hInv hEnabled id
    rw [queued_update hInv]
    rw [places] at hPlaces
    split at hPlaces <;> omega

theorem ownersInv
    {ok : BufferPool → PoolAction → Prop}
    (hReach : ReachableBy cfg grants ok s) :
    OwnersInv s :=
  invariant OwnersInv .start
    (fun _ _ hInv _ hEnabled => ownersInv_update hInv hEnabled)
    hReach

------------------------------------------------------------
-- What Goes Back
------------------------------------------------------------

/-
  Every buffer made so far has one place: the queue, one
  guard, or freed. None enters the queue again without having
  been taken out in between.
-/
structure Conserved (s : BufferPool) : Prop where
  one : ∀ id < s.made, s.places id = 1
  nodup : (s.available.map PoolBuffer.id).Nodup
  once :
    ∀ id early, early <+: s.log →
      early.count (.entered id) ≤ early.count (.taken id) + 1

theorem OwnersInv.conserved
    (hInv : OwnersInv s) :
    Conserved s := by
  constructor
  case one =>
    intro id hMade
    rw [hInv.one, if_pos hMade]
  case nodup =>
    rw [List.nodup_iff_count_le_one]
    intro id
    have hPlaces := hInv.one id
    have hCount :
        (s.available.map PoolBuffer.id).count id =
          s.available.countP (hasId id) := by
      rw [List.count_eq_countP, List.countP_map]
      rfl
    rw [hCount]
    rw [places] at hPlaces
    split at hPlaces <;> omega
  case once => exact hInv.early

/- The guard that lets go of its buffer without release. -/
def drops : PoolAction → Option Nat
  | .destroy g _ => some g
  | .moveAssign g other => if g = other then none else some g
  | _ => none

/- Does the buffer let go go back where there is room? -/
def GoesBack
    (cfg : BufferPoolConfig)
    (s : BufferPool)
    (a : PoolAction) : Prop :=
  ∀ g ∈ drops a, ∀ b ∈ s.heldBy g,
    s.availableCount < cfg.maxSize →
      b.id ∈ (s.update cfg a).available.map PoolBuffer.id

instance
    (cfg : BufferPoolConfig)
    (s : BufferPool)
    (a : PoolAction) : Decidable (GoesBack cfg s a) :=
  inferInstanceAs (Decidable (∀ _ ∈ _, _))

/-
  No guard is overwritten that still has a buffer, where the
  pool has room for it.
-/
def Spares
    (cfg : BufferPoolConfig)
    (s : BufferPool) : PoolAction → Prop
  | .moveAssign g other =>
      g = other ∨ s.heldBy g = none ∨
        cfg.maxSize ≤ s.availableCount
  | _ => True

instance
    (cfg : BufferPoolConfig)
    (s : BufferPool)
    (a : PoolAction) : Decidable (Spares cfg s a) := by
  unfold Spares
  split <;> infer_instance

/- A destroyed guard gives its buffer back. -/
theorem goesBack_destroy
    {ok : BufferPool → PoolAction → Prop}
    (hReach : ReachableBy cfg grants ok s)
    (g granted : Nat) :
    GoesBack cfg s (.destroy g granted) := by
  rintro _ ⟨rfl⟩ b hHeld hRoom
  have hTrim : (trim cfg b granted).id = b.id := by
    have hSame := hasId_trim cfg b.id granted b
    simpa [hasId] using hSame
  rw [available_destroy hReach hHeld hRoom, ← hTrim]
  exact List.mem_map_of_mem
    (List.mem_append_right _ List.mem_cons_self)

/- What a guard holds is not in the queue. -/
theorem OwnersInv.not_mem_available
    (hInv : OwnersInv s)
    {g : Nat}
    (hHeld : s.heldBy g = some b) :
    b.id ∉ s.available.map PoolBuffer.id := by
  intro hMem
  rcases List.mem_map.mp hMem with ⟨other, hIn, hSame⟩
  rcases heldBy_eq_some_iff.mp hHeld with
    ⟨guard, hGet, hBuffer⟩
  have hPlaces := hInv.one b.id
  have hQueued : 0 < s.available.countP (hasId b.id) :=
    List.countP_pos_iff.mpr ⟨other, hIn, by simp [hasId, hSame]⟩
  have hGuards : 0 < s.guards.countP (holds b.id) :=
    Records.countP_pos_of_getElem? hGet
      (by simp [holds, hBuffer, hasId])
  rw [places] at hPlaces
  split at hPlaces <;> omega

/- An overwritten guard does not. -/
theorem goesBack_moveAssign_iff
    (hInv : OwnersInv s)
    (g other : Nat) :
    GoesBack cfg s (.moveAssign g other) ↔
      Spares cfg s (.moveAssign g other) := by
  by_cases hSelf : g = other
  · simp [GoesBack, Spares, drops, hSelf]
  · have hSame :
        (s.update cfg (.moveAssign g other)).available =
          s.available := by
      simp only [update]
      split <;> rfl
    simp only [GoesBack, Spares, drops, hSelf, if_false,
      hSame, false_or]
    constructor
    · intro hBack
      cases hHeld : s.heldBy g with
      | none => exact .inl rfl
      | some b =>
          right
          by_contra hRoom
          exact hInv.not_mem_available hHeld
            (hBack g rfl b hHeld (Nat.lt_of_not_le hRoom))
    · rintro hSpares _ ⟨rfl⟩ b hHeld hRoom
      rcases hSpares with hNone | hFull
      · rw [hNone] at hHeld
        cases hHeld
      · exact absurd hRoom (Nat.not_lt_of_le hFull)

/-
  Buffers are conserved in every run. A step gives back what
  a guard lets go of unless it overwrites the guard.
-/
theorem guardsConserve
    (cfg : BufferPoolConfig)
    (grants : Nat → Nat)
    (s : BufferPool)
    (hReach : Reachable cfg grants s) :
    Conserved s ∧
      ∀ a, s.Enabled a →
        (GoesBack cfg s a ↔ Spares cfg s a) := by
  have hInv := ownersInv hReach
  refine ⟨hInv.conserved, ?_⟩
  intro a _
  cases a with
  | destroy g granted =>
      exact iff_of_true (goesBack_destroy hReach g granted)
        trivial
  | moveAssign g other =>
      exact goesBack_moveAssign_iff hInv g other
  | getBuffer granted | write g size grown
  | moveConstruct g | release g =>
      refine iff_of_true ?_ trivial
      intro _ hDrops
      cases hDrops

/- A buffer is moved on and comes back. -/
theorem guardsConserve_moved :
    ∃ s : BufferPool,
      Reachable {} (fun _ => 4096) s ∧
        s.log = (start {} fun _ => 4096).log ++
          [.taken 0, .entered 0] ∧
        Conserved s := by
  obtain ⟨s, hReach, hRun⟩ :=
    Transition.exists_of_run (step {})
      (start {} fun _ => 4096)
      [.getBuffer 0, .moveConstruct 0, .destroy 1 0,
        .destroy 0 0]
      (fun s : BufferPool =>
        decide (s.log = (start {} fun _ => 4096).log ++
          [.taken 0, .entered 0]))
      (by decide +kernel)
  exact ⟨s, hReach, of_decide_eq_true hRun,
    (guardsConserve {} (fun _ => 4096) s hReach).1⟩

/- A second buffer is assigned to a guard that has one. -/
theorem overwrite_loses :
    ∃ (s : BufferPool) (a : PoolAction),
      Reachable {} (fun _ => 4096) s ∧ s.Enabled a ∧
        ¬ GoesBack {} s a := by
  obtain ⟨s, hReach, hRun⟩ :=
    Transition.exists_of_run (step {})
      (start {} fun _ => 4096)
      [.getBuffer 0, .getBuffer 0]
      (fun s : BufferPool =>
        decide (s.Enabled (.moveAssign 0 1) ∧
          ¬ GoesBack {} s (.moveAssign 0 1)))
      (by decide +kernel)
  exact ⟨s, .moveAssign 0 1, hReach, of_decide_eq_true hRun⟩

end BufferPool

end GrlxRpc
