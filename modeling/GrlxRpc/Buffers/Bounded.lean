import GrlxRpc.Buffers.Pool

/-
  How large the buffers in the pool are.

  A buffer that comes back too large is shrunk to its size
  first. Its size is whatever its user left, so the pool is
  bounded in the runs where that is not too large either.

  Main declarations:
    * `BufferPool.SizesInv` and `BufferPool.sizesInv`
    * `BufferPool.Trims` and `BufferPool.Bounded`
    * `BufferPool.bounded`
    * `BufferPool.retains_large`
-/

------------------------------------------------------------
-- Capacities
------------------------------------------------------------

namespace GrlxRpc

namespace BufferPool

variable {cfg : BufferPoolConfig}
variable {grants : Nat → Nat}
variable {s : BufferPool}
variable {a : PoolAction}
variable {b : PoolBuffer}

/- Trimming gives a buffer no less than the default. -/
theorem le_capacity_trim
    (granted : Nat)
    (hLarge : cfg.bufferSize ≤ b.capacity) :
    cfg.bufferSize ≤ (trim cfg b granted).capacity := by
  unfold trim
  split
  · exact b.shrinkToFit.le_capacity_reserve _ _
  · exact hLarge

/- The numbers and capacities that hold in every run. -/
structure SizesInv
    (cfg : BufferPoolConfig)
    (s : BufferPool) : Prop where
  count : s.available.length ≤ cfg.maxSize
  pooled : ∀ b ∈ s.available, cfg.bufferSize ≤ b.capacity
  held :
    ∀ g b, s.heldBy g = some b → cfg.bufferSize ≤ b.capacity

/- What is handed out is empty and of the default size. -/
theorem SizesInv.handOut
    (hInv : SizesInv cfg s)
    (granted : Nat) :
    (s.handOut cfg granted).size = 0 ∧
      cfg.bufferSize ≤ (s.handOut cfg granted).capacity := by
  unfold BufferPool.handOut
  cases hAvailable : s.available with
  | nil =>
      simp only [PoolBuffer.size_reserve,
        PoolBuffer.size_make, true_and]
      exact PoolBuffer.le_capacity_reserve _ _ _
  | cons first rest =>
      have hFirst :=
        hInv.pooled first (by simp [hAvailable])
      exact ⟨rfl, hFirst⟩

theorem length_available_update
    (hCount : s.available.length ≤ cfg.maxSize) :
    (s.update cfg a).available.length ≤ cfg.maxSize := by
  cases queueStep_update cfg s a with
  | same hAvailable _ => exact hAvailable ▸ hCount
  | taken hAvailable _ =>
      rw [hAvailable, List.length_cons] at hCount
      exact Nat.le_of_succ_le hCount
  | entered _ _ hRoom hAvailable _ =>
      rw [hAvailable, List.length_append]
      exact Nat.succ_le_of_lt hRoom

theorem sizesInv
    (hInitial : cfg.initialSize ≤ cfg.maxSize)
    {ok : BufferPool → PoolAction → Prop}
    (hReach : ReachableBy cfg grants ok s) :
    SizesInv cfg s := by
  refine invariant (SizesInv cfg) ?_ ?_ hReach
  · constructor
    case count => simpa [start] using hInitial
    case pooled =>
      intro b hMem
      rcases List.mem_map.mp hMem with ⟨i, _, rfl⟩
      exact PoolBuffer.le_capacity_reserve _ _ _
    case held =>
      intro g b hHeld
      simp [heldBy, guardAt, start] at hHeld
  · intro s a hInv _ _
    constructor
    case count => exact length_available_update hInv.count
    case pooled =>
      intro b hMem
      rcases available_cases hMem with
        hOld | ⟨g, granted, old, _, hHeld, _, rfl⟩
      · exact hInv.pooled b hOld
      · exact le_capacity_trim granted
          (hInv.held g old hHeld)
    case held =>
      intro g b hHeld
      rcases heldBy_eq_some_iff.mp hHeld with
        ⟨guard, hGet, hBuffer⟩
      cases guard_cases hGet with
      | kept hOld =>
          exact hInv.held _ b (heldBy_eq_some_iff.mpr
            ⟨guard, hOld, hBuffer⟩)
      | written size grown hOld =>
          rcases Option.map_eq_some_iff.mp hBuffer with
            ⟨was, hWas, rfl⟩
          have hBefore :=
            hInv.held _ was (heldBy_eq_some_iff.mpr
              ⟨_, hOld, hWas⟩)
          exact Nat.le_trans hBefore (Nat.le_max_left _ _)
      | handedOut granted =>
          rcases Option.some.inj hBuffer with rfl
          exact (hInv.handOut granted).2
      | moved => cases hBuffer

------------------------------------------------------------
-- Bounded Pools
------------------------------------------------------------

/-
  A buffer that goes back to the pool is not too large, or
  was not filled too much. The last part is about `reserve`,
  which is called on a shrunk buffer below the default size.
-/
def Trims
    (cfg : BufferPoolConfig)
    (s : BufferPool) : PoolAction → Prop
  | .destroy g granted =>
      ∀ b ∈ s.heldBy g,
        s.available.length < cfg.maxSize →
          b.capacity ≤ trimLimit cfg ∨
            (b.size ≤ 4 * cfg.bufferSize ∧
              (b.size < cfg.bufferSize →
                granted ≤ 4 * cfg.bufferSize))
  | _ => True

instance
    (cfg : BufferPoolConfig)
    (s : BufferPool)
    (a : PoolAction) : Decidable (Trims cfg s a) := by
  unfold Trims
  split <;> infer_instance

/- What the pool retains and hands out. -/
structure Bounded
    (cfg : BufferPoolConfig)
    (s : BufferPool) : Prop where
  count : s.availableCount ≤ cfg.maxSize
  trimmed :
    ∀ b ∈ s.available, b.capacity ≤ 4 * cfg.bufferSize
  fresh :
    ∀ granted, (s.handOut cfg granted).size = 0 ∧
      cfg.bufferSize ≤ (s.handOut cfg granted).capacity

/- After trimming the size decides. -/
theorem capacity_trim_le_iff
    (granted : Nat) :
    (trim cfg b granted).capacity ≤ 4 * cfg.bufferSize ↔
      (b.capacity ≤ trimLimit cfg ∨
        (b.size ≤ 4 * cfg.bufferSize ∧
          (b.size < cfg.bufferSize →
            granted ≤ 4 * cfg.bufferSize))) := by
  have hLimit : trimLimit cfg ≤ 4 * cfg.bufferSize := by
    rw [Nat.mul_comm]
    exact Nat.mod_le _ _
  unfold trim
  by_cases hLarge : trimLimit cfg < b.capacity
  · have hNot : ¬ b.capacity ≤ trimLimit cfg := by omega
    rw [if_pos hLarge, PoolBuffer.capacity_reserve,
      PoolBuffer.capacity_shrinkToFit]
    simp only [hNot, false_or]
    by_cases hSmall : b.size < cfg.bufferSize
    · rw [if_pos hSmall]
      omega
    · rw [if_neg hSmall]
      omega
  · rw [if_neg hLarge]
    constructor
    · intro _
      exact .inl (by omega)
    · intro _
      omega

/-
  In runs where no user hands back a buffer that is filled
  beyond four times the default size the pool is bounded.
-/
theorem bounded
    (cfg : BufferPoolConfig)
    (hInitial : cfg.initialSize ≤ cfg.maxSize)
    (grants : Nat → Nat)
    (hGrants :
      ∀ i < cfg.initialSize, grants i ≤ 4 * cfg.bufferSize)
    (s : BufferPool)
    (hReach : ReachableBy cfg grants (Trims cfg) s) :
    Bounded cfg s := by
  have hSizes := sizesInv hInitial hReach
  refine ⟨hSizes.count, ?_, hSizes.handOut⟩
  refine invariant
    (fun s =>
      ∀ b ∈ s.available, b.capacity ≤ 4 * cfg.bufferSize)
    ?_ ?_ hReach
  · intro b hMem
    rcases List.mem_map.mp hMem with ⟨i, hIn, rfl⟩
    have hGrant := hGrants i (List.mem_range.mp hIn)
    rw [PoolBuffer.capacity_reserve]
    split
    · omega
    · exact Nat.zero_le _
  · intro s a hInv hOk _ b hMem
    rcases available_cases hMem with
      hOld | ⟨g, granted, old, rfl, hHeld, hRoom, rfl⟩
    · exact hInv b hOld
    · exact (capacity_trim_le_iff granted).mpr
        (hOk old hHeld hRoom)

/- A buffer of 100 bytes comes back to a default pool. -/
theorem bounded_smallReply :
    ∃ s : BufferPool,
      ReachableBy {} (fun _ => 4096) (Trims {}) s ∧
        s.log = (start {} fun _ => 4096).log ++
          [.taken 0, .entered 0] ∧
        Bounded {} s := by
  obtain ⟨s, hReach, hRun⟩ :=
    Transition.exists_of_runBy (step {}) (Trims {})
      (start {} fun _ => 4096)
      [.getBuffer 0, .write 0 100 0, .destroy 0 0]
      (fun s : BufferPool =>
        decide (s.log = (start {} fun _ => 4096).log ++
          [.taken 0, .entered 0]))
      (by decide +kernel)
  exact ⟨s, hReach, of_decide_eq_true hRun,
    bounded {} (by decide) (fun _ => 4096)
      (fun _ _ => by decide) s hReach⟩

------------------------------------------------------------
-- Large Buffers Are Retained
------------------------------------------------------------

/- The condition is exact: one step that breaks it is enough. -/
theorem exists_large_of_not_trims
    {ok : BufferPool → PoolAction → Prop}
    (hReach : ReachableBy cfg grants ok s)
    (hNot : ¬ Trims cfg s a) :
    ∃ b ∈ (s.update cfg a).available,
      4 * cfg.bufferSize < b.capacity := by
  cases a with
  | destroy g granted =>
      simp only [Trims, not_forall] at hNot
      rcases hNot with ⟨b, hHeld, hRoom, hLarge⟩
      refine ⟨trim cfg b granted, ?_, ?_⟩
      · rw [available_destroy hReach hHeld hRoom]
        exact List.mem_append_right _ List.mem_cons_self
      · rw [← capacity_trim_le_iff] at hLarge
        omega
  | _ => exact absurd trivial hNot

/- 20000 bytes are read into a buffer that comes back. -/
theorem retains_large :
    ∃ s : BufferPool,
      Reachable {} (fun _ => 4096) s ∧
        ∃ b ∈ s.available, 4 * 4096 < b.capacity := by
  obtain ⟨s, hReach, hRun⟩ :=
    Transition.exists_of_run (step {})
      (start {} fun _ => 4096)
      [.getBuffer 0, .write 0 20000 0, .destroy 0 0]
      (fun s : BufferPool =>
        decide (∃ b ∈ s.available, 4 * 4096 < b.capacity))
      (by decide +kernel)
  exact ⟨s, hReach, of_decide_eq_true hRun⟩

end BufferPool

end GrlxRpc
