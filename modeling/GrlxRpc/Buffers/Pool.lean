import GrlxRpc.Lib.Records
import GrlxRpc.Lib.Transition
import Mathlib.Algebra.Group.Nat.Defs

/-
  The buffer pool and its guards.

  A buffer is a vector of which only the size and the
  capacity matter. Guards are named by the order in which
  they were constructed; a destroyed one stays as `none`.

  The environment chooses what users write, how much more a
  `reserve` grants than it is asked for, and which operation
  comes next.

  Main declarations:
    * `PoolBuffer` and `BufferGuard`
    * `BufferPool`
    * `PoolAction`
    * `BufferPool.step` and `BufferPool.step_eq_some_iff`
    * `BufferPool.queueStep_update`
    * `BufferPool.guard_cases`
    * `BufferPool.available_destroy`
-/

------------------------------------------------------------
-- Buffers
------------------------------------------------------------

namespace GrlxRpc

/- A `buffer_type`; `id` tells the vectors apart. -/
structure PoolBuffer where
  id : Nat
  size : Nat
  capacity : Nat
  fits : size ≤ capacity
  deriving DecidableEq

namespace PoolBuffer

/- `std::make_unique<buffer_type>()`. -/
def make (id : Nat) : PoolBuffer where
  id := id
  size := 0
  capacity := 0
  fits := Nat.le_refl _

/- `reserve(n)`, which may grant more than `n`. -/
def reserve
    (b : PoolBuffer)
    (n granted : Nat) : PoolBuffer :=
  if hSmall : b.capacity < n then
    { b with
      capacity := max n granted
      fits := by
        have hFits := b.fits
        omega }
  else
    b

def clear (b : PoolBuffer) : PoolBuffer :=
  { b with size := 0, fits := Nat.zero_le _ }

def shrinkToFit (b : PoolBuffer) : PoolBuffer :=
  { b with capacity := b.size, fits := Nat.le_refl _ }

/- Users set the size freely and may make the vector grow. -/
def write
    (b : PoolBuffer)
    (size grown : Nat) : PoolBuffer :=
  { b with
    size := size
    capacity := max b.capacity (max size grown)
    fits := by omega }

@[simp] theorem id_make (id : Nat) : (make id).id = id := rfl

@[simp] theorem size_make (id : Nat) :
    (make id).size = 0 := rfl

@[simp] theorem id_clear (b : PoolBuffer) :
    b.clear.id = b.id := rfl

@[simp] theorem id_shrinkToFit (b : PoolBuffer) :
    b.shrinkToFit.id = b.id := rfl

@[simp] theorem capacity_shrinkToFit (b : PoolBuffer) :
    b.shrinkToFit.capacity = b.size := rfl

@[simp] theorem id_reserve
    (b : PoolBuffer)
    (n granted : Nat) :
    (b.reserve n granted).id = b.id := by
  unfold reserve
  split <;> rfl

@[simp] theorem size_reserve
    (b : PoolBuffer)
    (n granted : Nat) :
    (b.reserve n granted).size = b.size := by
  unfold reserve
  split <;> rfl

theorem capacity_reserve
    (b : PoolBuffer)
    (n granted : Nat) :
    (b.reserve n granted).capacity =
      if b.capacity < n then max n granted
      else b.capacity := by
  unfold reserve
  split <;> rfl

theorem le_capacity_reserve
    (b : PoolBuffer)
    (n granted : Nat) :
    n ≤ (b.reserve n granted).capacity := by
  rw [capacity_reserve]
  split <;> omega

end PoolBuffer

------------------------------------------------------------
-- Guards And The Pool
------------------------------------------------------------

/- `pool` says whether `pool_` points to the pool. -/
structure BufferGuard where
  buffer : Option PoolBuffer
  pool : Bool
  deriving DecidableEq

namespace BufferGuard

/- What a guard is after it was moved from or released. -/
def moved : BufferGuard where
  buffer := none
  pool := false

end BufferGuard

structure BufferPoolConfig where
  initialSize : Nat := 32
  maxSize : Nat := 1024
  bufferSize : Nat := 4096
  deriving DecidableEq, Repr

/- What happens to the queue of the pool. -/
inductive PoolEvent
  | entered (id : Nat)
  | taken (id : Nat)
  deriving DecidableEq, Repr

/-
  The pool with the guards around it. `made` counts the
  buffers allocated so far. `freed` and `log` are histories.
-/
structure BufferPool where
  available : List PoolBuffer
  hits : Nat
  misses : Nat
  guards : List (Option BufferGuard)
  made : Nat
  freed : List PoolBuffer
  log : List PoolEvent

inductive PoolAction
  | getBuffer (granted : Nat)
  | write (g size grown : Nat)
  | moveConstruct (g : Nat)
  | moveAssign (g other : Nat)
  | release (g : Nat)
  | destroy (g granted : Nat)
  deriving DecidableEq, Repr

namespace BufferPool

/- The constructor, with what each `reserve` granted. -/
def start
    (cfg : BufferPoolConfig)
    (grants : Nat → Nat) : BufferPool where
  available :=
    (List.range cfg.initialSize).map fun i =>
      (PoolBuffer.make i).reserve cfg.bufferSize (grants i)
  hits := 0
  misses := 0
  guards := []
  made := cfg.initialSize
  freed := []
  log := (List.range cfg.initialSize).map .entered

def availableCount (s : BufferPool) : Nat :=
  s.available.length

/- The guard `g`, unless it was destroyed. -/
def guardAt
    (s : BufferPool)
    (g : Nat) : Option BufferGuard :=
  s.guards[g]?.join

/- The buffer that the guard `g` holds. -/
def heldBy
    (s : BufferPool)
    (g : Nat) : Option PoolBuffer :=
  (s.guardAt g).bind BufferGuard.buffer

/- The buffer that `get_buffer` hands out. -/
def handOut
    (cfg : BufferPoolConfig)
    (s : BufferPool)
    (granted : Nat) : PoolBuffer :=
  match s.available with
  | b :: _ => b.clear
  | [] => (PoolBuffer.make s.made).reserve cfg.bufferSize granted

def getBuffer
    (cfg : BufferPoolConfig)
    (s : BufferPool)
    (granted : Nat) : BufferPool :=
  let guard : BufferGuard :=
    { buffer := some (s.handOut cfg granted), pool := true }
  match s.available with
  | b :: rest =>
      { s with
        available := rest
        hits := s.hits + 1
        guards := s.guards ++ [some guard]
        log := s.log ++ [.taken b.id] }
  | [] =>
      { s with
        misses := s.misses + 1
        guards := s.guards ++ [some guard]
        made := s.made + 1 }

/- `default_size_ * 4` in a `std::size_t`. -/
def trimLimit (cfg : BufferPoolConfig) : Nat :=
  cfg.bufferSize * 4 % 2 ^ 64

/- Shrink a buffer that grew too large. -/
def trim
    (cfg : BufferPoolConfig)
    (b : PoolBuffer)
    (granted : Nat) : PoolBuffer :=
  if trimLimit cfg < b.capacity then
    b.shrinkToFit.reserve cfg.bufferSize granted
  else
    b

def returnBuffer
    (cfg : BufferPoolConfig)
    (s : BufferPool)
    (b : PoolBuffer)
    (granted : Nat) : BufferPool :=
  if s.available.length < cfg.maxSize then
    { s with
      available := s.available ++ [trim cfg b granted]
      log := s.log ++ [.entered b.id] }
  else
    { s with freed := s.freed ++ [b] }

/- `~buffer_guard()`. -/
def destroyGuard
    (cfg : BufferPoolConfig)
    (s : BufferPool)
    (guard : BufferGuard)
    (granted : Nat) : BufferPool :=
  match guard.buffer with
  | none => s
  | some b =>
      if guard.pool then
        s.returnBuffer cfg b granted
      else
        { s with freed := s.freed ++ [b] }

------------------------------------------------------------
-- Steps
------------------------------------------------------------

/- Only live guards are used, and full ones written to. -/
def Enabled (s : BufferPool) : PoolAction → Prop
  | .getBuffer _ => True
  | .write g _ _ => (s.heldBy g).isSome = true
  | .moveConstruct g => (s.guardAt g).isSome = true
  | .moveAssign g other =>
      (s.guardAt g).isSome = true ∧
        (s.guardAt other).isSome = true
  | .release g => (s.guardAt g).isSome = true
  | .destroy g _ => (s.guardAt g).isSome = true

instance
    (s : BufferPool) :
    (a : PoolAction) → Decidable (s.Enabled a)
  | .getBuffer _ => instDecidableTrue
  | .write _ _ _ => inferInstanceAs (Decidable (_ = _))
  | .moveConstruct _ => inferInstanceAs (Decidable (_ = _))
  | .moveAssign _ _ => inferInstanceAs (Decidable (_ ∧ _))
  | .release _ => inferInstanceAs (Decidable (_ = _))
  | .destroy _ _ => inferInstanceAs (Decidable (_ = _))

def update
    (cfg : BufferPoolConfig)
    (s : BufferPool) : PoolAction → BufferPool
  | .getBuffer granted => s.getBuffer cfg granted
  | .write g size grown =>
      { s with
        guards :=
          s.guards.modify g <| Option.map fun guard =>
            { guard with
              buffer :=
                guard.buffer.map fun b => b.write size grown } }
  | .moveConstruct g =>
      { s with
        guards :=
          s.guards.modify g (Option.map fun _ => .moved) ++
            [s.guardAt g] }
  | .moveAssign g other =>
      -- The old buffer of `g` is deleted by its `unique_ptr`.
      if g = other then
        s
      else
        { s with
          guards :=
            (s.guards.modify g fun _ =>
              s.guardAt other).modify other
                (Option.map fun _ => .moved)
          freed := s.freed ++ (s.heldBy g).toList }
  | .release g =>
      { s with
        guards := s.guards.modify g (Option.map fun _ => .moved)
        freed := s.freed ++ (s.heldBy g).toList }
  | .destroy g granted =>
      let s' : BufferPool :=
        (s.guardAt g).elim s fun guard =>
          s.destroyGuard cfg guard granted
      { s' with guards := s.guards.modify g fun _ => none }

def step
    (cfg : BufferPoolConfig)
    (s : BufferPool)
    (a : PoolAction) : Option BufferPool :=
  if s.Enabled a then some (s.update cfg a) else none

theorem step_eq_some_iff
    (cfg : BufferPoolConfig)
    (s s' : BufferPool)
    (a : PoolAction) :
    step cfg s a = some s' ↔
      s.Enabled a ∧ s' = s.update cfg a := by
  simp [step, eq_comm]

/- The pools of runs whose steps all meet `ok`. -/
abbrev ReachableBy
    (cfg : BufferPoolConfig)
    (grants : Nat → Nat)
    (ok : BufferPool → PoolAction → Prop)
    (s : BufferPool) : Prop :=
  Transition.ReachableBy (step cfg) ok (start cfg grants) s

abbrev Reachable
    (cfg : BufferPoolConfig)
    (grants : Nat → Nat)
    (s : BufferPool) : Prop :=
  Transition.Reachable (step cfg) (start cfg grants) s

theorem invariant
    {cfg : BufferPoolConfig}
    {grants : Nat → Nat}
    {ok : BufferPool → PoolAction → Prop}
    (inv : BufferPool → Prop)
    (hStart : inv (start cfg grants))
    (hUpdate :
      ∀ s a, inv s → ok s a → s.Enabled a →
        inv (s.update cfg a))
    {s : BufferPool}
    (hReach : ReachableBy cfg grants ok s) :
    inv s :=
  hReach.invariant_of_guarded (step_eq_some_iff cfg) hStart
    fun s a _ => hUpdate s a

------------------------------------------------------------
-- What A Step Can Do
------------------------------------------------------------

variable {cfg : BufferPoolConfig}
variable {s : BufferPool}
variable {a : PoolAction}
variable {b : PoolBuffer}

theorem heldBy_eq_some_iff
    {g : Nat} :
    s.heldBy g = some b ↔
      ∃ guard, s.guards[g]? = some (some guard) ∧
        guard.buffer = some b := by
  simp [heldBy, guardAt, Option.bind_eq_some_iff,
    Option.join_eq_some_iff]

/- What a step does to the queue and its history. -/
inductive QueueStep
    (cfg : BufferPoolConfig)
    (s : BufferPool)
    (a : PoolAction)
    (s' : BufferPool) : Prop
  | same :
      s'.available = s.available →
      s'.log = s.log →
      QueueStep cfg s a s'
  | taken {first : PoolBuffer} :
      s.available = first :: s'.available →
      s'.log = s.log ++ [.taken first.id] →
      QueueStep cfg s a s'
  | entered {g granted : Nat} {old : PoolBuffer} :
      a = .destroy g granted →
      s.heldBy g = some old →
      s.available.length < cfg.maxSize →
      s'.available = s.available ++ [trim cfg old granted] →
      s'.log = s.log ++ [.entered old.id] →
      QueueStep cfg s a s'

theorem queueStep_update
    (cfg : BufferPoolConfig)
    (s : BufferPool)
    (a : PoolAction) :
    QueueStep cfg s a (s.update cfg a) := by
  cases a with
  | getBuffer granted =>
      simp only [update, getBuffer]
      split
      · case h_1 first rest hAvailable =>
          exact .taken hAvailable rfl
      · exact .same rfl rfl
  | moveAssign g other =>
      simp only [update]
      split <;> exact .same rfl rfl
  | destroy g granted =>
      cases hGuard : s.guardAt g with
      | none =>
          simp only [update, hGuard, Option.elim_none]
          exact .same rfl rfl
      | some guard =>
          simp only [update, hGuard, Option.elim_some,
            destroyGuard]
          cases hBuffer : guard.buffer with
          | none => exact .same rfl rfl
          | some old =>
              have hHeld : s.heldBy g = some old := by
                simp [heldBy, hGuard, hBuffer]
              simp only [returnBuffer]
              split
              · split
                · case isTrue hRoom =>
                    exact .entered rfl hHeld hRoom rfl rfl
                · exact .same rfl rfl
              · exact .same rfl rfl
  | write g size grown | moveConstruct g | release g =>
      exact .same rfl rfl

/- Only a destroyed guard puts a buffer into the pool. -/
theorem available_cases
    (hMem : b ∈ (s.update cfg a).available) :
    b ∈ s.available ∨
      ∃ g granted old, a = .destroy g granted ∧
        s.heldBy g = some old ∧
          s.available.length < cfg.maxSize ∧
            b = trim cfg old granted := by
  cases queueStep_update cfg s a with
  | same hAvailable _ => exact .inl (hAvailable ▸ hMem)
  | taken hAvailable _ =>
      rw [hAvailable]
      exact .inl (List.mem_cons_of_mem _ hMem)
  | entered hAct hHeld hRoom hAvailable _ =>
      rw [hAvailable] at hMem
      rcases List.mem_append.mp hMem with hOld | hNew
      · exact .inl hOld
      · exact .inr ⟨_, _, _, hAct, hHeld, hRoom,
          List.mem_singleton.mp hNew⟩

/- Where a guard after a step comes from. -/
inductive GuardOrigin
    (cfg : BufferPoolConfig)
    (s : BufferPool) : BufferGuard → Prop
  | kept {g : Nat} {guard : BufferGuard} :
      s.guards[g]? = some (some guard) →
      GuardOrigin cfg s guard
  | written
      {g : Nat}
      {guard : BufferGuard}
      (size grown : Nat) :
      s.guards[g]? = some (some guard) →
      GuardOrigin cfg s
        { guard with
          buffer :=
            guard.buffer.map fun b => b.write size grown }
  | handedOut (granted : Nat) :
      GuardOrigin cfg s ⟨some (s.handOut cfg granted), true⟩
  | moved : GuardOrigin cfg s .moved

/- Moving empties a guard and leaves the others. -/
theorem GuardOrigin.of_moved
    {guards : List (Option BufferGuard)}
    {g i : Nat}
    {guard : BufferGuard}
    (hGet :
      (guards.modify i (Option.map fun _ => .moved))[g]? =
        some (some guard))
    (hOld :
      guards[g]? = some (some guard) →
        GuardOrigin cfg s guard) :
    GuardOrigin cfg s guard := by
  rcases Records.getElem?_modify_eq_some.mp hGet with
    ⟨_, hSame⟩ | ⟨_, old, _, hNew⟩
  · exact hOld hSame
  · rcases Option.map_eq_some_iff.mp hNew with ⟨_, _, rfl⟩
    exact .moved

theorem kept_of_guardAt
    {g : Nat}
    {guard : BufferGuard}
    (hGuard : s.guardAt g = some guard) :
    GuardOrigin cfg s guard :=
  .kept (g := g) (Option.join_eq_some_iff.mp hGuard)

theorem guard_cases
    {g : Nat}
    {guard : BufferGuard}
    (hGet :
      (s.update cfg a).guards[g]? = some (some guard)) :
    GuardOrigin cfg s guard := by
  cases a with
  | getBuffer granted =>
      have hGuards :
          (s.update cfg (.getBuffer granted)).guards =
            s.guards ++
              [some ⟨some (s.handOut cfg granted), true⟩] := by
        simp only [update, getBuffer]
        split <;> rfl
      rw [hGuards] at hGet
      rcases Records.getElem?_concat_eq_some.mp hGet with
        hOld | ⟨_, hNew⟩
      · exact .kept hOld
      · rcases Option.some.inj hNew with rfl
        exact .handedOut granted
  | write i size grown =>
      rcases Records.getElem?_modify_eq_some.mp hGet with
        ⟨_, hOld⟩ | ⟨_, old, hOld, hNew⟩
      · exact .kept hOld
      · rcases Option.map_eq_some_iff.mp hNew with
          ⟨before, rfl, rfl⟩
        exact .written size grown hOld
  | moveConstruct i =>
      rcases Records.getElem?_concat_eq_some.mp hGet with
        hOld | ⟨_, hNew⟩
      · exact .of_moved hOld .kept
      · exact kept_of_guardAt hNew
  | moveAssign i other =>
      simp only [update] at hGet
      split at hGet
      · exact .kept hGet
      · refine .of_moved hGet fun hFirst => ?_
        rcases Records.getElem?_modify_eq_some.mp hFirst with
          ⟨_, hOld⟩ | ⟨_, old, _, hNew⟩
        · exact .kept hOld
        · exact kept_of_guardAt hNew
  | release i => exact .of_moved hGet .kept
  | destroy i granted =>
      rcases Records.getElem?_modify_eq_some.mp hGet with
        ⟨_, hOld⟩ | ⟨_, old, _, hNew⟩
      · exact .kept hOld
      · cases hNew

/- Guards that hold a buffer point to the pool. -/
theorem pool_of_buffer
    {grants : Nat → Nat}
    {ok : BufferPool → PoolAction → Prop}
    (hReach : ReachableBy cfg grants ok s)
    {g : Nat}
    {guard : BufferGuard}
    (hGet : s.guards[g]? = some (some guard))
    (hBuffer : guard.buffer = some b) :
    guard.pool = true := by
  revert hGet hBuffer
  revert g guard b
  refine invariant
    (fun s =>
      ∀ {b : PoolBuffer} {g : Nat} {guard : BufferGuard},
        s.guards[g]? = some (some guard) →
          guard.buffer = some b → guard.pool = true)
    ?_ ?_ hReach
  · intro b g guard hGet
    simp [start] at hGet
  · intro s a hInv _ _ b g guard hGet hBuffer
    cases guard_cases hGet with
    | kept hOld => exact hInv hOld hBuffer
    | written size grown hOld =>
        rcases Option.map_eq_some_iff.mp hBuffer with
          ⟨was, hWas, _⟩
        have hPool := hInv hOld hWas
        exact hPool
    | handedOut granted => rfl
    | moved => cases hBuffer

/- So its destructor gives the buffer back. -/
theorem available_destroy
    {grants : Nat → Nat}
    {ok : BufferPool → PoolAction → Prop}
    (hReach : ReachableBy cfg grants ok s)
    {g : Nat}
    (hHeld : s.heldBy g = some b)
    (hRoom : s.available.length < cfg.maxSize)
    (granted : Nat) :
    (s.update cfg (.destroy g granted)).available =
      s.available ++ [trim cfg b granted] := by
  rcases heldBy_eq_some_iff.mp hHeld with
    ⟨guard, hGet, hBuffer⟩
  have hGuard : s.guardAt g = some guard := by
    simp [guardAt, hGet]
  have hPool := pool_of_buffer hReach hGet hBuffer
  simp [update, hGuard, destroyGuard, hBuffer, hPool,
    returnBuffer, hRoom]

end BufferPool

end GrlxRpc
