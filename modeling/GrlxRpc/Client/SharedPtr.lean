import GrlxRpc.Lib.Locked

/-
  `synchronized_shared_ptr`, word by word.

  A `shared_ptr` is two words, and no step reads or writes
  both. Between lock and unlock the words may be of two
  different pointers, but nobody else sees them then.

  Main declarations:
    * `SharedPtr`, `SharedPtrOp` and `SharedPtrRet`
    * `SynchronizedSharedPtr.body`
    * `SynchronizedSharedPtr.apply`
    * `SynchronizedSharedPtr.atomic`
-/

------------------------------------------------------------
-- Pointers
------------------------------------------------------------

namespace GrlxRpc

/- What `get()` returns, and where the counts are. -/
structure SharedPtr where
  stored : UInt64
  control : UInt64
  deriving DecidableEq, Repr

/- `nullptr` -/
def SharedPtr.null : SharedPtr where
  stored := 0
  control := 0

inductive SharedPtrOp
  | load
  | store (v : SharedPtr)
  | exchange (v : SharedPtr)
  | compareExchangeStrong (expected desired : SharedPtr)
  deriving DecidableEq, Repr

/- The last gives back what `expected` refers to. -/
inductive SharedPtrRet
  | loaded (v : SharedPtr)
  | stored
  | exchanged (v : SharedPtr)
  | compared (equal : Bool) (expected : SharedPtr)
  deriving DecidableEq, Repr

/- The pointer that an operation puts into the object. -/
def SharedPtrOp.puts :
    SharedPtrOp → SharedPtrRet → Option SharedPtr
  | store v, _ => some v
  | exchange v, _ => some v
  | compareExchangeStrong _ desired, .compared true _ =>
      some desired
  | _, _ => none

/- The pointer that an answer takes out of it. -/
def SharedPtrRet.takes : SharedPtrRet → Option SharedPtr
  | loaded v => some v
  | stored => none
  | exchanged v => some v
  | compared true _ => none
  | compared false expected => some expected

------------------------------------------------------------
-- The Code Between Lock And Unlock
------------------------------------------------------------

/- What is done next. -/
inductive SharedPtrPc
  -- the copy that `load` returns
  | copyStored
  | copyControl (stored : UInt64)
  -- `ptr_ = std::move(v)`
  | moveStored (v : SharedPtr) (ret : SharedPtrRet)
  | moveControl (v : SharedPtr) (ret : SharedPtrRet)
  -- `ptr_.swap(v)`
  | swapStored (v : SharedPtr)
  | swapControl (v : SharedPtr) (stored : UInt64)
  -- `ptr_ == expected`, and `expected = ptr_`
  | compare (expected desired : SharedPtr)
  | refreshStored
  | refreshControl (stored : UInt64)
  | answered (ret : SharedPtrRet)
  deriving DecidableEq, Repr

namespace SynchronizedSharedPtr

def enter : SharedPtrOp → SharedPtrPc
  | .load => .copyStored
  | .store v => .moveStored v .stored
  | .exchange v => .swapStored v
  | .compareExchangeStrong expected desired =>
      .compare expected desired

/- One access to `ptr_`. Pointers compare as `get()` does. -/
def advance
    (pc : SharedPtrPc)
    (ptr : SharedPtr) : SharedPtrPc × SharedPtr :=
  match pc with
  | .copyStored => (.copyControl ptr.stored, ptr)
  | .copyControl stored =>
      (.answered (.loaded ⟨stored, ptr.control⟩), ptr)
  | .moveStored v ret =>
      (.moveControl v ret, { ptr with stored := v.stored })
  | .moveControl v ret =>
      (.answered ret, { ptr with control := v.control })
  | .swapStored v =>
      (.swapControl v ptr.stored,
        { ptr with stored := v.stored })
  | .swapControl v stored =>
      (.answered (.exchanged ⟨stored, ptr.control⟩),
        { ptr with control := v.control })
  | .compare expected desired =>
      if ptr.stored = expected.stored then
        (.moveStored desired (.compared true expected), ptr)
      else
        (.refreshStored, ptr)
  | .refreshStored => (.refreshControl ptr.stored, ptr)
  | .refreshControl stored =>
      (.answered (.compared false ⟨stored, ptr.control⟩), ptr)
  | .answered ret => (.answered ret, ptr)

def result : SharedPtrPc → Option SharedPtrRet
  | .answered ret => some ret
  | _ => none

def body :
    Locked.Body SharedPtrOp SharedPtrRet SharedPtr
      SharedPtrPc where
  enter := enter
  advance := advance
  result := result

/- The accesses that are left. -/
def left : SharedPtrPc → Nat
  | .compare _ _ => 3
  | .copyStored => 2
  | .moveStored _ _ => 2
  | .swapStored _ => 2
  | .refreshStored => 2
  | .copyControl _ => 1
  | .moveControl _ _ => 1
  | .swapControl _ _ => 1
  | .refreshControl _ => 1
  | .answered _ => 0

------------------------------------------------------------
-- Its Purpose
------------------------------------------------------------

/- The same operations on a pointer that is one value. -/
def apply :
    SharedPtrOp → SharedPtr → SharedPtr × SharedPtrRet
  | .load, ptr => (ptr, .loaded ptr)
  | .store v, _ => (v, .stored)
  | .exchange v, ptr => (v, .exchanged ptr)
  | .compareExchangeStrong expected desired, ptr =>
      if ptr.stored = expected.stored then
        (desired, .compared true expected)
      else
        (ptr, .compared false ptr)

/-
  What is known at each point of an operation `op` that
  found `ptr`, about the words that are there now.
-/
def Stage
    (op : SharedPtrOp)
    (ptr : SharedPtr) : SharedPtrPc → SharedPtr → Prop
  | .copyStored, now => op = .load ∧ now = ptr
  | .copyControl stored, now =>
      op = .load ∧ now = ptr ∧ stored = ptr.stored
  | .moveStored v ret, now => apply op ptr = (v, ret) ∧ now = ptr
  | .moveControl v ret, now =>
      apply op ptr = (v, ret) ∧ now.stored = v.stored
  | .swapStored v, now => op = .exchange v ∧ now = ptr
  | .swapControl v stored, now =>
      op = .exchange v ∧ now.stored = v.stored ∧
        now.control = ptr.control ∧ stored = ptr.stored
  | .compare expected desired, now =>
      op = .compareExchangeStrong expected desired ∧ now = ptr
  | .refreshStored, now =>
      apply op ptr = (ptr, .compared false ptr) ∧ now = ptr
  | .refreshControl stored, now =>
      apply op ptr = (ptr, .compared false ptr) ∧ now = ptr ∧
        stored = ptr.stored
  | .answered ret, now => apply op ptr = (now, ret)

theorem stage_enter
    (op : SharedPtrOp)
    (ptr : SharedPtr) :
    Stage op ptr (enter op) ptr := by
  cases op <;> simp [enter, Stage, apply]

theorem stage_advance
    {op : SharedPtrOp}
    {ptr now : SharedPtr}
    {pc : SharedPtrPc}
    (hStage : Stage op ptr pc now) :
    Stage op ptr (advance pc now).1 (advance pc now).2 := by
  cases pc with
  | copyStored =>
      rcases hStage with ⟨rfl, rfl⟩
      exact ⟨rfl, rfl, rfl⟩
  | copyControl stored =>
      rcases hStage with ⟨rfl, rfl, rfl⟩
      rfl
  | moveStored v ret =>
      rcases hStage with ⟨hApply, rfl⟩
      exact ⟨hApply, rfl⟩
  | moveControl v ret =>
      rcases hStage with ⟨hApply, hStored⟩
      simp only [advance, Stage, hApply, hStored]
  | swapStored v =>
      rcases hStage with ⟨rfl, rfl⟩
      exact ⟨rfl, rfl, rfl, rfl⟩
  | swapControl v stored =>
      rcases hStage with ⟨rfl, hStored, hControl, rfl⟩
      simp only [advance, Stage, apply, hStored, hControl]
  | compare expected desired =>
      rcases hStage with ⟨rfl, rfl⟩
      by_cases hEqual : now.stored = expected.stored <;>
        simp [advance, Stage, apply, hEqual]
  | refreshStored =>
      rcases hStage with ⟨hApply, rfl⟩
      exact ⟨hApply, rfl, rfl⟩
  | refreshControl stored =>
      rcases hStage with ⟨hApply, rfl, rfl⟩
      exact hApply
  | answered ret => exact hStage

theorem implements :
    Locked.Implements body apply id fun pc _ => left pc := by
  constructor
  case correct =>
    intro op ptr pc now ret hProgress hResult
    have hStage : Stage op ptr pc now :=
      hProgress.invariant (Stage op ptr) (stage_enter op ptr)
        fun _ _ _ => stage_advance
    cases pc with
    | answered ret' =>
        obtain rfl : ret' = ret := Option.some.inj hResult
        exact hStage
    | _ => cases hResult
  case decreases =>
    intro pc ptr hBusy
    cases pc with
    | compare expected desired =>
        simp only [body, advance]
        split <;> exact Nat.lt_succ_self _
    | answered ret => cases hBusy
    | _ => exact Nat.lt_succ_self _

------------------------------------------------------------
-- Every Run
------------------------------------------------------------

/- What an operation takes out was there. -/
theorem takes_apply
    {op : SharedPtrOp}
    {ptr v : SharedPtr}
    (hTakes : (apply op ptr).2.takes = some v) :
    v = ptr := by
  cases op with
  | load => exact (Option.some.inj hTakes).symm
  | store v' => cases hTakes
  | exchange v' => exact (Option.some.inj hTakes).symm
  | compareExchangeStrong expected desired =>
      simp only [apply] at hTakes
      split at hTakes
      · cases hTakes
      · exact (Option.some.inj hTakes).symm

/- It leaves what was there, or what it puts there. -/
theorem apply_cases
    (op : SharedPtrOp)
    (ptr : SharedPtr) :
    (apply op ptr).1 = ptr ∨
      op.puts (apply op ptr).2 = some (apply op ptr).1 := by
  cases op with
  | load => exact .inl rfl
  | store v => exact .inr rfl
  | exchange v => exact .inr rfl
  | compareExchangeStrong expected desired =>
      simp only [apply]
      split
      · exact .inr rfl
      · exact .inl rfl

/- A pointer that is taken out was put in as a whole. -/
theorem whole_of_replays
    {init last : SharedPtr}
    {log : List (Locked.Entry SharedPtrOp SharedPtrRet)}
    (hReplays : Locked.Replays apply init log last)
    {p : Nat}
    {entry : Locked.Entry SharedPtrOp SharedPtrRet}
    (hEntry : log[p]? = some entry)
    {v : SharedPtr}
    (hTakes : entry.ret.takes = some v) :
    v = init ∨
      ∃ (q : Nat)
          (other : Locked.Entry SharedPtrOp SharedPtrRet),
        q < p ∧ log[q]? = some other ∧
          other.op.puts other.ret = some v := by
  induction log generalizing init p with
  | nil => cases hEntry
  | cons first rest ih =>
      rcases hReplays with ⟨hFirst, hRest⟩
      cases p with
      | zero =>
          obtain rfl : first = entry := Option.some.inj hEntry
          rw [← hFirst] at hTakes
          exact .inl (takes_apply hTakes)
      | succ p =>
          rcases ih hRest hEntry with
            hThen | ⟨q, other, hLt, hOther, hPuts⟩
          · rcases apply_cases first.op init with hSame | hPuts
            · exact .inl (hThen.trans hSame)
            · rw [hFirst, ← hThen] at hPuts
              exact .inr ⟨0, first, p.succ_pos, rfl, hPuts⟩
          · exact .inr ⟨q + 1, other, Nat.succ_lt_succ hLt,
              hOther, hPuts⟩

/-
  Callers see one pointer that changes at once: what they are
  given was the first one, or was put there by an operation
  before theirs, both of its words together.
-/
structure Atomic
    (init : SharedPtr)
    (s :
      Locked.State SharedPtrOp SharedPtrRet SharedPtr
        SharedPtrPc) : Prop where
  linearizable : Locked.Linearizable body apply id init s
  whole :
    ∀ (p : Nat)
        (entry : Locked.Entry SharedPtrOp SharedPtrRet)
        (v : SharedPtr),
      s.log[p]? = some entry → entry.ret.takes = some v →
        v = init ∨
          ∃ (q : Nat)
              (other : Locked.Entry SharedPtrOp SharedPtrRet),
            q < p ∧ s.log[q]? = some other ∧
              other.op.puts other.ret = some v

theorem atomic
    (init : SharedPtr)
    (s :
      Locked.State SharedPtrOp SharedPtrRet SharedPtr
        SharedPtrPc)
    (hReach : Locked.Run body (.start init) s) :
    Atomic init s := by
  have hLinearizable :=
    Locked.linearizable_of_run implements hReach
  rcases hLinearizable.sequential with ⟨last, hReplays, -⟩
  exact ⟨hLinearizable, fun p entry v hEntry hTakes =>
    whole_of_replays hReplays hEntry hTakes⟩

/- A session's pointer, read while it is being published. -/
def session : SharedPtr where
  stored := 1
  control := 2

def publishMoves : List (Locked.Move SharedPtrOp) :=
  [.invoke (.exchange session),
    .invoke .load,
    .lock 0,
    .advance 0,
    .advance 0,
    .unlock 0,
    .lock 1,
    .advance 1,
    .advance 1,
    .unlock 1,
    .finish 1]

/- Has the second call returned the whole pointer? -/
def hasLoaded
    (s :
      Locked.State SharedPtrOp SharedPtrRet SharedPtr
        SharedPtrPc) : Bool :=
  match s.calls[(1 : Nat)]? with
  | some ⟨_, .returned ret⟩ => decide (ret = .loaded session)
  | _ => false

theorem atomic_publish :
    ∃ s, s.Returned 1 (.loaded session) ∧ Atomic .null s := by
  obtain ⟨s, hReach, hRun⟩ :=
    Transition.exists_of_run (Locked.step body)
      (Locked.State.start SharedPtr.null) publishMoves
      hasLoaded (by decide +kernel)
  refine ⟨s, ?_, atomic .null s hReach⟩
  unfold hasLoaded at hRun
  split at hRun
  · next op ret hCall =>
      obtain rfl : ret = .loaded session :=
        of_decide_eq_true hRun
      exact ⟨op, hCall⟩
  · cases hRun

end SynchronizedSharedPtr

end GrlxRpc
