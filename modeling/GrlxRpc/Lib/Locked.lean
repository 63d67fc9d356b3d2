import GrlxRpc.Lib.Transition
import GrlxRpc.Lib.Records
import Mathlib.Data.List.Nodup

/-
  Objects whose every operation holds one mutex from its
  first access to its last.

  An operation is a sequence of small steps on a memory that
  all callers share. When no two of them are between lock
  and unlock, each operation happens as a whole, and the
  order of the unlocks is a sequential history that gives
  every caller its answer.

  Main declarations:
    * `Locked.Body`, `Locked.Progress` and `Locked.Implements`
    * `Locked.Progress.invariant`
    * `Locked.State`, `Locked.step` and `Locked.step_cases`
    * `Locked.Replays` and `Locked.Inv`
    * `Locked.Linearizable` and `Locked.linearizable_of_run`
-/

------------------------------------------------------------
-- Operations
------------------------------------------------------------

namespace Locked

/-
  What the code between lock and unlock does: where it
  begins, its next step on the memory, and the answer it has
  when it is over.
-/
structure Body (Op Ret Mem Loc : Type) where
  enter : Op → Loc
  advance : Loc → Mem → Loc × Mem
  result : Loc → Option Ret

variable {Op Ret Mem Loc Abs : Type}

/- How far an operation that found `mem` has come. -/
inductive Progress
    (body : Body Op Ret Mem Loc)
    (op : Op)
    (mem : Mem) : Loc → Mem → Prop
  | enter : Progress body op mem (body.enter op) mem
  | advance {loc : Loc} {mem' : Mem} :
      Progress body op mem loc mem' →
      body.result loc = none →
      Progress body op mem (body.advance loc mem').1
        (body.advance loc mem').2

/- What the accesses of an operation keep. -/
theorem Progress.invariant
    {body : Body Op Ret Mem Loc}
    {op : Op}
    {mem mem' : Mem}
    {loc : Loc}
    (stage : Loc → Mem → Prop)
    (hEnter : stage (body.enter op) mem)
    (hAdvance :
      ∀ loc mem, body.result loc = none → stage loc mem →
        stage (body.advance loc mem).1
          (body.advance loc mem).2)
    (hProgress : Progress body op mem loc mem') :
    stage loc mem' := by
  induction hProgress with
  | enter => exact hEnter
  | advance _ hBusy ih => exact hAdvance _ _ hBusy ih

/-
  Alone, an operation ends, and it does to the value that the
  memory stands for what `apply` says.
-/
structure Implements
    (body : Body Op Ret Mem Loc)
    (apply : Op → Abs → Abs × Ret)
    (abs : Mem → Abs)
    (fuel : Loc → Mem → Nat) : Prop where
  correct :
    ∀ op mem loc mem' ret,
      Progress body op mem loc mem' →
      body.result loc = some ret →
        apply op (abs mem) = (abs mem', ret)
  decreases :
    ∀ loc mem, body.result loc = none →
      fuel (body.advance loc mem).1 (body.advance loc mem).2 <
        fuel loc mem

------------------------------------------------------------
-- Callers
------------------------------------------------------------

inductive CallPc (Ret Loc : Type)
  | waiting
  | inside (loc : Loc)
  | released (ret : Ret)
  | returned (ret : Ret)

structure Call (Op Ret Loc : Type) where
  op : Op
  pc : CallPc Ret Loc

/- A call that has unlocked, and its answer. -/
structure Entry (Op Ret : Type) where
  call : Nat
  op : Op
  ret : Ret

/- `log` is the history of the unlocks. -/
structure State (Op Ret Mem Loc : Type) where
  memory : Mem
  holder : Option Nat
  calls : List (Call Op Ret Loc)
  log : List (Entry Op Ret)

inductive Move (Op : Type)
  | invoke (op : Op)
  | lock (k : Nat)
  | advance (k : Nat)
  | unlock (k : Nat)
  | finish (k : Nat)

namespace State

def start (mem : Mem) : State Op Ret Mem Loc where
  memory := mem
  holder := none
  calls := []
  log := []

/- Call `k` goes on to `pc`. -/
def goTo
    (s : State Op Ret Mem Loc)
    (k : Nat)
    (pc : CallPc Ret Loc) : List (Call Op Ret Loc) :=
  s.calls.modify k fun call => { call with pc := pc }

/- Is call `k` over, with this answer? -/
def Returned
    (s : State Op Ret Mem Loc)
    (k : Nat)
    (ret : Ret) : Prop :=
  ∃ op, s.calls[k]? = some ⟨op, .returned ret⟩

end State

open State

def step
    (body : Body Op Ret Mem Loc)
    (s : State Op Ret Mem Loc) :
    Move Op → Option (State Op Ret Mem Loc)
  | .invoke op =>
      some { s with calls := s.calls ++ [⟨op, .waiting⟩] }
  | .lock k =>
      match s.holder, s.calls[k]? with
      | none, some ⟨op, .waiting⟩ =>
          some
            { s with
              holder := some k
              calls := s.goTo k (.inside (body.enter op)) }
      | _, _ => none
  | .advance k =>
      match s.calls[k]? with
      | some ⟨_, .inside loc⟩ =>
          if (body.result loc).isNone then
            some
              { s with
                memory := (body.advance loc s.memory).2
                calls :=
                  s.goTo k
                    (.inside (body.advance loc s.memory).1) }
          else
            none
      | _ => none
  | .unlock k =>
      match s.calls[k]? with
      | some ⟨op, .inside loc⟩ =>
          (body.result loc).map fun ret =>
            { s with
              holder := none
              calls := s.goTo k (.released ret)
              log := s.log ++ [⟨k, op, ret⟩] }
      | _ => none
  | .finish k =>
      match s.calls[k]? with
      | some ⟨_, .released ret⟩ =>
          some { s with calls := s.goTo k (.returned ret) }
      | _ => none

variable {body : Body Op Ret Mem Loc}
variable {apply : Op → Abs → Abs × Ret}
variable {abs : Mem → Abs}
variable {fuel : Loc → Mem → Nat}
variable {s s' : State Op Ret Mem Loc}

/- The rule for what one move keeps. -/
theorem step_cases
    {P : State Op Ret Mem Loc → Prop}
    {m : Move Op}
    (hStep : step body s m = some s')
    (hInvoke :
      ∀ op, P { s with calls := s.calls ++ [⟨op, .waiting⟩] })
    (hLock :
      ∀ k op, s.holder = none →
        s.calls[k]? = some ⟨op, .waiting⟩ →
        P { s with
          holder := some k
          calls := s.goTo k (.inside (body.enter op)) })
    (hAdvance :
      ∀ k op loc, s.calls[k]? = some ⟨op, .inside loc⟩ →
        body.result loc = none →
        P { s with
          memory := (body.advance loc s.memory).2
          calls :=
            s.goTo k (.inside (body.advance loc s.memory).1) })
    (hUnlock :
      ∀ k op loc ret, s.calls[k]? = some ⟨op, .inside loc⟩ →
        body.result loc = some ret →
        P { s with
          holder := none
          calls := s.goTo k (.released ret)
          log := s.log ++ [⟨k, op, ret⟩] })
    (hFinish :
      ∀ k op ret, s.calls[k]? = some ⟨op, .released ret⟩ →
        P { s with calls := s.goTo k (.returned ret) }) :
    P s' := by
  cases m with
  | invoke op =>
      rcases Option.some.inj hStep with rfl
      exact hInvoke op
  | lock k =>
      simp only [step] at hStep
      split at hStep
      · next op hFree hCall =>
          rcases Option.some.inj hStep with rfl
          exact hLock k op hFree hCall
      · cases hStep
  | advance k =>
      simp only [step] at hStep
      split at hStep
      · next op loc hCall =>
          rcases Option.ite_none_right_eq_some.mp hStep with
            ⟨hBusy, hEq⟩
          rcases Option.some.inj hEq with rfl
          exact hAdvance k op loc hCall
            (Option.isNone_iff_eq_none.mp hBusy)
      · cases hStep
  | unlock k =>
      simp only [step] at hStep
      split at hStep
      · next op loc hCall =>
          rcases Option.map_eq_some_iff.mp hStep with
            ⟨ret, hRet, rfl⟩
          exact hUnlock k op loc ret hCall hRet
      · cases hStep
  | finish k =>
      simp only [step] at hStep
      split at hStep
      · next op ret hCall =>
          rcases Option.some.inj hStep with rfl
          exact hFinish k op ret hCall
      · cases hStep

------------------------------------------------------------
-- Sequential Histories
------------------------------------------------------------

/- The entries are a run of the operations, one by one. -/
def Replays
    (apply : Op → Abs → Abs × Ret) :
    Abs → List (Entry Op Ret) → Abs → Prop
  | a, [], b => a = b
  | a, entry :: rest, b =>
      (apply entry.op a).2 = entry.ret ∧
        Replays apply (apply entry.op a).1 rest b

/- One more operation, applied to where the run ended. -/
theorem Replays.concat
    {a b b' : Abs}
    {log : List (Entry Op Ret)}
    (hLog : Replays apply a log b)
    {op : Op}
    {ret : Ret}
    (hApply : apply op b = (b', ret))
    (k : Nat) :
    Replays apply a (log ++ [⟨k, op, ret⟩]) b' := by
  induction log generalizing a with
  | nil =>
      rcases hLog with rfl
      simp [Replays, hApply]
  | cons entry rest ih => exact ⟨hLog.1, ih hLog.2⟩

/- What an operation of the history found there. -/
theorem Replays.found
    {a b : Abs}
    {log : List (Entry Op Ret)}
    (hLog : Replays apply a log b)
    {p : Nat}
    {entry : Entry Op Ret}
    (hEntry : log[p]? = some entry) :
    ∃ a',
      Replays apply a (log.take p) a' ∧
        (apply entry.op a').2 = entry.ret := by
  induction log generalizing a p with
  | nil => cases hEntry
  | cons first rest ih =>
      rcases hLog with ⟨hFirst, hRest⟩
      cases p with
      | zero =>
          obtain rfl : first = entry := Option.some.inj hEntry
          exact ⟨a, rfl, hFirst⟩
      | succ p =>
          rcases ih hRest hEntry with ⟨a', hBefore, hAnswer⟩
          exact ⟨a', ⟨hFirst, hBefore⟩, hAnswer⟩

/- The answer of a call that has unlocked. -/
def CallPc.answer : CallPc Ret Loc → Option Ret
  | waiting => none
  | inside _ => none
  | released ret => some ret
  | returned ret => some ret

/-
  The operation inside the lock works on what the history so
  far left, and the history is that of the calls' answers.
-/
structure Inv
    (body : Body Op Ret Mem Loc)
    (apply : Op → Abs → Abs × Ret)
    (abs : Mem → Abs)
    (init : Mem)
    (s : State Op Ret Mem Loc) : Prop where
  free :
    s.holder = none →
      Replays apply (abs init) s.log (abs s.memory)
  inside :
    ∀ k op loc, s.calls[k]? = some ⟨op, .inside loc⟩ →
      s.holder = some k ∧
        ∃ mem,
          Replays apply (abs init) s.log (abs mem) ∧
            Progress body op mem loc s.memory
  held :
    ∀ k, s.holder = some k →
      ∃ op loc, s.calls[k]? = some ⟨op, .inside loc⟩
  logged :
    ∀ (k : Nat) (call : Call Op Ret Loc) (ret : Ret),
      s.calls[k]? = some call → call.pc.answer = some ret →
        ⟨k, call.op, ret⟩ ∈ s.log
  caused :
    ∀ entry ∈ s.log,
      ∃ call,
        s.calls[entry.call]? = some call ∧
          call.op = entry.op ∧
          call.pc.answer = some entry.ret
  nodup : (s.log.map Entry.call).Nodup

namespace Inv

variable {init : Mem}

theorem start :
    Inv body apply abs init (State.start init) := by
  constructor <;> simp [State.start, Replays]

/- A call that has no answer is in no entry. -/
theorem not_logged
    (hInv : Inv body apply abs init s)
    {k : Nat}
    {call : Call Op Ret Loc}
    (hCall : s.calls[k]? = some call)
    (hNone : call.pc.answer = none) :
    k ∉ s.log.map Entry.call := by
  intro hMem
  rcases List.mem_map.mp hMem with ⟨entry, hEntry, rfl⟩
  rcases hInv.caused entry hEntry with
    ⟨other, hOther, -, hAnswer⟩
  obtain rfl : call = other :=
    Option.some.inj (hCall.symm.trans hOther)
  rw [hNone] at hAnswer
  cases hAnswer

/- What a call's own moves keep of the other calls. -/
theorem goTo_cases
    {k j : Nat}
    {pc : CallPc Ret Loc}
    {call : Call Op Ret Loc}
    (hGet : (s.goTo k pc)[j]? = some call) :
    (k ≠ j ∧ s.calls[j]? = some call) ∨
      (k = j ∧
        ∃ old,
          s.calls[k]? = some old ∧
            { old with pc := pc } = call) :=
  Records.getElem?_modify_eq_some.mp hGet

/- An entry's call keeps its answer when call `k` moves. -/
theorem caused_goTo
    {entry : Entry Op Ret}
    {call : Call Op Ret Loc}
    (hCall : s.calls[entry.call]? = some call)
    (hOp : call.op = entry.op)
    (hAnswer : call.pc.answer = some entry.ret)
    {k : Nat}
    {pc : CallPc Ret Loc}
    (hKeeps :
      k = entry.call → pc.answer = some entry.ret) :
    ∃ call',
      (s.goTo k pc)[entry.call]? = some call' ∧
        call'.op = entry.op ∧
        call'.pc.answer = some entry.ret := by
  by_cases hSame : k = entry.call
  · refine ⟨{ call with pc := pc }, ?_, hOp, hKeeps hSame⟩
    rw [State.goTo, hSame, List.getElem?_modify_eq, hCall]
    rfl
  · refine ⟨call, ?_, hOp, hAnswer⟩
    rw [State.goTo, List.getElem?_modify_ne _ _ hSame, hCall]

theorem invoke
    (hInv : Inv body apply abs init s)
    (op : Op) :
    Inv body apply abs init
      { s with calls := s.calls ++ [⟨op, .waiting⟩] } := by
  constructor
  case free => exact hInv.free
  case inside =>
    intro k op' loc hGet
    rcases Records.getElem?_concat_eq_some.mp hGet with
      hOld | ⟨-, hNew⟩
    · exact hInv.inside k op' loc hOld
    · cases hNew
  case held =>
    intro k hHolder
    rcases hInv.held k hHolder with ⟨op', loc, hCall⟩
    exact ⟨op', loc, Records.getElem?_mono
      (List.prefix_append _ _) hCall⟩
  case logged =>
    intro k call ret hGet hAnswer
    rcases Records.getElem?_concat_eq_some.mp hGet with
      hOld | ⟨-, rfl⟩
    · exact hInv.logged k call ret hOld hAnswer
    · cases hAnswer
  case caused =>
    intro entry hEntry
    rcases hInv.caused entry hEntry with ⟨call, hCall, hRest⟩
    exact ⟨call, Records.getElem?_mono
      (List.prefix_append _ _) hCall, hRest⟩
  case nodup => exact hInv.nodup

/- A move of call `k` between its lock and its unlock. -/
theorem moveInside
    (hInv : Inv body apply abs init s)
    {k : Nat}
    {call : Call Op Ret Loc}
    (hCall : s.calls[k]? = some call)
    (hNone : call.pc.answer = none)
    (hAlone : s.holder = none ∨ s.holder = some k)
    {mem mem' : Mem}
    (hReplays : Replays apply (abs init) s.log (abs mem))
    {loc : Loc}
    (hProgress : Progress body call.op mem loc mem') :
    Inv body apply abs init
      { s with
        memory := mem'
        holder := some k
        calls := s.goTo k (.inside loc) } := by
  constructor
  case free => exact fun hNot => nomatch hNot
  case inside =>
    intro j op loc' hGet
    rcases goTo_cases hGet with
      ⟨hNe, hOld⟩ | ⟨rfl, old, hOld, hNew⟩
    · have hHolder := (hInv.inside j op loc' hOld).1
      rcases hAlone with hFree | hMine
      · rw [hFree] at hHolder
        cases hHolder
      · rw [hMine] at hHolder
        exact absurd (Option.some.inj hHolder) hNe
    · obtain rfl : call = old :=
        Option.some.inj (hCall.symm.trans hOld)
      cases hNew
      exact ⟨rfl, mem, hReplays, hProgress⟩
  case held =>
    intro j hHolder
    obtain rfl : k = j := Option.some.inj hHolder
    refine ⟨call.op, loc, ?_⟩
    simp only [State.goTo, List.getElem?_modify_eq, hCall]
    rfl
  case logged =>
    intro j call' ret hGet hAnswer
    rcases goTo_cases hGet with
      ⟨-, hOld⟩ | ⟨-, old, -, rfl⟩
    · exact hInv.logged j call' ret hOld hAnswer
    · cases hAnswer
  case caused =>
    intro entry hEntry
    rcases hInv.caused entry hEntry with
      ⟨old, hOld, hOp, hAnswer⟩
    refine caused_goTo hOld hOp hAnswer ?_
    rintro rfl
    exact absurd (List.mem_map_of_mem hEntry)
      (hInv.not_logged hCall hNone)
  case nodup => exact hInv.nodup

/- Call `k` unlocks, and its operation has happened. -/
theorem unlock
    (hInv : Inv body apply abs init s)
    (hCorrect :
      ∀ op mem loc mem' ret,
        Progress body op mem loc mem' →
        body.result loc = some ret →
          apply op (abs mem) = (abs mem', ret))
    {k : Nat}
    {op : Op}
    {loc : Loc}
    {ret : Ret}
    (hCall : s.calls[k]? = some ⟨op, .inside loc⟩)
    (hResult : body.result loc = some ret) :
    Inv body apply abs init
      { s with
        holder := none
        calls := s.goTo k (.released ret)
        log := s.log ++ [⟨k, op, ret⟩] } := by
  rcases hInv.inside k op loc hCall with
    ⟨hHolder, mem, hReplays, hProgress⟩
  have hFresh := hInv.not_logged hCall rfl
  constructor
  case free =>
    intro _
    exact hReplays.concat
      (hCorrect op mem loc s.memory ret hProgress hResult) k
  case inside =>
    intro j op' loc' hGet
    rcases goTo_cases hGet with
      ⟨hNe, hOld⟩ | ⟨-, old, -, hNew⟩
    · have hOther := (hInv.inside j op' loc' hOld).1
      rw [hHolder] at hOther
      exact absurd (Option.some.inj hOther) hNe
    · cases hNew
  case held => exact fun _ hNot => nomatch hNot
  case logged =>
    intro j call ret' hGet hAnswer
    rcases goTo_cases hGet with
      ⟨-, hOld⟩ | ⟨rfl, old, hOld, rfl⟩
    · exact List.mem_append_left _
        (hInv.logged j call ret' hOld hAnswer)
    · obtain rfl : ⟨op, .inside loc⟩ = old :=
        Option.some.inj (hCall.symm.trans hOld)
      obtain rfl : ret = ret' := Option.some.inj hAnswer
      exact List.mem_append_right _ List.mem_cons_self
  case caused =>
    intro entry hEntry
    rcases List.mem_append.mp hEntry with hOld | hNew
    · rcases hInv.caused entry hOld with
        ⟨call, hGet, hOp, hAnswer⟩
      refine caused_goTo hGet hOp hAnswer ?_
      rintro rfl
      exact absurd (List.mem_map_of_mem hOld) hFresh
    · rcases List.mem_singleton.mp hNew with rfl
      refine ⟨⟨op, .released ret⟩, ?_, rfl, rfl⟩
      simp only [State.goTo, List.getElem?_modify_eq, hCall]
      rfl
  case nodup =>
    rw [List.map_append]
    exact hInv.nodup.append (List.nodup_singleton _)
      (List.disjoint_singleton.mpr hFresh)

/- Call `k` hands its answer to its caller. -/
theorem finish
    (hInv : Inv body apply abs init s)
    {k : Nat}
    {op : Op}
    {ret : Ret}
    (hCall : s.calls[k]? = some ⟨op, .released ret⟩) :
    Inv body apply abs init
      { s with calls := s.goTo k (.returned ret) } := by
  have hEntry := hInv.logged k _ ret hCall rfl
  constructor
  case free => exact hInv.free
  case inside =>
    intro j op' loc hGet
    rcases goTo_cases hGet with
      ⟨-, hOld⟩ | ⟨-, old, -, hNew⟩
    · exact hInv.inside j op' loc hOld
    · cases hNew
  case held =>
    intro j hHolder
    rcases hInv.held j hHolder with ⟨op', loc, hInside⟩
    refine ⟨op', loc, ?_⟩
    have hNe : k ≠ j := by
      rintro rfl
      rw [hCall] at hInside
      cases hInside
    simp only [State.goTo, List.getElem?_modify_ne _ _ hNe,
      hInside]
  case logged =>
    intro j call ret' hGet hAnswer
    rcases goTo_cases hGet with
      ⟨-, hOld⟩ | ⟨rfl, old, hOld, rfl⟩
    · exact hInv.logged j call ret' hOld hAnswer
    · obtain rfl : ⟨op, .released ret⟩ = old :=
        Option.some.inj (hCall.symm.trans hOld)
      obtain rfl : ret = ret' := Option.some.inj hAnswer
      exact hEntry
  case caused =>
    intro entry hMem
    rcases hInv.caused entry hMem with
      ⟨call, hGet, hOp, hAnswer⟩
    refine caused_goTo hGet hOp hAnswer ?_
    rintro rfl
    obtain rfl : ⟨op, .released ret⟩ = call :=
      Option.some.inj (hCall.symm.trans hGet)
    exact hAnswer
  case nodup => exact hInv.nodup

end Inv

theorem inv
    {init : Mem}
    (hImplements : Implements body apply abs fuel)
    (hReach :
      Transition.Reachable (step body) (State.start init) s) :
    Inv body apply abs init s := by
  induction hReach with
  | start => exact .start
  | @next s s' m _ _ hStep hInv =>
      apply step_cases
        (P := fun s' => Inv body apply abs init s') hStep
      case hInvoke => exact hInv.invoke
      case hLock =>
        intro k op hFree hCall
        exact hInv.moveInside hCall rfl (.inl hFree)
          (hInv.free hFree) .enter
      case hAdvance =>
        intro k op loc hCall hBusy
        rcases hInv.inside k op loc hCall with
          ⟨hHolder, mem, hReplays, hProgress⟩
        have hNext := hInv.moveInside hCall rfl
          (.inr hHolder) hReplays (hProgress.advance hBusy)
        rw [← hHolder] at hNext
        exact hNext
      case hUnlock =>
        intro k op loc ret hCall hResult
        exact hInv.unlock hImplements.correct hCall hResult
      case hFinish =>
        intro k op ret hCall
        exact hInv.finish hCall

------------------------------------------------------------
-- Order
------------------------------------------------------------

/- The states that runs from `s` reach. -/
abbrev Run
    (body : Body Op Ret Mem Loc)
    (s s' : State Op Ret Mem Loc) : Prop :=
  Transition.Reachable (step body) s s'

theorem Run.log_mono
    (hRun : Run body s s') :
    s.log <+: s'.log := by
  induction hRun with
  | start => exact List.prefix_rfl
  | @next mid s' m _ _ hStep hPrefix =>
      apply step_cases (P := fun s' => s.log <+: s'.log) hStep
      case hInvoke => exact fun _ => hPrefix
      case hLock => exact fun _ _ _ _ => hPrefix
      case hAdvance => exact fun _ _ _ _ _ => hPrefix
      case hUnlock =>
        exact fun _ _ _ _ _ _ =>
          hPrefix.trans (List.prefix_append _ _)
      case hFinish => exact fun _ _ _ _ => hPrefix

/- A call is at one place of the history. -/
theorem Inv.place_unique
    {init : Mem}
    (hInv : Inv body apply abs init s)
    {p q : Nat}
    {entry other : Entry Op Ret}
    (hEntry : s.log[p]? = some entry)
    (hOther : s.log[q]? = some other)
    (hSame : entry.call = other.call) :
    p = q := by
  have hLt := (List.getElem?_eq_some_iff.mp hEntry).1
  have hPlace :
      (s.log.map Entry.call)[p]? =
        (s.log.map Entry.call)[q]? := by
    rw [List.getElem?_map, List.getElem?_map, hEntry, hOther,
      Option.map_some, Option.map_some, hSame]
  exact (List.getElem?_inj (by simpa using hLt)
    hInv.nodup).mp hPlace

/-
  A call that returned before another was made is before it
  in the history.
-/
theorem Inv.ordered
    {init : Mem}
    (hInv : Inv body apply abs init s)
    (hInv' : Inv body apply abs init s')
    (hRun : Run body s s')
    {k : Nat}
    {ret : Ret}
    (hReturned : s.Returned k ret)
    {k' : Nat}
    (hLater : s.calls.length ≤ k')
    {p p' : Nat}
    {entry entry' : Entry Op Ret}
    (hEntry : s'.log[p]? = some entry)
    (hCall : entry.call = k)
    (hEntry' : s'.log[p']? = some entry')
    (hCall' : entry'.call = k') :
    p < p' := by
  rcases hReturned with ⟨op, hGet⟩
  rcases List.mem_iff_getElem?.mp
      (hInv.logged k _ ret hGet rfl) with ⟨q, hPlace⟩
  have hPrefix := hRun.log_mono
  have hSame : p = q :=
    hInv'.place_unique hEntry
      (Records.getElem?_mono hPrefix hPlace) hCall
  have hBound := (List.getElem?_eq_some_iff.mp hPlace).1
  have hNew : s.log.length ≤ p' := by
    by_contra hNot
    obtain ⟨old, hOld⟩ : ∃ old, s.log[p']? = some old :=
      ⟨_, List.getElem?_eq_getElem (Nat.lt_of_not_le hNot)⟩
    obtain rfl : old = entry' :=
      Option.some.inj
        ((Records.getElem?_mono hPrefix hOld).symm.trans
          hEntry')
    rcases hInv.caused old (List.mem_of_getElem? hOld) with
      ⟨call, hThere, -⟩
    have hLt := (List.getElem?_eq_some_iff.mp hThere).1
    omega
  omega

------------------------------------------------------------
-- Progress Of The Callers
------------------------------------------------------------

/- The holder of the lock comes to its unlock. -/
theorem release
    (hDecreases :
      ∀ loc mem, body.result loc = none →
        fuel (body.advance loc mem).1
            (body.advance loc mem).2 <
          fuel loc mem)
    {k : Nat}
    {op : Op}
    {loc : Loc}
    (hCall : s.calls[k]? = some ⟨op, .inside loc⟩) :
    ∃ s',
      Run body s s' ∧ s'.holder = none ∧
        (∃ ret, s'.calls[k]? = some ⟨op, .released ret⟩) ∧
        ∀ j, k ≠ j → s'.calls[j]? = s.calls[j]? := by
  induction hFuel : fuel loc s.memory using Nat.strongRecOn
    generalizing s loc with
  | ind n ih =>
      cases hResult : body.result loc with
      | some ret =>
          refine ⟨_, .next .start trivial
            (a := .unlock k) (by
              simp only [step, hCall, hResult]
              rfl), rfl, ⟨ret, ?_⟩, ?_⟩
          · simp only [State.goTo, List.getElem?_modify_eq,
              hCall]
            rfl
          · exact fun j hNe => List.getElem?_modify_ne _ _ hNe
      | none =>
          let next : State Op Ret Mem Loc :=
            { s with
              memory := (body.advance loc s.memory).2
              calls :=
                s.goTo k
                  (.inside (body.advance loc s.memory).1) }
          have hStep :
              step body s (.advance k) = some next := by
            simp only [step, hCall, hResult]
            rfl
          have hNext :
              next.calls[k]? =
                some
                  ⟨op,
                    .inside (body.advance loc s.memory).1⟩ := by
            simp only [next, State.goTo,
              List.getElem?_modify_eq, hCall]
            rfl
          rcases ih _ (hFuel ▸ hDecreases loc s.memory hResult)
              hNext rfl with
            ⟨s', hRun, hFree, hReleased, hOthers⟩
          refine ⟨s', .trans (.next .start trivial hStep) hRun,
            hFree, hReleased, fun j hNe => ?_⟩
          rw [hOthers j hNe]
          exact List.getElem?_modify_ne _ _ hNe

theorem returned_of_released
    {k : Nat}
    {op : Op}
    {ret : Ret}
    (hCall : s.calls[k]? = some ⟨op, .released ret⟩) :
    ∃ s', Run body s s' ∧ ∃ ret, s'.Returned k ret := by
  refine ⟨_, .next .start trivial (a := .finish k) (by
    simp only [step, hCall]
    rfl), ret, op, ?_⟩
  simp only [State.goTo, List.getElem?_modify_eq, hCall]
  rfl

theorem returned_of_inside
    (hImplements : Implements body apply abs fuel)
    {k : Nat}
    {op : Op}
    {loc : Loc}
    (hCall : s.calls[k]? = some ⟨op, .inside loc⟩) :
    ∃ s', Run body s s' ∧ ∃ ret, s'.Returned k ret := by
  rcases release hImplements.decreases hCall with
    ⟨mid, hFirst, -, ⟨ret, hReleased⟩, -⟩
  rcases returned_of_released hReleased with
    ⟨s', hSecond, hReturned⟩
  exact ⟨s', hFirst.trans hSecond, hReturned⟩

theorem returned_of_waiting
    (hImplements : Implements body apply abs fuel)
    {k : Nat}
    {op : Op}
    (hFree : s.holder = none)
    (hCall : s.calls[k]? = some ⟨op, .waiting⟩) :
    ∃ s', Run body s s' ∧ ∃ ret, s'.Returned k ret := by
  let next : State Op Ret Mem Loc :=
    { s with
      holder := some k
      calls := s.goTo k (.inside (body.enter op)) }
  have hStep : step body s (.lock k) = some next := by
    simp only [step, hFree, hCall]
    rfl
  have hNext :
      next.calls[k]? =
        some ⟨op, .inside (body.enter op)⟩ := by
    simp only [next, State.goTo, List.getElem?_modify_eq,
      hCall]
    rfl
  rcases returned_of_inside hImplements hNext with
    ⟨s', hRun, hReturned⟩
  exact ⟨s', .trans (.next .start trivial hStep) hRun,
    hReturned⟩

/- Every call can be brought to its end. -/
theorem Inv.live
    {init : Mem}
    (hInv : Inv body apply abs init s)
    (hImplements : Implements body apply abs fuel)
    {k : Nat}
    {call : Call Op Ret Loc}
    (hCall : s.calls[k]? = some call) :
    ∃ s', Run body s s' ∧ ∃ ret, s'.Returned k ret := by
  rcases call with ⟨op, pc⟩
  cases pc with
  | returned ret => exact ⟨s, .start, ret, op, hCall⟩
  | released ret => exact returned_of_released hCall
  | inside loc => exact returned_of_inside hImplements hCall
  | waiting =>
      cases hHolder : s.holder with
      | none =>
          exact returned_of_waiting hImplements hHolder hCall
      | some j =>
          -- The lock is another's, who gives it back first.
          rcases hInv.held j hHolder with ⟨op', loc, hInside⟩
          have hNe : j ≠ k := by
            rintro rfl
            rw [hCall] at hInside
            cases hInside
          rcases release hImplements.decreases hInside with
            ⟨mid, hFirst, hFree, -, hOthers⟩
          rw [← hOthers k hNe] at hCall
          rcases returned_of_waiting hImplements hFree hCall
            with ⟨s', hSecond, hReturned⟩
          exact ⟨s', hFirst.trans hSecond, hReturned⟩

------------------------------------------------------------
-- Every Run
------------------------------------------------------------

/-
  The object is one whose operations happen at once: there is
  a sequential history that has each call's answer, in an
  order in which no call overtakes one that had returned
  before it was made, and no call is stuck.
-/
structure Linearizable
    (body : Body Op Ret Mem Loc)
    (apply : Op → Abs → Abs × Ret)
    (abs : Mem → Abs)
    (init : Mem)
    (s : State Op Ret Mem Loc) : Prop where
  sequential :
    ∃ a,
      Replays apply (abs init) s.log a ∧
        (s.holder = none → a = abs s.memory)
  answered :
    ∀ (k : Nat) (call : Call Op Ret Loc) (ret : Ret),
      s.calls[k]? = some call →
        (call.pc.answer = some ret ↔
          ⟨k, call.op, ret⟩ ∈ s.log)
  once : (s.log.map Entry.call).Nodup
  exclusive :
    ∀ (k k' : Nat) (op op' : Op) (loc loc' : Loc),
      s.calls[k]? = some ⟨op, .inside loc⟩ →
        s.calls[k']? = some ⟨op', .inside loc'⟩ → k = k'
  ordered :
    ∀ s', Run body s s' →
      ∀ (k : Nat) (ret : Ret), s.Returned k ret →
        ∀ k' : Nat, s.calls.length ≤ k' →
          ∀ (p p' : Nat) (entry entry' : Entry Op Ret),
            s'.log[p]? = some entry → entry.call = k →
              s'.log[p']? = some entry' →
                entry'.call = k' → p < p'
  live :
    ∀ k < s.calls.length,
      ∃ s', Run body s s' ∧ ∃ ret, s'.Returned k ret

theorem linearizable_of_run
    {init : Mem}
    (hImplements : Implements body apply abs fuel)
    (hReach : Run body (State.start init) s) :
    Linearizable body apply abs init s := by
  have hInv := inv hImplements hReach
  constructor
  case sequential =>
    cases hHolder : s.holder with
    | none =>
        exact ⟨_, hInv.free hHolder, fun _ => rfl⟩
    | some k =>
        rcases hInv.held k hHolder with ⟨op, loc, hCall⟩
        rcases (hInv.inside k op loc hCall).2 with
          ⟨mem, hReplays, -⟩
        exact ⟨_, hReplays, fun hNot => nomatch hNot⟩
  case answered =>
    intro k call ret hCall
    constructor
    · exact hInv.logged k call ret hCall
    · intro hMem
      rcases hInv.caused _ hMem with
        ⟨other, hOther, -, hAnswer⟩
      obtain rfl : call = other :=
        Option.some.inj (hCall.symm.trans hOther)
      exact hAnswer
  case once => exact hInv.nodup
  case exclusive =>
    intro k k' op op' loc loc' hCall hCall'
    have hHolder := (hInv.inside k op loc hCall).1
    have hHolder' := (hInv.inside k' op' loc' hCall').1
    exact Option.some.inj (hHolder.symm.trans hHolder')
  case ordered =>
    intro s' hRun k ret hReturned k' hLater p p' entry entry'
      hEntry hCall hEntry' hCall'
    exact hInv.ordered (inv hImplements (hReach.trans hRun))
      hRun hReturned hLater hEntry hCall hEntry' hCall'
  case live =>
    intro k hLt
    exact hInv.live hImplements
      (List.getElem?_eq_getElem hLt)

end Locked
