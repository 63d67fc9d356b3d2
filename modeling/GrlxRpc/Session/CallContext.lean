import GrlxRpc.Session.State
import GrlxRpc.Lib.Transition
import GrlxRpc.Lib.Records
import GrlxRpc.Lib.Scopes

/-
  The thread-local pointer to the context of the request
  that is being dispatched.

  The scope that sets it lives in the frame of a handler's
  coroutine. The coroutine may be suspended while the scope
  is open, its thread may go on to other handlers, and the
  frame may end on another thread.

  Main declarations:
    * `HandlerFrame` and `CallContexts`
    * `CallContexts.Safe` and `CallContexts.Nests`
    * `CallContexts.safe`
    * `CallContexts.entered_own`
    * `CallContexts.strays` and `CallContexts.leaks`
-/

------------------------------------------------------------
-- Handlers And Threads
------------------------------------------------------------

namespace GrlxRpc

/-
  The coroutine that handles one request. `scope` is its
  `current_call_context_scope`, whose key is the thread that
  constructed it; the frame is finished when it is closed.
  `thread` is where the coroutine runs, none while it is
  suspended.
-/
structure HandlerFrame where
  ctx : ClientContext
  scope : Scopes.Scope Nat
  thread : Option Nat
  hasSuspended : Bool

/-
  The handlers of all sessions, and `detail::current_ctx` of
  every thread. A context is named by the place of its frame.
  `seen` has what `current_call_context()` returned to whom:
  a history.
-/
structure CallContexts where
  currentCtx : Nat → Option Nat
  frames : List HandlerFrame
  seen : List (Caller × Option Nat)

inductive ContextAction
  -- the coroutine of a request
  | enter (t : Nat) (ctx : ClientContext)
  | currentCallContext (d t : Nat)
  | suspend (d t : Nat)
  | resume (d t : Nat)
  | finish (d t : Nat)
  -- the handler of a notification, which does not suspend
  | notification (t : Nat)

namespace CallContexts

def start : CallContexts where
  currentCtx := fun _ => none
  frames := []
  seen := []

def scopes (s : CallContexts) : List (Scopes.Scope Nat) :=
  s.frames.map HandlerFrame.scope

------------------------------------------------------------
-- Steps
------------------------------------------------------------

/- No handler runs on the thread. -/
def Idle
    (s : CallContexts)
    (t : Nat) : Prop :=
  ∀ frame ∈ s.frames, frame.thread ≠ some t

instance
    (s : CallContexts)
    (t : Nat) : Decidable (s.Idle t) :=
  inferInstanceAs (Decidable (∀ frame ∈ s.frames, _))

/- Handler `d` runs on the thread. -/
def Runs
    (s : CallContexts)
    (d t : Nat) : Prop :=
  ∃ frame ∈ s.frames[d]?, frame.thread = some t

instance
    (s : CallContexts)
    (d t : Nat) : Decidable (s.Runs d t) :=
  inferInstanceAs (Decidable (∃ frame ∈ _, _))

def Enabled (s : CallContexts) : ContextAction → Prop
  | .enter t _ => s.Idle t
  | .currentCallContext d t => s.Runs d t
  | .suspend d t => s.Runs d t
  | .resume d t =>
      s.Idle t ∧
        ∃ frame ∈ s.frames[d]?,
          frame.thread = none ∧ frame.scope.isOpen = true
  | .finish d t => s.Runs d t
  | .notification t => s.Idle t

instance
    (s : CallContexts) :
    (a : ContextAction) → Decidable (s.Enabled a)
  | .enter _ _ => inferInstanceAs (Decidable (s.Idle _))
  | .currentCallContext _ _ =>
      inferInstanceAs (Decidable (s.Runs _ _))
  | .suspend _ _ => inferInstanceAs (Decidable (s.Runs _ _))
  | .resume _ _ => inferInstanceAs (Decidable (_ ∧ _))
  | .finish _ _ => inferInstanceAs (Decidable (s.Runs _ _))
  | .notification _ => inferInstanceAs (Decidable (s.Idle _))

/-
  The constructor of the scope saves the thread's pointer
  and sets it; the destructor restores the saved one on the
  thread that it runs on.
-/
def update (s : CallContexts) : ContextAction → CallContexts
  | .enter t ctx =>
      { s with
        currentCtx :=
          Function.update s.currentCtx t (some s.frames.length)
        frames :=
          s.frames ++
            [{ ctx := ctx
               scope :=
                { key := t
                  prev := s.currentCtx t
                  isOpen := true }
               thread := some t
               hasSuspended := false }] }
  | .currentCallContext d t =>
      { s with
        seen := s.seen ++ [(.request d, s.currentCtx t)] }
  | .suspend d _ =>
      { s with
        frames :=
          s.frames.modify d fun frame =>
            { frame with
              thread := none
              hasSuspended := true } }
  | .resume d t =>
      { s with
        frames :=
          s.frames.modify d fun frame =>
            { frame with thread := some t } }
  | .finish d t =>
      { s with
        currentCtx :=
          Function.update s.currentCtx t
            (s.frames[d]?.bind fun frame => frame.scope.prev)
        frames :=
          s.frames.modify d fun frame =>
            { frame with
              scope := frame.scope.close
              thread := none } }
  | .notification t =>
      { s with
        seen := s.seen ++ [(.notification, s.currentCtx t)] }

def step
    (s : CallContexts)
    (a : ContextAction) : Option CallContexts :=
  if s.Enabled a then some (s.update a) else none

theorem step_eq_some_iff
    (s s' : CallContexts)
    (a : ContextAction) :
    step s a = some s' ↔ s.Enabled a ∧ s' = s.update a := by
  simp [step, eq_comm]

abbrev ReachableBy
    (ok : CallContexts → ContextAction → Prop)
    (s : CallContexts) : Prop :=
  Transition.ReachableBy step ok start s

abbrev Reachable (s : CallContexts) : Prop :=
  Transition.Reachable step start s

/- The invariant rule for call contexts. -/
theorem invariant
    {ok : CallContexts → ContextAction → Prop}
    (inv : CallContexts → Prop)
    (hStart : inv start)
    (hUpdate :
      ∀ s a, inv s → ok s a → s.Enabled a →
        inv (s.update a))
    {s : CallContexts}
    (hReach : ReachableBy ok s) :
    inv s :=
  hReach.invariant_of_guarded step_eq_some_iff hStart
    fun s a _ => hUpdate s a

------------------------------------------------------------
-- A Handler's Own Context
------------------------------------------------------------

/-
  A thread runs one handler at a time, and a handler that
  was not suspended yet finds its own context.
-/
structure ThreadInv (s : CallContexts) : Prop where
  alone :
    ∀ (d d' : Nat) (frame frame' : HandlerFrame) (t : Nat),
      s.frames[d]? = some frame →
        s.frames[d']? = some frame' →
          frame.thread = some t →
            frame'.thread = some t → d = d'
  own :
    ∀ (d : Nat) (frame : HandlerFrame) (t : Nat),
      s.frames[d]? = some frame →
        frame.thread = some t →
          frame.hasSuspended = false →
            s.currentCtx t = some d
  left :
    ∀ (d : Nat) (frame : HandlerFrame),
      s.frames[d]? = some frame →
        frame.thread = none →
          frame.scope.isOpen = true →
            frame.hasSuspended = true

/- No handler is where an idle thread is. -/
theorem Idle.thread_ne
    {s : CallContexts}
    {t : Nat}
    (hIdle : s.Idle t)
    {d : Nat}
    {frame : HandlerFrame}
    (hGet : s.frames[d]? = some frame) :
    frame.thread ≠ some t :=
  hIdle frame (List.mem_of_getElem? hGet)

namespace ThreadInv

variable {s : CallContexts}

theorem enter
    (hInv : s.ThreadInv)
    {t : Nat}
    (hIdle : s.Idle t)
    (ctx : ClientContext) :
    (s.update (.enter t ctx)).ThreadInv := by
  constructor
  case alone =>
    intro d d' frame frame' t' hGet hGet' hAt hAt'
    rcases Records.getElem?_concat_eq_some.mp hGet with
      hOld | ⟨rfl, rfl⟩ <;>
      rcases Records.getElem?_concat_eq_some.mp hGet' with
        hOld' | ⟨rfl, rfl⟩
    · exact hInv.alone d d' frame frame' t' hOld hOld' hAt hAt'
    · rcases Option.some.inj hAt' with rfl
      exact absurd hAt (hIdle.thread_ne hOld)
    · rcases Option.some.inj hAt with rfl
      exact absurd hAt' (hIdle.thread_ne hOld')
    · rfl
  case own =>
    intro d frame t' hGet hAt hFresh
    rcases Records.getElem?_concat_eq_some.mp hGet with
      hOld | ⟨rfl, rfl⟩
    · have hOther : t' ≠ t := by
        rintro rfl
        exact hIdle.thread_ne hOld hAt
      exact (Function.update_of_ne hOther _ _).trans
        (hInv.own d frame t' hOld hAt hFresh)
    · rcases Option.some.inj hAt with rfl
      exact Function.update_self _ _ _
  case left =>
    intro d frame hGet hAt hOpen
    rcases Records.getElem?_concat_eq_some.mp hGet with
      hOld | ⟨rfl, rfl⟩
    · exact hInv.left d frame hOld hAt hOpen
    · cases hAt

/- A handler that leaves its thread, suspended or finished. -/
theorem leave
    (hInv : s.ThreadInv)
    {d t : Nat}
    (hRuns : s.Runs d t)
    {f : HandlerFrame → HandlerFrame}
    (hThread : ∀ frame, (f frame).thread = none)
    (hLeft :
      ∀ frame, (f frame).scope.isOpen = true →
        (f frame).hasSuspended = true)
    {currentCtx : Nat → Option Nat}
    (hCurrent : ∀ t', t' ≠ t → currentCtx t' = s.currentCtx t') :
    { s with
      currentCtx := currentCtx
      frames := s.frames.modify d f }.ThreadInv := by
  rcases hRuns with ⟨running, hRunning, hOn⟩
  constructor
  case alone =>
    intro e e' frame frame' t' hGet hGet' hAt hAt'
    rcases Records.getElem?_modify_eq_some.mp hGet with
      ⟨_, hOld⟩ | ⟨_, other, _, rfl⟩
    · rcases Records.getElem?_modify_eq_some.mp hGet' with
        ⟨_, hOld'⟩ | ⟨_, other, _, rfl⟩
      · exact hInv.alone e e' frame frame' t' hOld hOld' hAt
          hAt'
      · cases (hThread other).symm.trans hAt'
    · cases (hThread other).symm.trans hAt
  case own =>
    intro e frame t' hGet hAt hFresh
    rcases Records.getElem?_modify_eq_some.mp hGet with
      ⟨hNe, hOld⟩ | ⟨_, other, _, rfl⟩
    · have hOther : t' ≠ t := by
        rintro rfl
        exact hNe
          (hInv.alone d e running frame t' hRunning hOld hOn hAt)
      exact (hCurrent t' hOther).trans
        (hInv.own e frame t' hOld hAt hFresh)
    · cases (hThread other).symm.trans hAt
  case left =>
    intro e frame hGet hAt hOpen
    rcases Records.getElem?_modify_eq_some.mp hGet with
      ⟨_, hOld⟩ | ⟨_, other, _, rfl⟩
    · exact hInv.left e frame hOld hAt hOpen
    · exact hLeft other hOpen

theorem resume
    (hInv : s.ThreadInv)
    {d t : Nat}
    (hIdle : s.Idle t)
    (hWaits :
      ∃ frame ∈ s.frames[d]?,
        frame.thread = none ∧ frame.scope.isOpen = true) :
    (s.update (.resume d t)).ThreadInv := by
  rcases hWaits with ⟨waiting, hWaiting, hNone, hOpen⟩
  constructor
  case alone =>
    intro e e' frame frame' t' hGet hGet' hAt hAt'
    rcases Records.getElem?_modify_eq_some.mp hGet with
      ⟨_, hOld⟩ | ⟨rfl, other, _, rfl⟩ <;>
      rcases Records.getElem?_modify_eq_some.mp hGet' with
        ⟨_, hOld'⟩ | ⟨rfl, other', _, rfl⟩
    · exact hInv.alone e e' frame frame' t' hOld hOld' hAt hAt'
    · rcases Option.some.inj hAt' with rfl
      exact absurd hAt (hIdle.thread_ne hOld)
    · rcases Option.some.inj hAt with rfl
      exact absurd hAt' (hIdle.thread_ne hOld')
    · rfl
  case own =>
    intro e frame t' hGet hAt hFresh
    rcases Records.getElem?_modify_eq_some.mp hGet with
      ⟨_, hOld⟩ | ⟨rfl, other, hOther, rfl⟩
    · exact hInv.own e frame t' hOld hAt hFresh
    · -- A handler that is resumed was suspended before.
      rcases Option.some.inj (hWaiting.symm.trans hOther) with
        rfl
      have hLeft := hInv.left d waiting hWaiting hNone hOpen
      cases hLeft.symm.trans hFresh
  case left =>
    intro e frame hGet hAt hStillOpen
    rcases Records.getElem?_modify_eq_some.mp hGet with
      ⟨_, hOld⟩ | ⟨_, other, _, rfl⟩
    · exact hInv.left e frame hOld hAt hStillOpen
    · cases hAt

end ThreadInv

theorem threadInv
    {ok : CallContexts → ContextAction → Prop}
    {s : CallContexts}
    (hReach : ReachableBy ok s) :
    s.ThreadInv := by
  apply invariant ThreadInv
    ⟨by simp [start], by simp [start], by simp [start]⟩
    _ hReach
  intro s a hInv _ hEnabled
  cases a with
  | enter t ctx => exact hInv.enter hEnabled ctx
  | currentCallContext d t =>
      exact ⟨hInv.alone, hInv.own, hInv.left⟩
  | suspend d t =>
      exact hInv.leave hEnabled (fun _ => rfl)
        (fun _ _ => rfl) (fun _ _ => rfl)
  | resume d t => exact hInv.resume hEnabled.1 hEnabled.2
  | finish d t =>
      apply hInv.leave hEnabled (fun _ => rfl)
      · intro frame hOpen
        cases hOpen
      · intro t' hOther
        exact Function.update_of_ne hOther _ _
  | notification t => exact ⟨hInv.alone, hInv.own, hInv.left⟩

/-
  Before its first suspension a handler reads its own
  context, whatever the other handlers do.
-/
theorem entered_own
    {ok : CallContexts → ContextAction → Prop}
    {s : CallContexts}
    (hReach : ReachableBy ok s)
    {d t : Nat}
    {frame : HandlerFrame}
    (hGet : s.frames[d]? = some frame)
    (hThread : frame.thread = some t)
    (hFresh : frame.hasSuspended = false) :
    s.currentCtx t = some d :=
  (threadInv hReach).own d frame t hGet hThread hFresh

------------------------------------------------------------
-- Safety
------------------------------------------------------------

/- The dispatch of request `d` has not finished. -/
def Unfinished
    (s : CallContexts)
    (d : Nat) : Prop :=
  ∃ frame ∈ s.frames[d]?, frame.scope.isOpen = true

instance
    (s : CallContexts)
    (d : Nat) : Decidable (s.Unfinished d) :=
  inferInstanceAs (Decidable (∃ frame ∈ _, _))

/- The handlers of notifications all observed null. -/
def Unobserved (s : CallContexts) : Prop :=
  ∀ ctx, (.notification, ctx) ∈ s.seen → ctx = none

/-
  Every thread's pointer is null or points to the context of
  an unfinished dispatch, and notifications observe null.
-/
structure Safe (s : CallContexts) : Prop where
  current :
    ∀ t d, s.currentCtx t = some d → s.Unfinished d
  notified : s.Unobserved

/-
  A scope is closed on the thread that opened it, the last
  opened first, and a notification is handled on a thread
  on which no scope is open.
-/
def Nests
    (s : CallContexts) : ContextAction → Prop
  | .finish d t => (Scopes.openOn s.scopes t).head? = some d
  | .notification t => Scopes.openOn s.scopes t = []
  | .enter _ _ => True
  | .currentCallContext _ _ => True
  | .suspend _ _ => True
  | .resume _ _ => True

instance
    (s : CallContexts) :
    (a : ContextAction) → Decidable (s.Nests a)
  | .finish _ _ => inferInstanceAs (Decidable (_ = _))
  | .notification _ => inferInstanceAs (Decidable (_ = _))
  | .enter _ _ => instDecidableTrue
  | .currentCallContext _ _ => instDecidableTrue
  | .suspend _ _ => instDecidableTrue
  | .resume _ _ => instDecidableTrue

/- The pointers are cells that the scopes save and restore. -/
theorem nested
    {s : CallContexts}
    (hReach : ReachableBy Nests s) :
    Scopes.Nested s.currentCtx s.scopes := by
  apply invariant
    (fun s => Scopes.Nested s.currentCtx s.scopes)
    Scopes.Nested.nil _ hReach
  intro s a hInv hOk hEnabled
  cases a with
  | enter t ctx =>
      have hEnter := hInv.enter t
      simpa [scopes, update] using hEnter
  | currentCallContext d t => exact hInv
  | suspend d t =>
      have hScopes : (s.update (.suspend d t)).scopes = s.scopes :=
        Records.map_modify_of_eq fun _ => rfl
      rw [hScopes]
      exact hInv
  | resume d t =>
      have hScopes : (s.update (.resume d t)).scopes = s.scopes :=
        Records.map_modify_of_eq fun _ => rfl
      rw [hScopes]
      exact hInv
  | finish d t =>
      have hScopes :
          (s.update (.finish d t)).scopes =
            s.scopes.modify d Scopes.Scope.close :=
        Records.map_modify fun _ => rfl
      -- The innermost scope of the thread is the handler's.
      rcases Scopes.mem_openOn.mp (List.mem_of_head? hOk) with
        ⟨scope, hGet, hOpen, rfl⟩
      have hExit := hInv.exit hGet hOpen hOk
      rw [hScopes]
      rw [scopes, List.getElem?_map, Option.map_eq_some_iff]
        at hGet
      rcases hGet with ⟨frame, hFrame, rfl⟩
      simpa [update, hFrame] using hExit
  | notification t => exact hInv

theorem unfinished_of_scope
    {s : CallContexts}
    {d : Nat}
    {scope : Scopes.Scope Nat}
    (hGet : s.scopes[d]? = some scope)
    (hOpen : scope.isOpen = true) :
    s.Unfinished d := by
  rw [scopes, List.getElem?_map, Option.map_eq_some_iff] at hGet
  rcases hGet with ⟨frame, hFrame, rfl⟩
  exact ⟨frame, hFrame, hOpen⟩

theorem unobserved
    {s : CallContexts}
    (hReach : ReachableBy Nests s) :
    s.Unobserved := by
  apply hReach.invariant (by simp [start, Unobserved])
  intro s a s' hPrior hInv hOk hStep
  rcases (step_eq_some_iff s s' a).mp hStep with ⟨_, rfl⟩
  cases a with
  | notification t =>
      intro ctx hMem
      rcases List.mem_append.mp hMem with hOld | hNew
      · exact hInv ctx hOld
      · injection List.mem_singleton.mp hNew with _ hCtx
        have hNone : Scopes.openOn s.scopes t = [] := hOk
        rw [hCtx, (nested hPrior).cell_eq, hNone]
        rfl
  | currentCallContext d t =>
      intro ctx hMem
      rcases List.mem_append.mp hMem with hOld | hNew
      · exact hInv ctx hOld
      · cases List.mem_singleton.mp hNew
  | enter t ctx => exact hInv
  | suspend d t => exact hInv
  | resume d t => exact hInv
  | finish d t => exact hInv

/-
  Call contexts are safe in a run in which every scope is
  closed where and when the nesting of scopes demands.
-/
theorem safe
    (s : CallContexts)
    (hReach : ReachableBy Nests s) :
    s.Safe := by
  constructor
  case current =>
    intro t d hCurrent
    rcases (nested hReach).live hCurrent with
      ⟨scope, hGet, hOpen, _⟩
    exact unfinished_of_scope hGet hOpen
  case notified => exact unobserved hReach

------------------------------------------------------------
-- Handlers That Do Not Nest
------------------------------------------------------------

/-
  A notification handled under an open scope of its thread
  observes the context of that scope's request.
-/
theorem leaks
    {s : CallContexts}
    (hNested : Scopes.Nested s.currentCtx s.scopes)
    {t : Nat}
    (hNot : ¬ s.Nests (.notification t)) :
    ¬ (s.update (.notification t)).Safe := by
  intro hSafe
  apply hNested.cell_ne_none hNot
  exact hSafe.notified _ List.mem_concat_self

/-
  A scope that is the innermost of its thread and is closed
  on another one leaves its thread's pointer dangling.
-/
theorem strays
    {s : CallContexts}
    (hNested : Scopes.Nested s.currentCtx s.scopes)
    {d t t' : Nat}
    (hInner : (Scopes.openOn s.scopes t').head? = some d)
    (hOther : t' ≠ t) :
    ¬ (s.update (.finish d t)).Safe := by
  intro hSafe
  have hCurrent :
      (s.update (.finish d t)).currentCtx t' = some d :=
    calc
      _ = s.currentCtx t' := Function.update_of_ne hOther _ _
      _ = some d := (hNested.cell_eq t').trans hInner
  rcases hSafe.current t' d hCurrent with ⟨frame, hGet, hOpen⟩
  rw [update, List.getElem?_modify_eq, Option.map_eq_map,
    Option.mem_map] at hGet
  rcases hGet with ⟨old, _, rfl⟩
  cases hOpen

/- Two peers. -/
def peer (name : String) : ClientContext where
  peerFingerprint := literal name
  peerAddress := []
  peerIp := []
  logicalSessionId := []
  logicalDeviceId := []
  logicalRole := -1

/- Two handlers on one thread, the second inside the first. -/
theorem safe_nested :
    ∃ s : CallContexts, Reachable s ∧
      s.frames.length = 2 ∧ s.Safe := by
  obtain ⟨s, hReach, hRun⟩ :=
    Transition.exists_of_runBy step Nests start
      [.enter 0 (peer "first"),
        .suspend 0 0,
        .enter 0 (peer "second"),
        .currentCallContext 1 0,
        .finish 1 0,
        .resume 0 0,
        .finish 0 0,
        .notification 0]
      (fun s => decide (s.frames.length = 2))
      (by decide +kernel)
  exact ⟨s, hReach.reachable, of_decide_eq_true hRun,
    safe s hReach⟩

/-
  Two handlers overlap on one thread and finish in the order
  in which they began. A notification handled between them
  observes the second handler's context, and the thread's
  pointer ends at the first's, which has finished.
-/
theorem overlap_unsafe :
    ∃ s : CallContexts, Reachable s ∧
      (.notification, some 1) ∈ s.seen ∧
        s.currentCtx 0 = some 0 ∧ ¬ s.Unfinished 0 ∧
          ¬ s.Safe := by
  obtain ⟨s, hReach, hRun⟩ :=
    Transition.exists_of_run step start
      [.enter 0 (peer "first"),
        .suspend 0 0,
        .enter 0 (peer "second"),
        .suspend 1 0,
        .notification 0,
        .resume 0 0,
        .finish 0 0,
        .resume 1 0,
        .finish 1 0]
      (fun s =>
        decide ((.notification, some 1) ∈ s.seen ∧
          s.currentCtx 0 = some 0 ∧ ¬ s.Unfinished 0))
      (by decide +kernel)
  rcases of_decide_eq_true hRun with
    ⟨hSeen, hCurrent, hFinished⟩
  refine ⟨s, hReach, hSeen, hCurrent, hFinished, ?_⟩
  intro hSafe
  exact hFinished (hSafe.current 0 0 hCurrent)

end CallContexts

end GrlxRpc
