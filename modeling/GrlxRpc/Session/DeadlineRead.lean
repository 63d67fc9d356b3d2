import GrlxRpc.Session.Deadlines

/-
  `deadline_read` step by step.

  Each call owns a timer and a cancellation signal. The
  reader starts the timer and then the read. The timer's
  handler tests whether the read is completed and then emits
  the signal, which aborts a read that is under way.

  On a strand no handler runs between the reader's two steps.
  On an executor of several threads one may, and then it is
  over before there is a read to abort.

  Main declarations:
    * `DeadlineState`, `Watched` and `Watched.step`
    * `Watched.Reapable` and `Watched.reaped`
    * `Watched.InTime` and `Watched.reapable`
    * `Watched.waits_of_not_inTime`
-/

------------------------------------------------------------
-- One Read
------------------------------------------------------------

namespace GrlxRpc

/- The timeout of the `deadline_read` the reader calls. -/
def ReaderPc.readTimeout
    (limits : SessionLimits) : ReaderPc → Option Int
  | header => some limits.idleTimeout
  | body _ _ => some limits.messageReadTimeout
  | pong => none
  | complete _ _ => none
  | completing _ _ => none
  | completed _ => none
  | rejecting _ _ _ => none
  | rejected _ _ => none
  | close _ => none
  | closing _ => none
  | exited => none

theorem ReaderPc.isSome_readTimeout
    (limits : SessionLimits)
    (reader : ReaderPc) :
    (reader.readTimeout limits).isSome = reader.isReading := by
  cases reader <;> rfl

/-
  Where the timer of a read is. `fired`: its handler runs and
  has seen the read not completed.
-/
inductive DeadlineTimer
  | unarmed
  | armed
  | fired
  | over
  deriving DecidableEq, Repr

/-
  The `deadline_state` of one call. `slot`: the read is under
  way, so that the signal reaches it.
-/
structure DeadlineState where
  timeout : Int
  timer : DeadlineTimer
  slot : Bool
  aborted : Bool
  completed : Bool
  deriving DecidableEq, Repr

namespace DeadlineState

def enter (timeout : Int) : DeadlineState where
  timeout := timeout
  timer := .unarmed
  slot := false
  aborted := false
  completed := false

/- `expires_after` and `async_wait` -/
def arm (state : DeadlineState) : DeadlineState :=
  { state with timer := .armed }

/- `async_read` -/
def initiate (state : DeadlineState) : DeadlineState :=
  { state with slot := true }

/- The handler's first line, when the timer has expired. -/
def fire (state : DeadlineState) : DeadlineState :=
  { state with
    timer := if state.completed then .over else .fired }

/- `signal.emit` -/
def emit (state : DeadlineState) : DeadlineState :=
  { state with
    timer := .over
    aborted := state.aborted || state.slot }

/-
  The read has returned: `completed` is set and the timer
  cancelled, which a handler that runs does not notice.
-/
def finish (state : DeadlineState) : DeadlineState :=
  { state with
    slot := false
    completed := true
    timer :=
      if state.timer = .armed then .over else state.timer }

end DeadlineState

------------------------------------------------------------
-- Sessions And Their Reads
------------------------------------------------------------

/-
  A session with the state of the reader's last read, and of
  those before it, whose handlers may still run.
-/
structure Watched where
  session : Session
  current : DeadlineState
  past : List DeadlineState

inductive WatchedAction (ω : Type)
  | session (a : Action ω)
  -- the reader, inside of `deadline_read`
  | arm
  | initiate
  -- the handlers of the last read's timer and of read `k`'s
  | fire
  | emit
  | firePast (k : Nat)
  | emitPast (k : Nat)

namespace Watched

variable {ω : Type}
variable {cfg : Config ω}

def start (cfg : Config ω) : Watched where
  session := .start cfg
  current := .enter cfg.limits.idleTimeout
  past := []

/- Does the step return from `deadline_read`? -/
def endsRead : Action ω → Bool
  | .readHeader _ => true
  | .readBody _ _ => true
  | .readFail => true
  | _ => false

/- Is it a step of the reader? -/
def readerMoves : Action ω → Bool
  | .readHeader _ => true
  | .readBody _ _ => true
  | .readFail => true
  | .sendPong => true
  | .findOperation _ _ => true
  | .sendResult _ _ => true
  | .resumeResult _ => true
  | .rejectRequest _ _ _ => true
  | .resumeReject _ _ => true
  | .readerClose _ => true
  | .readerClosed _ => true
  | _ => false

def Enabled (x : Watched) : WatchedAction ω → Prop
  | .session a =>
      x.session.Enabled a ∧
        (endsRead a = true → x.current.slot = true)
  | .arm =>
      x.session.reader.isReading = true ∧
        x.current.timer = .unarmed
  | .initiate =>
      x.session.reader.isReading = true ∧
        x.current.timer ≠ .unarmed ∧
        x.current.slot = false
  | .fire => x.current.timer = .armed
  | .emit => x.current.timer = .fired
  | .firePast k => ∃ state ∈ x.past[k]?, state.timer = .armed
  | .emitPast k => ∃ state ∈ x.past[k]?, state.timer = .fired

instance
    (x : Watched)
    (a : WatchedAction ω) : Decidable (x.Enabled a) := by
  unfold Enabled
  split <;> infer_instance

/- The reader has returned from a read, if it has. -/
def settled
    (x : Watched)
    (a : Action ω) : DeadlineState :=
  if endsRead a then x.current.finish else x.current

/- The reader enters `deadline_read` where a step leads there. -/
def update
    (cfg : Config ω)
    (x : Watched) : WatchedAction ω → Watched
  | .session a =>
      match
        if readerMoves a then
          (x.session.update cfg a).reader.readTimeout
            cfg.limits
        else
          none with
      | some timeout =>
          { session := x.session.update cfg a
            current := .enter timeout
            past := x.past ++ [x.settled a] }
      | none =>
          { session := x.session.update cfg a
            current := x.settled a
            past := x.past }
  | .arm => { x with current := x.current.arm }
  | .initiate => { x with current := x.current.initiate }
  | .fire => { x with current := x.current.fire }
  | .emit => { x with current := x.current.emit }
  | .firePast k =>
      { x with past := x.past.modify k DeadlineState.fire }
  | .emitPast k =>
      { x with past := x.past.modify k DeadlineState.emit }

def step
    (cfg : Config ω)
    (x : Watched)
    (a : WatchedAction ω) : Option Watched :=
  if x.Enabled a then some (x.update cfg a) else none

theorem step_eq_some_iff
    (cfg : Config ω)
    (x x' : Watched)
    (a : WatchedAction ω) :
    step cfg x a = some x' ↔
      x.Enabled a ∧ x' = x.update cfg a := by
  simp [step, eq_comm]

abbrev ReachableBy
    (cfg : Config ω)
    (ok : Watched → WatchedAction ω → Prop)
    (x : Watched) : Prop :=
  Transition.ReachableBy (step cfg) ok (start cfg) x

abbrev Reachable
    (cfg : Config ω)
    (x : Watched) : Prop :=
  Transition.Reachable (step cfg) (start cfg) x

/- The invariant rule for sessions and their reads. -/
theorem invariant
    {ok : Watched → WatchedAction ω → Prop}
    (inv : Watched → Prop)
    (hStart : inv (start cfg))
    (hUpdate :
      ∀ x a,
        ReachableBy cfg ok x →
        inv x →
        ok x a →
        x.Enabled a →
        inv (x.update cfg a))
    {x : Watched}
    (hReach : ReachableBy cfg ok x) :
    inv x :=
  hReach.invariant_of_guarded (step_eq_some_iff cfg) hStart
    hUpdate

theorem session_update
    (cfg : Config ω)
    (x : Watched)
    (a : Action ω) :
    (x.update cfg (.session a)).session =
      x.session.update cfg a := by
  simp only [update]
  split <;> rfl

/- The session of a run is one that it reaches by itself. -/
theorem session_reachable
    {ok : Watched → WatchedAction ω → Prop}
    {ok' : Session → Action ω → Prop}
    (hOk :
      ∀ x a, ok x (.session a) → ok' x.session a)
    {x : Watched}
    (hReach : ReachableBy cfg ok x) :
    Session.ReachableBy cfg ok' x.session := by
  refine invariant
    (fun x => Session.ReachableBy cfg ok' x.session) .start ?_
    hReach
  intro x a _ hInv hStep hEnabled
  cases a with
  | session a =>
      rw [session_update]
      exact hInv.next (hOk x a hStep)
        ((Session.step_eq_some_iff cfg _ _ a).mpr
          ⟨hEnabled.1, rfl⟩)
  | _ => exact hInv

------------------------------------------------------------
-- The Last Read
------------------------------------------------------------

/-
  A reader that is in a read has not completed it, has armed
  its timer before it started it, and only what has started
  has been aborted.
-/
structure LastRead
    (limits : SessionLimits)
    (reader : ReaderPc)
    (state : DeadlineState) : Prop where
  timeout :
    ∀ timeout, reader.readTimeout limits = some timeout →
      state.timeout = timeout
  completed :
    reader.isReading = true → state.completed = false
  armed :
    reader.isReading = true → state.slot = true →
      state.timer ≠ .unarmed
  started :
    reader.isReading = true → state.aborted = true →
      state.slot = true

theorem lastRead_enter
    (limits : SessionLimits)
    {reader : ReaderPc}
    {timeout : Int}
    (hTimeout : reader.readTimeout limits = some timeout) :
    LastRead limits reader (.enter timeout) where
  timeout := fun other hOther =>
    Option.some.inj (hTimeout.symm.trans hOther)
  completed := fun _ => rfl
  armed := fun _ hSlot => by cases hSlot
  started := fun _ hAborted => by cases hAborted

/- A reader that is in no read. -/
theorem lastRead_away
    {limits : SessionLimits}
    {reader : ReaderPc}
    (hNone : reader.readTimeout limits = none)
    (state : DeadlineState) :
    LastRead limits reader state := by
  have hAway : reader.isReading = false := by
    rw [← reader.isSome_readTimeout limits, hNone]
    rfl
  constructor <;> simp [hNone, hAway]

/- Other steps leave the reader and what it has read. -/
theorem reader_update_of_not_moves
    (cfg : Config ω)
    (s : Session)
    {a : Action ω}
    (hNot : readerMoves a = false) :
    (s.update cfg a).reader = s.reader ∧
      s.unread.length ≤ (s.update cfg a).unread.length ∧
      endsRead a = false := by
  cases a with
  | readHeader | readBody | readFail | sendPong
  | findOperation | sendResult | resumeResult
  | rejectRequest | resumeReject | readerClose
  | readerClosed => cases hNot
  | deliver bytes =>
      refine ⟨rfl, ?_, rfl⟩
      simp only [Session.unread, Session.update,
        List.length_drop, List.length_append]
      omega
  | _ => exact ⟨rfl, le_rfl, rfl⟩

/-
  A step of the session: the reader enters a read, is in
  none, or is where it was.
-/
theorem update_session_cases
    (cfg : Config ω)
    (x : Watched)
    (a : Action ω) :
    (∃ timeout,
        (x.session.update cfg a).reader.readTimeout
            cfg.limits = some timeout ∧
          (x.update cfg (.session a)).current =
            .enter timeout) ∨
      (x.session.update cfg a).reader.readTimeout
          cfg.limits = none ∨
      ((x.session.update cfg a).reader = x.session.reader ∧
        x.session.unread.length ≤
          (x.session.update cfg a).unread.length ∧
        (x.update cfg (.session a)).current = x.current) := by
  cases hMoves : readerMoves a with
  | true =>
      cases hTimeout :
          (x.session.update cfg a).reader.readTimeout
            cfg.limits with
      | some timeout =>
          exact .inl ⟨timeout, rfl, by
            simp [update, hMoves, hTimeout]⟩
      | none => exact .inr (.inl rfl)
  | false =>
      rcases reader_update_of_not_moves cfg x.session hMoves
        with ⟨hReader, hUnread, hEnds⟩
      exact .inr (.inr ⟨hReader, hUnread, by
        simp [update, hMoves, settled, hEnds]⟩)

theorem lastRead
    {ok : Watched → WatchedAction ω → Prop}
    {x : Watched}
    (hReach : ReachableBy cfg ok x) :
    LastRead cfg.limits x.session.reader x.current := by
  refine invariant
    (fun x => LastRead cfg.limits x.session.reader x.current)
    (lastRead_enter cfg.limits rfl) ?_ hReach
  intro x a _ hInv _ hEnabled
  cases a with
  | session a =>
      rw [session_update]
      rcases x.update_session_cases cfg a with
        ⟨timeout, hTimeout, hCurrent⟩ | hNone |
          ⟨hReader, -, hCurrent⟩
      · rw [hCurrent]
        exact lastRead_enter cfg.limits hTimeout
      · exact lastRead_away hNone _
      · rw [hReader, hCurrent]
        exact hInv
  | arm =>
      exact
        { hInv with armed := fun _ _ => by simp [update,
            DeadlineState.arm] }
  | initiate =>
      exact
        { hInv with
          armed := fun _ _ => hEnabled.2.1
          started := fun _ _ => rfl }
  | fire =>
      refine { hInv with armed := fun hReading _ => ?_ }
      simp only [update, DeadlineState.fire]
      split <;> simp
  | emit =>
      refine
        { hInv with
          armed := fun _ _ => by simp [update,
            DeadlineState.emit]
          started := fun hReading hAborted => ?_ }
      rcases (Bool.or_eq_true _ _).mp hAborted with hOld | hSlot
      · exact hInv.started hReading hOld
      · exact hSlot
  | firePast k => exact hInv
  | emitPast k => exact hInv

------------------------------------------------------------
-- Reaping
------------------------------------------------------------

/- The reader waits, inside of a read or elsewhere. -/
def Suspended (x : Watched) : Prop :=
  x.session.ReaderSuspended ∧
    (x.session.reader.isReading = true →
      x.current.slot = true)

instance (x : Watched) : Decidable x.Suspended :=
  inferInstanceAs (Decidable (_ ∧ (_ → _)))

/-
  The reader is in a read whose timer is armed, or has just
  expired: its handler is about to abort the read, or has.
-/
structure UnderDeadline
    (cfg : Config ω)
    (x : Watched) : Prop where
  reading :
    x.session.reader.readTimeout cfg.limits =
      some x.current.timeout
  slot : x.current.slot = true
  timer :
    x.current.timer = .armed ∨ x.current.timer = .fired ∨
      x.current.aborted = true

/- The reader is suspended under a deadline only. -/
def Reapable
    (cfg : Config ω)
    (x : Watched) : Prop :=
  x.Suspended → x.UnderDeadline cfg

/- Steps from the expiry of the timer to the teardown. -/
def reaps : WatchedAction ω → Bool
  | .fire => true
  | .emit => true
  | .session .readFail => true
  | .session (.readerClose _) => true
  | _ => false

abbrev Reaps
    (cfg : Config ω)
    (x x' : Watched) : Prop :=
  Transition.ReachableBy (step cfg)
    (fun _ a => reaps a = true) x x'

theorem reaps_update
    {x x' : Watched}
    {a : WatchedAction ω}
    (hPrior : Reaps cfg x x')
    (hReaps : reaps a = true)
    (hEnabled : x'.Enabled a) :
    Reaps cfg x (x'.update cfg a) :=
  hPrior.next hReaps
    ((step_eq_some_iff cfg x' _ a).mpr ⟨hEnabled, rfl⟩)

/- When the timer expires its handler aborts the read. -/
theorem expires
    {ok : Watched → WatchedAction ω → Prop}
    {x : Watched}
    (hReach : ReachableBy cfg ok x)
    (hDeadline : x.UnderDeadline cfg) :
    ∃ x', Reaps cfg x x' ∧ x'.session = x.session ∧
      x'.current.slot = true ∧ x'.current.aborted = true := by
  have hReading : x.session.reader.isReading = true := by
    rw [← x.session.reader.isSome_readTimeout cfg.limits,
      hDeadline.reading]
    rfl
  have hCompleted := (lastRead hReach).completed hReading
  have hSlot := hDeadline.slot
  rcases hDeadline.timer with hArmed | hFired | hAborted
  · -- The handler starts and finds the read not completed.
    have hFires : Reaps cfg x (x.update cfg .fire) :=
      reaps_update .start rfl hArmed
    have hEmits :
        (x.update cfg .fire).Enabled
          (.emit : WatchedAction ω) := by
      simp [Enabled, update, DeadlineState.fire, hCompleted]
    refine ⟨_, reaps_update hFires rfl hEmits, rfl, hSlot, ?_⟩
    simp [update, DeadlineState.fire, DeadlineState.emit,
      hSlot]
  · refine ⟨_, reaps_update .start (a := .emit) rfl hFired,
      rfl, hSlot, ?_⟩
    simp [update, DeadlineState.emit, hSlot]
  · exact ⟨x, .start, rfl, hSlot, hAborted⟩

/-
  The aborted read fails, and the reader calls `close()`: an
  open session is torn down.
-/
theorem reaped
    {ok : Watched → WatchedAction ω → Prop}
    {x : Watched}
    (hReach : ReachableBy cfg ok x)
    (hDeadline : x.UnderDeadline cfg) :
    ∃ x', Reaps cfg x x' ∧
      x'.session.teardown = x.session.teardown.begin := by
  rcases expires hReach hDeadline with
    ⟨y, hExpires, hSession, hSlot, -⟩
  have hReading : y.session.reader.isReading = true := by
    rw [hSession,
      ← x.session.reader.isSome_readTimeout cfg.limits,
      hDeadline.reading]
    rfl
  have hFails := reaps_update hExpires
    (a := .session .readFail) rfl ⟨hReading, fun _ => hSlot⟩
  have hAt :
      (y.update cfg (.session .readFail)).session.reader =
        .close false := by
    rw [session_update]
    rfl
  refine ⟨_, reaps_update hFails
    (a := .session (.readerClose false)) rfl
    ⟨hAt, Bool.noConfusion⟩, ?_⟩
  rw [session_update, session_update, ← hSession]
  rfl

/-
  A rejection of an open session finds room, and when its
  `async_read` starts with bytes missing the handler of its
  timer is not over.
-/
def InTime (x : Watched) : WatchedAction ω → Prop
  | .session a => x.session.RejectsAtOnce a
  | .initiate =>
      x.session.teardown = .idle →
        x.session.ReaderSuspended → x.current.timer ≠ .over
  | _ => True

instance
    (x : Watched)
    (a : WatchedAction ω) : Decidable (x.InTime a) := by
  unfold InTime
  split <;> infer_instance

/- A reader that need not wait for bytes does not begin to. -/
theorem suspended_of_unread_le
    {s s' : Session}
    (hReading : s.reader.isReading = true)
    (hReader : s'.reader = s.reader)
    (hUnread : s.unread.length ≤ s'.unread.length)
    (hSuspended : s'.ReaderSuspended) :
    s.ReaderSuspended := by
  unfold Session.ReaderSuspended at hSuspended ⊢
  rw [hReader] at hSuspended
  cases hAt : s.reader with
  | header =>
      rw [hAt] at hSuspended
      exact Nat.lt_of_le_of_lt hUnread hSuspended
  | body header use =>
      rw [hAt] at hSuspended
      exact Nat.lt_of_le_of_lt hUnread hSuspended
  | _ => simp [hAt, ReaderPc.isReading] at hReading

/-
  In such a run a read under way is aborted when its handler
  is over, or all its bytes are there.
-/
theorem aborted_of_over
    {x : Watched}
    (hReach : ReachableBy cfg InTime x)
    (hOpen : x.session.teardown = .idle)
    (hReading : x.session.reader.isReading = true)
    (hSlot : x.current.slot = true)
    (hOver : x.current.timer = .over) :
    x.current.aborted = true ∨
      ¬ x.session.ReaderSuspended := by
  revert hOpen hReading hSlot hOver
  refine invariant
    (fun x => x.session.teardown = .idle →
      x.session.reader.isReading = true →
        x.current.slot = true → x.current.timer = .over →
          x.current.aborted = true ∨
            ¬ x.session.ReaderSuspended)
    (fun _ _ hSlot => by cases hSlot) ?_ hReach
  intro x a hPrior hInv hOk hEnabled hOpen hReading hSlot hOver
  cases a with
  | session a =>
      rw [session_update] at hOpen hReading ⊢
      rcases x.update_session_cases cfg a with
        ⟨timeout, -, hCurrent⟩ | hNone |
          ⟨hReader, hUnread, hCurrent⟩
      · rw [hCurrent] at hSlot
        cases hSlot
      · rw [← ReaderPc.isSome_readTimeout cfg.limits,
          hNone] at hReading
        cases hReading
      · rw [hCurrent] at hSlot hOver ⊢
        rw [hReader] at hReading
        refine (hInv (Session.teardown_eq_idle hOpen) hReading
          hSlot hOver).imp id fun hEnough hSuspended => ?_
        exact hEnough (suspended_of_unread_le hReading hReader
          hUnread hSuspended)
  | arm => cases hOver
  | initiate =>
      exact .inr fun hSuspended => hOk hOpen hSuspended hOver
  | fire =>
      have hCompleted := (lastRead hPrior).completed hReading
      simp [update, DeadlineState.fire, hCompleted] at hOver
  | emit =>
      left
      have hStarted : x.current.slot = true := hSlot
      simp [update, DeadlineState.emit, hStarted]
  | firePast k => exact hInv hOpen hReading hSlot hOver
  | emitPast k => exact hInv hOpen hReading hSlot hOver

/-
  An open session's reader is suspended under a deadline
  only, in a run in which every rejection finds room and
  every read starts in time.
-/
theorem reapable
    (cfg : Config ω)
    (x : Watched)
    (hReach : ReachableBy cfg InTime x)
    (hOpen : x.session.teardown = .idle) :
    x.Reapable cfg := by
  rintro ⟨hSuspended, hSlot⟩
  have hReading := Session.isReading_of_suspended
    (session_reachable (fun _ _ h => h) hReach) hOpen
    hSuspended
  have hLast := lastRead hReach
  constructor
  case reading =>
    have hSome := x.session.reader.isSome_readTimeout cfg.limits
    rw [hReading, Option.isSome_iff_exists] at hSome
    rcases hSome with ⟨timeout, hTimeout⟩
    rw [hTimeout, hLast.timeout timeout hTimeout]
  case slot => exact hSlot hReading
  case timer =>
    cases hTimer : x.current.timer with
    | unarmed =>
        exact absurd hTimer (hLast.armed hReading
          (hSlot hReading))
    | armed => exact .inl rfl
    | fired => exact .inr (.inl rfl)
    | _ =>
        -- Its handler is over, so it has aborted the read.
        right; right
        exact (aborted_of_over hReach hOpen hReading
          (hSlot hReading) hTimer).resolve_right
            fun hNot => hNot hSuspended

/- A step that breaks the condition leaves the reader so. -/
theorem waits_of_not_inTime
    (cfg : Config ω)
    {ok : Watched → WatchedAction ω → Prop}
    {x : Watched}
    (hReach : ReachableBy cfg ok x)
    {a : WatchedAction ω}
    (hEnabled : x.Enabled a)
    (hNot : ¬ x.InTime a) :
    (x.update cfg a).session.teardown = .idle ∧
      ¬ (x.update cfg a).Reapable cfg := by
  cases a with
  | session a =>
      have hSession : Session.Reachable cfg x.session :=
        session_reachable (fun _ _ _ => trivial) hReach
      rcases Session.parks hSession hEnabled.1 hNot with
        ⟨hIdle, hSuspended, hAway⟩
      rw [← session_update] at hIdle hSuspended hAway
      refine ⟨hIdle, fun hReapable => ?_⟩
      have hDeadline := hReapable ⟨hSuspended, fun hReading => by
        rw [hAway] at hReading
        cases hReading⟩
      rw [← ReaderPc.isSome_readTimeout cfg.limits,
        hDeadline.reading] at hAway
      cases hAway
  | initiate =>
      simp only [InTime, Classical.not_imp, not_not] at hNot
      rcases hNot with ⟨hIdle, hSuspended, hOver⟩
      refine ⟨hIdle, fun hReapable => ?_⟩
      have hTimer :=
        (hReapable ⟨hSuspended, fun _ => rfl⟩).timer
      simp only [update, DeadlineState.initiate, hOver]
        at hTimer
      rcases hTimer with hNow | hNow | hAborted
      · cases hNow
      · cases hNow
      · have hSlot := (lastRead hReach).started hEnabled.1
          hAborted
        rw [hEnabled.2.2] at hSlot
        cases hSlot
  | _ => exact absurd trivial hNot

/- A reader that waits for the first header. -/
theorem reapable_waiting :
    ∃ x : Watched, Reachable ({} : Config Unit) x ∧
      x.Suspended ∧ x.Reapable ({} : Config Unit) := by
  obtain ⟨x, hReach, hRun⟩ :=
    Transition.exists_of_runBy (step ({} : Config Unit))
      InTime (start ({} : Config Unit)) [.arm, .initiate]
      (fun x => decide (x.Suspended ∧
        x.session.teardown = .idle))
      (by decide +kernel)
  rcases of_decide_eq_true hRun with ⟨hSuspended, hOpen⟩
  exact ⟨x, hReach.reachable, hSuspended,
    reapable {} x hReach hOpen⟩

------------------------------------------------------------
-- A Peer That Does Not Read
------------------------------------------------------------

/- A request header that announces a byte too many. -/
def oversizedHeader : Header where
  magic := magicHeaderNumber
  msgSize := ((8 : UInt64) <<< 20) + 1
  msgType := MsgType.field .request
  callId := 3
  userToken := 7

/-
  The peer reads nothing: one frame is being written and the
  queue is full. Then it sends an oversized request. And a
  timer's handler may be through before the read starts.
-/
theorem unreapable :
    (∃ x : Watched, Reachable ({} : Config Unit) x ∧
      x.session.teardown = .idle ∧
        x.session.reader = .rejected 0 true ∧
          ¬ x.Reapable ({} : Config Unit)) ∧
    ∃ x : Watched, Reachable ({} : Config Unit) x ∧
      x.session.teardown = .idle ∧
        x.session.reader = .header ∧
          ¬ x.Reapable ({} : Config Unit) := by
  constructor
  · obtain ⟨x, hReach, hRun⟩ :=
      Transition.exists_of_run (step ({} : Config Unit))
        (start ({} : Config Unit))
        ([.session (.notify (literal "event") Buffer.empty),
            .session .writerReceive,
            .session .writerTake] ++
          List.replicate 256
            (.session (.notify (literal "event")
              Buffer.empty)) ++
          [.arm,
            .initiate,
            .session (.deliver
              (oversizedHeader.toBytes .little)),
            .session (.readHeader 1)])
        (fun x =>
          decide
            (x.Enabled (.session
                (.rejectRequest 0 oversizedHeader true :
                  Action Unit)) ∧
              (x.update ({} : Config Unit) (.session
                (.rejectRequest 0 oversizedHeader
                  true))).session.reader =
                .rejected 0 true ∧
              ¬ x.InTime (.session
                (.rejectRequest 0 oversizedHeader true :
                  Action Unit))))
        (by decide +kernel)
    rcases of_decide_eq_true hRun with
      ⟨hEnabled, hReader, hNot⟩
    rcases waits_of_not_inTime _ hReach hEnabled hNot with
      ⟨hIdle, hWaits⟩
    exact ⟨_, hReach.next trivial
      ((step_eq_some_iff _ x _ _).mpr ⟨hEnabled, rfl⟩),
      hIdle, hReader, hWaits⟩
  · obtain ⟨x, hReach, hRun⟩ :=
      Transition.exists_of_run (step ({} : Config Unit))
        (start ({} : Config Unit)) [.arm, .fire, .emit]
        (fun x =>
          decide
            (x.Enabled (.initiate : WatchedAction Unit) ∧
              x.session.reader = .header ∧
              ¬ x.InTime (.initiate : WatchedAction Unit)))
        (by decide +kernel)
    rcases of_decide_eq_true hRun with
      ⟨hEnabled, hReader, hNot⟩
    rcases waits_of_not_inTime {} hReach hEnabled hNot with
      ⟨hIdle, hWaits⟩
    exact ⟨_, hReach.next trivial
      ((step_eq_some_iff _ x _ _).mpr ⟨hEnabled, rfl⟩),
      hIdle, hReader, hWaits⟩

end Watched

end GrlxRpc
